import SharedStream.Proofs.Failures.GivingUp
import SharedStream.Proofs.Plans

/-! # Failed opens leave no trace

A call that fails to open its key leaves the session as it would be if the call had never been asked
for, whatever was done in the meantime: the history goes on without the call, and comes to the same.
-/
namespace SharedStream

namespace Session

/-- In the event a call looks at the key that the call `id` has `opening`, and has to wait. -/
def heldUp (s : Session) (id : CallId) : Event → Bool
  | .move (.call i) => !s.registry.shutDown && ((s.task? id).bind Task.works?).any fun k =>
      (s.task? i).bind Task.role? = some (.seeks k)
  | .move _ | .begin .. => false

end Session

/-- The session as it would be without the call: all events of the run are as before, but those of
the call itself and those in which others look at the key that it has `opening`. -/
def Run.without {start : Session} (r : Run start) (id : CallId) : Nat → Session
  | 0 => start
  | n + 1 =>
    if (r.event n).caller = some id ∨ (r.state n).heldUp id (r.event n) = true then r.without id n
    else (r.without id n).after (r.event n)

namespace Session
open Keys

variable {s : Session} {id i : CallId} {k : Key} {a b : Task} {e : Event}

/-- Whoever looks at a key that is `opening` falls asleep. -/
theorem after_of_heldUp (ht : s.task? id = some a)
    (opening : ∀ k, a.works? = some k → s.registry.slots.get? k = some .opening)
    (heldUp : s.heldUp id e = true) : ∃ i, e = .move (.call i) ∧ s.after e = s.sleep i := by
  cases e with
  | begin => cases heldUp
  | move x =>
    cases x with
    | call i =>
      cases works : a.works? with
      | none => simp [Session.heldUp, ht, works] at heldUp
      | some k =>
        simp only [Session.heldUp, ht, Option.bind_some, works, Option.any_some, Bool.and_eq_true,
          Bool.not_eq_true', decide_eq_true_eq] at heldUp
        obtain ⟨going, seeks⟩ := heldUp
        obtain ⟨b, hb, role⟩ := Option.bind_eq_some_iff.1 seeks
        refine ⟨i, rfl, ?_⟩
        rw [after, move_of_task hb]
        cases b <;> cases role
        · simp [moveTask, moveSeekReader, going, opening k works]
        · simp [moveTask, moveSeekWriter, going, opening k works]
    | _ => cases heldUp

/-- Nobody else looks at the key. -/
theorem away_of_not_heldUp (ht : s.task? id = some a) (other : s.heldUp id e ≠ true) :
    ∀ i b k, e = .move (.call i) → s.task? i = some b → b.role? = some (.seeks k) →
      s.registry.shutDown = false → a.works? ≠ some k := by
  rintro i b k rfl hb role going works
  refine other ?_
  simp [heldUp, ht, hb, going, works, role]

end Session

namespace Run
open Session Keys

variable {config : CacheConfig} {workers : Nat} (r : Run (start config workers))
variable {id i : CallId} {k : Key} {a b : Task} {op : Op} {m n : Nat}

/-- Other calls use nothing that a call has brought along which may still fail. -/
theorem shuns (ht : (r.state n).task? id = some a) (tries : a.tries? = some k) (other : i ≠ id)
    (hb : (r.state n).task? i = some b) : b.Shuns id a.works? := by
  have hs := r.sound n
  have fits := hs.fits hb
  cases b with
  | register key =>
    intro works
    exact other (hs.keys.agree.unique (Valid.stake_of_opens (.inr (role_of_task hb)))
      (opening_of_works ht works))
  | fill key l =>
    obtain ⟨store, source⟩ := fits
    exact ⟨source ▸ other, by rw [store]; simpa using other⟩
  | awaitCache key c =>
    rintro rfl
    have retires := role_of_task hb
    obtain ⟨x, cached⟩ := hs.keys.cache_of_retires retires
    obtain ⟨l, rfl⟩ := fill_of_cached hs ht tries cached
    have opening := hs.keys.agree.slot_eq (opening_of_works ht rfl)
    cases (hs.keys.slot_of_retires retires).symm.trans opening
  | read rd =>
    obtain ⟨h, hx⟩ := (r.attentive n).reads hb
    obtain ⟨-, -, cache⟩ := fits
    have same := cache h.cache (reader_of_handle hx)
    exact fun own => cache_ne_of_tries hs ht tries hx (same.trans own)
  | readStore y q =>
    obtain ⟨c, rfl⟩ := r.separate_of_waits hb (.inr ⟨q, rfl⟩)
    simp [Task.Shuns]
  | awaitStore y =>
    obtain ⟨c, rfl⟩ := r.separate_of_waits hb (.inl rfl)
    simp [Task.Shuns]
  | closeSink w p =>
    rintro rfl
    obtain ⟨x, role⟩ := role_of_tries ht tries
    have present := (r.reach n).holds.closeSink hb
    simp [Table.contains, writer_eq_none_iff.1 (hs.keys.no_handle role).2] at present
  | expire x res =>
    cases x with
    | reader => trivial
    | writer w key =>
      rintro rfl
      obtain ⟨x, role⟩ := role_of_tries ht tries
      obtain ⟨⟨-, ended, -⟩, -⟩ := fits
      cases role.symm.trans ended
  | makeLoad j => exact (foreign_of_tries ht tries fits).1
  | load l => exact foreign_of_tries ht tries fits
  | _ => trivial

/-- Nobody else knows of what a call has brought along that may still fail. -/
theorem clear (ht : (r.state n).task? id = some a) (tries : a.tries? = some k) :
    (r.state n).Clear id a.works? := by
  have hs := r.sound n
  obtain ⟨x, role⟩ := role_of_tries ht tries
  constructor
  case opening => exact fun k' works => hs.keys.agree.slot_eq (opening_of_works ht works)
  case slot => exact slot_ne_of_tries hs ht tries
  case reader => exact cache_ne_of_tries hs ht tries
  case writer => exact writer_eq_none_iff.1 (hs.keys.no_handle role).2
  case handle =>
    intro b hb
    cases ht.symm.trans hb
    cases a <;> first | rfl | cases tries
  case worker => exact loading_of_tries hs ht tries
  case task => exact r.shuns ht tries

/-! ## The history without the call -/

theorem without_succ_of_skipped
    (skipped : (r.event n).caller = some id ∨ (r.state n).heldUp id (r.event n) = true) :
    r.without id (n + 1) = r.without id n := if_pos skipped

theorem without_succ
    (kept : ¬ ((r.event n).caller = some id ∨ (r.state n).heldUp id (r.event n) = true)) :
    r.without id (n + 1) = (r.without id n).after (r.event n) := if_neg kept

/-- Before the call begins there is no difference. -/
theorem without_eq (begun : r.event m = .begin id op) (le : n ≤ m) :
    r.without id n = r.state n := by
  induction n with
  | zero => exact r.state_zero.symm
  | succ n ih =>
    have later : (r.state (n + 1)).clock ≤ id := by
      have admitted := r.admitted m
      rw [begun] at admitted
      refine Nat.le_trans ?_ admitted
      exact r.kept_keys (P := fun v => (r.state (n + 1)).keys.clock ≤ v.clock) (Nat.le_refl _) le
        fun _ hs h => Nat.le_trans h hs.clock_le
    have absent : (r.state n).task? id = none := by
      refine Option.eq_none_iff_forall_ne_some.2 fun a ha => ?_
      have older := Nat.lt_of_lt_of_le ((r.attentive n).begun ha) (r.step n).clock_le
      exact absurd older (Nat.not_lt_of_le later)
    have admitted := r.admitted n
    have kept : ¬ ((r.event n).caller = some id ∨ (r.state n).heldUp id (r.event n) = true) := by
      cases he : r.event n with
      | begin i op' =>
        rintro (own | ⟨⟨⟩⟩)
        cases own
        exact absurd (r.older_of_begin he (Nat.lt_succ_self n)) (Nat.not_lt_of_le later)
      | move x =>
        rw [he] at admitted
        cases x with
        | call i =>
          rintro (own | heldUp)
          · cases own
            obtain ⟨a, ha⟩ := task_of_canMove admitted
            cases absent.symm.trans ha
          · simp [Session.heldUp, absent] at heldUp
        | _ =>
          rintro (⟨⟨⟩⟩ | ⟨⟨⟩⟩)
    rw [r.without_succ kept, r.state_succ, ih (Nat.le_of_succ_le le)]

/-- It brings along what nobody knows of, -/
theorem without_of_begin (begun : r.event m = .begin id op) (opens : op.opens? = some k)
    (ht : (r.state (m + 1)).task? id = some a) :
    (r.state (m + 1)).Without id a.works? (r.without id (m + 1)) := by
  have admitted := r.admitted m
  have skipped : (r.event m).caller = some id ∨ (r.state m).heldUp id (r.event m) = true :=
    .inl (by rw [begun]; rfl)
  rw [begun] at admitted
  rw [r.without_succ_of_skipped skipped, r.without_eq begun (Nat.le_refl m)]
  rw [r.state_succ, begun] at ht ⊢
  exact without_begin (r.sound m) (r.attentive m) admitted opens ht

/-- and each event leaves it so, as long as the call may still fail. -/
theorem without_step (hb : (r.state n).task? id = some b) (before : b.tries? = some k)
    (ht : (r.state (n + 1)).task? id = some a) (tries : a.tries? = some k)
    (reach : Reach (start config workers) (r.without id n))
    (h : (r.state n).Without id b.works? (r.without id n)) :
    Reach (start config workers) (r.without id (n + 1)) ∧
      (r.state (n + 1)).Without id a.works? (r.without id (n + 1)) := by
  have hs := r.sound n
  have ha := r.attentive n
  have admitted := r.admitted n
  have clear := r.clear hb before
  by_cases own : (r.event n).caller = some id
  · rw [r.without_succ_of_skipped (.inl own)]
    refine ⟨reach, ?_⟩
    rw [r.state_succ, ha.after_of_caller admitted own hb] at ht ⊢
    exact h.own clear hs hb before ht tries
  have kept : a = b := by
    rw [(r.passes n).task own, hb] at ht
    exact (Option.some.inj ht).symm
  subst kept
  by_cases heldUp : (r.state n).heldUp id (r.event n) = true
  · rw [r.without_succ_of_skipped (.inr heldUp), r.state_succ]
    refine ⟨reach, ?_⟩
    obtain ⟨i, -, sleeps⟩ := after_of_heldUp hb clear.opening heldUp
    rw [sleeps]
    exact h.sleep_left
  have going : r.event n ≠ .move .registry := by
    intro ends
    rw [ends] at admitted
    obtain ⟨x, role⟩ := role_of_tries hb tries
    cases role.symm.trans (hs.role_eq_none_of_ends admitted id)
  rw [r.without_succ (not_or.2 ⟨own, heldUp⟩), r.state_succ]
  exact ⟨reach.after (h.admits clear own going admitted),
    h.after hs clear own going (away_of_not_heldUp hb heldUp)⟩

/-- As long as a call may fail to open its key, the history goes on without it. -/
theorem without_of_tries (begun : r.event m = .begin id op) (opens : op.opens? = some k)
    (lt : m < n) (ht : (r.state n).task? id = some a) (tries : a.tries? = some k) :
    Reach (start config workers) (r.without id n) ∧
      (r.state n).Without id a.works? (r.without id n) := by
  induction lt generalizing a with
  | refl =>
    have skipped : (r.event m).caller = some id ∨ (r.state m).heldUp id (r.event m) = true :=
      .inl (by rw [begun]; rfl)
    refine ⟨?_, r.without_of_begin begun opens ht⟩
    rw [r.without_succ_of_skipped skipped, r.without_eq begun (Nat.le_refl m)]
    exact r.reach m
  | @step n lt ih =>
    obtain ⟨b, hb, same⟩ := r.task_before begun lt ht
    have before : b.tries? = some k := by
      rcases same with rfl | leads
      · exact tries
      · exact leads.tries tries
    obtain ⟨reach, without⟩ := ih hb before
    exact r.without_step hb before ht tries reach without

/-! ## How the call gives up -/

/-- The call `id`, begun with `op` at the moment `m`, fails in the event `n` to open the key. -/
structure FailsToOpen (r : Run (start config workers)) (m n : Nat) (id : CallId) (op : Op) (k : Key)
    (res : Result) : Prop where
  begun : r.event m = .begin id op
  opens : op.opens? = some k
  lt : m < n
  pending : (r.state n).calls.contains id = true
  /-- It is not a load in the hands of a stand-in that has failed. -/
  alone : ∀ i, (r.state n).task? id ≠ some (.standIn k i)
  ended : (r.state (n + 1)).calls.contains id = false
  result : (r.state (n + 1)).results.get? id = some res
  failure : res.FailsToOpen

/-- A call that opens a key is about this key all the time. -/
theorem key_of_opens (begun : r.event m = .begin id op) (opens : op.opens? = some k) (lt : m < n)
    (ht : (r.state n).task? id = some a) :
    (∃ mode plan, op = .openReader k mode plan) ∧ a.reads? = some k ∨
      (∃ plan, op = .openWriter k plan) ∧ a.writes? = some k := by
  obtain ⟨b, first, leads⟩ := r.task_of_begin begun lt ht
  cases op with
  | openReader key mode plan =>
    cases opens
    cases first
    exact .inl ⟨⟨mode, plan, rfl⟩, Task.eq_of_leads Task.Leads.reads? leads⟩
  | openWriter key plan =>
    cases opens
    cases first
    exact .inr ⟨⟨plan, rfl⟩, Task.eq_of_leads Task.Leads.writes? leads⟩
  | _ => cases opens

variable {res : Result}

theorem FailsToOpen.givesUp (h : r.FailsToOpen m n id op k res) :
    ∃ a, (r.state n).task? id = some a ∧ r.event n = .move (.call id) ∧
      (r.state n).GivesUp id k a res (r.state (n + 1)) := by
  obtain ⟨c, hc⟩ := Option.isSome_iff_exists.1 h.pending
  have ht : (r.state n).task? id = some c.task := by rw [task?, hc]; rfl
  have ended : (r.state (n + 1)).task? id = none := by
    simpa [task?, Table.contains] using h.ended
  have own : (r.event n).caller = some id := by
    by_contra other
    rw [(r.passes n).task other, ht] at ended
    cases ended
  have after := (r.attentive n).after_of_caller (r.admitted n) own ht
  have result := h.result
  refine ⟨c.task, ht, (r.attentive n).caller_eq (r.admitted n) own ht, ?_⟩
  rw [r.state_succ, after] at ended result ⊢
  have key := (r.key_of_opens h.begun h.opens h.lt ht).imp And.right And.right
  exact Session.givesUp ht key (fun i same => h.alone i (same ▸ ht)) ended result h.failure

/-! ## What the call has brought along -/

/-- The factory of a call is that of its plan. -/
theorem factory_of_begin {mode : Option LoadMode} {plan : SourcePlan}
    (begun : r.event m = .begin id (.openReader k mode plan)) (lt : m < n)
    (ht : (r.state n).task? id = some a) : ((r.state n).source id).factory = plan.factory := by
  obtain ⟨b, hb⟩ := r.exists_task_of_begin begun lt ht
  rw [r.factory_eq (r.older_of_begin begun (Nat.lt_succ_self m)) lt]
  rw [r.state_succ, begun] at hb ⊢
  rw [after, begin_openReader hb]
  simp [source, call, SourcePlan.source]

/-- Nobody has used the sink of a call that seeks its key. -/
theorem sink_of_seeks {plan : SinkPlan} (begun : r.event m = .begin id (.openWriter k plan))
    (lt : m < n) (ht : (r.state n).task? id = some (.seekWriter k)) :
    (r.state n).sinks.get? id = some plan.sink := by
  induction lt with
  | refl =>
    rw [r.state_succ, begun] at ht ⊢
    rw [after, begin_openWriter ht]
    exact Table.get?_set_self ..
  | @step n lt ih =>
    have hs := r.sound n
    have ha := r.attentive n
    have admitted := r.admitted n
    have before : (r.state n).task? id = some (.seekWriter k) := by
      obtain ⟨b, hb, rfl | leads⟩ := r.task_before begun lt ht
      · exact hb
      · cases leads
    rw [r.state_succ] at ht ⊢
    by_cases own : (r.event n).caller = some id
    · rw [ha.after_of_caller admitted own before] at ht ⊢
      rw [moveTask, moveSeekWriter_eq_sleep before ht]
      exact ih before
    · obtain ⟨reader, writer⟩ := hs.keys.no_handle (role_of_task before)
      have unused := not_uses (reader_eq_none_iff.1 reader) (writer_eq_none_iff.1 writer) ha
        (r.reach n).holds own
      rw [(spares_after hs admitted).sink unused]
      exact ih before

/-! ## Who comes next -/

/-- As long as a key is free, nobody who has been woken for it falls asleep over it. -/
theorem not_sleeps (woken : ∀ i b, (r.state n).Sleeps i b → b.seeks = false) (le : n ≤ N)
    (free : ∀ j, n ≤ j → j ≤ N → (r.state j).registry.slots.get? k = none)
    (role : b.role? = some (.seeks k)) : ¬ (r.state N).Sleeps i b := by
  induction le with
  | refl =>
    intro asleep
    cases (woken i b asleep).symm.trans (seeks_of_role role)
  | @step N le ih =>
    intro asleep
    by_cases own : (r.event N).caller = some i
    · have waits := (r.passes N).waits own asleep
      have free := free (N + 1) (Nat.le_succ_of_le le) (Nat.le_refl _)
      cases b <;> cases role
      all_goals
        obtain ⟨-, x, slot, -⟩ := waits
        cases free.symm.trans slot
    · exact ih (fun j le_j j_le => free j le_j (Nat.le_succ_of_le j_le))
        ((r.passes N).attends own asleep).1

/-- What is left of a call that has failed in the event `n` to open its key: nothing. -/
structure Traceless (r : Run (start config workers)) (n : Nat) (id : CallId) (op : Op) (k : Key)
    (res : Result) : Prop where
  /-- The history could have gone without the call, -/
  without : Reach (start config workers) (r.without id (n + 1))
  /-- and nobody else would see a difference: keys, counts, caches, pools and handles are as they
  would be. -/
  same : (r.state (n + 1)).Matches id (r.without id (n + 1))
  /-- The error of a factory is told together with the key. -/
  error : ∀ {k' e}, res = .refused (.sourceCreation k' e) →
    k' = k ∧ ∃ mode plan, op = .openReader k mode plan ∧ plan.factory = .fails e
  /-- If the factory or the load of the call has failed, its key is free, -/
  freed : res.IsFailure k → (r.state (n + 1)).registry.slots.get? k = none
  /-- and as long as it is, whoever contends for it can move, and then has it. -/
  next : res.IsFailure k → ∀ {N i}, n < N →
    (∀ j, n < j → j ≤ N → (r.state j).registry.slots.get? k = none) → (r.state N).Contends i k →
      (r.state N).canMove (.call i) = true ∧
        ((r.state N).registry.shutDown = false → (r.state N).Takes (.move (.call i)) i k)
  /-- If the call was refused its key, it leaves all slots alone, and has not called its factory. -/
  interrupted : ∀ {k'}, res = .refused (.interruptedWait k') → k' = k ∧
    (r.state (n + 1)).registry = (r.state n).registry ∧
      ((r.state (n + 1)).source id).built = false
  /-- A source that it has got is dropped, -/
  source : ∀ {i}, i ≤ n → (r.state i).Obtains (r.event i) k id →
    ((r.state (n + 1)).source id).closed = true
  /-- and so is its sink, which nobody has used. -/
  sink : ∀ {plan}, op = .openWriter k plan →
    (r.state (n + 1)).sinks.get? id = some plan.sink.close

/-- Failed opens leave no trace. -/
theorem traceless (h : r.FailsToOpen m n id op k res) : r.Traceless n id op k res := by
  obtain ⟨a, ht, event, gives⟩ := h.givesUp
  have hs := r.sound n
  obtain ⟨reach, without⟩ := r.without_of_tries h.begun h.opens h.lt ht gives.tries
  have clear := r.clear ht gives.tries
  have skipped : r.without id (n + 1) = r.without id n :=
    r.without_succ_of_skipped (.inl (by rw [event]; rfl))
  constructor
  case without => rwa [skipped]
  case same =>
    rw [skipped]
    exact gives.matches without clear hs ht (hs.refs_eq_zero clear.reader)
  case error =>
    intro k' e error
    obtain ⟨rfl, ⟨mode, rfl⟩, fails⟩ := gives.factory error
    rcases r.key_of_opens h.begun h.opens h.lt ht with ⟨⟨mode', plan, rfl⟩, -⟩ | ⟨-, writes⟩
    · refine ⟨rfl, mode', plan, rfl, ?_⟩
      rw [← r.factory_of_begin h.begun h.lt ht, fails]
    · cases writes
  case freed => exact fun failure => (gives.freed failure).1
  case next =>
    intro failure N i lt free ⟨b, hb, role⟩
    have awake : ¬ (r.state N).Sleeps i b := r.not_sleeps (gives.freed failure).2 lt free role
    have can := canMove_of_seeks hb (seeks_of_role role) awake
    refine ⟨can, fun going => ?_⟩
    exact takes_of_caller (r.sound N) (r.attentive N) can going (free N lt (Nat.le_refl N))
      ⟨b, hb, role⟩ rfl
  case interrupted => exact fun refused => gives.of_refused hs ht refused
  case source =>
    intro i le obtains
    have made := obtains.cached
    rw [← r.state_succ] at made
    obtain ⟨x, cached⟩ := r.cached_mono ⟨0, made⟩ (Nat.succ_le_succ le)
    exact gives.closed hs ht cached
  case sink =>
    rintro plan rfl
    have key := r.key_of_opens h.begun h.opens h.lt ht
    obtain ⟨rfl, dropped⟩ := gives.sink (key.resolve_left (by simp)).2
    exact dropped (r.sink_of_seeks h.begun h.lt ht)

end Run

namespace Session

/-- A load that a call runs itself panics after it has added a byte. Another call waits for the key,
and a reader of another key is opened meanwhile. -/
def panickingLoad : List Event :=
  [.begin 0 (.openReader ⟨"a"⟩ (some .sync) { script := [.data ⟨#[0]⟩ none, .panic "x"] }),
    .move (.call 0), .move (.call 0), .move (.call 0), .begin 1 (.openWriter ⟨"a"⟩ {}),
    .move (.call 1), .move (.call 0), .move (.call 0), .move (.call 0), .move (.call 0),
    .move (.call 0), .begin 2 (.openReader ⟨"b"⟩ (some .async) {}), .move (.call 2),
    .move (.call 2), .move (.call 2), .move (.call 0)]

theorem traceless_panickingLoad : ∃ plays : (start {} 1).Plays panickingLoad,
    (Run.ofList plays).FailsToOpen 0 15 0
      (.openReader ⟨"a"⟩ (some .sync) { script := [.data ⟨#[0]⟩ none, .panic "x"] }) ⟨"a"⟩
      (.panicked "x") ∧
    (Run.ofList plays).Traceless 15 0
      (.openReader ⟨"a"⟩ (some .sync) { script := [.data ⟨#[0]⟩ none, .panic "x"] }) ⟨"a"⟩
      (.panicked "x") ∧
    ((start {} 1).play panickingLoad 15).registry.slots.get? ⟨"a"⟩ = some .opening ∧
    ((start {} 1).play panickingLoad 16).Contends 1 ⟨"a"⟩ ∧
    ((Run.ofList plays).without 0 16).registry.slots.get? ⟨"b"⟩ = some (.reader 2) := by
  have plays : (start {} 1).Plays panickingLoad := by
    unfold Plays
    decide
  have fails : (Run.ofList plays).FailsToOpen 0 15 0
      (.openReader ⟨"a"⟩ (some .sync) { script := [.data ⟨#[0]⟩ none, .panic "x"] }) ⟨"a"⟩
      (.panicked "x") := by
    have pending : ((start {} 1).play panickingLoad 15).calls.contains 0 = true := by decide
    have tries : (((start {} 1).play panickingLoad 15).task? 0).bind Task.tries? = some ⟨"a"⟩ := by
      decide
    have alone : ∀ i, ((start {} 1).play panickingLoad 15).task? 0 ≠ some (.standIn ⟨"a"⟩ i) := by
      intro i same
      rw [same] at tries
      cases tries
    have ended : ((start {} 1).play panickingLoad 16).calls.contains 0 = false := by decide
    have result : ((start {} 1).play panickingLoad 16).results.get? 0 = some (.panicked "x") := rfl
    exact ⟨rfl, rfl, by decide, pending, alone, ended, result, .panicked "x"⟩
  have same := (Run.ofList plays).traceless fails
  have opening :
      ((start {} 1).play panickingLoad 15).registry.slots.get? ⟨"a"⟩ = some .opening := by
    decide
  have contends : ((start {} 1).play panickingLoad 16).Contends 1 ⟨"a"⟩ :=
    ⟨.seekWriter ⟨"a"⟩, rfl, rfl⟩
  have other : ((start {} 1).play panickingLoad 16).registry.slots.get? ⟨"b"⟩ =
      some (.reader 2) := by decide
  exact ⟨plays, fails, same, opening, contends, (same.same.slots ⟨"b"⟩).trans other⟩

end Session
end SharedStream
