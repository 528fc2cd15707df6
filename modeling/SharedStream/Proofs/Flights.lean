import SharedStream.Proofs.Freshness
import SharedStream.Proofs.Keys.Flights
import SharedStream.Proofs.Shutdown.Refusals
import SharedStream.Proofs.Turns

/-! # One cache for all readers of a key

At most one call at a time calls the factory of a key or loads its source. All who come meanwhile
wait for what becomes of it; if it fails, one of them takes its place.
-/
namespace SharedStream

/-- The key for which the call runs a factory, loads a source itself or stands in for a worker. -/
def Task.works? : Task → Option Key
  | .makeSource k _ | .fill k _ | .standIn k _ => some k
  | _ => none

/-- The result of a call whose factory or load has failed. -/
def Result.IsFailure (r : Result) (k : Key) : Prop :=
  (∃ e, r = .refused (.sourceCreation k e)) ∨ ∃ text, r = .panicked text

namespace Session
open Keys

variable {s u : Session} {id i j c x : CallId} {k : Key} {a b : Task} {e : Event}

/-! ## Calls that contend for a key -/

/-- The call waits for the key. -/
def Contends (s : Session) (id : CallId) (k : Key) : Prop :=
  ∃ a, s.task? id = some a ∧ a.role? = some (.seeks k)

/-- The key is opened or held by the call, or readers share the cache of the call. -/
def With (s : Session) (k : Key) (id : CallId) : Prop :=
  s.Owns id k .opening ∨ s.registry.slots.get? k = some (.reader id) ∨
    s.registry.slots.get? k = some (.writer id)

/-- The call finds the key free and takes it in the event, for its own factory or its own sink. -/
structure Takes (s : Session) (e : Event) (id : CallId) (k : Key) : Prop where
  event : e = .move (.call id)
  contends : s.Contends id k
  free : s.registry.slots.get? k = none
  opens : ((s.after e).Owns id k .opening ∧
      (∃ mode, (s.after e).task? id = some (.makeSource k mode)) ∧
      ((s.after e).source id).built = true) ∨
    (s.after e).Owns id k (.writer id) ∧ (s.after e).Writes id k

theorem Takes.isWith (h : s.Takes e id k) : (s.after e).With k id := by
  rcases h.opens with ⟨owns, -⟩ | ⟨owns, -⟩
  · exact .inl owns
  · exact .inr (.inr owns.slot)

theorem With.slot_ne (h : s.With k id) : s.registry.slots.get? k ≠ none := by
  rcases h with owns | slot | slot
  · simp [owns.slot]
  · simp [slot]
  · simp [slot]

/-- A key that is being freed is with nobody. -/
theorem not_with_closing (slot : s.registry.slots.get? k = some .closing) : ¬ s.With k id := by
  rintro (owns | reader | writer)
  · cases slot.symm.trans owns.slot
  · cases slot.symm.trans reader
  · cases slot.symm.trans writer

theorem task_of_makes (makes : s.keys.role id = some (.makes k)) :
    ∃ mode, s.task? id = some (.makeSource k mode) := by
  obtain ⟨a, ht, role⟩ := Option.bind_eq_some_iff.1 makes
  cases a <;> cases role
  exact ⟨_, ht⟩

/-- Whoever takes a free key has contended for it. -/
theorem Sound.takes (hs : s.Sound) (ha : s.Attentive) (admitted : s.admits e)
    (caller : e.caller = some id) (seeks : s.keys.role id = some (.seeks k))
    (free : s.registry.slots.get? k = none) (taken : (s.after e).keys.Taken id k) :
    s.Takes e id k := by
  have next := hs.after admitted
  obtain ⟨a, ht, role⟩ := task_of_seeks seeks
  refine ⟨ha.caller_eq admitted caller ht, ⟨a, ht, role⟩, free, ?_⟩
  rcases taken with ⟨-, makes, built⟩ | ⟨-, writes⟩
  · exact .inl ⟨next.owns (Valid.stake_of_opens (.inl makes)), task_of_makes makes, built⟩
  · exact .inr ⟨next.owns (next.keys.stake_of_writer writes), writes_iff.2 writes⟩

theorem Sound.exists_takes (hs : s.Sound) (ha : s.Attentive) (admitted : s.admits e)
    (free : s.registry.slots.get? k = none)
    (taken : (s.after e).registry.slots.get? k ≠ none) : ∃ id, s.Takes e id k := by
  obtain ⟨id, caller, seeks, taken⟩ := (step_after hs admitted).taken hs.keys free taken
  exact ⟨id, hs.takes ha admitted caller seeks free taken⟩

/-- After the move of a call that contends for a free key it is not free any more. -/
theorem taken_of_contends (going : s.registry.shutDown = false)
    (free : s.registry.slots.get? k = none) (role : a.role? = some (.seeks k)) :
    (s.moveTask id a).registry.slots.get? k ≠ none := by
  cases a with
  | seekReader key mode =>
    cases role
    simp only [moveTask, moveSeekReader, going, free]
    exact Option.ne_none_iff_exists'.2 ⟨_, Table.get?_set_self ..⟩
  | seekWriter key =>
    cases role
    simp only [moveTask, moveSeekWriter, going, free]
    exact Option.ne_none_iff_exists'.2 ⟨_, Table.get?_set_self ..⟩
  | _ => cases role

/-- A call that contends for a key of somebody else waits on, or shares the cache. -/
theorem contends_of_move (hs : s.Sound) (going : s.registry.shutDown = false)
    (ht : s.task? i = some a) (role : a.role? = some (.seeks k)) (before : s.With k j)
    (after : (s.moveTask i a).With k j) :
    (s.moveTask i a).Contends i k ∨ (s.moveTask i a).Reads i j := by
  have sleeps : (s.sleep i).Contends i k := ⟨a, (task?_sleep i).trans ht, role⟩
  have slot : ∃ y, s.registry.slots.get? k = some y ∧ (y.isTaken = true ∨ y = .reader j) := by
    rcases before with owns | reader | writer
    · exact ⟨_, owns.slot, .inl rfl⟩
    · exact ⟨_, reader, .inr rfl⟩
    · exact ⟨_, writer, .inl rfl⟩
  obtain ⟨y, slot, taken | rfl⟩ := slot
  · left
    cases a with
    | seekReader key mode =>
      cases role
      have seeks := seeks_of_taken ht going slot taken
      rwa [seeks.alone s ⟨rfl, rfl, fun _ _ => rfl⟩]
    | seekWriter key =>
      cases role
      have blocks : s.Blocks y := by cases y <;> trivial
      have seeks := seeks_of_blocks ht going slot blocks
      rwa [seeks.alone s ⟨rfl, rfl, fun _ _ => rfl⟩]
    | _ => cases role
  · cases a with
    | seekReader key mode =>
      cases role
      right
      simp only [moveTask, moveSeekReader, going, slot]
      exact ⟨{ cache := j }, Table.get?_set_self .., rfl⟩
    | seekWriter key =>
      cases role
      have nonneg := hs.refs_nonneg slot
      simp only [moveTask, moveSeekWriter, going, slot] at after ⊢
      rw [if_neg (by simp), if_neg (by omega)] at after ⊢
      split at after
      · -- A cache without readers is torn down, so that the key is not with the call any more.
        exact absurd after (not_with_closing (Table.get?_set_self ..))
      · next more =>
        rw [if_neg more]
        exact .inl sleeps
    | _ => cases role

/-- Whoever runs a factory or loads a source has the key to itself, -/
theorem opening_of_works (ht : s.task? id = some a) (works : a.works? = some k) :
    s.keys.stake id = some (k, .opening) := by
  have role := role_of_task ht
  cases a with
  | makeSource key mode =>
    cases works
    exact Valid.stake_of_opens (.inl role)
  | fill key l =>
    cases works
    exact Valid.stake_of_opens (.inr role)
  | standIn key i =>
    cases works
    exact Valid.stake_of_opens (.inr role)
  | _ => cases works

/-- and has called its factory. -/
theorem built_of_works (called : s.keys.Called) (ht : s.task? id = some a)
    (works : a.works? = some k) : (s.source id).built = true := by
  rcases stake_eq_opening_iff.1 (opening_of_works ht works) with makes | builds
  · exact called.makes makes
  · exact called.builds builds

/-! ## Calls that fail to open a cache -/

/-- The factory of the call fails or panics in the event, or a load of it does. -/
structure Fails (s : Session) (e : Event) (id : CallId) (k : Key) : Prop where
  event : e = .move (.call id)
  works : ∃ a, s.task? id = some a ∧ a.works? = some k
  ended : (s.after e).task? id = none

theorem Fails.abandons (h : s.Fails e id k) :
    ∃ (t : Session) (r : Result), s.after e = t.abandon id k r ∧ r.IsFailure k := by
  obtain ⟨rfl, ⟨a, ht, works⟩, ended⟩ := h
  rw [after, move_of_task ht] at ended ⊢
  cases a with
  | makeSource key mode =>
    cases works
    simp only [moveTask, moveMakeSource] at ended ⊢
    cases factory : (s.source id).factory with
    | fails e => exact ⟨s, _, rfl, .inl ⟨e, rfl⟩⟩
    | panics text => exact ⟨s, _, rfl, .inr ⟨text, rfl⟩⟩
    | gives =>
      simp only [factory] at ended
      have task : (s.newCache id k mode).task? id = some (.makeSource k mode) := ht
      cases mode with
      | sync => simp [task?_goOn, task] at ended
      | async => simp [task?_goOn, task] at ended
  | fill key l =>
    cases works
    simp only [moveTask, moveFill] at ended ⊢
    have task : (s.advanceLoad l).2.task? id = some (.fill k l) := by rw [task?_advanceLoad, ht]
    revert ended task
    rcases s.advanceLoad l with ⟨m, t⟩
    intro ended task
    cases m with
    | goesOn p => simp [task?_goOn, task] at ended
    | ends => simp [task?_goOn, task] at ended
    | panics text => exact ⟨t, _, rfl, .inr ⟨text, rfl⟩⟩
  | standIn key i =>
    cases works
    simp only [moveTask, moveStandIn] at ended ⊢
    cases fall : s.fall? .registry i with
    | some text => exact ⟨s, _, rfl, .inr ⟨text, rfl⟩⟩
    | none => simp [fall, task?_goOn, ht] at ended
  | _ => cases works

/-- A failure frees the key and is reported to the caller. -/
theorem Fails.freed (h : s.Fails e id k) : (s.after e).registry.slots.get? k = none ∧
    ∃ r : Result, (s.after e).results.get? id = some r ∧ r.IsFailure k := by
  obtain ⟨t, r, eq, failure⟩ := h.abandons
  rw [eq]
  exact ⟨by simp [abandon, Session.answer, freeSlot, notifyKeys, wake, Registry.freeSlot],
    r, Table.get?_set_self .., failure⟩

/-- Nobody comes to contend for a key but a call that begins. -/
theorem contends_before (hs : s.Sound) (ha : s.Attentive) (admitted : s.admits e)
    (contends : (s.after e).Contends id k) :
    (∃ op, e = .begin id op) ∨ s.Contends id k := by
  obtain ⟨b, hb, role⟩ := contends
  rcases task_after hs ha admitted hb with begun | ⟨a, ht, rfl | leads⟩
  · exact .inl begun
  · exact .inr ⟨b, ht, role⟩
  · cases leads <;> cases role

/-- A call that contends for a free key takes it when it moves. -/
theorem takes_of_caller (hs : s.Sound) (ha : s.Attentive) (admitted : s.admits e)
    (going : s.registry.shutDown = false) (free : s.registry.slots.get? k = none)
    (contends : s.Contends id k) (own : e.caller = some id) : s.Takes e id k := by
  obtain ⟨a, ht, role⟩ := contends
  have taken : (s.after e).registry.slots.get? k ≠ none := by
    rw [ha.after_of_caller admitted own ht]
    exact taken_of_contends going free role
  obtain ⟨i, takes⟩ := hs.exists_takes ha admitted free taken
  have same : some i = some id := (congrArg Event.caller takes.event).symm.trans own
  cases same
  exact takes

/-- A call that contends for a free key takes it or waits on. -/
theorem contends_after (hs : s.Sound) (ha : s.Attentive) (admitted : s.admits e)
    (going : s.registry.shutDown = false) (free : s.registry.slots.get? k = none)
    (contends : s.Contends id k) : s.Takes e id k ∨ (s.after e).Contends id k := by
  by_cases own : e.caller = some id
  · exact .inl (takes_of_caller hs ha admitted going free contends own)
  · obtain ⟨a, ht, role⟩ := contends
    exact .inr ⟨a, ((passes_after hs ha admitted).task own).trans ht, role⟩

/-- While the key is somebody else's, whoever contends for it waits on or shares the cache. -/
theorem With.contends_after (hs : s.Sound) (ha : s.Attentive) (admitted : s.admits e)
    (going : s.registry.shutDown = false) (before : s.With k j) (after : (s.after e).With k j)
    (contends : s.Contends id k) : (s.after e).Contends id k ∨ (s.after e).Reads id j := by
  obtain ⟨a, ht, role⟩ := contends
  by_cases own : e.caller = some id
  · rw [ha.after_of_caller admitted own ht] at after ⊢
    exact contends_of_move hs going ht role before after
  · exact .inl ⟨a, ((passes_after hs ha admitted).task own).trans ht, role⟩

/-- In a settled session nobody contends for a free key. -/
theorem Attentive.not_free (ha : s.Attentive) (settled : s.Settled) (contends : s.Contends id k) :
    s.registry.slots.get? k ≠ none := by
  obtain ⟨a, ht, role⟩ := contends
  intro free
  rcases ha.waits_or settled ht with waits | held
  · cases a <;> cases role
    all_goals
      obtain ⟨-, x, slot, -⟩ := waits
      cases free.symm.trans slot
  · cases a <;> cases role <;> cases held

/-- A call that opens a reader has called no factory when it begins, and all that it does is about
its key. -/
theorem opens_begin {mode : Option LoadMode} {plan : SourcePlan} (hs : s.Sound)
    (later : s.clock ≤ id) : (s.begin id (.openReader k mode plan)).keys.Opens id k ∧
      ((s.begin id (.openReader k mode plan)).source id).built = false := by
  obtain ⟨role, reader, -, -, built⟩ := hs.keys.fresh later
  by_cases held : s.held = true
  · have eq : s.begin id (.openReader k mode plan) =
        ({ s with clock := id + 1, sources := s.sources.set id plan.source }).call id
          (.seekReader k (mode.getD s.registry.config.loadMode)) := if_pos held
    rw [eq]
    refine ⟨⟨Nat.lt_succ_self id, fun {x} hx => ?_, fun {c} hc => ?_⟩, ?_⟩
    · rw [keys_call] at hx
      cases (Function.update_self ..).symm.trans hx
      rfl
    · cases reader.symm.trans hc
    · simp [source, call, SourcePlan.source]
  · have eq : s.begin id (.openReader k mode plan) =
        ({ s with clock := id + 1 }).answer id (.missing .registry) := if_neg held
    rw [eq]
    refine ⟨⟨Nat.lt_succ_self id, fun {x} hx => ?_, fun {c} hc => ?_⟩, built⟩
    · rw [keys_answer] at hx
      cases (Function.update_self ..).symm.trans hx
    · cases reader.symm.trans hc

/-- A factory is called by a call that finds its key free. -/
theorem Sound.takes_of_built (hs : s.Sound) (ha : s.Attentive) (admitted : s.admits e)
    (opens : s.keys.Opens id k) (before : (s.source id).built = false)
    (after : ((s.after e).source id).built = true) :
    s.Takes e id k ∧ (s.after e).Owns id k .opening := by
  have step := step_after hs admitted
  obtain ⟨own, k', seeks, free, slot, makes⟩ := step.claim_of_built opens.later before after
  have same : k' = k := opens.role seeks
  subst same
  exact ⟨hs.takes ha admitted own seeks free (.inl ⟨slot, makes, after⟩),
    (hs.after admitted).owns (Valid.stake_of_opens (.inl makes))⟩

/-- A cache is made by a call whose factory has given the source that the cache goes by. -/
theorem Sound.obtains_of_new (hs : s.Sound) (ha : s.Attentive) (admitted : s.admits e)
    (before : s.caches.contains c = false) (after : (s.after e).caches.contains c = true) :
    s.Obtains e ((s.after e).keyOf c) c := by
  obtain ⟨k, n, new⟩ := cached_iff.1 after
  have absent : s.keys.cache c = none := by
    have before : s.caches.get? c = none := by simpa [Table.contains] using before
    show Option.map _ (s.caches.get? c) = none
    rw [before, Option.map_none]
  obtain ⟨own, makes, builds⟩ := (step_after hs admitted).build_of_new hs.keys absent new
  obtain ⟨mode, ht⟩ := task_of_makes makes
  rw [keyOf_of_cache new]
  refine ⟨ha.caller_eq admitted own ht, mode, ht, ?_⟩
  rw [ha.after_of_caller admitted own ht] at builds
  cases factory : (s.source c).factory with
  | gives => rfl
  | fails e => simp [moveTask, moveMakeSource, factory, keys_abandon] at builds
  | panics text => simp [moveTask, moveMakeSource, factory, keys_abandon] at builds

/-- No load adds to a cache but that of its own source. -/
theorem Sound.source_of_runs (hs : s.Sound) {l : Load} (runs : s.Runs l)
    (store : l.job.store = .cache c) : l.job.source = c := by
  have own : s.Own l.job → l.job.source = c := fun own => StoreId.cache.inj (own.1.symm.trans store)
  have foreign : ¬ s.Foreign l.job := by
    rintro ⟨⟨i, separate⟩, -⟩
    cases separate.symm.trans store
  rcases runs with ⟨n, i, o, hl⟩ | ⟨id, t, ht, hl⟩
  · cases n with
    | registry => exact own (hs.own (Pool.mem_jobs_of_staff hl))
    | separate => exact absurd (hs.foreign (Pool.mem_jobs_of_staff hl)) foreign
  · have fits := hs.fits ht
    cases t with
    | fill key l' =>
      cases hl
      exact fits.2.trans (StoreId.cache.inj (fits.1.symm.trans store))
    | load l' =>
      cases hl
      exact absurd fits foreign
    | _ => cases hl

end Session

namespace Run
open Session

variable {config : CacheConfig} {workers : Nat} (r : Run (start config workers))
variable {id i j c x : CallId} {k : Key} {m n N : Nat}

/-! ## Who comes next -/

theorem going (last : (r.state N).registry.shutDown = false) (le : m ≤ N) :
    (r.state m).registry.shutDown = false := by
  rw [← Bool.not_eq_true] at last ⊢
  exact fun shut => last (r.kept (P := fun s => s.registry.shutDown = true) shut
    (fun _ _ h => shutDown_after h) le)

theorem waited (contends : (r.state m).Contends j k) (le : n ≤ m) : (r.state n).Contends j k ∨
    ∃ i op, n ≤ i ∧ i < m ∧ r.event i = .begin j op := by
  by_cases before : (r.state n).Contends j k
  · exact .inl before
  right
  obtain ⟨i, le, lt, none, some⟩ :=
    exists_end (P := fun i => ¬ (r.state i).Contends j k) before (not_not_intro contends) le
  rw [not_not, r.state_succ] at some
  obtain ⟨op, begun⟩ :=
    (contends_before (r.sound i) (r.attentive i) (r.admitted i) some).resolve_right none
  exact ⟨i, op, le, lt, begun⟩

/-- As long as a key is free, whoever contends for it waits on. -/
theorem contends_of_free (last : (r.state N).registry.shutDown = false) (le : n ≤ N)
    (free : ∀ i, n ≤ i → i ≤ N → (r.state i).registry.slots.get? k = none)
    (contends : (r.state n).Contends i k) : (r.state N).Contends i k := by
  induction le with
  | refl => exact contends
  | @step N le ih =>
    have going := r.going last (Nat.le_succ N)
    have before := ih going fun i le_i i_le => free i le_i (Nat.le_succ_of_le i_le)
    have still := free (N + 1) (Nat.le_succ_of_le le) (Nat.le_refl _)
    rw [r.state_succ] at still ⊢
    refine (contends_after (r.sound N) (r.attentive N) (r.admitted N) going
      (free N le (Nat.le_succ N)) before).resolve_left fun takes => ?_
    exact takes.isWith.slot_ne still

/-- The call is the next to take the key after the moment `n`. -/
structure Succeeds (r : Run (start config workers)) (n m : Nat) (j : CallId) (k : Key) : Prop where
  lt : n < m
  free : ∀ i, n < i → i ≤ m → (r.state i).registry.slots.get? k = none
  takes : (r.state m).Takes (r.event m) j k
  /-- It has waited for the key, unless it was begun in between, -/
  waited : (r.state (n + 1)).Contends j k ∨ ∃ i op, n < i ∧ i < m ∧ r.event i = .begin j op
  /-- and all others wait on. -/
  others : ∀ {i}, i ≠ j → (r.state (n + 1)).Contends i k → (r.state (m + 1)).Contends i k

theorem Succeeds.not_lt {m' : Nat} {j' : CallId} (h : r.Succeeds n m j k)
    (h' : r.Succeeds n m' j' k) : ¬ m < m' := by
  intro lt
  have free := h'.free (m + 1) (Nat.lt_succ_of_lt h.lt) lt
  rw [r.state_succ] at free
  exact h.takes.isWith.slot_ne free

theorem Succeeds.unique {m' : Nat} {j' : CallId} (h : r.Succeeds n m j k)
    (h' : r.Succeeds n m' j' k) : m' = m ∧ j' = j := by
  obtain rfl : m' = m := Nat.le_antisymm (Nat.le_of_not_lt (h.not_lt r h'))
    (Nat.le_of_not_lt (h'.not_lt r h))
  have same := h'.takes.event.symm.trans h.takes.event
  cases same
  exact ⟨rfl, rfl⟩

/-- A key that is free and contended for is taken before the session has settled. -/
theorem exists_succeeds (settled : (r.state N).Settled)
    (last : (r.state N).registry.shutDown = false) (lt : n < N)
    (free : (r.state (n + 1)).registry.slots.get? k = none)
    (contends : (r.state (n + 1)).Contends i k) : ∃ m j, m < N ∧ r.Succeeds n m j k := by
  have taken : ∃ l, n + 1 ≤ l ∧ l ≤ N ∧ (r.state l).registry.slots.get? k ≠ none := by
    by_contra untaken
    have free : ∀ l, n + 1 ≤ l → l ≤ N → (r.state l).registry.slots.get? k = none :=
      fun l le le' => by_contra fun hl => untaken ⟨l, le, le', hl⟩
    have contends := r.contends_of_free last lt free contends
    exact (r.attentive N).not_free settled contends (free N lt (Nat.le_refl N))
  obtain ⟨l, le, le_N, hl⟩ := taken
  obtain ⟨m, le_m, lt_l, free, ends⟩ :=
    exists_first (P := fun l => (r.state l).registry.slots.get? k = none) free hl le
  have last := r.going last (show m ≤ N by omega)
  rw [r.state_succ] at ends
  obtain ⟨j, takes⟩ := (r.sound m).exists_takes (r.attentive m) (r.admitted m)
    (free m le_m (Nat.le_refl m)) ends
  refine ⟨m, j, by omega, by omega, free, takes, r.waited takes.contends le_m, ?_⟩
  intro i ne contends
  have before := r.contends_of_free last le_m free contends
  rw [r.state_succ]
  refine (contends_after (r.sound m) (r.attentive m) (r.admitted m) last takes.free
    before).resolve_left fun takes' => ?_
  have same := takes'.event.symm.trans takes.event
  cases same
  exact ne rfl

/-- While the key is somebody else's, whoever contends for it waits on until it shares the cache. -/
theorem contends_or_reads (last : (r.state N).registry.shutDown = false) (le : m ≤ N)
    (held : ∀ n, m ≤ n → n ≤ N → (r.state n).With k j) (contends : (r.state m).Contends i k) :
    (r.state N).Contends i k ∨ ∃ n, m < n ∧ n ≤ N ∧ (r.state n).Reads i j := by
  induction le with
  | refl => exact .inl contends
  | @step N le ih =>
    have going := r.going last (Nat.le_succ N)
    rcases ih going fun n le_n n_le => held n le_n (Nat.le_succ_of_le n_le) with
      before | ⟨n, lt, n_le, reads⟩
    · have still := held (N + 1) (Nat.le_succ_of_le le) (Nat.le_refl _)
      rw [r.state_succ] at still ⊢
      refine (With.contends_after (r.sound N) (r.attentive N) (r.admitted N) going
        (held N le (Nat.le_succ N)) still before).imp_right fun reads => ?_
      exact ⟨N + 1, Nat.lt_succ_of_le le, Nat.le_refl _, by rwa [r.state_succ]⟩
    · exact .inr ⟨n, lt, Nat.le_succ_of_le n_le, reads⟩

/-! ## Readers of a key -/

section
variable {mode : Option LoadMode} {plan : SourcePlan}

theorem opens_succ (begun : r.event m = .begin id (.openReader k mode plan)) :
    (r.state (m + 1)).keys.Opens id k ∧ ((r.state (m + 1)).source id).built = false := by
  have later := r.admitted m
  rw [begun] at later
  rw [r.state_succ, begun]
  exact opens_begin (r.sound m) later

theorem opens (begun : r.event m = .begin id (.openReader k mode plan)) (lt : m < n) :
    (r.state n).keys.Opens id k :=
  r.kept_keys (P := fun v => v.Opens id k) (r.opens_succ begun).1 lt fun hv hs h => hs.opens hv h

/-- A call that opens a reader calls its factory only when it takes its key. -/
theorem exists_takes (begun : r.event m = .begin id (.openReader k mode plan)) (lt : m < n)
    (built : ((r.state n).source id).built = true) : ∃ i, m < i ∧ i < n ∧
      ((r.state i).source id).built = false ∧ ((r.state (i + 1)).source id).built = true ∧
      (r.state i).Takes (r.event i) id k ∧ (r.state (i + 1)).Owns id k .opening := by
  have unbuilt := (r.opens_succ begun).2
  obtain ⟨i, lt_i, i_lt, before, after⟩ :=
    exists_end (P := fun i => ((r.state i).source id).built = false) unbuilt (by simp [built]) lt
  have after : ((r.state (i + 1)).source id).built = true := by simpa using after
  refine ⟨i, lt_i, i_lt, before, after, ?_⟩
  rw [r.state_succ] at after ⊢
  exact (r.sound i).takes_of_built (r.attentive i) (r.admitted i) (r.opens begun lt_i) before after

/-- The handle of a call is on a cache of the key that it was begun for. -/
theorem key_of_reads (begun : r.event m = .begin x (.openReader k mode plan))
    (reads : (r.state n).Reads x c) : (r.state n).keyOf c = k := by
  have reader := reads_iff.1 reads
  have lt : m < n := by
    by_contra le
    have later : (r.state m).clock ≤ x := by
      have admitted := r.admitted m
      rwa [begun] at admitted
    have clock : (r.state n).clock ≤ (r.state m).clock :=
      r.kept_keys (P := fun v => (r.state n).clock ≤ v.clock) (Nat.le_refl _) (Nat.le_of_not_lt le)
        fun _ hs h => Nat.le_trans h hs.clock_le
    exact absurd ((r.sound n).keys.lt_clock_of_reader reader)
      (Nat.not_lt_of_le (Nat.le_trans clock later))
  obtain ⟨refs, cached⟩ := (r.opens begun lt).reader reader
  exact keyOf_of_cache cached

end

/-- Who reads from a cache of somebody else never calls a factory. -/
theorem unbuilt_of_reads (reads : (r.state n).Reads x c) (other : c ≠ x) (N : Nat) :
    ((r.state N).source x).built = false := by
  have reader := reads_iff.1 reads
  have lent : (r.state n).keys.Lent := by
    have init : (r.state 0).keys.Lent := by
      rw [r.state_zero]
      rintro id c ⟨⟩
    exact r.kept_keys (P := Keys.Lent) init (Nat.zero_le n) fun hv hs h => hs.lent hv h
  have unbuilt : ((r.state n).source x).built = false := lent x c reader other
  rcases Nat.le_total N n with le | le
  · rw [← Bool.not_eq_true]
    intro built
    have later := r.built_mono built le
    rw [unbuilt] at later
    cases later
  · have hv := (r.sound n).keys
    have last := r.kept_keys
      (P := fun v => x < v.clock ∧ v.role x = none ∧ v.built x = false)
      ⟨hv.lt_clock_of_reader reader, hv.role_of_reader reader, unbuilt⟩ le ?_
    · exact last.2.2
    · rintro v v' who - hs ⟨later, role, unbuilt⟩
      exact ⟨Nat.lt_of_lt_of_le later hs.clock_le, hs.ended later role,
        hs.unbuilt later role unbuilt⟩

/-- Who opens a cache, whose source fills it, and who comes next when that fails. -/
structure SingleFlight (r : Run (start config workers)) : Prop where
  /-- Of the calls for a key, at most one runs a factory or loads a source. -/
  single : ∀ {n i j k a b}, (r.state n).task? i = some a → a.works? = some k →
    (r.state n).task? j = some b → b.works? = some k → i = j
  /-- Whoever does so has the key to itself, and has called its factory. -/
  works : ∀ {n id k a}, (r.state n).task? id = some a → a.works? = some k →
    (r.state n).Owns id k .opening ∧ ((r.state n).source id).built = true
  /-- A factory is called when its call finds the key free and takes it. -/
  called : ∀ {m n id k mode plan}, r.event m = .begin id (.openReader k mode plan) → m < n →
    ((r.state n).source id).built = true → ∃ i, m < i ∧ i < n ∧
      ((r.state i).source id).built = false ∧ ((r.state (i + 1)).source id).built = true ∧
      (r.state i).Takes (r.event i) id k ∧ (r.state (i + 1)).Owns id k .opening
  /-- Whoever shares a cache that another call has opened never calls its own factory. -/
  lent : ∀ {n x c}, (r.state n).Reads x c → c ≠ x → ∀ N, ((r.state N).source x).built = false
  /-- A cache is made when the factory of the call that it goes by has given a source, -/
  made : ∀ {n c}, (r.state n).caches.contains c = false →
    (r.state (n + 1)).caches.contains c = true →
      (r.state n).Obtains (r.event n) ((r.state (n + 1)).keyOf c) c
  /-- all loads into it read from this source, -/
  loads : ∀ {n c l}, (r.state n).Runs l → l.job.store = .cache c → l.job.source = c
  /-- and it has nothing but what the source has given. -/
  filled : ∀ {n c}, (r.state n).caches.contains c = true →
    octets ((r.state n).store (.cache c)).bytes <+: r.content c n
  /-- Two handles are on the same cache if and only if they were opened for the same text. -/
  shared : ∀ {m m' n x x' k k' c c' mode mode' plan plan'},
    r.event m = .begin x (.openReader k mode plan) →
    r.event m' = .begin x' (.openReader k' mode' plan') →
    (r.state n).Reads x c → (r.state n).Reads x' c' → (c = c' ↔ k.text = k'.text)
  /-- A failure to open a cache frees the key and is told to nobody but its caller. -/
  fails : ∀ {n id k}, (r.state n).Fails (r.event n) id k →
    (r.state (n + 1)).registry.slots.get? k = none ∧
      (∃ res : Result, (r.state (n + 1)).results.get? id = some res ∧ res.IsFailure k) ∧
      ∀ i, i ≠ id → ((r.state (n + 1)).Contends i k ↔ (r.state n).Contends i k)
  /-- Before the session has settled, one of the calls that contend for the key then takes it. -/
  succession : ∀ {n N i id k}, (r.state n).Fails (r.event n) id k → n < N →
    (r.state N).Settled → (r.state N).registry.shutDown = false →
    (r.state (n + 1)).Contends i k →
      ∃ m j, m < N ∧ r.Succeeds n m j k ∧ ∀ m' j', r.Succeeds n m' j' k → m' = m ∧ j' = j
  /-- The others wait on as long as it has the key, or share the cache that it has opened. -/
  others : ∀ {m N i j k}, m ≤ N → (r.state N).registry.shutDown = false →
    (∀ n, m ≤ n → n ≤ N → (r.state n).With k j) → (r.state m).Contends i k →
      (r.state N).Contends i k ∨ ∃ n, m < n ∧ n ≤ N ∧ (r.state n).Reads i j

theorem singleFlight : r.SingleFlight where
  single ha works hb works' := by
    have own := (r.sound _).owns (opening_of_works ha works)
    have own' := (r.sound _).owns (opening_of_works hb works')
    exact ((own'.sole _).1 ((own.sole _).2 rfl))
  works {n id k a} ht works :=
    ⟨(r.sound n).owns (opening_of_works ht works), built_of_works (r.called n) ht works⟩
  called begun lt built := r.exists_takes begun lt built
  lent reads other := r.unbuilt_of_reads reads other
  made {n c} before after := by
    rw [r.state_succ] at after ⊢
    exact (r.sound n).obtains_of_new (r.attentive n) (r.admitted n) before after
  loads {n c l} runs store := (r.sound n).source_of_runs runs store
  filled {n c} cached := r.bytes_within cached (Nat.le_refl n)
  shared {m m' n x x' k k' c c' _ _ _ _} begun begun' reads reads' := by
    have key := r.key_of_reads begun reads
    have key' := r.key_of_reads begun' reads'
    constructor
    · rintro rfl
      rw [← key, ← key']
    · intro same
      have slot := (r.sound n).slot_of_reads reads
      have slot' := (r.sound n).slot_of_reads reads'
      rw [key, show k = k' from congrArg Key.mk same] at slot
      rw [key', slot] at slot'
      cases slot'
      rfl
  fails {n id k} fails := by
    obtain ⟨free, told⟩ := fails.freed
    rw [← r.state_succ] at free told
    refine ⟨free, told, fun i ne => ?_⟩
    have other : (r.event n).caller ≠ some i := by
      rw [fails.event]
      rintro ⟨⟩
      exact ne rfl
    rw [Contends, Contends, (r.passes n).task other]
  succession {n N i id k} fails lt settled last contends := by
    have free := fails.freed.1
    rw [← r.state_succ] at free
    obtain ⟨m, j, lt, succeeds⟩ := r.exists_succeeds settled last lt free contends
    exact ⟨m, j, lt, succeeds, fun m' j' other => succeeds.unique r other⟩
  others le last held contends := r.contends_or_reads last le held contends

end Run

/-- A call waits for a key while the factory of another one fails, and opens it then. -/
def Session.failedOver : List Event :=
  [.begin 0 (.openReader ⟨"a"⟩ none { held := true, factory := .fails ⟨.other, "x"⟩ }),
    .move (.call 0), .begin 1 (.openReader ⟨"a"⟩ none {}), .move (.call 1), .begin 2 (.release 0),
    .move (.call 0)] ++ List.replicate 3 (.move (.call 1))

example : ((Session.start {} 1).play Session.failedOver 6).registry.slots.get? ⟨"a"⟩ = none ∧
    ((Session.start {} 1).play Session.failedOver 9).registry.slots.get? ⟨"a"⟩ =
      some (.reader 1) := by
  decide

end SharedStream
