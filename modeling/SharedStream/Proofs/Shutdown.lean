import SharedStream.Proofs.Plans
import SharedStream.Proofs.Shutdown.Refusals
import SharedStream.Proofs.Turns

/-! # Shutdown

Once a registry is shut down, whoever seeks a key is refused it, and keys change only by what was
under way at that moment.
-/
namespace SharedStream

namespace Run
open Session

variable {config : CacheConfig} {workers : Nat} (r : Run (start config workers))
variable {id c x : CallId} {k : Key} {a : Task} {i m n : Nat}

/-- How the slot of the key can still change in the event `n` after a shutdown at the moment `m`. -/
inductive Concludes (r : Run (start config workers)) (m n : Nat) (k : Key) : Prop
  /-- A cache is built that was being built at the shutdown, or that has failed. -/
  | builds (id : CallId) : r.event n = .move (.call id) → (r.state m).Owns id k .opening →
      (r.state n).Owns id k .opening →
      (r.state (n + 1)).registry.slots.get? k = some (.reader id) ∨
        (r.state (n + 1)).registry.slots.get? k = none → Concludes r m n k
  /-- A cache is torn down that was being torn down at the shutdown. -/
  | retires (id : CallId) : r.event n = .move (.call id) → (r.state m).Owns id k .closing →
      (r.state n).Owns id k .closing →
      (r.state (n + 1)).registry.slots.get? k = some (.writer id) → Concludes r m n k
  /-- A writer handle is released. -/
  | releases (w : CallId) : (r.state n).Writes w k → ¬ (r.state (n + 1)).Writes w k →
      (r.state (n + 1)).registry.slots.get? k = none → Concludes r m n k

/-- What a run does after its registry was shut down at the moment `m`. -/
structure ShutDown (r : Run (start config workers)) (m : Nat) : Prop where
  /-- A call that waits for its key is refused it, -/
  waiting : ∀ {n id a k}, m < n → (r.state m).task? id = some a → a.role? = some (.seeks k) →
    (r.state n).Interrupted id k
  /-- and so is a call that is begun later, whatever has become of its key. -/
  reader : ∀ {i n id k mode plan}, m < i → i < n → r.event i = .begin id (.openReader k mode plan) →
    (r.state i).held = true → (r.state n).Interrupted id k
  writer : ∀ {i n id k plan}, m < i → i < n → r.event i = .begin id (.openWriter k plan) →
    (r.state i).held = true →
      (r.state n).Interrupted id k ∧ (r.state n).KeepsSink id plan.sink
  /-- Such a call has ended as soon as the session is settled. -/
  settled : ∀ {n id k}, (r.state n).Settled → (r.state n).Interrupted id k →
    (r.state n).Refused id k
  /-- Only a call that was building a cache still gets a reader handle, -/
  reads : ∀ {n x c}, m < n → (r.state n).Reads x c →
    (r.state m).Reads x c ∨ (r.state m).Owns x ((r.state n).keyOf c) .opening
  /-- and only one that was tearing a cache down still gets a writer handle. -/
  writes : ∀ {n w k}, m < n → (r.state n).Writes w k →
    (r.state m).Writes w k ∨ (r.state m).Owns w k .closing
  /-- Slots change only when such a call ends, or a writer handle is released. -/
  slot : ∀ {n k}, m < n → (r.state (n + 1)).registry.ended = false →
    (r.state (n + 1)).registry.slots.get? k ≠ (r.state n).registry.slots.get? k →
      r.Concludes m n k
  /-- No new key is registered. -/
  free : ∀ {n n' k}, m ≤ n → n ≤ n' → (r.state n).registry.slots.get? k = none →
    (r.state n').registry.slots.get? k = none
  /-- The shutdown itself changes nothing but that, -/
  begins : (r.state m).Alike (r.state (m + 1))
  /-- nor do the moves that it leads to. -/
  moves : ∀ {n}, (r.state m).Settled → m < n →
    (∀ i, m < i → i < n → ∃ actor, r.event i = .move actor) → (r.state m).Alike (r.state n)
  /-- Whatever else is asked for or done comes to the same as without the shutdown. -/
  rules : ∀ {n e}, ¬ (r.state n).Looks e →
    ((r.state n).down.admits e ↔ (r.state n).admits e) ∧
      (r.state n).down.after e = ((r.state n).after e).down

theorem shut (asked : r.event m = .begin id .shutdown) (held : (r.state m).held = true)
    (lt : m < n) : (r.state n).Shut := by
  refine r.kept (P := Shut) ?_ (fun i _ h => ?_) lt
  · rw [r.state_succ, asked]
    have eq : (r.state m).begin id .shutdown =
        (Session.shutdown { r.state m with clock := id + 1 }).answer id .done := if_pos held
    rw [Session.after, eq]
    exact shut_shutdown
  · exact h.after (r.sound i) (r.attentive i) (r.admitted i)

section
variable (shut : ∀ n, m < n → (r.state n).Shut)
include shut

theorem interrupted (h : (r.state i).Interrupted id k) (later : id < (r.state i).clock)
    (lt : m < i) (le : i ≤ n) : id < (r.state n).clock ∧ (r.state n).Interrupted id k := by
  induction le with
  | refl => exact ⟨later, h⟩
  | @step j le ih =>
    obtain ⟨later, h⟩ := ih
    refine ⟨Nat.lt_of_lt_of_le later (r.step j).clock_le, ?_⟩
    rw [r.state_succ]
    exact h.after (r.sound j) (r.attentive j) later (shut j (Nat.lt_of_lt_of_le lt le))
      (r.admitted j)

theorem keepsSink {y : Sink} (h : (r.state i).Interrupted id k) (later : id < (r.state i).clock)
    (sink : (r.state i).KeepsSink id y) (lt : m < i) (le : i ≤ n) :
    (r.state n).KeepsSink id y := by
  induction le with
  | refl => exact sink
  | @step j le ih =>
    obtain ⟨later, h⟩ := r.interrupted shut h later lt le
    rw [r.state_succ]
    exact ih.after h (r.sound j) (r.attentive j) (r.reach j).holds later
      (shut j (Nat.lt_of_lt_of_le lt le)) (r.admitted j)

theorem interrupted_of_seeks (ht : (r.state i).task? id = some a)
    (role : a.role? = some (.seeks k)) (lt : m < i) (le : i ≤ n) :
    (r.state n).Interrupted id k :=
  (r.interrupted shut (.of_seeks (r.sound i) (shut i lt) ht role) ((r.attentive i).begun ht)
    lt le).2

theorem interrupted_of_openReader {mode : Option LoadMode} {plan : SourcePlan} (lt : m < i)
    (later : i < n) (begun : r.event i = .begin id (.openReader k mode plan))
    (held : (r.state i).held = true) : (r.state n).Interrupted id k := by
  have first : (r.state (i + 1)).task? id =
      some (.seekReader k (mode.getD (r.state i).registry.config.loadMode)) := by
    rw [r.state_succ, begun]
    show ((Session.enter _ id _).task? id) = _
    rw [enter, withRegistry, if_pos held, task?_call, if_pos rfl]
  exact r.interrupted_of_seeks shut first rfl (Nat.lt_succ_of_lt lt) later

theorem interrupted_of_openWriter {plan : SinkPlan} (lt : m < i) (later : i < n)
    (begun : r.event i = .begin id (.openWriter k plan)) (held : (r.state i).held = true) :
    (r.state n).Interrupted id k ∧ (r.state n).KeepsSink id plan.sink := by
  have entered : r.state (i + 1) = Session.call { r.state i with
      clock := id + 1, sinks := (r.state i).sinks.set id plan.sink } id (.seekWriter k) := by
    rw [r.state_succ, begun]
    exact if_pos held
  have first : (r.state (i + 1)).task? id = some (.seekWriter k) := by
    rw [entered, task?_call, if_pos rfl]
  have sink : (r.state (i + 1)).KeepsSink id plan.sink := by
    refine ⟨fun ha => ⟨k, Option.some.inj (ha.symm.trans first)⟩, ?_⟩
    rw [first, entered]
    exact Table.get?_set_self ..
  have interrupted := Interrupted.of_seeks (r.sound _) (shut _ (Nat.lt_succ_of_lt lt)) first rfl
  have older := (r.attentive _).begun first
  exact ⟨(r.interrupted shut interrupted older (Nat.lt_succ_of_lt lt) later).2,
    r.keepsSink shut interrupted older sink (Nat.lt_succ_of_lt lt) later⟩

end

/-! ## Keys after the shutdown -/

section
variable (asked : r.event m = .begin id .shutdown) (held : (r.state m).held = true)
include asked held

theorem declines (le : m ≤ n) :
    (r.state n).keys.Declines (r.event n).caller (r.state (n + 1)).keys := by
  rcases Nat.eq_or_lt_of_le le with rfl | lt
  · intro j k own seeks
    have later := (r.sound m).keys.lt_clock_of_role seeks
    have admitted := r.admitted m
    rw [asked] at own admitted
    cases own
    exact absurd later (Nat.not_lt_of_le admitted)
  · rw [r.state_succ]
    exact (r.shut asked held lt).declines (r.attentive n) (r.admitted n)

theorem closes (le : m ≤ n) : (r.state m).keys.Closes (r.state n).keys := by
  induction le with
  | refl => exact .refl _
  | @step j le ih => exact ih.step (r.sound j).keys (r.step j) (r.declines asked held le)

theorem reads_of_shutdown (le : m ≤ n) (reads : (r.state n).Reads x c) :
    (r.state m).Reads x c ∨ (r.state m).Owns x ((r.state n).keyOf c) .opening := by
  rcases (r.closes asked held le).reader (reads_iff.1 reads) with before | ⟨k, ⟨y, cached⟩, own⟩
  · exact .inl (reads_iff.2 before)
  · rw [keyOf_of_cache cached]
    exact .inr ((r.sound m).owns own)

theorem writes_of_shutdown (le : m ≤ n) (writes : (r.state n).Writes x k) :
    (r.state m).Writes x k ∨ (r.state m).Owns x k .closing :=
  ((r.closes asked held le).writer (writes_iff.1 writes)).imp writes_iff.2 (r.sound m).owns

theorem ends_of_shutdown (le : m ≤ n) (changed : (r.state (n + 1)).registry.slots.get? k ≠
    (r.state n).registry.slots.get? k) :
    (r.state n).keys.Ends (r.state (n + 1)).keys (r.event n).caller k :=
  (r.step n).ends_of_declines (r.declines asked held le) changed

theorem free_of_shutdown {n' : Nat} (le : m ≤ n) (le' : n ≤ n')
    (free : (r.state n).registry.slots.get? k = none) :
    (r.state n').registry.slots.get? k = none := by
  induction le' with
  | refl => exact free
  | @step j le' ih =>
    by_contra taken
    have hv := (r.sound j).keys
    have free : (r.state j).keys.slot k = none := ih
    cases r.ends_of_shutdown asked held (Nat.le_trans le le') (k := k) (by rwa [ih]) with
    | opening _ own => cases free.symm.trans (hv.agree.slot_eq own)
    | closing _ own => cases free.symm.trans (hv.agree.slot_eq own)
    | release writes => cases free.symm.trans (hv.agree.slot_eq (hv.stake_of_writer writes))
    | finish _ free => exact taken free

end

/-- Only the end of the registry frees a key without a call. -/
theorem ended_of_caller (caller : (r.event n).caller = none)
    (changed : (r.state (n + 1)).registry.slots.get? k ≠ (r.state n).registry.slots.get? k) :
    (r.state (n + 1)).registry.ended = true := by
  rw [r.state_succ] at changed ⊢
  generalize r.event n = e at caller changed ⊢
  cases e with
  | begin => cases caller
  | move actor =>
    cases actor with
    | call => cases caller
    | registry => exact ended_endRegistry
    | worker n' i =>
      have same : ((r.state n).after (.move (.worker n' i))).keys = (r.state n).keys :=
        keys_moveWorker ..
      exact absurd (congrFun (congrArg Keys.slot same) k) changed
    | pool n' =>
      have same : ((r.state n).after (.move (.pool n'))).keys = (r.state n).keys :=
        keys_dropQueue ..
      exact absurd (congrFun (congrArg Keys.slot same) k) changed

/-- A call that answers for a slot moves in each event that is its own. -/
theorem event_of_stake {y : Slot} (own : (r.state n).keys.stake id = some (k, y))
    (other : ∀ w, y ≠ .writer w) (caller : (r.event n).caller = some id) :
    r.event n = .move (.call id) := by
  cases ht : (r.state n).task? id with
  | some a => exact (r.attentive n).caller_eq (r.admitted n) caller ht
  | none =>
    have role : (r.state n).keys.role id = none := by simp [keys, ht]
    rw [Keys.stake, role] at own
    obtain ⟨k', -, hk⟩ := Option.map_eq_some_iff.1 own
    cases hk
    exact absurd rfl (other id)

theorem slot_of_shutdown (asked : r.event m = .begin id .shutdown)
    (held : (r.state m).held = true) (le : m ≤ n)
    (going : (r.state (n + 1)).registry.ended = false)
    (changed : (r.state (n + 1)).registry.slots.get? k ≠ (r.state n).registry.slots.get? k) :
    r.Concludes m n k := by
  have closes := r.closes asked held le
  cases r.ends_of_shutdown asked held le changed with
  | @opening i caller own slot =>
    exact .builds i (r.event_of_stake own (by simp) caller)
      ((r.sound m).owns (closes.opening own)) ((r.sound n).owns own) slot.symm
  | @closing i caller own slot =>
    exact .retires i (r.event_of_stake own (by simp) caller)
      ((r.sound m).owns (closes.closing own)) ((r.sound n).owns own) slot
  | @release w writes gone slot =>
    refine .releases w (writes_iff.2 writes) (fun again => ?_) slot
    cases gone.symm.trans (writes_iff.1 again)
  | finish caller =>
    rw [r.ended_of_caller caller changed] at going
    cases going

/-! ## The shutdown itself -/

theorem alike_of_shutdown (asked : r.event m = .begin id .shutdown)
    (held : (r.state m).held = true) : (r.state m).Alike (r.state (m + 1)) := by
  have later := r.admitted m
  rw [r.state_succ]
  rw [asked] at later ⊢
  exact alike_shutdown (r.attentive m) held later

/-- In the step of the shutdown only calls that seek a key move. -/
theorem alike_of_moves (asked : r.event m = .begin id .shutdown) (held : (r.state m).held = true)
    (settled : (r.state m).Settled) (lt : m < n)
    (moves : ∀ i, m < i → i < n → ∃ actor, r.event i = .move actor) :
    (r.state m).Alike (r.state n) := by
  induction lt with
  | refl => exact r.alike_of_shutdown asked held
  | @step j lt ih =>
    have alike := ih fun i hi hj => moves i hi (Nat.lt_succ_of_lt hj)
    obtain ⟨actor, event⟩ := moves j lt (Nat.lt_succ_self j)
    have can : (r.state j).canMove actor = true := by
      have admitted := r.admitted j
      rwa [event] at admitted
    refine alike.trans ?_
    rw [r.state_succ, event]
    -- Whoever else can move could have moved before the shutdown.
    by_cases looks : (r.state j).Looks (.move actor)
    · cases actor with
      | call i =>
        obtain ⟨a, ht, seeks⟩ := looks
        obtain ⟨k, role⟩ := role_of_seeks seeks
        rw [Session.after, move_of_task ht]
        exact alike_refusal (r.shut asked held lt).shut ht role
      | _ => exact looks.elim
    · have before := alike.canMove held can fun i hi => by
        subst hi
        obtain ⟨a, ht⟩ := task_of_canMove can
        refine ⟨a, ht, ?_⟩
        rw [← Bool.not_eq_true]
        exact fun seeks => looks ⟨a, ht, seeks⟩
      rw [settled] at before
      cases before

theorem shutsDown (asked : r.event m = .begin id .shutdown) (held : (r.state m).held = true) :
    r.ShutDown m where
  waiting {n j a k} lt ht role := by
    have other : (r.event m).caller ≠ some j := by
      intro own
      have event := (r.attentive m).caller_eq (r.admitted m) own ht
      rw [asked] at event
      cases event
    exact r.interrupted_of_seeks (fun _ => r.shut asked held)
      (((r.passes m).task other).trans ht) role (Nat.lt_succ_self m) lt
  reader lt later begun stays :=
    r.interrupted_of_openReader (fun _ => r.shut asked held) lt later begun stays
  writer lt later begun stays :=
    r.interrupted_of_openWriter (fun _ => r.shut asked held) lt later begun stays
  settled settled h := h.ended settled
  reads lt := r.reads_of_shutdown asked held (Nat.le_of_lt lt)
  writes lt := r.writes_of_shutdown asked held (Nat.le_of_lt lt)
  slot lt := r.slot_of_shutdown asked held (Nat.le_of_lt lt)
  free := r.free_of_shutdown asked held
  begins := r.alike_of_shutdown asked held
  moves settled lt := r.alike_of_moves asked held settled lt
  rules other := ⟨admits_down, down_after other⟩

end Run

namespace Session

/-- A reader and a writer wait for a cache that is being built, and the registry is shut down. Then
another key is asked for. -/
def closingTime : List Event :=
  [.begin 0 (.openReader ⟨"a"⟩ none { held := true }), .move (.call 0),
    .begin 1 (.openReader ⟨"a"⟩ none {}), .move (.call 1), .begin 2 (.openWriter ⟨"a"⟩ {}),
    .move (.call 2), .begin 3 .shutdown, .move (.call 1), .move (.call 2),
    .begin 4 (.openReader ⟨"b"⟩ none {}), .move (.call 4)]

theorem shutsDown_closingTime : ∃ plays : (start {} 1).Plays closingTime,
    (Run.ofList plays).ShutDown 6 ∧ ((Run.ofList plays).state 11).Settled ∧
      ((Run.ofList plays).state 11).calls.keys = [0] := by
  have plays : (start {} 1).Plays closingTime := by
    unfold Plays
    decide
  have settled : ((start {} 1).play closingTime 11).Settled := by
    rw [settled_iff]
    decide
  have held : ((start {} 1).play closingTime 6).held = true := by decide
  have pending : ((start {} 1).play closingTime 11).calls.keys = [0] := by decide
  exact ⟨plays, (Run.ofList plays).shutsDown (m := 6) rfl held, settled, pending⟩

end Session
end SharedStream
