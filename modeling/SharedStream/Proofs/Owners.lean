import SharedStream.Proofs.Flights
import SharedStream.Proofs.Keys.Owners
import SharedStream.Proofs.Shutdown

/-! # Slots in transition have an owner

A slot is `opening` or `closing` as long as the call is in progress that has made it so, and no
longer. Nobody else touches it, and however that call ends, it leaves the key in order.
-/
namespace SharedStream

namespace Session
open Keys

variable {s : Session} {id c : CallId} {k : Key} {a : Task} {e : Event} {x : Slot}

/-- What the owner of a slot in transition leaves when it ends. -/
inductive Leavings (s : Session) (id : CallId) (k : Key) : Slot → Prop
  /-- It has built a cache, and is its first reader. -/
  | built : s.registry.slots.get? k = some (.reader id) → s.Reads id id →
      s.results.get? id = some .done → Leavings s id k .opening
  /-- Its factory or its load has failed. -/
  | failed {res : Result} : s.registry.slots.get? k = none → s.results.get? id = some res →
      res.IsFailure k → Leavings s id k .opening
  /-- It has torn a cache down, and has the lease. -/
  | leased : s.registry.slots.get? k = some (.writer id) → s.Writes id k →
      s.results.get? id = some .done → Leavings s id k .closing

/-- The owner of the slot `x` of the key ends in the event. -/
structure Leaves (s : Session) (e : Event) (id : CallId) (k : Key) (x : Slot) : Prop where
  event : e = .move (.call id)
  ended : (s.after e).calls.contains id = false
  leavings : (s.after e).Leavings id k x

theorem task?_eq_none_iff : s.task? id = none ↔ s.calls.contains id = false := by
  simp [task?, Table.contains]

/-! ## What becomes of an owner -/

theorem leavings_moveRegister (s : Session) (id : CallId) (k : Key) :
    (s.moveRegister id k).Leavings id k .opening :=
  .built (Table.get?_set_self ..) ⟨{ cache := id }, Table.get?_set_self .., rfl⟩
    (Table.get?_set_self ..)

theorem leavings_grant (s : Session) (id : CallId) (k : Key) :
    (s.grant id k).Leavings id k .closing :=
  .leased (Table.get?_set_self ..) ⟨{ key := k }, Table.get?_set_self .., rfl⟩
    (Table.get?_set_self ..)

theorem ended_of_answer (s : Session) (id : CallId) (r : Result) :
    (s.answer id r).calls.contains id = false := by
  simp [answer, Table.contains]

theorem builds_of_leads {a b : Task} (works : a.works? = some k) (same : b = a ∨ a.Leads b) :
    b.role? = some (.makes k) ∨ b.role? = some (.builds k) := by
  rcases same with rfl | leads
  · cases b <;> cases works
    · exact .inl rfl
    · exact .inr rfl
    · exact .inr rfl
  · cases leads <;> cases works <;> exact .inr rfl

/-- A call that opens a key goes on with it, opens it or fails. -/
theorem Sound.opening_after (hs : s.Sound) (ha : s.Attentive) (admitted : s.admits e)
    (caller : e.caller = some id) (own : s.keys.stake id = some (k, .opening)) :
    (s.after e).keys.stake id = some (k, .opening) ∨ s.Leaves e id k .opening := by
  have ends : ∀ {a}, s.task? id = some a → a.works? = some k →
      (s.after e).keys.stake id = some (k, .opening) ∨ s.Leaves e id k .opening := by
    intro a ht works
    have event := ha.caller_eq admitted caller ht
    cases after : (s.after e).task? id with
    | none =>
      have fails : s.Fails e id k := ⟨event, ⟨a, ht, works⟩, after⟩
      obtain ⟨free, res, result, failure⟩ := fails.freed
      exact .inr ⟨event, task?_eq_none_iff.1 after, .failed free result failure⟩
    | some b =>
      have leads := (passes_after hs ha admitted).own caller ht after
      refine .inl (Valid.stake_of_opens ?_)
      rw [role_of_task after]
      exact builds_of_leads works leads
  rcases stake_eq_opening_iff.1 own with makes | builds
  · obtain ⟨mode, ht⟩ := task_of_makes makes
    exact ends ht rfl
  · rcases task_of_builds builds with ⟨l, ht⟩ | ⟨i, ht⟩ | ht
    · exact ends ht rfl
    · exact ends ht rfl
    · have after := ha.after_of_caller admitted caller ht
      refine .inr ⟨ha.caller_eq admitted caller ht, ?_, ?_⟩
      · rw [after]
        exact ended_of_answer ..
      · rw [after]
        exact leavings_moveRegister s id k

/-- A call that frees a key for its writer goes on with it or gets the lease. -/
theorem Sound.closing_after (hs : s.Sound) (ha : s.Attentive) (admitted : s.admits e)
    (caller : e.caller = some id) (own : s.keys.stake id = some (k, .closing)) :
    (s.after e).keys.stake id = some (k, .closing) ∨ s.Leaves e id k .closing := by
  have slot : s.registry.slots.get? k = some .closing := hs.keys.agree.slot_eq own
  rcases stake_eq_closing_iff.1 own with ⟨c, retires⟩ | leases
  · left
    rw [stake_eq_closing_iff]
    rcases task_of_retires retires with ht | ht | ht
    · have task : ((s.cancelStore (.cache c)).task? id).isSome := Option.isSome_of_eq_some ht
      rw [ha.after_of_caller admitted caller ht, moveTask, moveCancelCache, role_of_goOn task]
      exact .inl ⟨c, rfl⟩
    · rw [ha.after_of_caller admitted caller ht, moveTask, moveDequeueCache,
        role_of_goOn (by simp [ht])]
      exact .inl ⟨c, rfl⟩
    · rw [ha.after_of_caller admitted caller ht, moveTask, moveAwaitCache]
      split
      · rw [role_of_goOn (Option.isSome_of_eq_some ht)]
        exact .inr rfl
      · rw [keys_sleep]
        exact .inl ⟨c, retires⟩
  · obtain ⟨a, ht, role⟩ := Option.bind_eq_some_iff.1 leases
    right
    cases a <;> cases role
    have after : s.after e = s.grant id k := by
      rw [ha.after_of_caller admitted caller ht, moveTask, moveLease, if_pos slot]
    refine ⟨ha.caller_eq admitted caller ht, ?_, ?_⟩
    · rw [after]
      exact ended_of_answer ..
    · rw [after]
      exact leavings_grant s id k

/-- The owner of a slot in transition keeps it until it ends. -/
theorem Sound.stake_after (hs : s.Sound) (ha : s.Attentive) (admitted : s.admits e)
    (own : s.keys.stake id = some (k, x)) (passing : x.isPassing = true) :
    (s.after e).keys.stake id = some (k, x) ∨ s.Leaves e id k x := by
  by_cases caller : e.caller = some id
  · cases x with
    | opening => exact hs.opening_after ha admitted caller own
    | closing => exact hs.closing_after ha admitted caller own
    | reader | writer => cases passing
  · exact .inl ((step_after hs admitted).stake_of_ne own passing caller)

end Session

namespace Run
open Session Keys

variable {config : CacheConfig} {workers : Nat} (r : Run (start config workers))
variable {id id' c : CallId} {k : Key} {x x' : Slot} {m n : Nat}

/-- The call puts `x` into the slot of the key at the moment `m`. -/
inductive Installs (r : Run (start config workers)) (m : Nat) (id : CallId) (k : Key) : Slot → Prop
  /-- Asked to open a reader, it finds the key free. -/
  | opening {i : Nat} {mode : Option LoadMode} {plan : SourcePlan} : i < m →
      r.event i = .begin id (.openReader k mode plan) → r.event m = .move (.call id) →
      (r.state m).registry.slots.get? k = none →
      (r.state (m + 1)).registry.slots.get? k = some .opening → Installs r m id k .opening
  /-- Asked to open a writer, it finds a cache that nobody reads. -/
  | closing {i : Nat} {plan : SinkPlan} {c : CallId} : i < m →
      r.event i = .begin id (.openWriter k plan) → r.event m = .move (.call id) →
      (r.state m).registry.slots.get? k = some (.reader c) → (r.state m).refs c = 0 →
      (r.state (m + 1)).registry.slots.get? k = some .closing → Installs r m id k .closing

/-- The call has put `x` into the slot of the key, and is in progress. -/
structure Owner (r : Run (start config workers)) (n : Nat) (id : CallId) (k : Key) (x : Slot) :
    Prop where
  installed : ∃ m, m < n ∧ r.Installs m id k x
  pending : (r.state n).calls.contains id = true

theorem Installs.isPassing (h : r.Installs m id k x) : x.isPassing = true := by
  cases h <;> rfl

/-! ## From the slot to its owner -/

/-- A call that seeks a key does what it was asked for first. -/
theorem exists_begin_of_seeks {a : Task} (ht : (r.state m).task? id = some a)
    (role : a.role? = some (.seeks k)) :
    ∃ i op, i < m ∧ r.event i = .begin id op ∧ (r.state i).firstTask? id op = some a := by
  obtain ⟨i, op, lt, begun⟩ := r.exists_begin ht
  obtain ⟨b, first, leads⟩ := r.task_of_begin begun lt ht
  rcases Relation.ReflTransGen.cases_tail leads with rfl | ⟨b', -, last⟩
  · exact ⟨i, op, lt, begun, first⟩
  · cases last <;> cases role

theorem task_after_of_caller (caller : (r.event m).caller = some id) {a : Task}
    (ht : (r.state m).task? id = some a) {y : Role}
    (after : (r.state (m + 1)).keys.role id = some y) :
    ∃ b, b.role? = some y ∧ (b = a ∨ a.Leads b) := by
  obtain ⟨b, hb, role⟩ := Option.bind_eq_some_iff.1 after
  exact ⟨b, role, (r.passes m).own caller ht hb⟩

/-- Whoever takes a key to build a cache was asked for a reader. -/
theorem installs_opening (caller : (r.event m).caller = some id)
    (seeks : (r.state m).keys.role id = some (.seeks k))
    (free : (r.state m).registry.slots.get? k = none)
    (own : (r.state (m + 1)).keys.stake id = some (k, .opening)) :
    r.Installs m id k .opening := by
  obtain ⟨a, ht, role⟩ := task_of_seeks seeks
  obtain ⟨i, op, lt, begun, first⟩ := r.exists_begin_of_seeks ht role
  have reading : ∃ mode, a = .seekReader k mode := by
    rcases stake_eq_opening_iff.1 own with makes | builds
    · obtain ⟨b, next, rfl | leads⟩ := r.task_after_of_caller caller ht makes
      · cases role.symm.trans next
      · cases leads <;> cases role <;> cases next
        exact ⟨_, rfl⟩
    · obtain ⟨b, next, rfl | leads⟩ := r.task_after_of_caller caller ht builds
      · cases role.symm.trans next
      · cases leads <;> cases role <;> cases next
  obtain ⟨mode, rfl⟩ := reading
  have asked : ∃ mode plan, op = .openReader k mode plan := by
    cases op <;> simp [firstTask?] at first
    · exact ⟨_, _, by rw [first.1]⟩
    · split at first <;> cases first
  obtain ⟨mode, plan, rfl⟩ := asked
  exact .opening lt begun ((r.attentive m).caller_eq (r.admitted m) caller ht) free
    ((r.sound (m + 1)).keys.agree.slot_eq own)

/-- Whoever tears a cache down was asked for a writer. -/
theorem installs_closing (caller : (r.event m).caller = some id)
    (seeks : (r.state m).keys.role id = some (.seeks k))
    (slot : (r.state m).registry.slots.get? k = some (.reader c)) (unread : (r.state m).refs c = 0)
    (own : (r.state (m + 1)).keys.stake id = some (k, .closing)) :
    r.Installs m id k .closing := by
  obtain ⟨a, ht, role⟩ := task_of_seeks seeks
  obtain ⟨i, op, lt, begun, first⟩ := r.exists_begin_of_seeks ht role
  have writing : a = .seekWriter k := by
    rcases stake_eq_closing_iff.1 own with ⟨c', retires⟩ | leases
    · obtain ⟨b, next, rfl | leads⟩ := r.task_after_of_caller caller ht retires
      · cases role.symm.trans next
      · cases leads <;> cases role <;> cases next
        rfl
    · obtain ⟨b, next, rfl | leads⟩ := r.task_after_of_caller caller ht leases
      · cases role.symm.trans next
      · cases leads <;> cases role <;> cases next
  subst writing
  have asked : ∃ plan, op = .openWriter k plan := by
    cases op <;> simp [firstTask?] at first
    · exact ⟨_, by rw [first]⟩
    · split at first <;> cases first
  obtain ⟨plan, rfl⟩ := asked
  exact .closing lt begun ((r.attentive m).caller_eq (r.admitted m) caller ht) slot unread
    ((r.sound (m + 1)).keys.agree.slot_eq own)

/-- A slot in transition was made so by a call that still answers for it. -/
theorem owner_of_stake (own : (r.state n).keys.stake id = some (k, x))
    (passing : x.isPassing = true) : r.Owner n id k x := by
  have before : (r.state 0).keys.stake id ≠ some (k, x) := by
    simp [r.state_zero, start, keys, stake, stakeOf, task?]
  obtain ⟨m, -, lt, none, after⟩ :=
    exists_end (P := fun i => (r.state i).keys.stake id ≠ some (k, x)) before (not_not_intro own)
      (Nat.zero_le n)
  have after : (r.state (m + 1)).keys.stake id = some (k, x) := not_not.1 after
  refine ⟨⟨m, lt, ?_⟩, ?_⟩
  · cases x with
    | opening =>
      obtain ⟨caller, seeks, free⟩ := ((r.step m).opening_of_after after).resolve_left none
      exact r.installs_opening caller seeks free after
    | closing =>
      obtain ⟨caller, seeks, c, slot, cache⟩ :=
        ((r.step m).closing_of_after after).resolve_left none
      exact r.installs_closing caller seeks slot (refs_eq_of_cache cache) after
    | reader | writer => cases passing
  · obtain ⟨y, role⟩ := role_of_passing own passing
    obtain ⟨a, ht, -⟩ := Option.bind_eq_some_iff.1 role
    obtain ⟨call, hc, -⟩ := Option.map_eq_some_iff.1 ht
    exact Option.isSome_of_eq_some hc

/-! ## From the owner to the slot -/

theorem Installs.stake (h : r.Installs m id k x) :
    (r.state (m + 1)).keys.stake id = some (k, x) := by
  have hv := (r.sound (m + 1)).keys
  have step := r.step m
  cases h with
  | opening _ _ event free slot =>
    obtain ⟨i, own⟩ := exists_stake hv slot rfl
    rcases step.opening_of_after own with before | ⟨caller, -⟩
    · cases free.symm.trans ((r.sound m).keys.agree.slot_eq before)
    · rw [event] at caller
      cases caller
      exact own
  | closing _ _ event reader _ slot =>
    obtain ⟨i, own⟩ := exists_stake hv slot rfl
    rcases step.closing_of_after own with before | ⟨caller, -⟩
    · cases reader.symm.trans ((r.sound m).keys.agree.slot_eq before)
    · rw [event] at caller
      cases caller
      exact own

theorem Owner.stake (h : r.Owner n id k x) : (r.state n).keys.stake id = some (k, x) := by
  obtain ⟨⟨m, lt, installs⟩, pending⟩ := h
  have passing := installs.isPassing
  -- A call that has ended does not come back.
  suffices h : id < (r.state n).clock ∧
      ((r.state n).keys.stake id = some (k, x) ∨ (r.state n).task? id = none) by
    refine h.2.resolve_right fun ended => ?_
    rw [task?_eq_none_iff, pending] at ended
    cases ended
  have first := installs.stake
  obtain ⟨y, role⟩ := role_of_passing first passing
  refine r.kept (P := fun s => id < s.clock ∧ (s.keys.stake id = some (k, x) ∨ s.task? id = none))
    ⟨(r.sound (m + 1)).keys.lt_clock_of_role role, .inl first⟩ ?_ lt
  rintro i - ⟨later, state⟩
  have admitted := r.admitted i
  refine ⟨Nat.lt_of_lt_of_le later (step_after (r.sound i) admitted).clock_le, ?_⟩
  rcases state with own | ended
  · refine ((r.sound i).stake_after (r.attentive i) admitted own passing).imp_right fun leaves => ?_
    exact task?_eq_none_iff.2 leaves.ended
  · exact .inr (((passes_after (r.sound i) (r.attentive i) admitted).task
      (caller_ne_of_ended admitted later ended)).trans ended)

theorem slot_iff_owner (passing : x.isPassing = true) :
    (r.state n).registry.slots.get? k = some x ↔ ∃! id, r.Owner n id k x := by
  have hv := (r.sound n).keys
  constructor
  · intro slot
    obtain ⟨id, own⟩ := exists_stake hv slot passing
    exact ⟨id, r.owner_of_stake own passing, fun i other => hv.agree.unique other.stake own⟩
  · rintro ⟨id, owner, -⟩
    exact hv.agree.slot_eq owner.stake

/-- Who answers for the slot of the key at a moment, and what becomes of it. -/
structure Owned (r : Run (start config workers)) (n : Nat) (k : Key) : Prop where
  opening_iff : (r.state n).registry.slots.get? k = some .opening ↔ ∃! id, r.Owner n id k .opening
  closing_iff : (r.state n).registry.slots.get? k = some .closing ↔ ∃! id, r.Owner n id k .closing
  /-- No key has two owners, -/
  sole : ∀ {id id' x x'}, r.Owner n id k x → r.Owner n id' k x' → id = id' ∧ x = x'
  /-- and what others do leaves the slot alone. -/
  others : ∀ {id x}, r.Owner n id k x → r.event n ≠ .move (.call id) →
    r.Owner (n + 1) id k x ∧ (r.state (n + 1)).registry.slots.get? k = some x
  /-- The owner keeps the slot as it is up to its end, and leaves the key in order. -/
  ends : ∀ {id x}, r.Owner n id k x →
    r.Owner (n + 1) id k x ∧ (r.state (n + 1)).registry.slots.get? k = some x ∨
      (r.state n).Leaves (r.event n) id k x

theorem Owner.isPassing (h : r.Owner n id k x) : x.isPassing = true := by
  obtain ⟨⟨m, -, installs⟩, -⟩ := h
  exact installs.isPassing

/-- In every run the slots in transition have an owner each. -/
theorem owned (n : Nat) (k : Key) : r.Owned n k := by
  have hv := (r.sound n).keys
  have next : ∀ {id x}, r.Owner n id k x →
      r.Owner (n + 1) id k x ∧ (r.state (n + 1)).registry.slots.get? k = some x ∨
        (r.state n).Leaves (r.event n) id k x := by
    intro id x owner
    have passing := owner.isPassing
    have after := (r.sound n).stake_after (r.attentive n) (r.admitted n) owner.stake passing
    rw [← r.state_succ] at after
    exact after.imp_left fun own =>
      ⟨r.owner_of_stake own passing, (r.sound (n + 1)).keys.agree.slot_eq own⟩
  refine ⟨r.slot_iff_owner rfl, r.slot_iff_owner rfl, ?_, ?_, next⟩
  · intro id id' x x' owner owner'
    have slot := hv.agree.slot_eq owner.stake
    rw [hv.agree.slot_eq owner'.stake] at slot
    cases slot
    exact ⟨hv.agree.unique owner.stake owner'.stake, rfl⟩
  · intro id x owner other
    exact (next owner).resolve_right fun leaves => other leaves.event

end Run
end SharedStream
