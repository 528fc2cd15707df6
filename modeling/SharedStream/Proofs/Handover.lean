import SharedStream.Proofs.Owners
import SharedStream.Proofs.Plans
import SharedStream.Proofs.Pools.Handling

/-! # Handing a key over

A settled session is asked for a writer of a key whose cache nobody reads. Up to the lease the call
does nothing that lets anybody else move, but for the search of the queue, which concerns the load
of that cache only.
-/
namespace SharedStream.Session

variable {s t u : Session} {id i c : CallId} {k : Key} {a b : Task} {x : Actor} {j : Nat}

/-! ## Who cannot move still cannot -/

/-- A registry that is held does not begin to end. -/
theorem canMove_registry_of_held (held : u.held = true)
    (ending : u.registry.ending = s.registry.ending) (can : u.canMove .registry = true) :
    s.canMove .registry = true := by
  simp only [canMove, ending] at can ⊢
  split at can
  · simp [hasHolder, held] at can
  · rfl
  · rfl
  · cases can

/-- Nothing has changed that lets anybody move but the call. -/
structure Unnoticed (s : Session) (id : CallId) (u : Session) : Prop where
  others : ∀ {i}, i ≠ id → u.calls.get? i = s.calls.get? i
  sources : ∀ d, (u.source d).isReady = (s.source d).isReady ∧ (u.source d).held = (s.source d).held
  staff : ∀ n, (u.pool n).staff = (s.pool n).staff
  down : ∀ n, (u.pool n).shutDown = (s.pool n).shutDown
  queue : ∀ n, (u.pool n).queue ⊆ (s.pool n).queue
  held : u.held = s.held
  ending : u.registry.ending = s.registry.ending

namespace Unnoticed

theorem trans (h : s.Unnoticed id t) (h' : t.Unnoticed id u) : s.Unnoticed id u where
  others other := (h'.others other).trans (h.others other)
  sources d := ⟨(h'.sources d).1.trans (h.sources d).1, (h'.sources d).2.trans (h.sources d).2⟩
  staff n := (h'.staff n).trans (h.staff n)
  down n := (h'.down n).trans (h.down n)
  queue n := List.Subset.trans (h'.queue n) (h.queue n)
  held := h'.held.trans h.held
  ending := h'.ending.trans h.ending

/-- Only the calls have changed, and something nobody needs in order to move. -/
theorem of_eq (others : ∀ {i}, i ≠ id → u.calls.get? i = s.calls.get? i)
    (sources : u.sources = s.sources) (pool : ∀ n, u.pool n = s.pool n) (held : u.held = s.held)
    (ending : u.registry.ending = s.registry.ending) : s.Unnoticed id u := by
  refine ⟨others, fun d => ?_, fun n => ?_, fun n => ?_, fun n => ?_, held, ending⟩
  · simp [source, sources]
  · rw [pool]
  · rw [pool]
  · rw [pool]
    exact fun _ h => h

theorem goOn (h : s.Unnoticed id u) (a : Task) : s.Unnoticed id (u.goOn id a) := by
  refine h.trans (.of_eq (fun other => ?_) rfl (fun n => ?_) rfl rfl)
  · simp [Session.goOn, Table.get?_modify, other]
  · cases n <;> rfl

theorem sleep (h : s.Unnoticed id u) : s.Unnoticed id (u.sleep id) := by
  refine h.trans (.of_eq (fun other => ?_) rfl (fun n => ?_) rfl rfl)
  · simp [Session.sleep, Table.get?_modify, other]
  · cases n <;> rfl

theorem task (h : s.Unnoticed id u) (other : i ≠ id) : u.task? i = s.task? i := by
  rw [task?, h.others other, task?]

theorem taskCanMove (h : s.Unnoticed id u) (i : CallId) (a : Task) :
    u.taskCanMove i a = s.taskCanMove i a := by
  cases a <;>
    simp [Session.taskCanMove, loadCanMove, LoadPhase.canMove, hasStoodIn, h.sources, h.staff]

/-- In a session that was settled only the call can move. -/
theorem eq_of_canMove (h : s.Unnoticed id u) (settled : s.Settled) (held : s.held = true)
    (can : u.canMove x = true) : x = .call id := by
  cases x with
  | call i =>
    by_contra ne
    have other : i ≠ id := fun same => ne (same ▸ rfl)
    have still := settled (.call i)
    simp only [canMove, h.others other, h.taskCanMove] at can still
    rw [can] at still
    cases still
  | worker n i =>
    have still := settled (.worker n i)
    simp only [canMove, workerCanMove, loadCanMove, LoadPhase.canMove, h.staff, h.sources]
      at can still
    rw [can] at still
    cases still
  | pool n =>
    have still := settled (.pool n)
    simp only [canMove, poolCanMove, Pool.isAbandoned, Bool.and_eq_true, Bool.not_eq_true', h.down,
      h.staff, Bool.and_eq_false_iff, Bool.not_eq_false', List.isEmpty_iff] at can still
    obtain ⟨⟨down, all⟩, some⟩ := can
    rcases still with (going | alive) | none
    · cases down.symm.trans going
    · cases all.symm.trans alive
    · have none : (u.pool n).queue = [] := List.subset_nil.1 (none ▸ h.queue n)
      rw [none] at some
      cases some
  | registry =>
    have before := canMove_registry_of_held (h.held.trans held) h.ending can
    cases (settled .registry).symm.trans before

end Unnoticed

/-! ## The search of the queue -/

/-- Nobody but the call waits for the store of the cache. -/
def Unwatched (s : Session) (id c : CallId) : Prop :=
  ∀ {i a}, i ≠ id → s.task? i = some a → a.awaits (.cache c) = false

theorem calls_dequeue (n : PoolName) (y : StoreId) (unheard : ∀ a, s.task? i = some a →
    a.awaits y = false) : (s.dequeue n y).calls.get? i = s.calls.get? i := by
  unfold dequeue
  split
  · rfl
  · next job jobs _ =>
    obtain ⟨sources, closed⟩ :=
      closeSources_eq (s := s.setPool n ((s.pool n).dequeue y)) (job :: jobs)
    have same : ((s.setPool n ((s.pool n).dequeue y)).calls).get? i = s.calls.get? i := by
      cases n <;> rfl
    dsimp only
    rw [closed, finishStore, notifyStore, get?_wake]
    refine Eq.trans (b := (s.calls.get? i).map _) (congrArg _ same) ?_
    cases hc : s.calls.get? i with
    | none => rfl
    | some call => simp [unheard call.task (by simp [task?, hc])]

theorem unnoticed_dequeue (unwatched : s.Unwatched id c) :
    s.Unnoticed id (s.dequeue .registry (.cache c)) := by
  have cancels := cancels_dequeue s .registry (.cache c)
  have pool : ∀ n, ∃ q, q ⊆ (s.pool n).queue ∧
      (s.dequeue .registry (.cache c)).pool n = { s.pool n with queue := q } := by
    intro n
    cases n with
    | registry => exact ⟨_, fun _ h => List.mem_of_mem_filter h, cancels.pool⟩
    | separate => exact ⟨_, fun _ h => h, cancels.others (by simp)⟩
  refine ⟨fun other => calls_dequeue _ _ fun a ht => unwatched other ht, fun d => ?_, fun n => ?_,
    fun n => ?_, fun n => ?_, congrArg Keys.held (keys_dequeue (s := s) _ _),
    (stands_dequeue (.cache c) : s.Stands (fun _ => False) _).ending⟩
  · simp only [source, cancels.source]
    split
    · cases s.sources.get? d <;> exact ⟨rfl, rfl⟩
    · exact ⟨rfl, rfl⟩
  all_goals
    obtain ⟨q, within, same⟩ := pool n
    rw [same]
  exact within

/-- Pools, sources and stores are as they were. -/
structure Unmoved (s u : Session) : Prop where
  pool : ∀ n, u.pool n = s.pool n
  sources : u.sources = s.sources
  stores : u.stores = s.stores

theorem Unmoved.trans (h : s.Unmoved t) (h' : t.Unmoved u) : s.Unmoved u :=
  ⟨fun n => (h'.pool n).trans (h.pool n), h'.sources.trans h.sources, h'.stores.trans h.stores⟩

theorem Unmoved.cancels (h : s.Unmoved t) {n : PoolName} {y : StoreId} (hu : t.Cancels n y u) :
    s.Cancels n y u := by
  obtain ⟨pool, others, source, store⟩ := hu
  simp only [h.pool, h.sources, h.stores] at pool others source store
  exact ⟨pool, others, source, store⟩

theorem Cancels.unmoved {n : PoolName} {y : StoreId} (h : s.Cancels n y t) (same : t.Unmoved u) :
    s.Cancels n y u where
  pool := (same.pool n).trans h.pool
  others other := (same.pool _).trans (h.others other)
  source c := by rw [same.sources, h.source]
  store y := by rw [same.stores, h.store]

/-- The store of a load that was asked to stop has what it had, and is finished if the load was
still queued. -/
theorem Cancels.store_of_canceled {n : PoolName} {z : StoreId} {y : Store}
    (h : (s.cancelStore z).Cancels n z u) (hy : s.stores.get? z = some y) :
    ∃ y', u.stores.get? z = some y' ∧ y'.canceled = true ∧ y'.chunks = y.chunks ∧
      y'.loadedLen = y.loadedLen ∧
      (y'.finished = true ↔ y.finished = true ∨ (s.pool n).queuedFor z ≠ []) := by
  have pool : (s.cancelStore z).pool n = s.pool n := by cases n <;> rfl
  have asked : (s.cancelStore z).stores.get? z = some y.cancel := by
    simp [cancelStore, Table.get?_modify, hy]
  have store := h.store z
  rw [asked, pool] at store
  by_cases queued : (s.pool n).queuedFor z = []
  · rw [if_neg (by simp [queued])] at store
    exact ⟨y.cancel, store, rfl, rfl, rfl, by simp [queued, Store.cancel]⟩
  · rw [if_pos ⟨rfl, queued⟩] at store
    exact ⟨y.cancel.finish, store, rfl, rfl, rfl, by simp [queued, Store.finish]⟩

/-! ## Looking in vain -/

/-- Whoever can move looks for its key, and finds that it has to wait. -/
structure Vain (s : Session) : Prop where
  held : s.held = true
  looks : ∀ {x}, s.canMove x = true →
    ∃ i a, x = .call i ∧ s.task? i = some a ∧ a.seeks = true ∧ s.Waits a

theorem moveTask_of_waits (seeks : a.seeks = true) (waits : s.Waits a) :
    s.moveTask i a = s.sleep i := by
  cases a with
  | seekReader key mode =>
    obtain ⟨going, y, slot, taken⟩ := waits
    rw [moveTask, moveSeekReader, if_neg (by simp [going]), slot]
    cases y <;> first | rfl | cases taken
  | seekWriter key =>
    obtain ⟨going, y, slot, blocks⟩ := waits
    rw [moveTask, moveSeekWriter, if_neg (by simp [going]), slot]
    cases y with
    | reader c =>
      have pos : 0 < s.refs c := blocks
      simp only
      rw [if_neg (by omega), if_neg (by omega)]
    | opening | closing | writer => rfl
  | _ => cases seeks

theorem Vain.sleep (h : s.Vain) (i : CallId) : (s.sleep i).Vain := by
  refine ⟨h.held, fun {x} can => ?_⟩
  have before : s.canMove x = true := by
    cases x with
    | call i' =>
      by_cases own : i' = i
      · subst own
        cases hc : s.calls.get? i' <;> simp [canMove, Session.sleep, Table.get?_modify, hc] at can
      · simpa [canMove, Session.sleep, Table.get?_modify, own, taskCanMove, loadCanMove, source,
          hasStoodIn, Session.pool] using can
    | worker n i' => cases n <;> exact can
    | pool n => cases n <;> exact can
    | registry => exact canMove_registry_of_held (u := s.sleep i) h.held rfl can
  obtain ⟨i', a, rfl, ht, seeks, waits⟩ := h.looks before
  exact ⟨i', a, rfl, by rw [task?_sleep, ht], seeks, waits.keys seeks (.of_eq rfl rfl)⟩

/-- Who sleeps while only the call can move looks in vain once the call has the lease. -/
theorem vain_grant (ha : s.Attentive) (held : s.held = true) (ht : s.task? id = some (.lease k))
    (only : ∀ {x}, s.canMove x = true → x = .call id) : (s.grant id k).Vain := by
  have still : ∀ {i}, i ≠ id → s.canMove (.call i) = false := fun other => by
    by_contra can
    cases only (by simpa using can)
    exact other rfl
  have silent : ¬ s.Announcing := by
    rintro ⟨i, y, p, hi⟩
    have other : i ≠ id := by
      rintro rfl
      cases ht.symm.trans hi
    rcases ha.attends_or hi (still other) with (waits | ⟨seeks, -⟩) | free
    · exact waits
    · cases seeks
    · cases free
  refine ⟨held, fun {x} can => ?_⟩
  cases x with
  | worker n i => cases only (x := .worker n i) (by cases n <;> exact can)
  | pool n => cases only (x := .pool n) (by cases n <;> exact can)
  | registry => cases only (canMove_registry_of_held (u := s.grant id k) held rfl can)
  | call i =>
    have get : (s.grant id k).calls.get? i = if i = id then none else
        (s.calls.get? i).map fun c => if c.task.seeks then { c with awake := true } else c := by
      simp only [grant, answer, Table.get?_erase]
      split
      · rfl
      · exact get?_wake ..
    have other : i ≠ id := by
      rintro rfl
      simp [canMove, get] at can
    rw [if_neg other] at get
    have stays := still other
    cases hc : s.calls.get? i with
    | none => simp [canMove, get, hc] at can
    | some call =>
      have task : s.task? i = some call.task := by simp [task?, hc]
      cases seeks : call.task.seeks with
      | false =>
        -- Only those who look for a key were woken.
        have same : (s.grant id k).canMove (.call i) = s.canMove (.call i) := by
          simp only [canMove, get, hc, Option.map_some, seeks, Bool.false_eq_true, if_false]
          rfl
        cases stays.symm.trans (same.symm.trans can)
      | true =>
        have waits : s.Waits call.task := by
          rcases ha.attends_or task stays with (waits | ⟨-, announcing⟩) | held
          · exact waits
          · exact absurd announcing silent
          · cases h : call.task <;> simp_all [Task.seeks, taskCanMove]
        refine ⟨i, call.task, rfl, by simp [task?, get, hc, seeks], seeks, ?_⟩
        exact (waits.take (k := k) (y := .writer id) rfl).keys seeks ⟨rfl, rfl, fun _ => rfl⟩

/-! ## The steps of the call -/

/-- How far the call has come after so many events. -/
inductive Handover (s : Session) (id : CallId) (k : Key) (c : CallId) : Nat → Session → Prop
  | seeks {u : Session} : s.Unnoticed id u → s.Unmoved u →
      u.calls.get? id = some ⟨.seekWriter k, true⟩ → u.registry.shutDown = false →
      u.registry.slots.get? k = some (.reader c) → u.refs c = 0 → Handover s id k c 1 u
  | cancels {u : Session} : s.Unnoticed id u → s.Unmoved u →
      u.calls.get? id = some ⟨.cancelCache k c, true⟩ → Handover s id k c 2 u
  | searches {u : Session} : s.Unnoticed id u → (s.cancelStore (.cache c)).Unmoved u →
      u.calls.get? id = some ⟨.dequeueCache k c, true⟩ → Handover s id k c 3 u
  | awaits {u : Session} : s.Unnoticed id u →
      (s.cancelStore (.cache c)).Cancels .registry (.cache c) u →
      u.calls.get? id = some ⟨.awaitCache k c, true⟩ → Handover s id k c 4 u
  /-- The load goes on, and the call waits for its end. -/
  | waits {u : Session} : s.Unnoticed id u →
      (s.cancelStore (.cache c)).Cancels .registry (.cache c) u →
      u.calls.get? id = some ⟨.awaitCache k c, false⟩ →
      (u.store (.cache c)).finished = false → Handover s id k c 5 u
  | leases {u : Session} : s.Unnoticed id u →
      (s.cancelStore (.cache c)).Cancels .registry (.cache c) u →
      u.calls.get? id = some ⟨.lease k, true⟩ →
      (u.store (.cache c)).finished = true → Handover s id k c 5 u
  | leased {u : Session} (n : Nat) : u.Vain →
      (s.cancelStore (.cache c)).Cancels .registry (.cache c) u →
      u.calls.contains id = false → u.Leavings id k .closing →
      (u.store (.cache c)).finished = true → Handover s id k c (n + 6) u

theorem goOn_call {u : Session} {awake : Bool} (call : u.calls.get? id = some ⟨a, awake⟩)
    (b : Task) : (u.goOn id b).calls.get? id = some ⟨b, awake⟩ := by
  simp [goOn, Table.get?_modify, call]

theorem unmoved_goOn (u : Session) (id : CallId) (a : Task) : u.Unmoved (u.goOn id a) :=
  ⟨fun n => by cases n <;> rfl, rfl, rfl⟩

theorem unmoved_sleep (u : Session) (id : CallId) : u.Unmoved (u.sleep id) :=
  ⟨fun n => by cases n <;> rfl, rfl, rfl⟩

theorem unmoved_setSlot (u : Session) (k : Key) (y : Slot) : u.Unmoved (u.setSlot k y) :=
  ⟨fun n => by cases n <;> rfl, rfl, rfl⟩

theorem unmoved_grant (u : Session) (id : CallId) (k : Key) : u.Unmoved (u.grant id k) :=
  ⟨fun n => by cases n <;> rfl, rfl, rfl⟩

/-- In a settled session the call begins with nobody else to move. -/
theorem handover_begin {plan : SinkPlan} (held : s.held = true)
    (going : s.registry.shutDown = false) (slot : s.registry.slots.get? k = some (.reader c))
    (unread : s.refs c = 0) : s.Handover id k c 1 (s.begin id (.openWriter k plan)) := by
  have held' : ({ s with clock := id + 1 } : Session).held = true := held
  rw [begin, enter, withRegistry, if_pos held']
  refine .seeks (.of_eq (fun other => ?_) rfl (fun n => by cases n <;> rfl) rfl rfl)
    ⟨fun n => by cases n <;> rfl, rfl, rfl⟩ (Table.get?_set_self ..) going slot unread
  exact Table.get?_set_of_ne _ _ other

/-- Nobody but the call can make the next move, which takes it a step further. -/
theorem Handover.move (h : s.Handover id k c j u) (hs : u.Sound) (ha : u.Attentive)
    (settled : s.Settled) (held : s.held = true) (unwatched : s.Unwatched id c)
    (can : u.canMove x = true) : s.Handover id k c (j + 1) (u.move x) := by
  have next : ∀ {a}, s.Unnoticed id u → u.calls.get? id = some ⟨a, true⟩ →
      u.task? id = some a ∧ u.move x = u.moveTask id a := by
    intro a same call
    have task : u.task? id = some a := by simp [task?, call]
    exact ⟨task, by rw [same.eq_of_canMove settled held can, move_of_task task]⟩
  cases h with
  | seeks same unmoved call going slot unread =>
    have taken : u.move x = (u.setSlot k .closing).goOn id (.cancelCache k c) := by
      rw [(next same call).2, moveTask, moveSeekWriter, if_neg (by simp [going]), slot]
      simp only [unread]
      rfl
    rw [taken]
    have noticed : u.Unnoticed id (u.setSlot k .closing) :=
      .of_eq (fun _ => rfl) rfl (unmoved_setSlot ..).pool rfl rfl
    exact .cancels ((same.trans noticed).goOn _)
      ((unmoved.trans (unmoved_setSlot ..)).trans (unmoved_goOn ..)) (goOn_call call _)
  | cancels same unmoved call =>
    rw [(next same call).2]
    have pool : ∀ (t : Session) n, (t.cancelStore (.cache c)).pool n = t.pool n :=
      fun t n => by cases n <;> rfl
    have noticed : u.Unnoticed id (u.cancelStore (.cache c)) :=
      .of_eq (fun _ => rfl) rfl (pool u) rfl rfl
    have asked : (s.cancelStore (.cache c)).Unmoved (u.cancelStore (.cache c)) :=
      ⟨fun n => by rw [pool, pool, unmoved.pool], unmoved.sources,
        by rw [cancelStore, unmoved.stores, cancelStore]⟩
    exact .searches ((same.trans noticed).goOn _) (asked.trans (unmoved_goOn ..)) (goOn_call call _)
  | searches same unmoved call =>
    obtain ⟨task, after⟩ := next same call
    rw [after]
    have noticed : u.Unnoticed id (u.dequeue .registry (.cache c)) :=
      unnoticed_dequeue fun other hi => unwatched other ((same.task other).symm.trans hi)
    have own : (u.dequeue .registry (.cache c)).calls.get? id = u.calls.get? id :=
      calls_dequeue _ _ fun a hi => by
        cases task.symm.trans hi
        rfl
    exact .awaits ((same.trans noticed).goOn _)
      ((unmoved.cancels (cancels_dequeue ..)).unmoved (unmoved_goOn ..))
      (goOn_call (own.trans call) _)
  | awaits same cancels call =>
    rw [(next same call).2, moveTask, moveAwaitCache]
    split
    · next finished =>
      exact .leases (same.goOn _) (cancels.unmoved (unmoved_goOn ..)) (goOn_call call _) finished
    · next unfinished =>
      refine .waits same.sleep (cancels.unmoved (unmoved_sleep ..)) ?_ ?_
      · simp [sleep, Table.get?_modify, call]
      · exact Bool.eq_false_iff.2 unfinished
  | waits same cancels call unfinished =>
    exfalso
    rw [same.eq_of_canMove settled held can] at can
    simp [canMove, call] at can
  | leases same cancels call finished =>
    obtain ⟨task, after⟩ := next same call
    have slot : u.registry.slots.get? k = some .closing := hs.closing_of_lease task
    rw [after, moveTask, moveLease, if_pos slot]
    have only : ∀ {x}, u.canMove x = true → x = .call id := same.eq_of_canMove settled held
    exact .leased 0 (vain_grant ha (same.held.trans held) task only)
      (cancels.unmoved (unmoved_grant ..)) (ended_of_answer ..) (leavings_grant ..) finished
  | leased n vain cancels ended leavings finished =>
    obtain ⟨i, a, rfl, ht, seeks, waits⟩ := vain.looks can
    rw [move_of_task ht, moveTask_of_waits seeks waits]
    refine .leased (n + 1) (vain.sleep i) (cancels.unmoved (unmoved_sleep ..)) ?_ ?_ finished
    · rw [← task?_eq_none_iff] at ended ⊢
      rw [task?_sleep, ended]
    · cases leavings with
      | leased slot writes result => exact .leased slot writes result

/-- Only the call can move, or it waits in a settled session, or it has the lease. -/
theorem Handover.cases (h : s.Handover id k c j u) (settled : s.Settled) (held : s.held = true) :
    (j ≤ 5 ∧ (∀ x, u.canMove x = true ↔ x = .call id) ∧
        (j = 5 → (u.store (.cache c)).finished = true)) ∨
      (j = 5 ∧ u.Settled ∧ u.task? id = some (.awaitCache k c) ∧
        (u.store (.cache c)).finished = false) ∨
      (6 ≤ j ∧ u.Leavings id k .closing ∧ u.calls.contains id = false ∧
        (u.store (.cache c)).finished = true) := by
  have only : ∀ {a}, s.Unnoticed id u → u.calls.get? id = some ⟨a, true⟩ →
      (∀ y, u.taskCanMove y a = true) → ∀ x, u.canMove x = true ↔ x = .call id := by
    intro a same call free x
    refine ⟨same.eq_of_canMove settled held, ?_⟩
    rintro rfl
    simp [canMove, call, free]
  cases h with
  | seeks same _ call => exact .inl ⟨by simp, only same call fun _ => rfl, by simp⟩
  | cancels same _ call => exact .inl ⟨by simp, only same call fun _ => rfl, by simp⟩
  | searches same _ call => exact .inl ⟨by simp, only same call fun _ => rfl, by simp⟩
  | awaits same _ call => exact .inl ⟨by simp, only same call fun _ => rfl, by simp⟩
  | leases same _ call finished =>
    exact .inl ⟨by simp, only same call fun _ => rfl, fun _ => finished⟩
  | waits same _ call unfinished =>
    refine .inr (.inl ⟨rfl, fun x => ?_, by simp [task?, call], unfinished⟩)
    by_contra can
    have can : u.canMove x = true := by simpa using can
    rw [same.eq_of_canMove settled held can] at can
    simp [canMove, call] at can
  | leased n _ _ ended leavings finished =>
    exact .inr (.inr ⟨Nat.le_add_left .., leavings, ended, finished⟩)

theorem Handover.cleared (h : s.Handover id k c j u) (late : 4 ≤ j) :
    (s.cancelStore (.cache c)).Cancels .registry (.cache c) u := by
  cases h with
  | seeks | cancels | searches => omega
  | awaits _ cancels | waits _ cancels | leases _ cancels | leased _ _ cancels => exact cancels

end SharedStream.Session
