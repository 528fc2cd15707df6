import SharedStream.Proofs.Handover
import SharedStream.Proofs.Underway

/-! # A writer waits for nobody but its own key

Whatever the loads of other keys do, a writer of a key whose cache nobody reads gets its lease at
once if the load of that cache has finished or is queued. If a worker has taken the load, the writer
waits for the read in progress to return and for nothing else.
-/
namespace SharedStream

namespace Run
open Session Keys

variable {config : CacheConfig} {workers : Nat} (r : Run (start config workers))
variable {id i c : CallId} {k : Key} {a : Task} {m n N : Nat}

/-! ## Who waits for a cache that nobody reads -/

theorem not_awaits (slot : (r.state m).registry.slots.get? k = some (.reader c))
    (unread : (r.state m).refs c = 0) (ht : (r.state m).task? i = some a) :
    a.awaits (.cache c) = false := by
  have hs := r.sound m
  have slot : (r.state m).keys.slot k = some (.reader c) := slot
  by_contra awaits
  have awaits : a.awaits (.cache c) = true := by simpa using awaits
  cases a with
  | awaitCache k' c' =>
    have same : c' = c := by simpa [Task.awaits] using awaits
    subst same
    have retires := role_of_task ht
    obtain ⟨n, hn⟩ := hs.keys.cache_of_slot slot
    obtain ⟨n', hn'⟩ := hs.keys.cache_of_retires retires
    cases hn.symm.trans hn'
    cases slot.symm.trans (hs.keys.slot_of_retires retires)
  | read rd =>
    have same : rd.cache = c := by simpa [Task.awaits] using awaits
    obtain ⟨h, hr⟩ := (r.attentive m).reads ht
    obtain ⟨-, -, cache⟩ := hs.fits ht
    obtain ⟨-, n, -, refs, pos⟩ := refs_pos hs.keys hr
    rw [cache h.cache (reader_of_handle hr), same, unread] at refs
    omega
  | awaitStore x =>
    obtain ⟨y, rfl⟩ := r.separate_of_waits ht (.inl rfl)
    simp [Task.awaits] at awaits
  | readStore x q =>
    obtain ⟨y, rfl⟩ := r.separate_of_waits ht (.inr ⟨q, rfl⟩)
    simp [Task.awaits] at awaits
  | _ => cases awaits

/-! ## The step of the request -/

/-- A writer is asked for in a settled session, for a key whose cache nobody reads. -/
structure Wants (r : Run (start config workers)) (m : Nat) (id : CallId) (k : Key) (c : CallId) :
    Prop where
  settled : (r.state m).Settled
  held : (r.state m).held = true
  going : (r.state m).registry.shutDown = false
  slot : (r.state m).registry.slots.get? k = some (.reader c)
  unread : (r.state m).refs c = 0
  asked : ∃ plan, r.event m = .begin id (.openWriter k plan)

/-- Since the request at the moment `m` there were moves only. -/
structure SameStep (r : Run (start config workers)) (m n : Nat) : Prop where
  lt : m < n
  moves : ∀ {i}, m < i → i < n → ∃ x, r.event i = .move x

theorem handover (wants : r.Wants m id k c) (same : r.SameStep m n) :
    (r.state m).Handover id k c (n - m) (r.state n) := by
  obtain ⟨lt, moves⟩ := same
  induction lt with
  | refl =>
    obtain ⟨plan, begun⟩ := wants.asked
    rw [r.state_succ, begun, Nat.succ_sub (Nat.le_refl m), Nat.sub_self]
    exact handover_begin wants.held wants.going wants.slot wants.unread
  | @step n lt ih =>
    obtain ⟨x, event⟩ := moves lt (Nat.lt_succ_self n)
    have can := r.admitted n
    rw [event] at can
    rw [r.state_succ, event, Nat.succ_sub (Nat.le_of_lt lt)]
    exact (ih fun from_ upTo => moves from_ (Nat.lt_succ_of_lt upTo)).move (r.sound n)
      (r.attentive n) wants.settled wants.held (fun _ => r.not_awaits wants.slot wants.unread) can

/-! ## Where the load is -/

/-- The load of the cache has begun and waits in a read. -/
def Loading (r : Run (start config workers)) (m : Nat) (c : CallId) : Prop :=
  ∃ i l, (r.state m).registry.pool.load? i = some l ∧ l.job = config.job c ∧ (r.state m).Stalls l

/-- The load of the cache has finished, or nobody has taken it from the queue yet. -/
def Idle (r : Run (start config workers)) (m : Nat) (c : CallId) : Prop :=
  ((r.state m).store (.cache c)).finished = true ∨ config.job c ∈ (r.state m).registry.pool.queue

/-- No thread could be had for a worker, and the call that stands in for it keeps the load of the
cache behind others, or has given up and dropped it. -/
def Stranded (r : Run (start config workers)) (m : Nat) (c : CallId) : Prop :=
  config.job c ∈ (r.state m).registry.pool.orphans ∨ r.Shed .registry (config.job c) m

/-- Nothing is stranded as long as a thread can be had for each worker. -/
theorem not_stranded (threaded : (r.state m).registry.pool.Threaded) : ¬ r.Stranded m c := by
  rintro (orphan | shed)
  · rw [threaded.orphans] at orphan
    cases orphan
  · exact r.not_shed (n := .registry) threaded shed

/-- The source of the cache has not panicked. -/
def Sane (r : Run (start config workers)) (m : Nat) (c : CallId) : Prop :=
  ∀ i text, i < m → (r.state i).answered c (r.event i) ≠ some (.panicked text)

/-- Only finitely many events of a finite history have to be looked at. -/
theorem sane_ofList {es : List Event} (plays : (start config workers).Plays es)
    (le : m ≤ es.length)
    (silent : ∀ i < m, (((start config workers).play es i).answered c
      (es[i]?.getD (.begin 0 .newStore))).isNone = true) : (Run.ofList plays).Sane m c := by
  intro i text lt answer
  have event : (Run.ofList plays).event i = es[i]?.getD (.begin 0 .newStore) := by
    simp [Run.ofList, List.getElem?_eq_getElem (Nat.lt_of_lt_of_le lt le)]
  have none := silent i lt
  rw [← event] at none
  cases (Option.isNone_iff_eq_none.1 none).symm.trans answer

theorem not_killed (sane : r.Sane m c) (small : config.chunkSize < halfLimit) :
    ¬ r.Killed .registry (config.job c) m := by
  rintro ⟨i, lt, w, l, event, busy, job, fault⟩
  have source : l.job.source = c := by rw [job, CacheConfig.job]
  have size : l.job.chunkSize = config.chunkSize := by rw [job, CacheConfig.job]
  cases phase : l.phase with
  | allocating =>
    simp only [loadFault?, phase, size] at fault
    rw [if_neg (Nat.not_le_of_lt small)] at fault
    cases fault
  | reading =>
    cases answer : ((r.state i).source c).answer.1 with
    | panicked text =>
      refine sane i text lt ?_
      obtain ⟨o, staff⟩ := Pool.load?_eq_some busy
      simp [event, answered, readsFrom?, loadOf?, staff, phase, source, answer]
    | bytes | failed => simp [loadFault?, phase, source, answer] at fault
  | checking | beginning | closing | finishing => simp [loadFault?, phase] at fault

theorem idle_or_loading (settled : (r.state m).Settled)
    (slot : (r.state m).registry.slots.get? k = some (.reader c)) (sane : r.Sane m c)
    (small : config.chunkSize < halfLimit) (free : ¬ r.Stranded m c) :
    r.Idle m c ∨ r.Loading m c := by
  rcases r.place_of_slot slot with finished | has | killed | shed
  · exact .inl (.inl finished)
  · rcases has with queued | ⟨i, w, hw, mem⟩
    · exact .inl (.inr queued)
    rcases List.mem_append.1 mem with orphan | loads
    · exact absurd (.inl (Pool.mem_orphans_of_staff hw orphan)) free
    · obtain ⟨l, hl, job⟩ := Option.map_eq_some_iff.1 (Option.mem_toList.1 loads)
      have busy : ((r.state m).pool .registry).load? i = some l :=
        Option.bind_eq_some_iff.2 ⟨w, hw, hl⟩
      exact .inr ⟨i, l, busy, job, (r.busy (n := .registry) settled busy).1⟩
  · exact absurd killed (r.not_killed sane small)
  · exact absurd (.inr shed) free

theorem Loading.stages (h : r.Loading m c) :
    ((r.state m).track c).stages = [.running .reading] ∧
      ((r.state m).pool .registry).queuedFor (.cache c) = [] := by
  obtain ⟨i, l, busy, job, reading, -⟩ := h
  have hs := r.sound m
  have source : l.job.source = c := by rw [job, CacheConfig.job]
  subst source
  obtain ⟨o, hw⟩ := Pool.load?_eq_some busy
  have running := stages_of_staff hs hw
  rw [reading] at running
  refine ⟨running, List.filter_eq_nil_iff.2 fun j queued other => ?_⟩
  have waits : j ∈ (r.state m).registry.pool.waiting := List.mem_append_left _ queued
  have own := (hs.own (Pool.mem_jobs_of_waiting waits)).1
  rw [of_decide_eq_true other] at own
  have queued' := stages_of_waiting hs waits
  rw [← StoreId.cache.inj own] at queued'
  cases running.symm.trans queued'

/-! ## How the request fares -/

section
variable (wants : r.Wants m id k c)
include wants

theorem Wants.cached : ∃ n, (r.state m).keys.cache c = some (k, n) :=
  (r.sound m).keys.cache_of_slot wants.slot

theorem Wants.cleared (same : r.SameStep m n) (late : m + 4 ≤ n) :
    ((r.state m).cancelStore (.cache c)).Cancels .registry (.cache c) (r.state n) :=
  (r.handover wants same).cleared (by omega)

/-- No load is about to begin a read when the call has cancelled that of the cache. -/
theorem Wants.due_eq_zero (same : r.SameStep m (m + 4)) :
    ((r.state (m + 4)).track c).due = 0 := by
  have hand := r.handover wants same
  rw [Nat.add_sub_cancel_left] at hand
  cases hand with
  | awaits unnoticed cleared call =>
    have pool : ∀ n, ((r.state (m + 4)).pool n).staff = ((r.state m).pool n).staff := by
      rintro (_ | y)
      · rw [cleared.pool]
        rfl
      · exact congrArg Pool.staff (cleared.others (by simp))
    refine Track.due_eq_zero fun begins => ?_
    obtain ⟨l, runs, -, phase⟩ := exists_runs_of_running (r.sound (m + 4)) begins
    have before : (r.state m).Runs l := by
      rcases runs with ⟨n, i, o, hl⟩ | ⟨i, t, ht, hl⟩
      · exact .inl ⟨n, i, o, by rw [← pool n, hl]⟩
      · refine .inr ⟨i, t, ?_, hl⟩
        rwa [← unnoticed.task]
        rintro rfl
        simp only [task?, call] at ht
        cases ht
        cases hl
    cases phase.symm.trans ((r.attentive m).stalls wants.settled before).1

/-- The load is asked to stop, and is out of the queue. -/
theorem Wants.asked_stop (same : r.SameStep m n) (late : m + 4 ≤ n) :
    ((r.state n).track c).Asked ((r.state m).store (.cache c)) ((r.state m).source c).reads := by
  have early : r.SameStep m (m + 4) :=
    ⟨by omega, fun from_ upTo => same.moves from_ (Nat.lt_of_lt_of_le upTo late)⟩
  refine r.asked ?_ late
  have cleared := wants.cleared r early (Nat.le_refl _)
  have cached := wants.cached
  obtain ⟨y, x, hy, hx, store, source⟩ :=
    eq_of_track_of_stages (r.sound m) (cached_iff.2 ⟨k, cached⟩)
  obtain ⟨y', hy', canceled, chunks, len, -⟩ := cleared.store_of_canceled hy
  rw [store, source]
  refine ⟨cached_iff.2 ⟨k, r.cached_mono cached (Nat.le_add_right m 4)⟩,
    ⟨y', hy', canceled, chunks, len⟩, ?_⟩
  have hx' : (r.state (m + 4)).sources.get? c = _ := cleared.source c
  rw [show ((r.state m).cancelStore (.cache c)).sources.get? c = some x from hx] at hx'
  rw [wants.due_eq_zero r early]
  split at hx' <;> exact ⟨_, hx', rfl⟩

theorem Wants.finished_iff (same : r.SameStep m n) (late : m + 4 ≤ n) :
    ((r.state n).store (.cache c)).finished = true ↔
      ((r.state m).store (.cache c)).finished = true ∨
        ((r.state m).pool .registry).queuedFor (.cache c) ≠ [] := by
  obtain ⟨y, -, hy, -, store, -⟩ :=
    eq_of_track_of_stages (r.sound m) (cached_iff.2 ⟨k, wants.cached⟩)
  obtain ⟨y', hy', -, -, -, finished⟩ := (wants.cleared r same late).store_of_canceled hy
  rw [Session.store, hy', store]
  exact finished

theorem Wants.finished_of_idle (idle : r.Idle m c) (same : r.SameStep m n) (late : m + 4 ≤ n) :
    ((r.state n).store (.cache c)).finished = true :=
  (wants.finished_iff r same late).2 <| idle.imp_right fun queued =>
    List.ne_nil_of_mem (List.mem_filter.2 ⟨queued, decide_eq_true rfl⟩)

theorem Wants.unfinished_of_loading (loading : r.Loading m c) (same : r.SameStep m n)
    (late : m + 4 ≤ n) : ((r.state n).store (.cache c)).finished = false := by
  have cached := cached_iff.2 ⟨k, wants.cached⟩
  obtain ⟨stages, none⟩ := loading.stages r
  obtain ⟨y, -, hy, -, store, -⟩ := eq_of_track_of_stages (r.sound m) cached
  have mem : .running .reading ∈ ((r.state m).track c).stages := by simp [stages]
  have unfinished := ((r.sound m).track (not_apart_of_cached cached)).unfinished mem hy
  rw [Bool.eq_false_iff, ne_eq, wants.finished_iff r same late, store]
  simp [unfinished, none]

/-- The call has the lease before anybody else has moved, if no worker has taken the load. -/
theorem Wants.granted (idle : r.Idle m c) (same : r.SameStep m n) :
    (n ≤ m + 5 ∧ ∀ x, (r.state n).canMove x = true ↔ x = .call id) ∨
      (r.state n).Leavings id k .closing ∧ (r.state n).calls.contains id = false := by
  rcases (r.handover wants same).cases wants.settled wants.held with
    ⟨bound, only, -⟩ | ⟨five, -, -, unfinished⟩ | ⟨-, leavings, ended, -⟩
  · exact .inl ⟨by omega, only⟩
  · have finished := wants.finished_of_idle r idle same (by omega)
    cases unfinished.symm.trans finished
  · exact .inr ⟨leavings, ended⟩

/-- If a worker has taken it, the call comes to wait for it. -/
theorem Wants.awaits (loading : r.Loading m c) (same : r.SameStep m n) :
    (n ≤ m + 4 ∧ ∀ x, (r.state n).canMove x = true ↔ x = .call id) ∨
      n = m + 5 ∧ (r.state n).Settled ∧ (r.state n).task? id = some (.awaitCache k c) := by
  have lt := same.lt
  rcases (r.handover wants same).cases wants.settled wants.held with
    ⟨bound, only, finished⟩ | ⟨five, settled, task, -⟩ | ⟨six, -, -, finished⟩
  · refine .inl ⟨?_, only⟩
    by_contra late
    have unfinished := wants.unfinished_of_loading r loading same (by omega)
    cases unfinished.symm.trans (finished (by omega))
  · exact .inr ⟨by omega, settled, task⟩
  · have unfinished := wants.unfinished_of_loading r loading same (by omega)
    cases unfinished.symm.trans finished

end

/-! ## Waiting for the read in progress -/

theorem owner_of_awaits (task : (r.state n).task? id = some (.awaitCache k c)) :
    r.Owner n id k .closing :=
  r.owner_of_stake (stake_eq_closing_iff.2 (.inl ⟨c, role_of_task task⟩)) rfl

/-- The call waits as long as the read goes on. -/
theorem stays (task : (r.state m).task? id = some (.awaitCache k c))
    {y : Store} {reads : Nat} (asked : ((r.state m).track c).Asked y reads)
    (reading : ((r.state m).track c).stages = [.running .reading]) (le : m ≤ n)
    (silent : ∀ i, m ≤ i → i < n → (r.state i).answered c (r.event i) = none) :
    (r.state n).task? id = some (.awaitCache k c) := by
  induction le with
  | refl => exact task
  | @step n le ih =>
    have silent : ∀ i, m ≤ i → i < n → (r.state i).answered c (r.event i) = none :=
      fun i from_ upTo => silent i from_ (Nat.lt_succ_of_lt upTo)
    have before := ih silent
    by_cases own : (r.event n).caller = some id
    · have cached := (r.asked asked le).cached
      have mem : ∃ p, .running p ∈ ((r.state n).track c).stages := by
        rcases r.awaits asked (.inr reading) le silent with stages | stages <;> simp [stages]
      obtain ⟨p, mem⟩ := mem
      obtain ⟨z, -, hz, -, store, -⟩ := eq_of_track_of_stages (r.sound n) cached
      have unfinished := ((r.sound n).track (not_apart_of_cached cached)).unfinished mem hz
      rw [r.state_succ, (r.attentive n).after_of_caller (r.admitted n) own before, moveTask,
        moveAwaitCache, if_neg (by simp [store, unfinished]), task?_sleep, before]
    · rw [(r.passes n).task own, before]

/-- The call waits for the load, or is about to take the lease. -/
def Frees (s : Session) (id : CallId) (k : Key) (c : CallId) : Prop :=
  s.task? id = some (.awaitCache k c) ∨ s.task? id = some (.lease k)

theorem frees_or_leaves (frees : Frees (r.state n) id k c) :
    Frees (r.state (n + 1)) id k c ∨ (r.state n).Leaves (r.event n) id k .closing := by
  have own : (r.state n).keys.stake id = some (k, .closing) := by
    rw [stake_eq_closing_iff]
    exact frees.imp (fun ht => ⟨c, role_of_task ht⟩) fun ht => role_of_task ht
  refine ((r.sound n).stake_after (r.attentive n) (r.admitted n) own rfl).imp_left fun after => ?_
  rw [← r.state_succ] at after
  obtain ⟨y, role⟩ := role_of_passing after rfl
  obtain ⟨b, hb, -⟩ := Option.bind_eq_some_iff.1 role
  by_cases caller : (r.event n).caller = some id
  · rcases frees with ht | ht
    · rcases (r.passes n).own caller ht hb with rfl | leads
      · exact .inl hb
      · cases leads
        exact .inr hb
    · rcases (r.passes n).own caller ht hb with rfl | leads
      · exact .inr hb
      · cases leads
  · have same := (r.passes n).task caller
    exact frees.imp same.trans same.trans

/-- Once the read has returned, the call has the lease before the next settled session. -/
theorem leaves_of_returns (task : (r.state i).task? id = some (.awaitCache k c))
    {y : Store} {reads : Nat} (asked : ((r.state i).track c).Asked y reads)
    (awaits : ((r.state i).track c).Awaits) {b : SourceAnswer}
    (answer : (r.state i).answered c (r.event i) = some b) (returns : b.returns = true)
    (lt : i < N) (settled : (r.state N).Settled) :
    ∃ j, i < j ∧ j < N ∧ (r.state j).Leaves (r.event j) id k .closing := by
  have other : (r.event i).caller ≠ some id := by
    intro own
    have event := (r.attentive i).caller_eq (r.admitted i) own task
    obtain ⟨call, hc, same⟩ := Option.map_eq_some_iff.1 task
    simp [event, answered, readsFrom?, loadOf?, hc, same, Task.load?] at answer
  have first : Frees (r.state (i + 1)) id k c := .inl (((r.passes i).task other).trans task)
  have last : ¬ Frees (r.state N) id k c := by
    intro frees
    have asked' := r.asked asked (Nat.le_succ i)
    have winding := r.winding asked' lt (r.winding_of_returns asked awaits answer returns)
    have finished := (r.ended_of_winding (r.asked asked' lt) winding settled).1
    rcases frees with ht | ht
    · rcases (r.attentive N).waits_or settled ht with unfinished | held
      · cases finished.symm.trans unfinished
      · cases held
    · rcases (r.attentive N).waits_or settled ht with waits | held
      · exact waits
      · cases held
  obtain ⟨j, from_, upTo, frees, ends⟩ := exists_end (P := fun j => Frees (r.state j) id k c)
    first last lt
  exact ⟨j, from_, upTo, (r.frees_or_leaves frees).resolve_left ends⟩

/-- How a writer fares that is asked for at the moment `m`, for a key whose cache `c` nobody
reads. -/
structure Unhindered (r : Run (start config workers)) (m : Nat) (id : CallId) (k : Key)
    (c : CallId) : Prop where
  place : r.Idle m c ∨ r.Loading m c
  /-- If no worker has taken the load, the call has the lease before anybody else has moved, -/
  granted : r.Idle m c → ∀ {n}, r.SameStep m n →
    (n ≤ m + 5 ∧ ∀ x, (r.state n).canMove x = true ↔ x = .call id) ∨
      (r.state n).Leavings id k .closing ∧ (r.state n).calls.contains id = false
  /-- and a load that was queued is removed, with its source closed and unread. -/
  dropped : config.job c ∈ (r.state m).registry.pool.queue → ∀ {n}, r.SameStep m n → m + 4 ≤ n →
    config.job c ∉ (r.state n).registry.pool.queue ∧ ((r.state n).source c).closed = true ∧
      ((r.state n).source c).reads = 0 ∧ ((r.state n).store (.cache c)).finished = true
  /-- If a worker has taken it, the session settles with the call waiting for it, -/
  waits : r.Loading m c → ∀ {n}, r.SameStep m n →
    (n ≤ m + 4 ∧ ∀ x, (r.state n).canMove x = true ↔ x = .call id) ∨
      n = m + 5 ∧ (r.state n).Settled ∧ r.Owner n id k .closing
  /-- as long as the read in progress goes on, -/
  stays : r.Loading m c → r.SameStep m (m + 5) → ∀ {n}, m + 5 ≤ n →
    (∀ i, m + 5 ≤ i → i < n → (r.state i).answered c (r.event i) = none) →
      r.Owner n id k .closing
  /-- and when that returns, the call has the lease before the session is settled again. -/
  returns : r.Loading m c → r.SameStep m (m + 5) → ∀ {i b N}, m + 5 ≤ i →
    (∀ j, m + 5 ≤ j → j < i → (r.state j).answered c (r.event j) = none) →
      (r.state i).answered c (r.event i) = some b → b.returns = true →
        i < N → (r.state N).Settled →
          ∃ j, i < j ∧ j < N ∧ (r.state j).Leaves (r.event j) id k .closing
  /-- What it gives is discarded, and the source is read no more. -/
  discards : ∀ {n N}, r.SameStep m n → m + 4 ≤ n → n ≤ N →
    ((r.state N).store (.cache c)).chunks = ((r.state m).store (.cache c)).chunks ∧
      ((r.state N).store (.cache c)).loadedLen = ((r.state m).store (.cache c)).loadedLen ∧
        ((r.state N).source c).reads = ((r.state m).source c).reads
  /-- Neither the loads of other keys nor those of the other pool are touched. -/
  others : ∀ {n}, r.SameStep m n → m + 4 ≤ n →
    ((r.state m).cancelStore (.cache c)).Cancels .registry (.cache c) (r.state n)

theorem Wants.loading (wants : r.Wants m id k c) (loading : r.Loading m c)
    (same : r.SameStep m n) (late : m + 4 ≤ n) (settled : (r.state n).Settled) :
    r.Loading n c := by
  obtain ⟨i, l, busy, job, -⟩ := loading
  have busy : ((r.state n).pool .registry).load? i = some l := by
    rw [Pool.load?, (wants.cleared r same late).pool]
    exact busy
  exact ⟨i, l, busy, job, (r.busy settled busy).1⟩

theorem Wants.dropped (wants : r.Wants m id k c)
    (queued : config.job c ∈ (r.state m).registry.pool.queue) (same : r.SameStep m n)
    (late : m + 4 ≤ n) : config.job c ∉ (r.state n).registry.pool.queue ∧
      ((r.state n).source c).closed = true ∧ ((r.state n).source c).reads = 0 ∧
        ((r.state n).store (.cache c)).finished = true := by
  have cleared := wants.cleared r same late
  have cached := cached_iff.2 ⟨k, wants.cached⟩
  obtain ⟨-, x, -, hx, -, source⟩ := eq_of_track_of_stages (r.sound m) cached
  have apart := not_apart_of_cached cached
  have stages : ((r.state m).track c).stages = [.queued] :=
    stages_of_waiting (r.sound m) (j := config.job c) (List.mem_append_left _ queued)
  have unread : x.reads = 0 := r.unread apart (.inr (.inl stages)) x hx
  have removed : ∃ j ∈ (((r.state m).cancelStore (.cache c)).pool .registry).queuedFor (.cache c),
      j.source = c := ⟨config.job c, List.mem_filter.2 ⟨queued, decide_eq_true rfl⟩, rfl⟩
  have closed : (r.state n).source c = x.close := by
    rw [Session.source, cleared.source c, if_pos removed]
    simp [cancelStore, hx]
  refine ⟨fun still => ?_, by rw [closed]; rfl, by rw [closed]; exact unread,
    wants.finished_of_idle r (.inr queued) same late⟩
  have mem : config.job c ∈ ((r.state n).pool .registry).queue := still
  rw [cleared.pool] at mem
  exact of_decide_eq_true (List.mem_filter.1 mem).2 rfl

/-- A writer waits for nobody but its own key. -/
theorem unhindered (wants : r.Wants m id k c) (sane : r.Sane m c)
    (small : config.chunkSize < halfLimit) (free : ¬ r.Stranded m c) :
    r.Unhindered m id k c := by
  have waits : r.Loading m c → r.SameStep m (m + 5) →
      (r.state (m + 5)).task? id = some (.awaitCache k c) ∧
        ((r.state (m + 5)).track c).stages = [.running .reading] := by
    intro loading same
    rcases wants.awaits r loading same with ⟨early, -⟩ | ⟨-, settled, task⟩
    · omega
    have later := wants.loading r loading same (by omega) settled
    exact ⟨task, (later.stages r).1⟩
  refine ⟨r.idle_or_loading wants.settled wants.slot sane small free,
    fun idle _ same => wants.granted r idle same,
    fun queued _ same late => wants.dropped r queued same late, ?_, ?_, ?_, ?_,
    fun same late => wants.cleared r same late⟩
  · intro loading n same
    refine (wants.awaits r loading same).imp_right ?_
    rintro ⟨five, settled, task⟩
    exact ⟨five, settled, r.owner_of_awaits task⟩
  · intro loading same n le silent
    obtain ⟨task, reading⟩ := waits loading same
    have asked := wants.asked_stop r same (by omega)
    exact r.owner_of_awaits (r.stays task asked reading le silent)
  · intro loading same i b N le silent answer returns lt settled
    obtain ⟨task, reading⟩ := waits loading same
    have asked := wants.asked_stop r same (by omega)
    exact r.leaves_of_returns (r.stays task asked reading le silent) (r.asked asked le)
      (r.awaits asked (.inr reading) le silent) answer returns lt settled
  · intro n N same late le
    have asked := r.asked (wants.asked_stop r same late) le
    obtain ⟨y, x, hy, hx, store, source⟩ := eq_of_track_of_stages (r.sound N) asked.cached
    obtain ⟨-, ⟨y', hy', -, chunks, len⟩, x', hx', reads⟩ := asked
    cases hy.symm.trans hy'
    cases hx.symm.trans hx'
    have more := r.reads_mono c (Nat.le_trans (Nat.le_of_lt same.lt) le)
    rw [source] at more ⊢
    rw [store]
    exact ⟨chunks, len, by omega⟩

end Run

namespace Session

/-- The only worker waits in a read for one key; the load of another is queued, and its only reader
is dropped. -/
def crowded : List Event :=
  [.begin 0 (.openReader ⟨"a"⟩ (some .async) { gated := true }), .move (.call 0), .move (.call 0),
    .move (.call 0), .move (.worker .registry 0), .move (.worker .registry 0),
    .move (.worker .registry 0), .move (.worker .registry 0),
    .begin 1 (.openReader ⟨"b"⟩ (some .async) {}), .move (.call 1), .move (.call 1),
    .move (.call 1), .begin 2 (.part 1 .drop), .move (.call 2), .move (.call 2),
    .begin 3 (.openWriter ⟨"b"⟩ {})]

theorem unhindered_crowded : ∃ plays : (start { maxConcurrentLoads := 1 } 1).Plays crowded,
    (Run.ofList plays).Wants 15 3 ⟨"b"⟩ 1 ∧ (Run.ofList plays).Sane 15 1 ∧
      (Run.ofList plays).Loading 15 0 ∧
      CacheConfig.job { maxConcurrentLoads := 1 } 1 ∈
        ((Run.ofList plays).state 15).registry.pool.queue ∧
      (Run.ofList plays).Unhindered 15 3 ⟨"b"⟩ 1 := by
  have plays : (start { maxConcurrentLoads := 1 } 1).Plays crowded := by
    unfold Plays
    decide
  have settled : ((start { maxConcurrentLoads := 1 } 1).play crowded 15).Settled := by
    rw [settled_iff]
    decide
  have wants : (Run.ofList plays).Wants 15 3 ⟨"b"⟩ 1 :=
    ⟨settled, rfl, rfl, rfl, rfl, {}, rfl⟩
  have sane : (Run.ofList plays).Sane 15 1 := Run.sane_ofList plays (by decide) (by decide)
  have threaded :
      ((start { maxConcurrentLoads := 1 } 1).play crowded 15).registry.pool.Threaded := by
    unfold Pool.Threaded
    decide
  have queued : CacheConfig.job { maxConcurrentLoads := 1 } 1 ∈
      ((start { maxConcurrentLoads := 1 } 1).play crowded 15).registry.pool.queue := by decide
  exact ⟨plays, wants, sane, ⟨0, _, rfl, rfl, rfl, rfl⟩, queued,
    (Run.ofList plays).unhindered wants sane (by decide) ((Run.ofList plays).not_stranded threaded)⟩

/-- A worker dies because the buffer for its load cannot be made. The only reader is dropped, and a
writer is asked for. -/
def orphaned : List Event :=
  [.begin 0 (.openReader ⟨"a"⟩ (some .async) {}), .move (.call 0), .move (.call 0),
    .move (.call 0), .move (.worker .registry 0), .move (.worker .registry 0),
    .begin 1 (.part 0 .drop), .move (.call 1), .move (.call 1), .begin 2 (.openWriter ⟨"a"⟩ {}),
    .move (.call 2), .move (.call 2), .move (.call 2), .move (.call 2)]

/-- The source was never read; the load is neither finished nor queued nor run, and the writer waits
for it. -/
theorem hindered_orphaned : ∃ plays : (start { chunkSize := halfLimit } 1).Plays orphaned,
    (Run.ofList plays).Wants 9 2 ⟨"a"⟩ 0 ∧ (Run.ofList plays).Sane 9 0 ∧
      (Run.ofList plays).SameStep 9 14 ∧
      ¬ (Run.ofList plays).Idle 9 0 ∧ ((Run.ofList plays).state 9).registry.pool.loads = [] ∧
      ((Run.ofList plays).state 14).Settled ∧
      ((Run.ofList plays).state 14).calls.contains 2 = true ∧
      ((Run.ofList plays).state 14).registry.slots.get? ⟨"a"⟩ = some .closing ∧
      ((Run.ofList plays).state 14).registry.pool.loads = [] ∧
      (((Run.ofList plays).state 14).source 0).closed = true ∧
      (((Run.ofList plays).state 14).source 0).reads = 0 := by
  have plays : (start { chunkSize := halfLimit } 1).Plays orphaned := by
    unfold Plays
    decide
  have settled : ((start { chunkSize := halfLimit } 1).play orphaned 9).Settled := by
    rw [settled_iff]
    decide
  have settled' : ((start { chunkSize := halfLimit } 1).play orphaned 14).Settled := by
    rw [settled_iff]
    decide
  have sane : (Run.ofList plays).Sane 9 0 := Run.sane_ofList plays (by decide) (by decide)
  have moves : ∀ {i}, 9 < i → i < 14 → ∃ x, (Run.ofList plays).event i = .move x := by
    intro i late early
    have : i = 10 ∨ i = 11 ∨ i = 12 ∨ i = 13 := by omega
    rcases this with rfl | rfl | rfl | rfl <;> exact ⟨_, rfl⟩
  have busy : ¬ (Run.ofList plays).Idle 9 0 := by
    rintro (finished | queued)
    · cases finished
    · cases queued
  refine ⟨plays, ⟨settled, rfl, rfl, rfl, rfl, {}, rfl⟩, sane, ⟨by decide, moves⟩, busy, rfl,
    settled', rfl, rfl, rfl, rfl, rfl⟩

/-- No thread can be had for a worker. The call that stands in for it takes two loads from the queue
and waits in a read of the first. The only reader of the other is dropped, and a writer is asked
for. -/
def stranding : List Event :=
  [.begin 0 (.openReader ⟨"a"⟩ (some .async) { gated := true, threaded := false }),
    .move (.call 0), .move (.call 0), .begin 1 (.openReader ⟨"b"⟩ (some .async) {}),
    .move (.call 1), .move (.call 1), .move (.call 1), .move (.worker .registry 0),
    .move (.worker .registry 0), .move (.worker .registry 0), .move (.worker .registry 0),
    .move (.worker .registry 0), .begin 2 (.part 1 .drop), .move (.call 2), .move (.call 2),
    .begin 3 (.openWriter ⟨"b"⟩ {}), .move (.call 3), .move (.call 3), .move (.call 3),
    .move (.call 3)]

/-- The writer waits for a load that is not queued any more and has not begun, behind the read for
another key. -/
theorem hindered_stranding : ∃ plays : (start { maxConcurrentLoads := 1 } 1).Plays stranding,
    (Run.ofList plays).Wants 15 3 ⟨"b"⟩ 1 ∧ (Run.ofList plays).Sane 15 1 ∧
      (Run.ofList plays).SameStep 15 20 ∧
      CacheConfig.job { maxConcurrentLoads := 1 } 1 ∈
        ((Run.ofList plays).state 15).registry.pool.orphans ∧
      ((Run.ofList plays).state 20).Settled ∧
      ((Run.ofList plays).state 20).calls.contains 3 = true ∧
      ((Run.ofList plays).state 20).registry.slots.get? ⟨"b"⟩ = some .closing ∧
      ((Run.ofList plays).state 20).loadOf? (.worker .registry 0) =
        some ⟨CacheConfig.job { maxConcurrentLoads := 1 } 0, .reading⟩ ∧
      (((Run.ofList plays).state 20).source 1).closed = false := by
  have plays : (start { maxConcurrentLoads := 1 } 1).Plays stranding := by
    unfold Plays
    decide
  have settled : ((start { maxConcurrentLoads := 1 } 1).play stranding 15).Settled := by
    rw [settled_iff]
    decide
  have settled' : ((start { maxConcurrentLoads := 1 } 1).play stranding 20).Settled := by
    rw [settled_iff]
    decide
  have sane : (Run.ofList plays).Sane 15 1 := Run.sane_ofList plays (by decide) (by decide)
  have orphan : CacheConfig.job { maxConcurrentLoads := 1 } 1 ∈
      ((start { maxConcurrentLoads := 1 } 1).play stranding 15).registry.pool.orphans := by decide
  refine ⟨plays, ⟨settled, rfl, rfl, rfl, rfl, {}, rfl⟩, sane, ⟨by decide, ?_⟩, orphan,
    settled', rfl, rfl, rfl, rfl⟩
  intro i late early
  have : i = 16 ∨ i = 17 ∨ i = 18 ∨ i = 19 := by omega
  rcases this with rfl | rfl | rfl | rfl <;> exact ⟨_, rfl⟩

end Session
end SharedStream
