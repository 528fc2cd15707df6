import SharedStream.Proofs.RegistryEnd
import SharedStream.Proofs.Standstill

/-! # The life of a registry

A registry lasts as long as somebody holds it, has a handle or opens a key. When the last of them is
gone it ends, and with it end all its loads: those that are queued are dropped, and those that run
stop with the read that they wait for.
-/
namespace SharedStream

namespace Run
open Session Keys

variable {config : CacheConfig} {workers : Nat} (r : Run (start config workers))
variable {c : CallId} {k : Key} {l : Load} {b : SourceAnswer} {j : Job} {i m n w N : Nat}

/-! ## The last step -/

/-- Nobody is left after the step who uses the registry, and no read of its loads returns in it. -/
structure LastStep (r : Run (start config workers)) (m n : Nat) : Prop where
  settled : (r.state m).Settled
  used : (r.state m).hasHolder = true
  same : r.SameStep m n
  calm : r.Calm m n
  settles : (r.state n).Settled
  unused : (r.state n).hasHolder = false

section
variable (last : r.LastStep m n)
include last

theorem LastStep.ends : ∃ i, m ≤ i ∧ i < n ∧ r.Ends i ∧ (r.state n).registry.ending = .done :=
  r.ends_between last.used last.settles last.unused

/-- Nothing is left in the queue or in the hands of a stand-in. -/
theorem LastStep.not_waiting : j ∉ (r.state n).registry.pool.waiting := by
  obtain ⟨-, -, -, -, done⟩ := last.ends
  intro waits
  rcases List.mem_append.1 waits with queued | orphan
  · rw [r.queue_of_done done] at queued
    cases queued
  · obtain ⟨v, hv, mem⟩ := List.mem_flatMap.1 orphan
    obtain ⟨i, hi⟩ := List.mem_iff_getElem?.1 hv
    obtain ⟨id, k, ht⟩ := (r.reach n).exists_standIn hi (Worker.isDue_of_rest mem)
    cases (hasHolder_eq_false_iff.1 last.unused).2.2.2 id _ ht

/-- No worker comes new, since whoever hires it comes to hold the registry. -/
theorem LastStep.staff (queued : (r.state m).registry.pool.queue ≠ []) (from_ : m ≤ i)
    (upTo : i ≤ n) {v : Worker} (hv : (r.state i).registry.pool.staff[w]? = some v) :
    (r.state m).registry.pool.staff[w]? = some v ∧ v.isStuck = true := by
  obtain ⟨settled, -, ⟨-, moves⟩, calm, -, unused⟩ := last
  cases before : (r.state m).registry.pool.staff[w]? with
  | none =>
    obtain ⟨k, j, t, later, early, submits⟩ := r.hires from_ hv before
    have held := calm.holder_of_submits r settled queued moves later
      (Nat.lt_of_lt_of_le early upTo) submits
    cases held.symm.trans unused
  | some v' =>
    have stuck := (settled.stuck (r.balanced .registry m) queued).1 v' (List.mem_of_getElem? before)
    cases hv.symm.trans ((calm.stuck r settled queued from_ upTo).kept before)
    exact ⟨rfl, stuck⟩

/-- A load that was queued is removed. -/
theorem LastStep.removed (queued : j ∈ (r.state m).registry.pool.queue) :
    j ∈ (r.ledger .registry n).removed := by
  have some := List.ne_nil_of_mem queued
  have waits : j ∈ ((r.state m).pool .registry).waiting := List.mem_append_left _ queued
  rcases r.waiting_onward waits (Nat.le_of_lt last.same.lt) with
    still | ⟨k, w, from_, upTo, load⟩ | ⟨k, from_, upTo, discards⟩
  · exact absurd still (last.not_waiting r)
  · -- A worker that has begun it was there, and would have waited in a read of it.
    rw [loadOf?_worker] at load
    obtain ⟨o, hw⟩ := Pool.load?_eq_some load
    have before := (last.staff r some from_ upTo hw).1
    have reading := (r.busy (n := .registry) last.settled (Pool.load?_of_loading before)).1.1
    cases reading
  · cases discards.drops with
    | removed queued cancel =>
      refine r.removed_mono upTo ?_
      rw [r.ledger_succ (poolActs_eq_singleton cancel)]
      exact List.mem_append_right _ (List.mem_filter.2 ⟨queued, decide_eq_true rfl⟩)
    | lost queued drop =>
      have lost : j ∈ (r.ledger .registry (k + 1)).lost := by
        rw [r.ledger_succ (poolActs_eq_singleton drop)]
        exact List.mem_append_right _ queued
      rw [r.lost_eq_nil] at lost
      cases lost
    | shed shed =>
      generalize event : r.event k = e at shed
      cases cause shed with
      | sheds hw => cases (last.staff r some from_ (Nat.le_of_lt upTo) hw).2

section
variable (busy : (r.state m).registry.pool.load? w = some l)
include busy

theorem LastStep.waits (from_ : m ≤ i) (upTo : i ≤ n) :
    Track.Waits ((r.state m).store (.cache l.job.source)) ((r.state m).source l.job.source).reads
      ((r.state i).track l.job.source) := by
  obtain ⟨o, hw⟩ := Pool.load?_eq_some busy
  have hs := r.sound m
  have cached := (hs.own (Pool.mem_jobs_of_staff hw)).2
  obtain ⟨y, x, hy, hx, store, source⟩ := eq_of_track_of_stages hs cached
  refine r.waits ⟨cached, ?_, ⟨y, hy, by rw [store], by rw [store]⟩, x, hx, by rw [source]⟩ from_
    fun k later early => last.calm busy later (Nat.lt_of_lt_of_le early upTo)
  have reading := (r.busy (n := .registry) last.settled busy).1.1
  exact reading ▸ stages_of_staff hs hw

theorem LastStep.stops : ∃ k, m ≤ k ∧ k < n ∧ r.Stops k l.job.source := by
  obtain ⟨i, from_, upTo, ends, done⟩ := last.ends
  have load := Calm.load r last.settled last.calm busy from_ (Nat.le_of_lt upTo)
  rw [loadOf?_worker] at load
  obtain ⟨o, hw⟩ := Pool.load?_eq_some load
  have mem := Pool.mem_jobs_of_staff hw
  obtain ⟨k, later, early, stops⟩ := ends.stops r ((r.sound i).own mem).2
    (r.not_gone_of_mem_jobs mem) upTo done
  exact ⟨k, by omega, early, stops⟩

/-- A load that is run adds nothing to its store any more, and begins no other read. -/
theorem LastStep.discards (le : n ≤ N) :
    ((r.state N).store (.cache l.job.source)).chunks =
        ((r.state m).store (.cache l.job.source)).chunks ∧
      ((r.state N).store (.cache l.job.source)).loadedLen =
        ((r.state m).store (.cache l.job.source)).loadedLen ∧
      ((r.state N).source l.job.source).reads = ((r.state m).source l.job.source).reads := by
  obtain ⟨k, from_, upTo, stops⟩ := last.stops r busy
  obtain ⟨cached, reading, ⟨y, hy, chunks, len⟩, x, hx, reads⟩ :=
    last.waits r busy from_ (Nat.le_of_lt upTo)
  obtain ⟨chunks', len'⟩ := Stops.kept r stops (Nat.lt_of_lt_of_le upTo le)
  have most := Stops.reads r stops (Nat.lt_of_lt_of_le upTo le)
  have least := r.reads_mono l.job.source (Nat.le_trans (Nat.le_of_lt last.same.lt) le)
  have due : ((r.state k).track l.job.source).due = 0 := Track.due_eq_zero (by simp [reading])
  have store : (r.state k).store (.cache l.job.source) = y := by
    rw [Session.store, show (r.state k).stores.get? (.cache l.job.source) = some y from hy]
    rfl
  have source : (r.state k).source l.job.source = x := by
    rw [Session.source, show (r.state k).sources.get? l.job.source = some x from hx]
    rfl
  rw [store] at chunks' len'
  rw [source, due, reads] at most
  exact ⟨chunks'.trans chunks, len'.trans len, Nat.le_antisymm most least⟩

/-- It ends when the read in which it is has returned. -/
theorem LastStep.returns (from_ : n ≤ i)
    (silent : ∀ k, n ≤ k → k < i → (r.state k).answered l.job.source (r.event k) = none)
    (answer : (r.state i).answered l.job.source (r.event i) = some b) (returns : b.returns = true)
    (later : i < N) (settled : (r.state N).Settled) :
    ((r.state N).store (.cache l.job.source)).finished = true ∧
      ((r.state N).source l.job.source).closed = true := by
  obtain ⟨k, later', early, stops⟩ := last.stops r busy
  have load := Calm.load r last.settled last.calm busy later' (Nat.le_of_lt early)
  rw [loadOf?_worker] at load
  obtain ⟨o, hw⟩ := Pool.load?_eq_some load
  have own := ((r.sound k).own (Pool.mem_jobs_of_staff hw)).1
  have reading := (r.busy (n := .registry) last.settled busy).1.1
  refine Stops.returns r stops (.inl ⟨.registry, w, o, hw⟩) own (.inr reading)
    (Nat.lt_of_lt_of_le early from_) (fun k' after before => ?_) answer returns later settled
  by_cases step : k' < n
  · exact last.calm busy (by omega) step
  · exact silent k' (Nat.le_of_not_lt step) before

end
end

/-! ## The life of a registry -/

/-- What becomes of the loads of a registry in its last step. -/
structure Sweeps (r : Run (start config workers)) (m n : Nat) : Prop where
  /-- Each that was queued is removed, with its source closed and unread and its store finished, -/
  dropped : ∀ {j}, j ∈ (r.state m).registry.pool.queue →
    j ∈ (r.ledger .registry n).removed ∧ Untaken (r.state n) j
  /-- so that nothing is left in the queue, nor with a call that stands in for a worker. -/
  empty : (r.state n).registry.pool.waiting = []
  /-- Whatever one that is run gets from its read is discarded, and no other read begins, -/
  discards : ∀ {w l N}, (r.state m).registry.pool.load? w = some l → n ≤ N →
    ((r.state N).store (.cache l.job.source)).chunks =
        ((r.state m).store (.cache l.job.source)).chunks ∧
      ((r.state N).store (.cache l.job.source)).loadedLen =
        ((r.state m).store (.cache l.job.source)).loadedLen ∧
      ((r.state N).source l.job.source).reads = ((r.state m).source l.job.source).reads
  /-- and when the read has returned, its source is closed and its store is finished. -/
  returns : ∀ {w l i b N}, (r.state m).registry.pool.load? w = some l → n ≤ i →
    (∀ k, n ≤ k → k < i → (r.state k).answered l.job.source (r.event k) = none) →
      (r.state i).answered l.job.source (r.event i) = some b → b.returns = true →
        i < N → (r.state N).Settled →
          ((r.state N).store (.cache l.job.source)).finished = true ∧
            ((r.state N).source l.job.source).closed = true

theorem LastStep.sweeps (last : r.LastStep m n) : r.Sweeps m n where
  dropped queued := by
    have removed := last.removed r queued
    exact ⟨removed, r.untaken_of_removed removed⟩
  empty := List.eq_nil_iff_forall_not_mem.2 fun _ => last.not_waiting r
  discards busy le := last.discards r busy le
  returns busy from_ silent answer returns later settled :=
    last.returns r busy from_ silent answer returns later settled

/-- How long a registry lasts, and what becomes of its loads. -/
structure Lifetime (r : Run (start config workers)) : Prop where
  /-- It lasts while somebody holds it, has a handle or opens a key, -/
  lasts : ∀ {n}, (r.state n).hasHolder = true → (r.state n).registry.ended = false
  /-- and no longer: it ends in the step in which the last of them goes. -/
  ends : ∀ {m n}, (r.state m).hasHolder = true → (r.state n).Settled →
    (r.state n).hasHolder = false →
      ∃ i, m ≤ i ∧ i < n ∧ r.Ends i ∧ (r.state n).registry.ending = .done
  /-- A load is asked to stop at the end of the registry, or by a call that opens its key for
  writing and has found that nobody reads the cache, -/
  stops : ∀ {n c}, (r.state n).canceled c = false → (r.state (n + 1)).canceled c = true →
    r.Stops n c ∨ ∃ w k, r.event n = .move (.call w) ∧
      (r.state n).task? w = some (.cancelCache k c) ∧ ∀ y, ¬ (r.state n).Reads y c
  /-- so that none is when something is given up, unless it is the last reader of a cache for whose
  key a writer waits. -/
  spares : ∀ {m n}, (r.state m).Settled → LetsGo (r.event m) → r.SameStep m n →
    (r.state n).registry.ended = false →
      (∀ c, (r.state n).canceled c = true →
        (r.state m).canceled c = true ∨ ∃ k, r.Forsakes m k c) ∧
      ∀ j ∈ (r.ledger .registry n).removed, j ∈ (r.ledger .registry m).removed ∨
        ∃ k c, j.store = .cache c ∧ r.Forsakes m k c
  /-- In the step in which the last handle or the registry itself is given up, and in any other
  after which nobody is left, all that is queued goes, and whatever is run ends with its read. -/
  last : ∀ {m n}, (r.state m).Settled → (r.state m).hasHolder = true → r.SameStep m n →
    LetsGo (r.event m) ∨ r.Calm m n → (r.state n).Settled → (r.state n).hasHolder = false →
      r.Sweeps m n
  /-- Whatever else goes on meanwhile, each load that is queued or run when the registry begins to
  end is asked to stop. -/
  turns : ∀ {i n j}, r.Ends i → j ∈ (r.state i).registry.pool.jobs → i < n →
    (r.state n).registry.ending = .done → ∃ k, i < k ∧ k < n ∧ r.Stops k j.source
  /-- The queue is emptied for good: -/
  empties : ∀ {n}, (r.state n).registry.ending = .done →
    ∀ {n'}, n ≤ n' → (r.state n').registry.pool.queue = []
  /-- each load is removed, with its source closed and unread and its store finished, unless a
  worker takes it before its turn. -/
  drops : ∀ {i n j}, r.Ends i → j ∈ (r.state i).registry.pool.queue → i ≤ n →
    (r.state n).registry.ending = .done →
      j ∈ (r.ledger .registry n).removed ∧ Untaken (r.state n) j ∨
        ∃ w, (w, j) ∈ (r.ledger .registry n).taken
  /-- Nothing comes any more to the store of a load that is asked to stop, and it begins no read but
  the one that it was about to begin. -/
  discards : ∀ {i n c}, r.Stops i c → i < n →
    ((r.state n).store (.cache c)).chunks = ((r.state i).store (.cache c)).chunks ∧
      ((r.state n).store (.cache c)).loadedLen = ((r.state i).store (.cache c)).loadedLen ∧
        ((r.state n).source c).reads ≤ ((r.state i).source c).reads + 1 ∧
          ((∀ l, (r.state i).Runs l → l.job.source = c → l.phase ≠ .beginning) →
            ((r.state n).source c).reads = ((r.state i).source c).reads)
  /-- One that waits in a read, or is about to begin one, ends when the read has returned, -/
  returns : ∀ {i m n l c b}, r.Stops i c → (r.state i).Runs l → l.job.store = .cache c →
    l.phase = .beginning ∨ l.phase = .reading → i < m →
      (∀ j, i < j → j < m → (r.state j).answered c (r.event j) = none) →
        (r.state m).answered c (r.event m) = some b → b.returns = true →
          m < n → (r.state n).Settled →
            ((r.state n).store (.cache c)).finished = true ∧ ((r.state n).source c).closed = true
  /-- and one that has its buffer and does not wait ends of itself. -/
  winds : ∀ {i n l c}, r.Stops i c → (r.state i).Runs l → l.job.store = .cache c →
    l.phase.winds = true → i < n → (r.state n).Settled →
      ((r.state n).store (.cache c)).finished = true ∧ ((r.state n).source c).closed = true

end Run

namespace Session

/-- The only worker waits in a read for one key and the load of another is queued when the readers
and then the registry are let go. -/
def lastHandle : List Event :=
  [.begin 0 (.openReader ⟨"a"⟩ (some .async) { gated := true }), .move (.call 0), .move (.call 0),
    .move (.call 0), .move (.worker .registry 0), .move (.worker .registry 0),
    .move (.worker .registry 0), .move (.worker .registry 0),
    .begin 1 (.openReader ⟨"b"⟩ (some .async) {}), .move (.call 1), .move (.call 1),
    .move (.call 1), .begin 2 .dropRegistry, .begin 3 (.part 0 .drop), .move (.call 3),
    .move (.call 3), .begin 4 (.part 1 .drop), .move (.call 4), .move (.call 4),
    .move .registry, .move .registry, .move .registry, .move .registry, .move .registry,
    .move .registry]

example : let s := (start { maxConcurrentLoads := 1 } 1).play lastHandle
    (s 19).registry.pool.queue = [⟨.cache 1, 1, 4096⟩] ∧ (s 25).registry.pool.queue = [] ∧
      ((s 25).source 1).closed = true ∧ ((s 25).store (.cache 1)).finished = true ∧
      (s 25).canceled 0 = true ∧ ((s 25).store (.cache 0)).finished = false := by
  decide

end Session
end SharedStream
