import SharedStream.Proofs.Consistency
import SharedStream.Proofs.Dropping

/-! # The end of a registry

A registry that nobody uses any more ends: one after another the loads of its caches are asked to
stop, and those that are queued are dropped. Workers go on meanwhile, so that a load may still be
taken from the queue before its turn.
-/
namespace SharedStream

/-- A call that does not hold the registry does not come to hold it. -/
theorem Task.Leads.holdsRegistry {a b : Task} (leads : a.Leads b)
    (holds : b.holdsRegistry = true) : a.holdsRegistry = true := by
  cases leads <;> first | rfl | cases holds

/-- Once the registry is let go and nobody opens anything, it stays so. -/
theorem Keys.Step.unused {v v' : Keys} {who : Option CallId} (h : v.Step who v')
    (held : v.held = false) (roles : ∀ i, v.role i = none) :
    v'.held = false ∧ ∀ i, v'.role i = none := by
  cases h with
  | quiet => exact ⟨held, roles⟩
  | leave => exact ⟨held, roles⟩
  | giveBack => exact ⟨held, roles⟩
  | finish => exact ⟨held, roles⟩
  | enter id role built kept later seeks =>
    refine ⟨by simp [held], fun i => ?_⟩
    cases role with
    | none => by_cases hi : i = id <;> simp [hi, roles]
    | some r =>
      rw [held] at seeks
      cases (seeks r rfl).2.2
  | abandon role =>
    rcases role with role | role <;> simp [roles] at role
  | grant role =>
    rcases role with ⟨role, -⟩ | role <;> simp [roles] at role
  | refuse role | claim role | attach role | build role | register role | retire role
  | retired role => simp [roles] at role

namespace Session
open Keys

variable {s u : Session} {e : Event} {c : CallId} {x : StoreId} {l : Load}

/-! ## Nobody comes back -/

/-- A registry that nobody uses is not used again. -/
theorem Reach.unused_after {config : CacheConfig} {workers : Nat}
    (h : Reach (start config workers) s) (admitted : s.admits e) (unused : s.hasHolder = false) :
    (s.after e).hasHolder = false := by
  have roles := role_eq_none_of_unused unused
  obtain ⟨held, readers, writers, tasks⟩ := hasHolder_eq_false_iff.1 unused
  have step := step_after h.sound admitted
  have holds := (h.after admitted).holds
  obtain ⟨held', roles'⟩ := step.unused held roles
  have readers' : ∀ i, (s.after e).readers.get? i = none := by
    intro i
    by_contra some
    obtain ⟨x, hx⟩ := Option.ne_none_iff_exists'.1 some
    have before := step.reader_of_ended (roles i) (reader_of_handle hx)
    simp [keys, readers] at before
  have writers' : ∀ i, (s.after e).writers.get? i = none := by
    intro i
    by_contra some
    obtain ⟨x, hx⟩ := Option.ne_none_iff_exists'.1 some
    have before := step.writer_of_ended (k := x.key) (roles i) (by simp [keys, hx])
    simp [keys, writers] at before
  refine hasHolder_eq_false_iff.2 ⟨held', readers', writers', fun i t ht => ?_⟩
  rcases task_after h.sound h.attentive admitted ht with ⟨op, rfl⟩ | ⟨a, before, same⟩
  · have first := (entry { s with clock := i + 1 } i op).firstTask? ht
    have role := (role_of_task ht).symm.trans (roles' i)
    cases t with
    | leave y p => simpa [Table.contains, readers'] using holds.leave ht
    | closeSink y p => simpa [Table.contains, writers'] using holds.closeSink ht
    | giveBack y f p => simpa [Table.contains, writers'] using holds.giveBack ht
    | announce | expire => cases isFirst_of_firstTask? first
    | read | readStore | awaitStore | makeLoad | load | assist => rfl
    | _ => cases role
  · by_contra holds
    have holds : t.holdsRegistry = true := by simpa using holds
    have none := tasks i a before
    rcases same with rfl | leads
    · cases none.symm.trans holds
    · cases none.symm.trans (leads.holdsRegistry holds)

end Session

namespace Run
open Session Keys

variable {config : CacheConfig} {workers : Nat} (r : Run (start config workers))
variable {c : CallId} {k : Key} {l : Load} {b : SourceAnswer} {j : Job} {i m n N : Nat}

/-! ## When the registry ends -/

/-- Nobody holds the registry any more, and it begins to end. -/
structure Ends (r : Run (start config workers)) (i : Nat) : Prop where
  event : r.event i = .move .registry
  ahead : (r.state i).registry.ending = .ahead

theorem Ends.unused (ends : r.Ends i) : (r.state i).hasHolder = false := by
  have can : (r.state i).canMove .registry = true := by
    have admitted := r.admitted i
    rwa [ends.event] at admitted
  exact unused_of_canMove can ends.ahead

theorem ending_succ_of_ne (other : r.event n ≠ .move .registry) :
    (r.state (n + 1)).registry.ending = (r.state n).registry.ending := by
  rw [r.state_succ]
  exact (stands_after other).ending

theorem ending_succ (moves : r.event n = .move .registry) :
    (r.state (n + 1)).registry.ending = (r.state n).endRegistry.registry.ending := by
  rw [r.state_succ, moves]
  rfl

/-- Before the registry has ended it began to end. -/
theorem exists_ends (ended : r.Ended n) : ∃ i, i < n ∧ r.Ends i := by
  obtain ⟨i, lt, moves⟩ := ended
  induction i using Nat.strongRecOn with
  | ind i ih =>
    by_cases first : r.Ended i
    · obtain ⟨i', earlier, moves'⟩ := first
      exact ih i' earlier (Nat.lt_trans earlier lt) moves'
    · refine ⟨i, lt, moves, ?_⟩
      rw [← r.ended_iff] at first
      simpa [Registry.ended] using first

theorem unused (unused : (r.state m).hasHolder = false) (le : m ≤ n) :
    (r.state n).hasHolder = false :=
  r.kept (P := fun s => s.hasHolder = false) unused
    (fun i _ h => (r.reach i).unused_after (r.admitted i) h) le

theorem unused_of_ended (ended : r.Ended n) : (r.state n).hasHolder = false := by
  obtain ⟨i, lt, ends⟩ := r.exists_ends ended
  exact r.unused (ends.unused r) (Nat.le_of_lt lt)

/-- A registry that nobody uses has ended before the session is settled. -/
theorem done_of_unused (settled : (r.state n).Settled) (unused : (r.state n).hasHolder = false) :
    (r.state n).registry.ending = .done := by
  have still := settled .registry
  rw [canMove, unused] at still
  cases stage : (r.state n).registry.ending with
  | ahead | cancel | dequeue => simp [stage] at still
  | done => rfl

theorem ended_of_ending (begun : (r.state n).registry.ending ≠ .ahead) : r.Ended n := by
  rw [← r.ended_iff]
  simpa [Registry.ended] using begun

theorem ends_between (before : (r.state m).hasHolder = true) (settled : (r.state n).Settled)
    (unused : (r.state n).hasHolder = false) :
    ∃ i, m ≤ i ∧ i < n ∧ r.Ends i ∧ (r.state n).registry.ending = .done := by
  have done := r.done_of_unused settled unused
  obtain ⟨i, lt, ends⟩ := r.exists_ends (n := n) (r.ended_of_ending (by simp [done]))
  refine ⟨i, ?_, lt, ends, done⟩
  by_contra early
  cases before.symm.trans (r.unused (ends.unused r) (Nat.le_of_not_le early))

/-! ## The turns of the caches -/

/-- The registry ends, and asks the load of the cache to stop. -/
def Stops (r : Run (start config workers)) (n : Nat) (c : CallId) : Prop :=
  r.event n = .move .registry ∧ ∃ rest, (r.state n).registry.ending = .cancel (c :: rest)

/-- The caches whose loads are still to be asked to stop. -/
def Unasked (s : Session) (c : CallId) : Prop :=
  (∃ cs, s.registry.ending = .cancel cs ∧ c ∈ cs) ∨
    ∃ d cs, s.registry.ending = .dequeue d cs ∧ c ∈ cs

theorem unasked_succ (unasked : Unasked (r.state n) c) :
    Unasked (r.state (n + 1)) c ∨ r.Stops n c := by
  by_cases moves : r.event n = .move .registry
  · have next := r.ending_succ moves
    rcases unasked with ⟨cs, stage, mem⟩ | ⟨d, cs, stage, mem⟩
    · cases cs with
      | nil => cases mem
      | cons d cs =>
        rcases List.mem_cons.1 mem with rfl | later
        · exact .inr ⟨moves, cs, stage⟩
        · exact .inl (.inr ⟨d, cs, by rw [next, endRegistry, stage]; rfl, later⟩)
    · exact .inl (.inl ⟨cs, by rw [next, endRegistry, stage]; rfl, mem⟩)
  · have same := r.ending_succ_of_ne moves
    exact .inl (by simpa only [Unasked, same] using unasked)

/-- The load of each cache in a slot is asked to stop before the registry has ended. -/
theorem exists_stops (unasked : Unasked (r.state m) c) (le : m ≤ n)
    (done : (r.state n).registry.ending = .done) : ∃ i, m ≤ i ∧ i < n ∧ r.Stops i c := by
  have last : ¬ Unasked (r.state n) c := by
    rintro (⟨_, stage, -⟩ | ⟨_, _, stage, -⟩) <;> cases stage.symm.trans done
  obtain ⟨i, from_, upTo, still, ends⟩ :=
    exists_end (P := fun i => Unasked (r.state i) c) unasked last le
  exact ⟨i, from_, upTo, (r.unasked_succ still).resolve_left ends⟩

section
variable (ends : r.Ends i)
include ends

theorem Ends.unasked (mem : c ∈ (r.state i).registry.caches) : Unasked (r.state (i + 1)) c := by
  refine .inl ⟨(r.state i).registry.caches, ?_, mem⟩
  rw [r.ending_succ ends.event, endRegistry, ends.ahead]

/-- A cache whose load has not stopped is in a slot when the registry ends. -/
theorem Ends.slot (cached : (r.state i).caches.contains c = true)
    (going : ¬ ((r.state i).track c).Gone) : c ∈ (r.state i).registry.caches := by
  have roles := role_eq_none_of_unused (ends.unused r)
  obtain ⟨x, hx⟩ := r.exists_cache_of_keyOf cached
  rcases r.settled ⟨x, hx⟩ with (builds | slot | ⟨w, retires⟩) | ⟨ended, -⟩ | ⟨gone, -⟩
  · cases (roles c).symm.trans builds
  · exact mem_caches_iff.2 ⟨_, slot⟩
  · cases (roles w).symm.trans retires
  · rw [← r.ended_iff] at ended
    simp [Registry.ended, ends.ahead] at ended
  · exact absurd gone going

/-- A load that is queued or run when the registry ends is asked to stop. -/
theorem Ends.stops (cached : (r.state i).caches.contains c = true)
    (going : ¬ ((r.state i).track c).Gone) (lt : i < n)
    (done : (r.state n).registry.ending = .done) : ∃ k, i < k ∧ k < n ∧ r.Stops k c :=
  r.exists_stops (ends.unasked r (ends.slot r cached going)) lt done

end

/-! ## Queued loads -/

/-- Nothing is submitted any more once the registry has begun to end. -/
theorem not_submits (ended : r.Ended n) (t : Bool) :
    .submit j t ∉ (r.state n).poolActs .registry (r.event n) := by
  intro submits
  have roles := role_eq_none_of_unused (r.unused_of_ended ended)
  have cause := cause submits
  generalize r.event n = e at cause
  cases cause with
  | loaded ht => cases (role_of_task ht).symm.trans (roles _)

theorem not_gone_of_mem_jobs (mem : j ∈ (r.state n).registry.pool.jobs) :
    ¬ ((r.state n).track j.source).Gone := by
  rintro ⟨-, idle⟩
  rcases List.mem_append.1 mem with waits | running
  · cases (stages_of_waiting (r.sound n) waits).symm.trans idle
  · obtain ⟨l, hl, rfl⟩ := List.mem_map.1 running
    obtain ⟨w, hw, load⟩ := List.mem_filterMap.1 hl
    obtain ⟨i, hi⟩ := List.mem_iff_getElem?.1 hw
    cases w <;> cases load
    cases (stages_of_staff (r.sound n) hi).symm.trans idle

theorem mem_queue_succ (queued : j ∈ (r.state (n + 1)).registry.pool.queue) :
    j ∈ (r.state n).registry.pool.queue ∨
      ∃ t, .submit j t ∈ (r.state n).poolActs .registry (r.event n) := by
  have queued : j ∈ ((r.state (n + 1)).pool .registry).queue := queued
  rcases r.pool_step .registry n with ⟨-, same⟩ | ⟨a, acts, -, step⟩
  · rw [same] at queued
    exact .inl queued
  · rw [step] at queued
    refine (Pool.mem_queue_act queued).imp_right ?_
    rintro ⟨t, rfl⟩
    exact ⟨t, acts ▸ List.mem_singleton_self _⟩

/-- What is queued has still to be removed. -/
theorem stopping_of_queued (ended : r.Ended n) (queued : j ∈ (r.state n).registry.pool.queue) :
    j.source ∈ (r.state n).registry.ending.caches := by
  induction n with
  | zero => exact absurd ended fun ⟨_, lt, _⟩ => Nat.not_lt_zero _ lt
  | succ n ih =>
    by_cases first : r.Ended n
    · have before := (r.mem_queue_succ queued).resolve_right fun ⟨t, submits⟩ =>
        r.not_submits first t submits
      have mem := ih first before
      by_cases moves : r.event n = .move .registry
      · rw [r.ending_succ moves, endRegistry]
        cases stage : (r.state n).registry.ending with
        | ahead | done => simp [stage, Ending.caches] at mem
        | cancel cs =>
          cases cs with
          | nil => simp [stage, Ending.caches] at mem
          | cons d cs => simpa [stage, Ending.caches, setEnding] using mem
        | dequeue d cs =>
          rw [stage, Ending.caches] at mem
          refine (List.mem_cons.1 mem).resolve_left fun same => ?_
          -- The load of that cache has just been removed.
          have own := ((r.sound n).own (Pool.mem_jobs_of_queue before)).1
          have acts : (r.state n).poolActs .registry (r.event n) = [.cancel (.cache d)] := by
            simp [moves, poolActs, stage]
          have queued' : j ∈ ((r.state (n + 1)).pool .registry).queue := queued
          rw [r.pool_succ, acts] at queued'
          have kept := of_decide_eq_true (List.mem_filter.1 queued').2
          exact kept (by rw [own, same])
      · rwa [r.ending_succ_of_ne moves]
    · obtain ⟨i, lt, ends⟩ := r.exists_ends ended
      obtain rfl : i = n := by
        by_contra other
        exact first ⟨i, by omega, ends.event⟩
      have before := (r.mem_queue_succ queued).resolve_right fun ⟨t, submits⟩ => by
        rw [ends.event] at submits
        cases cause submits
      have mem := Pool.mem_jobs_of_queue before
      obtain ⟨-, cached⟩ := (r.sound i).own mem
      rw [r.ending_succ ends.event, endRegistry, ends.ahead]
      exact ends.slot r cached (r.not_gone_of_mem_jobs mem)

/-- Nothing is queued any more when the registry has ended. -/
theorem queue_of_done (done : (r.state n).registry.ending = .done) :
    (r.state n).registry.pool.queue = [] := by
  refine List.eq_nil_iff_forall_not_mem.2 fun j queued => ?_
  have mem := r.stopping_of_queued (r.ended_of_ending (by simp [done])) queued
  simp [done, Ending.caches] at mem

theorem done_mono (done : (r.state m).registry.ending = .done) (le : m ≤ n) :
    (r.state n).registry.ending = .done := by
  refine r.kept (P := fun s => s.registry.ending = .done) done (fun i _ done => ?_) le
  rw [← r.state_succ]
  by_cases moves : r.event i = .move .registry
  · rw [r.ending_succ moves, endRegistry, done]
    exact done
  · rw [r.ending_succ_of_ne moves, done]

/-- The pool of the registry goes when the registry has ended. -/
theorem done_of_shutDown (down : (r.state n).registry.pool.shutDown = true) :
    (r.state n).registry.ending = .done := by
  induction n with
  | zero => simp [r.state_zero, start, Registry.ofConfig, Pool.ofLimit] at down
  | succ n ih =>
    have down' : ((r.state (n + 1)).pool .registry).shutDown = true := down
    rw [r.pool_succ] at down'
    rcases shutDown_acts down' with before | shuts
    · exact r.done_mono (ih before) (Nat.le_succ n)
    · have cause := cause shuts
      generalize event : r.event n = e at cause
      cases cause with
      | ended stage => rw [r.ending_succ event, endRegistry, stage]; rfl

/-- So no load is lost with its queue. -/
theorem lost_eq_nil (n : Nat) : (r.ledger .registry n).lost = [] := by
  refine List.eq_nil_iff_forall_not_mem.2 fun j lost => ?_
  induction n with
  | zero => cases lost
  | succ n ih =>
    rcases Ledger.lost_enterAll lost with before | drops
    · exact ih before
    · have allows := r.allows .registry n
      rw [ledger, poolActs_eq_singleton drops] at lost
      rw [poolActs_eq_singleton drops] at allows
      have queue := r.queue_of_done (r.done_of_shutDown (Bool.and_eq_true_iff.1 allows.1).1)
      rcases List.mem_append.1 lost with before | queued
      · exact ih before
      · have queued : j ∈ (r.state n).registry.pool.queue := queued
        rw [queue] at queued
        cases queued

theorem removed_cases {p : PoolName} (removed : j ∈ (r.ledger p (n + 1)).removed) :
    j ∈ (r.ledger p n).removed ∨ j ∈ ((r.state n).pool p).queue ∧
      .cancel j.store ∈ (r.state n).poolActs p (r.event n) := by
  rcases Ledger.removed_enterAll removed with before | cancel
  · exact .inl before
  · rw [ledger, poolActs_eq_singleton cancel] at removed
    exact (List.mem_append.1 removed).imp_right fun now => ⟨List.mem_of_mem_filter now, cancel⟩

/-- The load of a cache was never taken up: its source is closed and unread, its store finished. -/
structure Untaken (s : Session) (j : Job) : Prop where
  own : s.Own j
  closed : (s.source j.source).closed = true
  unread : (s.source j.source).reads = 0
  finished : (s.store j.store).finished = true

theorem Untaken.succ (h : Untaken (r.state n) j) : Untaken (r.state (n + 1)) j := by
  obtain ⟨⟨own, cached⟩, closed, unread, finished⟩ := h
  rw [own] at finished
  have gone := (r.sound n).gone_of_finished cached finished
  have rests := r.rests gone (Nat.le_succ n)
  refine ⟨(r.sound n).own_next (r.step n) ⟨own, cached⟩, rests.closed.trans closed,
    rests.reads.trans unread, ?_⟩
  rw [own]
  exact rests.finished.trans finished

theorem untaken_of_removed (removed : j ∈ (r.ledger .registry n).removed) :
    Untaken (r.state n) j := by
  induction n with
  | zero => cases removed
  | succ n ih =>
    rcases r.removed_cases removed with before | ⟨queued, cancel⟩
    · exact Untaken.succ r (ih before)
    · have hs := r.sound n
      have waits : j ∈ (r.state n).registry.pool.waiting := List.mem_append_left _ queued
      obtain ⟨own, cached⟩ := hs.own (Pool.mem_jobs_of_waiting waits)
      have stages := stages_of_waiting hs waits
      obtain ⟨y, x, hy, hx, -⟩ := eq_of_track_of_stages hs cached
      have unread : x.reads = 0 := r.unread (not_apart_of_cached cached) (.inr (.inl stages)) x hx
      have searched := searches_of_cancel cancel
      have source : (r.state (n + 1)).source j.source = x.close := by
        rw [r.state_succ, Session.source, searched.cancels.source,
          if_pos ⟨j, List.mem_filter.2 ⟨queued, by simp⟩, rfl⟩,
          show (r.state n).sources.get? j.source = some x from hx]
        rfl
      have finished : ((r.state (n + 1)).store j.store).finished = true := by
        rw [r.state_succ]
        exact finished_of_cancel queued (own ▸ Option.isSome_of_eq_some hy) cancel
      refine ⟨hs.own_next (r.step n) ⟨own, cached⟩, by rw [source]; rfl, ?_, finished⟩
      rw [source]
      exact unread

/-- A load that is queued when the registry ends is removed, unless a worker takes it before its
turn. -/
theorem removed_or_taken (queued : j ∈ (r.state i).registry.pool.queue) (le : i ≤ n)
    (done : (r.state n).registry.ending = .done) :
    j ∈ (r.ledger .registry n).removed ∨ ∃ w, (w, j) ∈ (r.ledger .registry n).taken := by
  have submitted : j ∈ (r.ledger .registry n).submitted :=
    r.submitted_mono le ((r.agrees .registry i).perm.subset
      (List.mem_append_right _ (List.mem_append_right _ queued)))
  have place := (r.agrees .registry n).perm.symm.subset submitted
  have queue : ((r.state n).pool .registry).queue = [] := r.queue_of_done done
  rw [r.lost_eq_nil, queue, List.append_nil, List.append_nil] at place
  refine (List.mem_append.1 place).imp_right fun taken => ?_
  obtain ⟨⟨w, j'⟩, mem, rfl⟩ := List.mem_map.1 taken
  exact ⟨w, mem⟩

/-! ## Running loads -/

section
variable (stops : r.Stops i c)
include stops

theorem Stops.store : (r.state (i + 1)).stores =
    (r.state i).stores.modify (.cache c) Store.cancel := by
  obtain ⟨moves, rest, stage⟩ := stops
  rw [r.state_succ, moves]
  simp [after, move, endRegistry, stage, cancelStore, setEnding]

theorem Stops.track :
    ((r.state (i + 1)).track c) = { (r.state i).track c with
      store := ((r.state i).track c).store.map Store.cancel } := by
  have stores := Stops.store r stops
  obtain ⟨moves, rest, stage⟩ := stops
  have others : (r.state (i + 1)).caches = (r.state i).caches ∧
      (r.state (i + 1)).sources = (r.state i).sources ∧
      (r.state (i + 1)).calls = (r.state i).calls ∧
      (r.state (i + 1)).registry.pool = (r.state i).registry.pool := by
    rw [r.state_succ, moves]
    simp [after, move, endRegistry, stage, cancelStore, setEnding]
  obtain ⟨caches, sources, calls, pool⟩ := others
  simp [Session.track, Session.stages, task?, caches, sources, calls, pool, stores,
    Table.get?_modify]

theorem Stops.cached : (r.state i).caches.contains c = true := by
  obtain ⟨-, rest, stage⟩ := stops
  exact (r.sound i).halts.cached c (by simp [stage, Ending.caches])

/-- Of the loads into caches only those run that workers have taken. -/
theorem busy_of_stops (runs : (r.state i).Runs l) (own : l.job.store = .cache c) :
    l.job.source = c ∧ ∃ (w : Nat) (o : Option (List Job)),
      (r.state i).registry.pool.staff[w]? = some (.loading l o) := by
  have hs := r.sound i
  have apart : ¬ (r.state i).Foreign l.job := by
    rintro ⟨⟨y, other⟩, -⟩
    cases own.symm.trans other
  rcases runs with ⟨_ | _, w, o, busy⟩ | ⟨id, t, ht, hl⟩
  · have owned := (hs.own (Pool.mem_jobs_of_staff busy)).1
    exact ⟨StoreId.cache.inj (owned.symm.trans own), w, o, busy⟩
  · exact absurd (hs.foreign (Pool.mem_jobs_of_staff busy)) apart
  · obtain ⟨moves, rest, stage⟩ := stops
    have unused := r.unused_of_ended (n := i) (r.ended_of_ending (by simp [stage]))
    have idle := (hasHolder_eq_false_iff.1 unused).2.2.2 id t ht
    have fits := hs.fits ht
    cases t with
    | fill => cases idle
    | load =>
      cases hl
      exact absurd fits apart
    | _ => cases hl

/-- A load that is asked to stop begins at most the read that it was about to begin. -/
theorem Stops.asked (lt : i < n) : ((r.state n).track c).Asked ((r.state i).store (.cache c))
    (((r.state i).source c).reads + ((r.state i).track c).due) := by
  refine r.asked ?_ lt
  have cached := Stops.cached r stops
  obtain ⟨y, x, hy, hx, store, source⟩ := eq_of_track_of_stages (r.sound i) cached
  rw [store, source, Stops.track r stops]
  exact ⟨cached, ⟨y.cancel, by simp [Session.track, hy], rfl, rfl, rfl⟩, x, hx, rfl⟩

theorem Stops.kept (lt : i < n) :
    ((r.state n).store (.cache c)).chunks = ((r.state i).store (.cache c)).chunks ∧
      ((r.state n).store (.cache c)).loadedLen = ((r.state i).store (.cache c)).loadedLen := by
  have asked := Stops.asked r stops lt
  obtain ⟨y, -, hy, -, store, -⟩ := eq_of_track_of_stages (r.sound n) asked.cached
  obtain ⟨-, ⟨y', hy', -, chunks, len⟩, -⟩ := asked
  cases hy.symm.trans hy'
  rw [store]
  exact ⟨chunks, len⟩

theorem Stops.reads (lt : i < n) : ((r.state n).source c).reads ≤
    ((r.state i).source c).reads + ((r.state i).track c).due := by
  have asked := Stops.asked r stops lt
  obtain ⟨-, x, -, hx, -, source⟩ := eq_of_track_of_stages (r.sound n) asked.cached
  obtain ⟨-, -, x', hx', reads⟩ := asked
  cases hx.symm.trans hx'
  rw [source]
  omega

/-- A load that does not begin a read when it is asked to stop begins none after that. -/
theorem Stops.unread (lt : i < n)
    (calm : ∀ l, (r.state i).Runs l → l.job.source = c → l.phase ≠ .beginning) :
    ((r.state n).source c).reads = ((r.state i).source c).reads := by
  have none : ((r.state i).track c).due = 0 := by
    refine Track.due_eq_zero fun begins => ?_
    obtain ⟨l, runs, source, phase⟩ := exists_runs_of_running (r.sound i) begins
    exact calm l runs source phase
  have le := Stops.reads r stops lt
  rw [none] at le
  exact Nat.le_antisymm le (r.reads_mono c (Nat.le_of_lt lt))

/-- The load is where it was when it is asked to stop. -/
theorem Stops.stages (runs : (r.state i).Runs l) (own : l.job.store = .cache c) :
    ((r.state (i + 1)).track c).stages = [.running l.phase] := by
  obtain ⟨rfl, w, o, busy⟩ := r.busy_of_stops stops runs own
  rw [Stops.track r stops]
  exact stages_of_staff (r.sound i) busy

/-- A load that waits in a read, or is about to begin one, ends when the read has returned, -/
theorem Stops.returns (runs : (r.state i).Runs l) (own : l.job.store = .cache c)
    (awaits : l.phase = .beginning ∨ l.phase = .reading) (lt : i < m)
    (silent : ∀ j, i < j → j < m → (r.state j).answered c (r.event j) = none)
    (answer : (r.state m).answered c (r.event m) = some b) (returns : b.returns = true)
    (later : m < n) (settled : (r.state n).Settled) :
    ((r.state n).store (.cache c)).finished = true ∧ ((r.state n).source c).closed = true := by
  have stages := Stops.stages r stops runs own
  have awaits : ((r.state (i + 1)).track c).Awaits :=
    awaits.imp (fun phase => by rw [stages, phase]) fun phase => by rw [stages, phase]
  have waits := r.awaits (Stops.asked r stops (Nat.lt_succ_self i)) awaits lt silent
  have winding := r.winding_of_returns (Stops.asked r stops lt) waits answer returns
  exact r.ended_of_winding (Stops.asked r stops (Nat.lt_trans lt later))
    (r.winding (Stops.asked r stops (Nat.lt_succ_of_lt lt)) later winding) settled

/-- and one that does not ends of itself. -/
theorem Stops.winds (runs : (r.state i).Runs l) (own : l.job.store = .cache c)
    (winds : l.phase.winds = true) (lt : i < n) (settled : (r.state n).Settled) :
    ((r.state n).store (.cache c)).finished = true ∧ ((r.state n).source c).closed = true := by
  have stages := Stops.stages r stops runs own
  exact r.ended_of_winding (Stops.asked r stops lt)
    (r.winding (Stops.asked r stops (Nat.lt_succ_self i)) lt (.inr ⟨l.phase, stages, winds⟩))
    settled

end

end Run
end SharedStream
