import SharedStream.Proofs.Loads.Loading

/-! # Workers and queues

The moves of pools and of their workers, and the ways to remove loads from a queue, as steps of the
track of a source.
-/
namespace SharedStream.Session
open Keys

variable {s t u : Session} {who : Option CallId} {id c : CallId} {k : Key} {l : Load} {i : Nat}

/-- Steps without an answer that leave the keys alone come one after the other. -/
theorem Onward.trans (h : s.Onward (fun _ => none) t) (hs : s.Sound) (same : t.keys = s.keys)
    (step : t.keys.Step who u.keys) (h' : t.Onward (fun _ => none) u) :
    s.Onward (fun _ => none) u := by
  have ht : t.Sound := hs.next_same same h
  refine ⟨?_, ?_, ?_, ?_, ?_, ?_⟩
  · intro c hc
    cases h.track hc with
    | silent first =>
      cases h'.track (same ▸ hc) with
      | silent second => exact .silent (first.trans second)
  · intro j hj
    rcases h'.own hj with hj | own
    · exact (h.own hj).imp_right (ht.own_next step)
    · exact .inr own
  · intro j hj
    rcases h'.foreign hj with hj | foreign
    · exact (h.foreign hj).imp_right (ht.foreign_next step)
    · exact .inr foreign
  · intro i x hx
    rcases h'.fits hx with hx | fits
    · exact .inr (ht.fits_next step h' hx)
    · exact .inr fits
  · intro w old closed
    have clock : t.clock = s.clock := congrArg Keys.clock same
    exact h'.taken (clock ▸ old) (h.taken old closed)
  · rcases h'.halts with ending | halts
    · exact h.halts.imp ending.trans fun halts => ht.halts_next step h' ending
    · exact .inr halts

theorem Onward.refl (s : Session) : s.Onward (fun _ => none) s :=
  ⟨fun _ => .refl, fun hj => .inl hj, fun hj => .inl hj, fun hi => .inl hi,
    fun _ closed => closed, .inl rfl⟩

theorem answered_of_load {a : Actor} (h : s.loadOf? a = some l) :
    (fun c => s.answered c (.move a)) = s.loadAnswer l := by
  funext c
  by_cases reading : l.phase = .reading <;>
    simp [answered, loadAnswer, readsFrom?, h, reading]

theorem answered_of_none {a : Actor} (h : s.loadOf? a = none) :
    (fun c => s.answered c (.move a)) = fun _ => none := by
  funext c
  simp [answered, readsFrom?, h]

/-! ## Workers of the registry -/

/-- Pools that hold the same loads, or one that a worker has taken from the queue. -/
structure Pooled (s : Session) (p : Pool) : Prop where
  stages : ∀ c, ¬ s.keys.Apart c → p.stages c = s.registry.pool.stages c ∨
    s.registry.pool.stages c = [.queued] ∧ p.stages c = [.running .allocating]
  jobs : ∀ {j}, j ∈ p.jobs → j ∈ s.registry.pool.jobs

theorem Pooled.onward (h : s.Pooled u.registry.pool) (hs : s.Sound) (caches : u.caches = s.caches)
    (stores : u.stores = s.stores) (sources : u.sources = s.sources)
    (separate : u.separate = s.separate) (sinks : u.sinks = s.sinks)
    (ending : u.registry.ending = s.registry.ending ∨ u.Halts) (calls : u.calls = s.calls) :
    s.Onward (fun _ => none) u := by
  have task : ∀ i, u.task? i = s.task? i := fun i => by rw [task?, calls, task?]
  refine ⟨?_, ?_, ?_, ?_, ?_, ending⟩
  · intro c hc
    rcases h.stages c hc with same | ⟨queued, taken⟩
    · have same : u.track c = s.track c := by
        simp only [Session.track, Session.stages, caches, stores, sources, same, task]
      rw [same]
      exact .refl
    · have one : (s.stages c).length ≤ 1 := (hs.track hc).one
      have idle : ((s.task? c).bind Task.stage?).toList = [] := by
        rw [← List.length_eq_zero_iff]
        simp only [Session.stages, queued, List.length_append, List.length_singleton] at one
        omega
      have before : (s.track c).stages = [.queued] := by
        simp [Session.track, Session.stages, queued, idle]
      have after : u.track c = { s.track c with stages := [.running .allocating] } := by
        simp only [Session.track, Session.stages, caches, stores, sources, taken, task, idle,
          List.append_nil]
      rw [after]
      exact (Track.Silent.take before).step
  · exact fun hj => .inl (h.jobs hj)
  · exact fun hj => .inl (separate ▸ hj)
  · exact fun hi => .inl (by rwa [task] at hi)
  · exact fun _ closed => (isOpen_of_eq sinks _).trans closed

theorem one_of_sound (hs : s.Sound) (hc : ¬ s.keys.Apart c) :
    (s.registry.pool.stages c).length ≤ 1 := by
  have one : (s.stages c).length ≤ 1 := (hs.track hc).one
  rw [Session.stages, List.length_append] at one
  omega

theorem pooled_look {p : Pool} {w : Worker} (hs : s.Sound)
    (queue : p.queue = s.registry.pool.queue) (staff : p.staff = s.registry.pool.staff)
    (h : p.staff[i]? = some w) (hw : w.load? = none) (none : w.rest = []) :
    s.Pooled (p.look i) := by
  have loads : p.loads = s.registry.pool.loads := by rw [Pool.loads, staff, Pool.loads]
  have waiting : p.waiting = s.registry.pool.waiting := by
    rw [Pool.waiting, Pool.orphans, queue, staff, Pool.waiting, Pool.orphans]
  refine ⟨fun c hc => ?_, fun hj => ?_⟩
  · rw [← Pool.stages_congr (.of_eq waiting) loads]
    refine Pool.stages_look h hw none ?_
    rw [Pool.stages_congr (.of_eq waiting) loads]
    exact one_of_sound hs hc
  · have mem := Pool.mem_jobs_look h hw none hj
    rwa [Pool.jobs, waiting, loads] at mem

theorem pooled_retract (h : s.registry.pool.staff[i]? = some .denied) :
    s.Pooled (s.registry.pool.retract i) where
  stages _ _ := .inl (Pool.stages_retract h)
  jobs := Pool.mem_jobs_retract h

theorem pooled_next {j : Job} {rest : List Job} (hs : s.Sound)
    (h : s.registry.pool.staff[i]? = some (.between (j :: rest))) :
    s.Pooled (s.registry.pool.setWorker i (.loading j.start (some rest))) where
  stages _ hc := Pool.stages_next h (one_of_sound hs hc)
  jobs := Pool.mem_jobs_next h

theorem pooled_shutdown (s : Session) : s.Pooled s.registry.pool.shutdown := by
  refine ⟨fun _ _ => .inl (Pool.stages_congr (.of_eq Pool.waiting_shutdown) Pool.loads_shutdown),
    fun hj => ?_⟩
  rwa [Pool.jobs, Pool.waiting_shutdown, Pool.loads_shutdown] at hj

theorem pool_advanceLoad (n : PoolName) : (s.advanceLoad l).2.pool n = s.pool n := by
  cases n with
  | registry => exact congrArg Registry.pool registry_advanceLoad
  | separate => exact separate_advanceLoad

/-- What a move of a worker, or of a stand-in, can come to. -/
inductive WorkerMove (s : Session) (n : PoolName) (i : Nat) : Session → Prop
  | still : s.loadOf? (.worker n i) = none → WorkerMove s n i s
  | look {p : Pool} {w : Worker} : s.loadOf? (.worker n i) = none →
      p.queue = (s.pool n).queue → p.staff = (s.pool n).staff → p.staff[i]? = some w →
      w.load? = none → w.rest = [] → WorkerMove s n i (s.setPool n (p.look i))
  | retract : s.loadOf? (.worker n i) = none → (s.pool n).staff[i]? = some .denied →
      WorkerMove s n i (s.setPool n ((s.pool n).retract i))
  | next {j : Job} {rest : List Job} : s.loadOf? (.worker n i) = none →
      (s.pool n).staff[i]? = some (.between (j :: rest)) →
      WorkerMove s n i (s.setPool n ((s.pool n).setWorker i (.loading j.start (some rest))))
  | shed {text : String} {j : Job} {rest : List Job} : s.loadOf? (.worker n i) = none →
      (s.pool n).staff[i]? = some (.fallen text (j :: rest)) →
      WorkerMove s n i ((s.modifySource j.source Source.close).setPool n
        ((s.pool n).setWorker i (.fallen text rest)))
  | load {l : Load} {o : Option (List Job)} : s.loadOf? (.worker n i) = some l →
      (s.pool n).staff[i]? = some (.loading l o) →
      WorkerMove s n i ((s.advanceLoad l).2.setPool n
        ((s.pool n).setWorker i (.after l o (s.nextStep l).move)))

theorem workerMove (s : Session) (n : PoolName) (i : Nat) :
    s.WorkerMove n i (s.moveWorker n i) := by
  unfold moveWorker
  split
  · next hw => exact .look (by simp [loadOf?, hw]) rfl rfl hw rfl rfl
  · next hw => exact .look (p := (s.pool n).rouse) (by simp [loadOf?, hw]) rfl rfl hw rfl rfl
  · next l o hw =>
    have move := WorkerMove.load (by simp [loadOf?, hw]) hw
    rwa [← pool_advanceLoad (l := l), ← advanceLoad_fst] at move
  · next hw => exact .retract (by simp [loadOf?, hw]) hw
  · next hw => exact .next (by simp [loadOf?, hw]) hw
  · next hw => exact .shed (by simp [loadOf?, hw]) hw
  all_goals
    next hw => exact .still (by simp [loadOf?, hw])

theorem onward_moveWorker_of_loading {o : Option (List Job)} (hs : s.Sound)
    (h : s.registry.pool.staff[i]? = some (.loading l o)) :
    s.Onward (s.loadAnswer l) ((s.advanceLoad l).2.setPool .registry
      (s.registry.pool.setWorker i (.after l o (s.nextStep l).move))) := by
  have own := hs.own (Pool.mem_jobs_of_staff h)
  have one := (hs.track (not_apart_of_cached own.2)).one
  generalize hm : (s.nextStep l).move = m
  obtain ⟨before, after⟩ := Pool.stages_after_self (m := m) h
    (one_of_sound hs (not_apart_of_cached own.2))
  have idle : ((s.task? l.job.source).bind Task.stage?).toList = [] := by
    rw [← List.length_eq_zero_iff]
    simp only [Session.track, Session.stages, before, List.length_append,
      List.length_singleton] at one
    omega
  have task : ∀ i', ((s.advanceLoad l).2.setPool .registry
      (s.registry.pool.setWorker i (.after l o m))).task? i' = s.task? i' := fun i' => by
    rw [task?_setPool, task?_advanceLoad]
  have advanced : s.Advanced l ((s.advanceLoad l).2.setPool .registry
      (s.registry.pool.setWorker i (.after l o m))) := by
    refine ⟨own, ?_, ?_, rfl, fun _ => rfl, ?_, ?_⟩
    · rw [Session.stages, before, idle, List.append_nil]
    · exact fun c => congrArg (·.contains c) caches_advanceLoad
    · rw [Session.stages, task, idle, List.append_nil, hm]
      exact after
    · intro c hc
      rw [Session.stages, task, Session.stages]
      exact congrArg (· ++ _) (Pool.stages_after_of_ne h (Ne.symm hc))
  refine ⟨fun {c} _ => advanced.track hs c, ?_, ?_, ?_, ?_, .inl ?_⟩
  · exact fun hj => .inl (Pool.mem_jobs_after h hj)
  · intro j hj
    exact .inl (separate_advanceLoad (s := s) (l := l) ▸ hj)
  · exact fun hi => .inl ((task _).symm.trans hi)
  · exact fun _ closed => (isOpen_of_eq sinks_advanceLoad _).trans closed
  · show (s.advanceLoad l).2.registry.ending = s.registry.ending
    rw [registry_advanceLoad]

/-! ## Ways to remove loads from a queue -/

theorem closeSources_eq (jobs : List Job) :
    ∃ sources, jobs.foldl (fun s job => s.modifySource job.source Source.close) s =
      { s with sources := sources } := by
  induction jobs generalizing s with
  | nil => exact ⟨_, rfl⟩
  | cons j jobs ih => exact ih

theorem get?_closeSources (jobs : List Job) :
    (jobs.foldl (fun s job => s.modifySource job.source Source.close) s).sources.get? c =
      if ∃ j ∈ jobs, j.source = c then (s.sources.get? c).map Source.close
      else s.sources.get? c := by
  induction jobs generalizing s with
  | nil => simp
  | cons j jobs ih =>
    rw [List.foldl_cons, ih]
    simp only [modifySource, Table.get?_modify, List.mem_cons, exists_eq_or_imp]
    have twice : Source.close ∘ Source.close = Source.close := rfl
    by_cases hj : c = j.source
    · subst hj
      by_cases hjobs : ∃ j' ∈ jobs, j'.source = j.source <;> simp [hjobs, twice]
    · simp [hj, Ne.symm hj]

theorem onward_cancelStore (s : Session) (c : CallId) :
    s.Onward (fun _ => none) (s.cancelStore (.cache c)) := by
  refine ⟨?_, fun hj => .inl hj, fun hj => .inl hj, fun hi => .inl hi, fun _ closed => closed,
    .inl rfl⟩
  intro c' _
  by_cases hc : c' = c
  · subst hc
    have after : (s.cancelStore (.cache c')).track c' =
        { s.track c' with store := (s.track c').store.map Store.cancel } := by
      simp only [Session.track, cancelStore, Table.get?_modify, if_true]
      rfl
    rw [after]
    exact Track.Silent.cancel.step
  · have same : (s.cancelStore (.cache c)).track c' = s.track c' := by
      simp only [Session.track, cancelStore, Table.get?_modify, StoreId.cache.injEq, hc, if_false]
      rfl
    rw [same]
    exact .refl

/-- A session in which loads that nobody has begun are removed, with or without an end of their
stores. -/
structure Removed (s : Session) (jobs : List Job) (u : Session) : Prop where
  waiting : ∀ {j}, j ∈ jobs → j ∈ s.registry.pool.waiting
  stages : ∀ {j}, j ∈ jobs → ¬ s.keys.Apart j.source → u.registry.pool.stages j.source = []
  other : ∀ {c}, (∀ j ∈ jobs, j.source ≠ c) →
    u.registry.pool.stages c = s.registry.pool.stages c
  remaining : ∀ {j}, j ∈ u.registry.pool.jobs → j ∈ s.registry.pool.jobs
  sources : ∀ c, u.sources.get? c =
    if ∃ j ∈ jobs, j.source = c then (s.sources.get? c).map Source.close else s.sources.get? c
  stores : ∀ c, u.stores.get? (.cache c) = s.stores.get? (.cache c) ∨
    (∃ j ∈ jobs, j.source = c) ∧ ∃ y, s.stores.get? (.cache c) = some y ∧ y.canceled = true ∧
      u.stores.get? (.cache c) = some y.finish
  caches : u.caches = s.caches
  separate : u.separate = s.separate
  task : ∀ i, u.task? i = s.task? i
  sinks : u.sinks = s.sinks
  ending : u.registry.ending = s.registry.ending

theorem Removed.onward {jobs : List Job} (h : s.Removed jobs u) (hs : s.Sound) :
    s.Onward (fun _ => none) u := by
  refine ⟨?_, fun hj => .inl (h.remaining hj), fun hj => .inl (h.separate ▸ hj), ?_, ?_,
    .inl h.ending⟩
  · intro c hc
    by_cases gone : ∃ j ∈ jobs, j.source = c
    · obtain ⟨j, hj, rfl⟩ := gone
      have one : (s.stages j.source).length ≤ 1 := (hs.track hc).one
      obtain ⟨queued, -, -⟩ := Pool.stages_of_waiting (h.waiting hj) rfl (one_of_sound hs hc)
      have idle : ((s.task? j.source).bind Task.stage?).toList = [] := by
        rw [← List.length_eq_zero_iff]
        simp only [Session.stages, queued, List.length_append, List.length_singleton] at one
        omega
      have before : (s.track j.source).stages = [.queued] := by
        simp [Session.track, Session.stages, queued, idle]
      have source := h.sources j.source
      rw [if_pos ⟨j, hj, rfl⟩] at source
      have stages : u.stages j.source = [] := by
        rw [Session.stages, h.stages hj hc, h.task, idle]
        rfl
      rcases h.stores j.source with store | ⟨-, y, hy, canceled, store⟩
      · have after : u.track j.source = { s.track j.source with
            stages := []
            source := (s.track j.source).source.map Source.close } := by
          simp only [Session.track, h.caches, stages, store, source]
        rw [after]
        exact (Track.Silent.lose before).step
      · have after : u.track j.source = { s.track j.source with
            stages := []
            store := some y.finish
            source := (s.track j.source).source.map Source.close } := by
          simp only [Session.track, h.caches, stages, store, source]
        rw [after]
        exact (Track.Silent.drop before hy canceled).step
    · have source := h.sources c
      rw [if_neg gone] at source
      have stages : u.stages c = s.stages c := by
        rw [Session.stages, h.other fun j hj hc => gone ⟨j, hj, hc⟩, h.task, Session.stages]
      have same : u.track c = s.track c := by
        rcases h.stores c with store | ⟨removed, -⟩
        · simp only [Session.track, h.caches, stages, store, source]
        · exact absurd removed gone
      rw [same]
      exact .refl
  · intro i t hi
    rw [h.task] at hi
    exact .inl hi
  · exact fun _ closed => (isOpen_of_eq h.sinks _).trans closed

theorem removed_of_fold {p : Pool} (jobs : List Job)
    (waiting : ∀ {j}, j ∈ jobs → j ∈ s.registry.pool.waiting)
    (stages : ∀ {j}, j ∈ jobs → ¬ s.keys.Apart j.source → p.stages j.source = [])
    (other : ∀ {c}, (∀ j ∈ jobs, j.source ≠ c) → p.stages c = s.registry.pool.stages c)
    (remaining : ∀ {j}, j ∈ p.jobs → j ∈ s.registry.pool.jobs) :
    s.Removed jobs (jobs.foldl (fun s job => s.modifySource job.source Source.close)
      (s.setPool .registry p)) := by
  have sources := fun c => get?_closeSources (s := s.setPool .registry p) (c := c) jobs
  have task := fun i => task?_closeSources (s := s.setPool .registry p) jobs i
  obtain ⟨table, closed⟩ := closeSources_eq (s := s.setPool .registry p) jobs
  rw [closed] at sources task ⊢
  exact ⟨waiting, stages, other, remaining, sources, fun c => .inl rfl, rfl, rfl, task, rfl, rfl⟩

theorem onward_dropQueue_registry (hs : s.Sound) :
    s.Onward (fun _ => none) (s.dropQueue .registry) := by
  refine Removed.onward (removed_of_fold _ (List.mem_append_left _) ?_ ?_ ?_) hs
  · exact fun hj own => Pool.stages_clear_self hj rfl (one_of_sound hs own)
  · exact fun hc => Pool.stages_clear_of_ne hc
  · intro j hj
    rw [Pool.mem_jobs_iff] at hj ⊢
    exact hj.imp_left (by rintro ⟨⟩)

/-- A stand-in that has fallen drops a load that it has not begun. -/
theorem onward_shed {text : String} {j : Job} {rest : List Job} (hs : s.Sound)
    (h : s.registry.pool.staff[i]? = some (.fallen text (j :: rest))) :
    s.Onward (fun _ => none) ((s.modifySource j.source Source.close).setPool .registry
      (s.registry.pool.setWorker i (.fallen text rest))) := by
  have waits : j ∈ s.registry.pool.waiting :=
    List.mem_append_right _ (Pool.mem_orphans_of_staff h List.mem_cons_self)
  refine Removed.onward (removed_of_fold [j] ?_ ?_ ?_ (Pool.mem_jobs_shed h)) hs
  · intro j' hj
    rwa [List.mem_singleton.1 hj]
  · intro j' hj near
    rw [List.mem_singleton.1 hj] at near ⊢
    exact Pool.stages_shed_self h (one_of_sound hs near)
  · intro c hc
    exact Pool.stages_shed_of_ne h (hc j List.mem_cons_self)

theorem onward_moveWorker_registry (hs : s.Sound) (i : Nat) :
    s.Onward (fun c => s.answered c (.move (.worker .registry i))) (s.moveWorker .registry i) := by
  have move := s.workerMove .registry i
  generalize s.moveWorker .registry i = u at move ⊢
  cases move with
  | still idle =>
    rw [answered_of_none idle]
    exact .refl s
  | look idle queue staff hw none rest =>
    rw [answered_of_none idle]
    exact (pooled_look hs queue staff hw none rest).onward hs rfl rfl rfl rfl rfl (.inl rfl) rfl
  | retract idle hw =>
    rw [answered_of_none idle]
    exact (pooled_retract hw).onward hs rfl rfl rfl rfl rfl (.inl rfl) rfl
  | next idle hw =>
    rw [answered_of_none idle]
    exact (pooled_next hs hw).onward hs rfl rfl rfl rfl rfl (.inl rfl) rfl
  | shed idle hw =>
    rw [answered_of_none idle]
    exact onward_shed hs hw
  | load load hw =>
    rw [answered_of_load load]
    exact onward_moveWorker_of_loading hs hw

theorem Removed.finishStore {jobs : List Job} (h : s.Removed jobs u)
    (same : ∀ c, u.stores.get? (.cache c) = s.stores.get? (.cache c))
    (removed : ∃ j ∈ jobs, j.source = c) {y : Store} (hy : s.stores.get? (.cache c) = some y)
    (canceled : y.canceled = true) : s.Removed jobs (u.finishStore (.cache c)) := by
  refine { h with stores := ?_, task := fun i => (task?_wake ..).trans (h.task i) }
  intro c'
  simp only [Session.finishStore, notifyStore, wake, Table.get?_modify, StoreId.cache.injEq]
  by_cases hc : c' = c
  · subst hc
    refine .inr ⟨removed, y, hy, canceled, ?_⟩
    rw [if_pos rfl, same, hy]
    rfl
  · rw [if_neg hc]
    exact .inl (same c')

theorem onward_dequeue (hs : s.Sound)
    (canceled : ∀ y, s.stores.get? (.cache c) = some y → y.canceled = true) :
    s.Onward (fun _ => none) (s.dequeue .registry (.cache c)) := by
  have own : ∀ {j}, j ∈ s.registry.pool.queue → s.Own j :=
    fun hj => hs.own (Pool.mem_jobs_of_queue hj)
  unfold dequeue
  split
  · exact .refl s
  next j rest hjobs =>
  have mem : ∀ {j'}, j' ∈ j :: rest ↔ j' ∈ s.registry.pool.queue ∧ j'.store = .cache c := by
    intro j'
    rw [← hjobs]
    simp [Pool.queuedFor, pool]
  have source : ∀ {j'}, j' ∈ j :: rest → j'.source = c := by
    intro j' hj
    obtain ⟨hq, hx⟩ := mem.1 hj
    have store := (own hq).1
    rw [hx] at store
    exact (StoreId.cache.inj store).symm
  have cached : s.caches.contains c = true := by
    have first : j ∈ j :: rest := List.mem_cons_self
    exact source first ▸ (own (mem.1 first).1).2
  obtain ⟨y, -, hy, -⟩ := eq_of_track_of_stages hs cached
  have removed : s.Removed (j :: rest) _ :=
    removed_of_fold (p := (s.pool .registry).dequeue (.cache c)) _
      (fun hj => List.mem_append_left _ (mem.1 hj).1) ?stages ?other
      fun hj => Pool.mem_jobs_dequeue hj
  case stages =>
    intro j' hj near
    obtain ⟨queued, store⟩ := mem.1 hj
    exact Pool.stages_dequeue_self queued rfl store (one_of_sound hs near)
  case other =>
    intro c' hc
    refine Pool.stages_dequeue_of_ne fun i hi hic hx => ?_
    exact hc i (mem.2 ⟨hi, hx⟩) hic
  refine (removed.finishStore ?_ ⟨j, by simp, source (by simp)⟩ hy (canceled y hy)).onward hs
  intro c'
  obtain ⟨table, closed⟩ := closeSources_eq (s := s.setPool .registry
    ((s.pool .registry).dequeue (.cache c))) (j :: rest)
  rw [closed]
  rfl

end SharedStream.Session
