import SharedStream.Proofs.Loads.Moves

/-! # Moves that load

The moves that make, run, cancel and remove loads, as steps of the track of a source.
-/
namespace SharedStream.Session
open Keys

variable {s u : Session} {id c : CallId} {k : Key} {l : Load}

/-! ## Parts -/

theorem changeStore_eq (x : StoreId) (change : StoreChange) :
    ∃ stores calls, s.changeStore x change = { s with stores := stores, calls := calls } := by
  cases change with
  | none => exact ⟨_, _, rfl⟩
  | finish => exact ⟨_, _, rfl⟩
  | append data =>
    simp only [changeStore, appendTo]
    split
    · exact ⟨_, _, rfl⟩
    · exact ⟨_, _, rfl⟩

theorem get?_changeStore (x z : StoreId) (change : StoreChange) :
    (s.changeStore x change).stores.get? z =
      if z = x then (s.stores.get? z).map (·.change change) else s.stores.get? z := by
  cases change with
  | none => simp [changeStore, Store.change]
  | finish => simp [changeStore, finishStore, notifyStore, wake, Store.change, Table.get?_modify]
  | append data =>
    simp only [changeStore, appendTo]
    split
    · simp [notifyStore, wake, Store.change, Table.get?_modify]
    · next closed =>
      split
      · next hz =>
        cases hy : s.stores.get? z with
        | none => rfl
        | some y =>
          have : s.store x = y := by simp [store, ← hz, hy]
          rw [this] at closed
          simp only [Store.change, Store.append, if_neg closed, Option.map_some]
      · rfl

/-- The step that a load makes next. -/
def nextStep (s : Session) (l : Load) : LoadStep :=
  l.phase.step l.job.chunkSize (s.source l.job.source) (s.store l.job.store)

theorem advanceLoad_fst : (s.advanceLoad l).1 = (s.nextStep l).move := rfl

theorem advanceLoad_eq :
    ∃ stores calls, (s.advanceLoad l).2 =
      { s with
        sources := s.sources.modify l.job.source fun _ => (s.nextStep l).source
        stores := stores
        calls := calls } := by
  obtain ⟨stores, calls, h⟩ := changeStore_eq (s := s.modifySource l.job.source fun _ =>
    (s.nextStep l).source) l.job.store (s.nextStep l).change
  exact ⟨stores, calls, h⟩

theorem sources_advanceLoad :
    (s.advanceLoad l).2.sources = s.sources.modify l.job.source fun _ => (s.nextStep l).source := by
  obtain ⟨stores, calls, h⟩ := s.advanceLoad_eq (l := l)
  rw [h]

theorem get?_advanceLoad (z : StoreId) :
    (s.advanceLoad l).2.stores.get? z =
      if z = l.job.store then (s.stores.get? z).map (·.change (s.nextStep l).change)
      else s.stores.get? z :=
  get?_changeStore _ _ _

theorem registry_advanceLoad : (s.advanceLoad l).2.registry = s.registry := by
  obtain ⟨stores, calls, h⟩ := s.advanceLoad_eq (l := l)
  rw [h]

theorem separate_advanceLoad : (s.advanceLoad l).2.separate = s.separate := by
  obtain ⟨stores, calls, h⟩ := s.advanceLoad_eq (l := l)
  rw [h]

theorem caches_advanceLoad : (s.advanceLoad l).2.caches = s.caches := by
  obtain ⟨stores, calls, h⟩ := s.advanceLoad_eq (l := l)
  rw [h]

theorem sinks_advanceLoad : (s.advanceLoad l).2.sinks = s.sinks := by
  obtain ⟨stores, calls, h⟩ := s.advanceLoad_eq (l := l)
  rw [h]

/-! ## Loads of the registry -/

/-- The answer that a source gives to a load. -/
def loadAnswer (s : Session) (l : Load) (c : CallId) : Option SourceAnswer :=
  if l.phase = .reading ∧ l.job.source = c then some (s.source c).answer.1 else none

theorem eq_of_track_of_stages (hs : s.Sound) (cached : s.caches.contains c = true) :
    ∃ y x, s.stores.get? (.cache c) = some y ∧ s.sources.get? c = some x ∧
      s.store (.cache c) = y ∧ s.source c = x := by
  obtain ⟨⟨y, hy⟩, x, hx⟩ := (hs.track (not_apart_of_cached cached)).present cached
  have store : s.stores.get? (.cache c) = some y := hy
  have source : s.sources.get? c = some x := hx
  exact ⟨y, x, store, source, by simp [Session.store, store], by simp [Session.source, source]⟩

/-- A session after a move of a load of the registry that is under way. -/
structure Advanced (s : Session) (l : Load) (u : Session) : Prop where
  own : s.Own l.job
  running : s.stages l.job.source = [.running l.phase]
  cached : ∀ c, u.caches.contains c = s.caches.contains c
  sources : u.sources = (s.advanceLoad l).2.sources
  stores : ∀ c, u.stores.get? (.cache c) = (s.advanceLoad l).2.stores.get? (.cache c)
  stage : u.stages l.job.source = (s.nextStep l).move.stage?.toList
  other : ∀ c, c ≠ l.job.source → u.stages c = s.stages c

theorem Advanced.track (h : s.Advanced l u) (hs : s.Sound) (c : CallId) :
    Track.Step (s.loadAnswer l c) (s.track c) (u.track c) := by
  obtain ⟨store, cached⟩ := h.own
  by_cases hc : c = l.job.source
  · subst hc
    obtain ⟨y, x, hy, hx, store_eq, source_eq⟩ := eq_of_track_of_stages hs cached
    have after : u.track l.job.source = (s.track l.job.source).advance (s.nextStep l) := by
      simp only [Session.track, Track.advance, h.cached, h.stage, h.stores, get?_advanceLoad,
        store, if_true, h.sources, sources_advanceLoad, Table.get?_modify]
    have step : s.nextStep l = l.phase.step l.job.chunkSize x y := by
      rw [nextStep, source_eq, store, store_eq]
    rw [after, step]
    by_cases reading : l.phase = .reading
    · have answer : s.loadAnswer l l.job.source = some x.answer.1 := by
        simp [loadAnswer, reading, source_eq]
      rw [answer, reading]
      exact .read (by rw [← reading]; exact h.running) hx hy
    · have answer : s.loadAnswer l l.job.source = none := by simp [loadAnswer, reading]
      rw [answer]
      exact (Track.Silent.load l.job.chunkSize h.running reading hx hy).step
  · have same : u.track c = s.track c := by
      simp only [Session.track, h.cached, h.other c hc, h.stores, get?_advanceLoad, store,
        StoreId.cache.injEq, hc, if_false, h.sources, sources_advanceLoad, Table.get?_modify]
    have answer : s.loadAnswer l c = none := by simp [loadAnswer, Ne.symm hc]
    rw [same, answer]
    exact .refl

structure SameLoads (s u : Session) : Prop where
  pool : u.registry.pool = s.registry.pool
  separate : u.separate = s.separate
  caches : u.caches = s.caches
  stores : u.stores = s.stores
  sources : u.sources = s.sources
  sinks : u.sinks = s.sinks
  ending : u.registry.ending = s.registry.ending

theorem stages_eq_of_fill (hs : s.Sound) (ht : s.task? id = some (.fill k l)) :
    s.registry.pool.stages id = [] ∧ s.stages id = [.running l.phase] := by
  have one := (hs.track (not_apart_of_role (role_of_task ht))).one
  have stages : s.stages id = s.registry.pool.stages id ++ [.running l.phase] := by
    simp [Session.stages, ht, Task.stage?]
  have none : s.registry.pool.stages id = [] := by
    rw [← List.length_eq_zero_iff]
    simp only [Session.track, stages, List.length_append, List.length_singleton] at one
    omega
  exact ⟨none, by rw [stages, none]; rfl⟩

theorem onward_of_fill {o : Option Task} (hs : s.Sound) (ht : s.task? id = some (.fill k l))
    (same : SameLoads (s.advanceLoad l).2 u)
    (task : ∀ i, u.task? i = if i = id then o else s.task? i)
    (stage : o.bind Task.stage? = (s.nextStep l).move.stage?)
    (fits : ∀ {t}, o = some t → u.Fits id t) : s.Onward (s.loadAnswer l) u := by
  obtain ⟨store, source⟩ := hs.fits ht
  obtain ⟨n, hn⟩ := hs.keys.cache_of_builds (role_of_task ht)
  obtain ⟨none, running⟩ := stages_eq_of_fill hs ht
  have pool : u.registry.pool = s.registry.pool := by rw [same.pool, registry_advanceLoad]
  have advanced : s.Advanced l u := by
    refine ⟨⟨?_, ?_⟩, ?_, ?_, same.sources, ?_, ?_, ?_⟩
    · rw [store, source]
    · rw [source]
      exact cached_iff.2 ⟨k, n, hn⟩
    · rw [source, running]
    · intro c
      rw [same.caches, caches_advanceLoad]
    · intro c
      rw [same.stores]
    · rw [source, Session.stages, pool, none, task, if_pos rfl, stage, List.nil_append]
    · intro c hc
      rw [Session.stages, pool, task, if_neg (source ▸ hc), Session.stages]
  refine ⟨fun {c} _ => advanced.track hs c, ?_, ?_, ?_, ?_, .inl ?_⟩
  · intro j hj
    exact .inl (pool ▸ hj)
  · intro j hj
    rw [same.separate, separate_advanceLoad] at hj
    exact .inl hj
  · intro i t hi
    rw [task] at hi
    split at hi
    · next hid => exact .inr (hid ▸ fits hi)
    · exact .inl hi
  · exact fun _ closed => (isOpen_of_eq (same.sinks.trans sinks_advanceLoad) _).trans closed
  · rw [same.ending, registry_advanceLoad]

theorem task?_abandon (r : Result) (i : CallId) :
    (s.abandon id k r).task? i = if i = id then none else s.task? i := by
  rw [abandon, task?_answer]
  split
  · rfl
  · exact task?_wake ..

theorem onward_moveFill (hs : s.Sound) (ht : s.task? id = some (.fill k l)) :
    s.Onward (s.loadAnswer l) (s.moveFill id k l) := by
  have task := task?_advanceLoad (s := s) l
  have some_ : ((s.advanceLoad l).2.task? id).isSome := by simp [task, ht]
  have move := s.advanceLoad_fst (l := l)
  unfold moveFill
  rcases hl : s.advanceLoad l with ⟨m, t⟩
  simp only [hl] at task some_ move
  subst move
  have same : ∀ u, SameLoads t u → SameLoads (s.advanceLoad l).2 u := by
    intro u hu
    rwa [hl]
  cases hm : (s.nextStep l).move with
  | goesOn p =>
    refine onward_of_fill hs ht (same _ ⟨rfl, rfl, rfl, rfl, rfl, rfl, rfl⟩)
      (o := some (.fill k { l with phase := p })) ?_ ?_ ?_
    · intro i
      rw [task?_goOn some_, task]
    · rw [hm]
      rfl
    · intro _ ht'
      cases ht'
      exact hs.fits ht
  | ends =>
    refine onward_of_fill hs ht (same _ ⟨rfl, rfl, rfl, rfl, rfl, rfl, rfl⟩)
      (o := some (.register k)) ?_ ?_ ?_
    · intro i
      rw [task?_goOn some_, task]
    · rw [hm]
      rfl
    · intro _ ht'
      cases ht'
      trivial
  | panics text =>
    refine onward_of_fill hs ht (same _ ⟨rfl, rfl, rfl, rfl, rfl, rfl, rfl⟩) (o := none) ?_ ?_ ?_
    · intro i
      rw [← task]
      exact task?_abandon ..
    · rw [hm]
      rfl
    · intro _ ht'
      cases ht'

/-- A session in which a factory has given the source of a new cache. -/
structure Started (s : Session) (id : CallId) (st : Stage) (u : Session) : Prop where
  caches : ∀ c, u.caches.contains c = (decide (c = id) || s.caches.contains c)
  stores : ∀ c, u.stores.get? (.cache c) = if c = id then some {} else s.stores.get? (.cache c)
  sources : u.sources = s.sources
  stage : u.stages id = [st]
  other : ∀ c, c ≠ id → u.stages c = s.stages c

theorem uncached_of_makes (hs : s.Sound) (makes : s.keys.role id = some (.makes k)) :
    s.caches.contains id = false ∧ s.stages id = [] := by
  have uncached : s.caches.contains id = false := by
    rw [← Bool.not_eq_true, cached_iff]
    rintro ⟨k, n, hn⟩
    simp [hs.keys.no_cache (.inr makes)] at hn
  exact ⟨uncached, (hs.track (not_apart_of_role makes)).idle uncached⟩

theorem Started.track {st : Stage} (h : s.Started id st u) (hs : s.Sound)
    (makes : s.keys.role id = some (.makes k)) {x : Source} (hx : s.sources.get? id = some x)
    (hst : st = .queued ∨ st = .running .allocating) (c : CallId) :
    Track.Step none (s.track c) (u.track c) := by
  by_cases hc : c = id
  · subst hc
    have after : u.track c =
        { s.track c with cached := true, stages := [st], store := some {} } := by
      simp [Session.track, h.caches, h.stores, h.sources, h.stage]
    rw [after]
    exact (Track.Silent.start (uncached_of_makes hs makes).1 hx hst).step
  · have same : u.track c = s.track c := by
      simp [Session.track, h.caches, h.stores, h.sources, h.other c hc, hc]
    rw [same]
    exact .refl

theorem Started.onward {st : Stage} {o : Option Task} (h : s.Started id st u) (hs : s.Sound)
    (ht : ∃ mode, s.task? id = some (.makeSource k mode))
    (hst : st = .queued ∨ st = .running .allocating)
    (jobs : ∀ {j}, j ∈ u.registry.pool.jobs →
      j ∈ s.registry.pool.jobs ∨ j.store = .cache id ∧ j.source = id)
    (separate : u.separate = s.separate) (sinks : u.sinks = s.sinks)
    (ending : u.registry.ending = s.registry.ending)
    (task : ∀ i, u.task? i = if i = id then o else s.task? i)
    (fits : ∀ {t}, o = some t → u.Fits id t) : s.Onward (fun _ => none) u := by
  obtain ⟨mode, ht⟩ := ht
  obtain ⟨x, hx⟩ := hs.fits ht
  refine ⟨fun {c} _ => h.track hs (role_of_task ht) hx hst c, ?_, ?_, ?_, ?_, .inl ending⟩
  · intro j hj
    refine (jobs hj).imp_right ?_
    rintro ⟨store, source⟩
    exact ⟨by rw [store, source], by simp [h.caches, source]⟩
  · intro j hj
    exact .inl (separate ▸ hj)
  · intro i t hi
    rw [task] at hi
    split at hi
    · next hid => exact .inr (hid ▸ fits hi)
    · exact .inl hi
  · exact fun _ closed => (isOpen_of_eq sinks _).trans closed

/-! ### A factory gives a source -/

theorem contains_newCache (k : Key) (mode : LoadMode) (c : CallId) :
    (s.newCache id k mode).caches.contains c = (decide (c = id) || s.caches.contains c) := by
  by_cases hc : c = id <;> simp [newCache, Table.contains, Table.get?_set, hc]

theorem get?_newCache (k : Key) (mode : LoadMode) (c : CallId) :
    (s.newCache id k mode).stores.get? (.cache c) =
      if c = id then some {} else s.stores.get? (.cache c) := by
  by_cases hc : c = id <;> simp [newCache, Table.get?_set, hc]

theorem onward_start (hs : s.Sound) {mode : LoadMode} (ht : s.task? id = some (.makeSource k mode))
    (n : Nat) : s.Onward (fun _ => none)
      ((s.newCache id k mode).goOn id (.fill k (Job.start ⟨.cache id, id, n⟩))) := by
  obtain ⟨-, idle⟩ := uncached_of_makes hs (role_of_task ht)
  simp only [Session.stages, List.append_eq_nil_iff] at idle
  have some_ : ((s.newCache id k mode).task? id).isSome := by
    rw [show (s.newCache id k mode).task? id = s.task? id from rfl, ht]
    rfl
  have task := task?_goOn some_ (.fill k (Job.start ⟨.cache id, id, n⟩))
  refine Started.onward ⟨?_, ?_, rfl, ?_, ?_⟩ hs ⟨mode, ht⟩ (.inr rfl)
    (fun hj => .inl hj) rfl rfl rfl task ?_
  · exact contains_newCache k mode
  · exact get?_newCache k mode
  · rw [Session.stages, task, if_pos rfl]
    exact congrArg (· ++ [Stage.running .allocating]) idle.1
  · intro c hc
    rw [Session.stages, task, if_neg hc]
    rfl
  · intro t ht
    cases ht
    exact ⟨rfl, rfl⟩

theorem onward_queue (hs : s.Sound) {mode : LoadMode} (ht : s.task? id = some (.makeSource k mode))
    (n : Nat) (threaded : Bool) (d : Option Nat) : s.Onward (fun _ => none)
      (((s.newCache id k mode).setPool .registry
        (s.registry.pool.submit ⟨.cache id, id, n⟩ threaded)).goOn id (.submitted k d)) := by
  obtain ⟨-, idle⟩ := uncached_of_makes hs (role_of_task ht)
  simp only [Session.stages, List.append_eq_nil_iff] at idle
  have some_ : (((s.newCache id k mode).setPool .registry
      (s.registry.pool.submit ⟨.cache id, id, n⟩ threaded)).task? id).isSome := by
    rw [task?_setPool, show (s.newCache id k mode).task? id = s.task? id from rfl, ht]
    rfl
  have task := task?_goOn some_ (.submitted k d)
  have still : (Task.submitted k d).stage? = none := by cases d <;> rfl
  refine Started.onward ⟨?_, ?_, rfl, ?_, ?_⟩ hs ⟨mode, ht⟩ (.inl rfl) ?_ rfl rfl rfl task ?_
  · exact contains_newCache k mode
  · exact get?_newCache k mode
  · rw [Session.stages, task, if_pos rfl, Option.bind_some, still]
    have queued := Pool.stages_submit_self (t := threaded) (j := ⟨.cache id, id, n⟩) idle.1
    exact (congrArg (· ++ []) queued).trans (List.append_nil _)
  · intro c hc
    rw [Session.stages, task, if_neg hc]
    have same := s.registry.pool.stages_submit_of_ne (t := threaded) (j := ⟨.cache id, id, n⟩)
      (Ne.symm hc)
    exact congrArg (· ++ _) same
  · intro j hj
    refine (Pool.mem_jobs_submit hj).symm.imp_right ?_
    rintro rfl
    exact ⟨rfl, rfl⟩
  · intro t ht
    cases ht
    cases d <;> trivial

theorem onward_moveMakeSource {mode : LoadMode} (hs : s.Sound)
    (ht : s.task? id = some (.makeSource k mode)) :
    s.Onward (fun _ => none) (s.moveMakeSource id k mode) := by
  have same := QuietMove.refl s
  unfold moveMakeSource
  split
  · exact same.abandon hs.keys ht rfl k _
  · exact same.abandon hs.keys ht rfl k _
  cases mode with
  | sync => exact onward_start hs ht _
  | async => exact onward_queue hs ht _ _ _

end SharedStream.Session
