import SharedStream.Proofs.Loads.Queues

/-! # Loads under all moves

What remains of the moves: those that tear a cache down, the end of the registry, and loads that
belong to no registry.
-/
namespace SharedStream.Session
open Keys

variable {s t u : Session} {id c : CallId} {k : Key} {l : Load} {i : Nat}
variable {a b : CallId → Option SourceAnswer}

/-! ## Teardown -/

theorem onward_moveCancelCache (hs : s.Sound) (ht : s.task? id = some (.cancelCache k c)) :
    s.Onward (fun _ => none) (s.moveCancelCache id k c) := by
  have first := onward_cancelStore s c
  have next : (s.cancelStore (.cache c)).Sound := hs.next_same rfl first
  have task : (s.cancelStore (.cache c)).task? id = some (.cancelCache k c) := ht
  obtain ⟨n, hn⟩ := hs.keys.cache_of_retires (role_of_task ht)
  obtain ⟨y, -, hy, -⟩ := eq_of_track_of_stages hs (cached_iff.2 ⟨k, n, hn⟩)
  have canceled : (s.cancelStore (.cache c)).stores.get? (.cache c) = some y.cancel := by
    simp [cancelStore, Table.get?_modify, hy]
  have fits : ((s.cancelStore (.cache c)).goOn id (.dequeueCache k c)).Fits id
      (.dequeueCache k c) := ⟨y.cancel, canceled, rfl⟩
  exact first.trans hs rfl (step_goOn task rfl)
    ((QuietMove.refl _).goOn next.keys task rfl rfl fits)

theorem onward_moveDequeueCache (hs : s.Sound) (ht : s.task? id = some (.dequeueCache k c)) :
    s.Onward (fun _ => none) (s.moveDequeueCache id k c) := by
  obtain ⟨y, hy, canceled⟩ := hs.fits ht
  obtain ⟨n, hn⟩ := hs.keys.cache_of_retires (role_of_task ht)
  have cached := cached_iff.2 ⟨k, n, hn⟩
  have first : s.Onward (fun _ => none) (s.dequeue .registry (.cache c)) := by
    refine onward_dequeue hs fun y' hy' => ?_
    rw [hy] at hy'
    cases hy'
    exact canceled
  have same := keys_dequeue (s := s) .registry (.cache c)
  have next : (s.dequeue .registry (.cache c)).Sound := hs.next_same same first
  have task : (s.dequeue .registry (.cache c)).task? id = some (.dequeueCache k c) := by
    rw [task?_dequeue, ht]
  have fits := (first.track (not_apart_of_cached cached)).lasting.2 y cached hy canceled
  exact first.trans hs same (step_goOn task rfl)
    ((QuietMove.refl _).goOn next.keys task rfl rfl fits)

/-! ## The end of the registry -/

theorem mem_caches_iff :
    c ∈ s.registry.caches ↔ ∃ k, s.registry.slots.get? k = some (.reader c) := by
  simp only [Registry.caches, Table.values, List.mem_filterMap, List.mem_map, Prod.exists]
  constructor
  · rintro ⟨x, ⟨k, x', mem, rfl⟩, hx⟩
    cases x' with
    | reader cache =>
      cases hx
      exact ⟨k, Table.mem_entries_iff.1 mem⟩
    | _ => cases hx
  · rintro ⟨k, hk⟩
    exact ⟨.reader c, ⟨k, _, Table.mem_entries_iff.2 hk, rfl⟩, rfl⟩

/-- A change that leaves the keys alone, after which the end of the registry goes on. -/
theorem Onward.setEnding (h : s.Onward (fun _ => none) u) (hs : s.Sound) (same : u.keys = s.keys)
    {e : Ending} (halts : (u.setEnding e).Halts) : s.Onward (fun _ => none) (u.setEnding e) :=
  h.trans hs same (.of_eq (keys_setEnding e))
    ⟨fun _ => .refl, fun hj => .inl hj, fun hj => .inl hj, fun hi => .inl hi,
      fun _ closed => closed, .inr halts⟩

theorem onward_endRegistry (hs : s.Sound) (can : s.canMove .registry = true) :
    s.Onward (fun _ => none) s.endRegistry := by
  unfold endRegistry
  split
  · next ahead =>
    have unused := unused_of_canMove can ahead
    refine Pooled.onward ⟨fun _ _ => .inl rfl, fun hj => hj⟩ hs rfl rfl rfl rfl rfl (.inr ?_) rfl
    refine ⟨fun _ => ⟨(hasHolder_eq_false_iff.1 unused).1, role_eq_none_of_unused unused,
      fun _ => rfl⟩, fun c hc => ?_, ?_⟩
    · obtain ⟨k, slot⟩ := mem_caches_iff.1 hc
      exact cached_iff.2 ⟨k, hs.keys.cache_of_slot slot⟩
    · rintro c rest ⟨⟩
  · next c rest ending =>
    have disused := hs.halts.disused (by simp [ending])
    obtain ⟨y, -, hy, -⟩ :=
      eq_of_track_of_stages hs (hs.halts.cached c (by simp [ending, Ending.caches]))
    refine (onward_cancelStore s c).setEnding hs rfl ⟨fun _ => disused, ?_, ?_⟩
    · exact fun c' hc => hs.halts.cached c' (by rwa [ending])
    · rintro c' rest' ⟨⟩
      exact ⟨y.cancel, by simp [setEnding, cancelStore, Table.get?_modify, hy], rfl⟩
  · next c rest ending =>
    obtain ⟨y, hy, canceled⟩ := hs.halts.canceled c rest ending
    have disused := hs.halts.disused (by simp [ending])
    have first : s.Onward (fun _ => none) (s.dequeue .registry (.cache c)) := by
      refine onward_dequeue hs fun y' hy' => ?_
      cases hy.symm.trans hy'
      exact canceled
    have same := keys_dequeue (s := s) .registry (.cache c)
    refine first.setEnding hs same ⟨fun _ => ?_, fun c' hc => ?_, ?_⟩
    · rwa [keys_setEnding, same]
    · obtain ⟨k, n, hn⟩ := cached_iff.1
        (hs.halts.cached c' (by rw [ending]; exact List.mem_cons_of_mem c hc))
      exact cached_iff.2 ⟨k, n, by rwa [keys_setEnding, same]⟩
    · rintro c' rest' ⟨⟩
  · next ending =>
    have disused := hs.halts.disused (by simp [ending])
    refine (pooled_shutdown s).onward hs rfl rfl rfl rfl rfl (.inr ⟨fun _ => disused, ?_, ?_⟩) rfl
    · rintro c ⟨⟩
    · rintro c rest ⟨⟩
  · exact .refl s

/-! ## Loads that belong to no registry -/

theorem QuietMove.setSeparate (h : s.QuietMove u) {p : Pool}
    (jobs : ∀ {j}, j ∈ p.jobs → j ∈ s.separate.jobs) : s.QuietMove (u.setPool .separate p) :=
  ⟨⟨h.pool, h.cached, h.store, h.source, h.taken, h.ending⟩, jobs,
    fun i => (task?_setPool ..).trans (h.task i)⟩

theorem QuietMove.closeSources (h : s.QuietMove u) {jobs : List Job}
    (foreign : ∀ {j}, j ∈ jobs → s.Foreign j) :
    s.QuietMove (jobs.foldl (fun s job => s.modifySource job.source Source.close) u) := by
  have sources := fun c => get?_closeSources (s := u) (c := c) jobs
  have task := fun i => task?_closeSources (s := u) jobs i
  obtain ⟨table, closed⟩ := closeSources_eq (s := u) jobs
  rw [closed] at sources task ⊢
  refine ⟨⟨h.pool, h.cached, h.store, fun c hc => ?_, h.taken, h.ending⟩, h.separate, fun i => ?_⟩
  · have none : ¬ ∃ j ∈ jobs, j.source = c := by
      rintro ⟨j, hj, rfl⟩
      exact hc (foreign hj).2
    rw [sources c, if_neg none]
    exact h.source c hc
  · rw [task, h.task]

theorem QuietMove.onward (h : s.QuietMove u) (hv : s.keys.Valid) : s.Onward (fun _ => none) u := by
  refine h.toQuiet.onward hv (fun hj => .inl (h.separate hj)) ?_ ?_
  · intro c
    rw [h.task]
  · intro i t hi
    rw [h.task] at hi
    exact .inl hi

theorem quiet_advanceLoad (foreign : s.Foreign l.job) : s.QuietMove (s.advanceLoad l).2 := by
  obtain ⟨⟨x, store⟩, apart⟩ := foreign
  refine ⟨⟨?_, ?_, ?_, ?_, ?_, ?_⟩, ?_, task?_advanceLoad l⟩
  · rw [registry_advanceLoad]
  · intro c
    rw [caches_advanceLoad]
  · intro c
    rw [get?_advanceLoad, store, if_neg (by simp)]
  · intro c hc
    have other : c ≠ l.job.source := by
      rintro rfl
      exact hc apart
    refine .inl ⟨fun x => x, fun x => ⟨rfl, rfl⟩, ?_⟩
    rw [sources_advanceLoad, Table.get?_modify, if_neg other, Option.map_id']
  · exact fun _ closed => (isOpen_of_eq sinks_advanceLoad _).trans closed
  · rw [registry_advanceLoad]
  · intro j hj
    rwa [separate_advanceLoad] at hj

theorem Onward.congr (h : s.Onward a u) (same : ∀ c, ¬ s.keys.Apart c → a c = b c) :
    s.Onward b u :=
  ⟨fun hc => same _ hc ▸ h.track hc, h.own, h.foreign, h.fits, h.taken, h.halts⟩

theorem loadAnswer_of_foreign (foreign : s.Foreign l.job) (hc : ¬ s.keys.Apart c) :
    s.loadAnswer l c = none := by
  have other : l.job.source ≠ c := by
    rintro rfl
    exact hc foreign.2
  simp [loadAnswer, other]

theorem Foreign.congr {j : Job} (h : s.Foreign j) (same : u.keys = s.keys) : u.Foreign j :=
  ⟨h.1, same ▸ h.2⟩

theorem onward_moveLoad (hs : s.Sound) (ht : s.task? id = some (.load l)) :
    s.Onward (fun _ => none) (s.moveLoad id l) := by
  have foreign : s.Foreign l.job := hs.fits ht
  have quiet := quiet_advanceLoad foreign
  have task : (s.advanceLoad l).2.task? id = some (.load l) := by rw [task?_advanceLoad, ht]
  have keys := keys_advanceLoad (s := s) l
  unfold moveLoad
  rcases hl : s.advanceLoad l with ⟨m, t⟩
  rw [hl] at quiet task keys
  cases m with
  | goesOn p =>
    have role : (Task.load { l with phase := p }).role? = (Task.load l).role? := rfl
    have fits : (t.goOn id (.load { l with phase := p })).Fits id (.load { l with phase := p }) :=
      foreign.congr ((keys_goOn_eq task role).trans keys)
    exact quiet.goOn hs.keys ht rfl rfl fits
  | ends => exact quiet.answer hs.keys ht rfl _
  | panics text => exact quiet.answer hs.keys ht rfl _

theorem onward_moveMakeLoad {j : Job} (hs : s.Sound) (ht : s.task? id = some (.makeLoad j)) :
    s.Onward (fun _ => none) (s.moveMakeLoad id j) := by
  have same := QuietMove.refl s
  have foreign : s.Foreign j := hs.fits ht
  unfold moveMakeLoad
  split
  · have role : (Task.load j.start).role? = (Task.makeLoad j).role? := rfl
    have fits : (s.goOn id (.load j.start)).Fits id (.load j.start) :=
      foreign.congr (keys_goOn_eq ht role)
    exact same.goOn hs.keys ht rfl rfl fits
  · exact same.answer hs.keys ht rfl _
  · exact same.answer hs.keys ht rfl _

theorem onward_moveWorker_separate (hs : s.Sound) (i : Nat) :
    s.Onward (fun c => s.answered c (.move (.worker .separate i))) (s.moveWorker .separate i) := by
  have move := s.workerMove .separate i
  generalize s.moveWorker .separate i = u at move ⊢
  cases move with
  | still idle =>
    rw [answered_of_none idle]
    exact .refl s
  | @look p w idle queue staff hw none rest =>
    rw [answered_of_none idle]
    refine ((QuietMove.refl s).setSeparate fun hj => ?_).onward hs.keys
    have same : p.jobs = s.separate.jobs := by
      rw [Pool.jobs, Pool.waiting, Pool.orphans, Pool.loads, queue, staff]
      rfl
    exact same ▸ Pool.mem_jobs_look hw none rest hj
  | retract idle hw =>
    rw [answered_of_none idle]
    exact ((QuietMove.refl s).setSeparate fun hj => Pool.mem_jobs_retract hw hj).onward hs.keys
  | next idle hw =>
    rw [answered_of_none idle]
    refine ((QuietMove.refl s).setSeparate fun hj => ?_).onward hs.keys
    exact Pool.mem_jobs_next hw hj
  | @shed text j rest idle hw =>
    rw [answered_of_none idle]
    have foreign := hs.foreign (Pool.mem_jobs_of_staff_rest hw List.mem_cons_self)
    have members : ∀ {j'}, j' ∈ [j] → s.Foreign j' := fun hj => List.mem_singleton.1 hj ▸ foreign
    have closed : s.QuietMove (s.modifySource j.source Source.close) :=
      (QuietMove.refl s).closeSources members
    exact (closed.setSeparate fun hj => Pool.mem_jobs_shed hw hj).onward hs.keys
  | load load hw =>
    have foreign := hs.foreign (Pool.mem_jobs_of_staff hw)
    rw [answered_of_load load]
    refine (((quiet_advanceLoad foreign).setSeparate fun hj => ?_).onward hs.keys).congr
      fun c hc => (loadAnswer_of_foreign foreign hc).symm
    exact Pool.mem_jobs_after hw hj

theorem onward_dropQueue_separate (hs : s.Sound) :
    s.Onward (fun _ => none) (s.dropQueue .separate) := by
  have foreign : ∀ {j}, j ∈ s.separate.queue → s.Foreign j :=
    fun hj => hs.foreign (Pool.mem_jobs_of_queue hj)
  have cleared : s.QuietMove (s.setPool .separate { s.separate with queue := [] }) :=
    (QuietMove.refl s).setSeparate fun hj => by
      rw [Pool.mem_jobs_iff] at hj ⊢
      exact hj.imp_left (by rintro ⟨⟩)
  exact (cleared.closeSources foreign).onward hs.keys

/-! ## Calls that stand in for a worker -/

theorem onward_moveStandIn (hs : s.Sound) (ht : s.task? id = some (.standIn k i)) :
    s.Onward (fun _ => none) (s.moveStandIn id k i) := by
  have same := QuietMove.refl s
  unfold moveStandIn
  split
  · exact same.abandon hs.keys ht rfl k _
  · exact same.goOn hs.keys ht rfl rfl trivial

theorem onward_moveAssist (hs : s.Sound) (ht : s.task? id = some (.assist i)) :
    s.Onward (fun _ => none) (s.moveAssist id i) := by
  have same := QuietMove.refl s
  unfold moveAssist
  split
  · exact same.answer hs.keys ht rfl _
  · exact same.answer hs.keys ht rfl _

/-! ## All moves -/

theorem onward_moveTask {t : Task} (hs : s.Sound) (ht : s.task? id = some t) :
    s.Onward (fun c => s.answered c (.move (.call id))) (s.moveTask id t) := by
  have load : s.loadOf? (.call id) = t.load? := by
    obtain ⟨call, hc, rfl⟩ := Option.map_eq_some_iff.1 ht
    simp [loadOf?, hc]
  cases t with
  | fill key l =>
    rw [answered_of_load load]
    exact onward_moveFill hs ht
  | load l =>
    rw [answered_of_load load]
    exact (onward_moveLoad hs ht).congr fun c hc => (loadAnswer_of_foreign (hs.fits ht) hc).symm
  | seekReader key mode => exact answered_of_none load ▸ onward_moveSeekReader hs ht
  | makeSource key mode => exact answered_of_none load ▸ onward_moveMakeSource hs ht
  | standIn key i => exact answered_of_none load ▸ onward_moveStandIn hs ht
  | register key => exact answered_of_none load ▸ onward_moveRegister hs ht
  | seekWriter key => exact answered_of_none load ▸ onward_moveSeekWriter hs ht
  | cancelCache key cache => exact answered_of_none load ▸ onward_moveCancelCache hs ht
  | dequeueCache key cache => exact answered_of_none load ▸ onward_moveDequeueCache hs ht
  | awaitCache key cache => exact answered_of_none load ▸ onward_moveAwaitCache hs ht
  | lease key => exact answered_of_none load ▸ onward_moveLease hs ht
  | read r => exact answered_of_none load ▸ onward_moveReading hs ht
  | leave reader parting => exact answered_of_none load ▸ onward_moveLeave hs ht
  | announce reader parting => exact answered_of_none load ▸ onward_moveAnnounce hs ht
  | closeSink writer parting => exact answered_of_none load ▸ onward_moveCloseSink hs ht
  | giveBack writer flush parting => exact answered_of_none load ▸ onward_moveGiveBack hs ht
  | expire h r => exact answered_of_none load ▸ onward_moveExpire hs ht
  | readStore store r => exact answered_of_none load ▸ onward_moveReadStore hs ht
  | awaitStore store => exact answered_of_none load ▸ onward_moveAwaitStore hs ht
  | makeLoad job => exact answered_of_none load ▸ onward_moveMakeLoad hs ht
  | assist i => exact answered_of_none load ▸ onward_moveAssist hs ht

theorem onward_move {a : Actor} (hs : s.Sound) (can : s.canMove a = true) :
    s.Onward (fun c => s.answered c (.move a)) (s.move a) := by
  cases a with
  | call id =>
    simp only [move]
    split
    · next call hc =>
      have ht : s.task? id = some call.task := by simp [task?, hc]
      exact onward_moveTask hs ht
    · next hc =>
      have idle : s.loadOf? (.call id) = none := by simp [loadOf?, hc]
      exact answered_of_none idle ▸ .refl s
  | worker n i =>
    cases n with
    | registry => exact onward_moveWorker_registry hs i
    | separate => exact onward_moveWorker_separate hs i
  | pool n =>
    have idle : s.loadOf? (.pool n) = none := rfl
    rw [answered_of_none idle]
    cases n with
    | registry => exact onward_dropQueue_registry hs
    | separate => exact onward_dropQueue_separate hs
  | registry =>
    have idle : s.loadOf? .registry = none := rfl
    rw [answered_of_none idle]
    exact onward_endRegistry hs can

end SharedStream.Session
