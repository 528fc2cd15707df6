import SharedStream.Proofs.Modes
import SharedStream.Proofs.Pools.Takeovers

/-! # The loads that are not done

Each load in the background whose store is not finished has one place: it is queued, a worker runs
it, or it has killed its worker. The others have been taken over by calls that stand in for workers.
-/
namespace SharedStream

/-- The load that a worker with a thread runs. -/
def Worker.busy? : Worker → Option Load
  | .loading l none => some l
  | .loading _ (some _) | .ready | .asleep | .woken | .gone | .dead | .denied | .between _
  | .fallen .. => none

namespace Pool

variable {p : Pool} {l : Load}

def busy (p : Pool) : List Load := p.staff.filterMap Worker.busy?

theorem length_loads (p : Pool) : p.loads.length = p.busy.length + p.inline := by
  unfold loads busy inline
  induction p.staff with
  | nil => rfl
  | cons w staff ih =>
    rw [List.filterMap_cons, List.filterMap_cons, List.countP_cons]
    cases w with
    | loading l o =>
      cases o <;> simp [Worker.load?, Worker.busy?, Worker.inline, ih] <;> omega
    | _ => simpa [Worker.load?, Worker.busy?, Worker.inline] using ih

theorem busy_sublist (p : Pool) : p.busy.Sublist p.loads := by
  unfold loads busy
  induction p.staff with
  | nil => exact .slnil
  | cons w staff ih =>
    cases w with
    | loading l o =>
      cases o with
      | none => exact ih.cons_cons l
      | some rest => exact ih.cons l
    | _ => exact ih

theorem mem_busy_iff : l ∈ p.busy ↔ ∃ i : Nat, p.staff[i]? = some (.loading l none) := by
  constructor
  · intro h
    obtain ⟨w, hw, busy⟩ := List.mem_filterMap.1 h
    obtain ⟨i, hi⟩ := List.mem_iff_getElem?.1 hw
    refine ⟨i, ?_⟩
    cases w with
    | loading l' o =>
      cases o with
      | none =>
        cases busy
        exact hi
      | some rest => cases busy
    | _ => cases busy
  · rintro ⟨i, hi⟩
    exact List.mem_filterMap.2 ⟨_, List.mem_of_getElem? hi, rfl⟩

/-- Whoever has to do with a load and is not a stand-in is busy with it. -/
theorem mem_busy_of_worker {i : Nat} {w : Worker} {j : Job} (hw : p.staff[i]? = some w)
    (mem : j ∈ workerJobs w) (own : w.standsIn = false) : j ∈ p.busy.map Load.job := by
  cases w with
  | loading l o =>
    cases o with
    | none =>
      obtain rfl : j = l.job := by simpa [workerJobs, Worker.rest, Worker.load?] using mem
      exact List.mem_map_of_mem (mem_busy_iff.2 ⟨i, hw⟩)
    | some rest => cases own
  | between | fallen => cases own
  | _ => cases mem

theorem exists_staff_of_mem (h : l ∈ p.loads) :
    ∃ (i : Nat) (o : Option (List Job)), p.staff[i]? = some (.loading l o) := by
  obtain ⟨w, hw, load⟩ := List.mem_filterMap.1 h
  obtain ⟨i, hi⟩ := List.mem_iff_getElem?.1 hw
  cases w with
  | loading l' o =>
    cases load
    exact ⟨i, o, hi⟩
  | _ => cases load

theorem count_source (p : Pool) (c : CallId) :
    (p.jobs.map Job.source).count c = (p.stages c).length := by
  rw [jobs, stages, running, List.map_append, List.map_map, List.count_append, List.length_append,
    List.length_replicate, List.length_map, List.count_eq_countP, List.count_eq_countP,
    List.countP_map, List.countP_map, ← List.countP_eq_length_filter]
  rfl

end Pool

/-- Whoever tears a cache down has taken it from its slot. -/
theorem Keys.Step.slot_of_retires_after {v v' : Keys} {who : Option CallId} {id c : CallId}
    {k : Key} (hs : v.Step who v') (retires : v'.role id = some (.retires k c)) :
    v.role id = some (.retires k c) ∨ v.slot k = some (.reader c) := by
  cases hs <;> grind [Function.update_apply]

/-- A load that panics does not finish its store. -/
theorem LoadPhase.change_ne_of_panics {p : LoadPhase} {n : Nat} {x : Source} {y : Store}
    {text : String} (panics : (p.step n x y).move = .panics text) :
    (p.step n x y).change ≠ .finish := by
  cases p with
  | reading =>
    rw [step] at panics ⊢
    rcases hx : x.answer with ⟨answer, x'⟩
    rw [hx] at panics
    cases answer with
    | bytes data =>
      simp only [afterRead] at panics
      split at panics <;> cases panics
    | failed e => cases panics
    | panicked text => simp [afterRead]
  | allocating | checking =>
    simp only [step]
    split <;> simp
  | beginning | closing => simp [step]
  | finishing => cases panics

namespace Session
open Keys

variable {s : Session} {n : PoolName} {id c : CallId} {k : Key} {a : Task} {e : Event} {l : Load}

/-! ## Loads that are left to the pool -/

/-- The cache is loaded by the pool of the registry. As long as its store is not finished and the
registry goes on, it is found by readers or torn down, or the call that has made it is about to let
readers find it. -/
structure Deferred (s : Session) (c : CallId) : Prop where
  mode : ∃ x, s.caches.get? c = some x ∧ x.mode = .async
  unfilled : ∀ k l, s.task? c ≠ some (.fill k l)
  place : s.keys.Current (s.keyOf c) c ∨ s.keys.Over ∨ (s.store (.cache c)).finished = true

theorem Deferred.cached (h : s.Deferred c) : s.caches.contains c = true := by
  obtain ⟨x, hx, -⟩ := h.mode
  exact Option.isSome_of_eq_some hx

theorem Deferred.after {config : CacheConfig} {workers : Nat} (h : s.Deferred c)
    (reach : Reach (start config workers) s) (admitted : s.admits e)
    (stands : ∀ k i, s.task? c = some (.standIn k i) → s.fall? .registry i = none) :
    (s.after e).Deferred c := by
  have hs := reach.sound
  have ha := reach.attentive
  have step := step_after hs admitted
  obtain ⟨k, n, hc⟩ := cached_iff.1 h.cached
  obtain ⟨n', hc'⟩ := step.cached hs.keys ⟨n, hc⟩
  refine ⟨?_, fun k' l ht => ?_, ?_⟩
  · obtain ⟨x, hx, mode⟩ := h.mode
    obtain ⟨x', hx', same⟩ := (modes_after hs).mode hx
    exact ⟨x', hx', same.trans mode⟩
  · rcases task_or_leads hs ha admitted ht rfl with before | ⟨a, before, leads, -⟩
    · exact h.unfilled k' l before
    · cases leads with
      | fill => simp [hs.keys.no_cache (.inr (role_of_task before))] at hc
      | filling => exact h.unfilled _ _ before
  rw [keyOf_of_cache hc']
  have place := h.place
  rw [keyOf_of_cache hc] at place
  rcases place with current | idle | finished
  · by_cases builds : s.keys.role c = some (.builds k)
    · by_cases caller : e.caller = some c
      · rcases task_of_builds builds with ⟨l, ht⟩ | ⟨i, ht⟩ | ht
        · exact absurd ht (h.unfilled k l)
        · rw [ha.after_of_caller admitted caller ht]
          refine .inl (.inl ?_)
          show (s.moveStandIn c k i).keys.role c = _
          rw [moveStandIn, stands k i ht]
          exact role_of_task ((task?_goOn (Option.isSome_of_eq_some ht) _ _).trans (if_pos rfl))
        · rw [ha.after_of_caller admitted caller ht]
          exact .inl (current_of_register s c k)
      · exact .inl (.inl ((step.role_of_ne caller).trans builds))
    · refine (current_after reach admitted hc current).imp_right (Or.imp And.right ?_)
      rintro ⟨-, finished | ⟨builds', -⟩⟩
      · exact finished
      · exact absurd builds' builds
  · exact .inr (.inl (step.idle idle))
  · obtain ⟨y, -, hy, -⟩ := eq_of_track_of_stages hs h.cached
    exact .inr (.inr ((passes_after hs ha admitted).toStocks.finished
      (Option.isSome_of_eq_some hy) finished))

/-- A call leaves its load to the pool once its factory has given the source. -/
theorem deferred_of_loaded (ht : s.task? c = some (.makeSource k .async))
    (gives : (s.source c).factory = .gives) : (s.after (.move (.call c))).Deferred c := by
  have obtains : s.Obtains (.move (.call c)) k c := ⟨rfl, _, ht, gives⟩
  have cached := obtains.cached
  have task : ((s.newCache c k .async).task? c).isSome := Option.isSome_of_eq_some ht
  obtain ⟨d, next⟩ : ∃ d, (s.after (.move (.call c))).task? c = some (.submitted k d) := by
    rw [Session.after, move_of_task ht, moveTask, moveMakeSource, gives]
    exact ⟨_, (task?_goOn (by rwa [task?_setPool]) _ _).trans (if_pos rfl)⟩
  refine ⟨?_, fun k' l => ?_, .inl (.inl ?_)⟩
  · rw [Session.after, move_of_task ht, moveTask, moveMakeSource, gives]
    exact ⟨_, Table.get?_set_self .., rfl⟩
  · rw [next]
    cases d <;> simp [Task.submitted]
  · rw [keyOf_of_cache cached, role_of_task next]
    cases d <;> rfl

/-- In a settled session a registry that nobody can use any more has ended. -/
theorem Attentive.ended_of_over (ha : s.Attentive) (hs : s.Sound) (settled : s.Settled)
    (idle : s.keys.Over) : s.registry.ended = true := by
  have unused : s.hasHolder = false := by
    refine hasHolder_eq_false_iff.2 ⟨idle.held, fun r => ?_, fun w => ?_, fun i a ht => ?_⟩
    · cases hr : s.readers.get? r with
      | none => rfl
      | some h => cases (idle.slot _).symm.trans (hs.slot_of_reads ⟨h, hr, rfl⟩)
    · cases hw : s.writers.get? w with
      | none => rfl
      | some h => cases (idle.slot _).symm.trans (hs.slot_of_writes ⟨h, hw, rfl⟩)
    · have role := (idle.role i).symm.trans (role_of_task ht)
      have state := ha.waits_or settled ht
      cases a with
      | leave | announce | closeSink | giveBack | expire =>
        exact absurd state (by simp [Waits, taskCanMove])
      | read | readStore | awaitStore | makeLoad | load | assist => rfl
      | _ => cases role
  by_contra going
  have ahead : s.registry.ending = .ahead := by simpa [Registry.ended] using going
  have still := settled .registry
  rw [Session.canMove, ahead] at still
  cases still.symm.trans (congrArg not unused)

/-- Readers find the cache, or a call waits until it is torn down. -/
def Tended (s : Session) (c : CallId) : Prop :=
  s.registry.slots.get? (s.keyOf c) = some (.reader c) ∨
    ∃ id, s.task? id = some (.awaitCache (s.keyOf c) c)

/-- A call that goes on with a key without waiting for anything is not met in a settled session. -/
theorem Attentive.not_passing (ha : s.Attentive) (settled : s.Settled) (id c : CallId) (k : Key) :
    s.task? id ≠ some (.register k) ∧ s.task? id ≠ some (.cancelCache k c) ∧
      s.task? id ≠ some (.dequeueCache k c) ∧ s.task? id ≠ some (.lease k) := by
  have moves : ∀ {a}, s.task? id = some a → ¬ s.Waits a → s.taskCanMove id a = false := by
    intro a ht past
    exact (ha.waits_or settled ht).resolve_left past
  refine ⟨fun ht => ?_, fun ht => ?_, fun ht => ?_, fun ht => ?_⟩ <;>
    cases moves ht (fun waits => waits.elim)

/-- Whoever tears a cache down in a settled session waits for its load to stop. -/
theorem Attentive.awaits_of_retires (ha : s.Attentive) (settled : s.Settled)
    (retires : s.keys.role id = some (.retires k c)) :
    s.task? id = some (.awaitCache k c) := by
  obtain ⟨-, cancel, dequeue, -⟩ := ha.not_passing settled id c k
  rcases task_of_retires retires with ht | ht | ht
  · exact absurd ht cancel
  · exact absurd ht dequeue
  · exact ht

theorem Deferred.tended (h : s.Deferred c) (ha : s.Attentive) (settled : s.Settled)
    (hs : s.Sound) (going : s.registry.ended = false)
    (unfinished : (s.store (.cache c)).finished = false)
    (alone : ∀ k i, s.task? c ≠ some (.standIn k i)) : s.Tended c := by
  rcases h.place with (builds | slot | ⟨id, retires⟩) | idle | finished
  · rcases task_of_builds builds with ⟨l, ht⟩ | ⟨i, ht⟩ | ht
    · exact absurd ht (h.unfilled _ l)
    · exact absurd ht (alone _ i)
    · exact absurd ht (ha.not_passing settled c c _).1
  · exact .inl slot
  · exact .inr ⟨id, ha.awaits_of_retires settled retires⟩
  · cases going.symm.trans (ha.ended_of_over hs settled idle)
  · cases unfinished.symm.trans finished

/-- A cache that is loaded in the background, open to readers or being torn down, whose store is not
finished. -/
structure Unloaded (s : Session) (c : CallId) : Prop where
  mode : ∃ x, s.caches.get? c = some x ∧ x.mode = .async
  tended : s.Tended c
  unfinished : (s.store (.cache c)).finished = false

/-! ## Loads in the hands of the pool -/

theorem Sound.unfinished_of_mem_jobs {j : Job} (hs : s.Sound) (h : j ∈ s.registry.pool.jobs) :
    (s.store (.cache j.source)).finished = false := by
  obtain ⟨-, cached⟩ := hs.own h
  obtain ⟨y, -, hy, -, store, -⟩ := eq_of_track_of_stages hs cached
  obtain ⟨st, stages⟩ : ∃ st, s.stages j.source = [st] := by
    rcases List.mem_append.1 h with waits | running
    · exact ⟨_, stages_of_waiting hs waits⟩
    · obtain ⟨l, hl, rfl⟩ := List.mem_map.1 running
      obtain ⟨i, o, hw⟩ := Pool.exists_staff_of_mem hl
      exact ⟨_, stages_of_staff hs hw⟩
  have mem : st ∈ s.stages j.source := by simp [stages]
  rw [store]
  exact (hs.track (not_apart_of_cached cached)).unfinished mem hy

/-- A pool has at most one load of each source. -/
theorem Sound.nodup_jobs (hs : s.Sound) : (s.registry.pool.jobs.map Job.source).Nodup := by
  refine List.nodup_iff_count_le_one.2 fun c => ?_
  by_cases mem : c ∈ s.registry.pool.jobs.map Job.source
  · obtain ⟨j, hj, rfl⟩ := List.mem_map.1 mem
    rw [Pool.count_source]
    exact one_of_sound hs (not_apart_of_cached (hs.own hj).2)
  · rw [List.count_eq_zero_of_not_mem mem]
    exact Nat.zero_le 1

/-- A load that has stopped is not in the hands of the pool. -/
theorem Sound.source_ne_of_gone {j : Job} (hs : s.Sound) (gone : (s.track c).Gone)
    (h : j ∈ s.registry.pool.jobs) : j.source ≠ c := by
  rcases List.mem_append.1 h with waits | running
  · exact hs.not_waiting gone waits
  · obtain ⟨l, hl, rfl⟩ := List.mem_map.1 running
    obtain ⟨i, o, hw⟩ := Pool.exists_staff_of_mem hl
    exact hs.not_runs gone (.inl ⟨.registry, i, o, hw⟩)

/-! ## Loads that panic -/

/-- A load that panics has stopped, and its store is not finished. -/
theorem Kills.gone {j : Job} (h : s.Kills .registry j e) (hs : s.Sound) :
    ((s.after e).track j.source).Gone ∧
      ((s.after e).store (.cache j.source)).finished = false := by
  obtain ⟨i, l, rfl, load, rfl, fault⟩ := h
  obtain ⟨o, hw⟩ := Pool.load?_eq_some load
  obtain ⟨own, cached⟩ := hs.own (Pool.mem_jobs_of_staff hw)
  have apart := not_apart_of_cached cached
  have stages := stages_of_staff hs hw
  obtain ⟨y, -, hy, -, store, -⟩ := eq_of_track_of_stages hs cached
  have running : .running l.phase ∈ s.stages l.job.source := by simp [stages]
  have unfinished : y.finished = false := (hs.track apart).unfinished running hy
  obtain ⟨text, panics⟩ : ∃ text, (s.nextStep l).move = .panics text := by
    have turn := s.panics_turn (l := l) i o
    rw [fault, advanceLoad_fst] at turn
    cases m : (s.nextStep l).move with
    | panics text => exact ⟨text, rfl⟩
    | goesOn | ends =>
      rw [m] at turn
      cases turn
  have stopped := stages_moveWorker (n := .registry) hw (one_of_sound hs apart)
  rw [panics] at stopped
  have idle : ((s.task? l.job.source).bind Task.stage?).toList = [] := by
    rw [Session.stages, pool_stages_of_staff hs hw] at stages
    simpa using stages
  have after : s.after (.move (.worker .registry i)) = (s.advanceLoad l).2.setPool .registry
      (((s.advanceLoad l).2.pool .registry).setWorker i (.after l o (s.advanceLoad l).1)) := by
    have hw : (s.pool .registry).staff[i]? = some (.loading l o) := hw
    rw [Session.after, Session.move, moveWorker, hw]
  rw [after] at stopped ⊢
  refine ⟨⟨?_, ?_⟩, ?_⟩
  · show (s.advanceLoad l).2.caches.contains l.job.source = true
    rw [caches_advanceLoad]
    exact cached
  · show Session.stages _ l.job.source = []
    rw [Session.stages, task?_setPool, task?_advanceLoad, idle, List.append_nil]
    exact stopped
  · have after : (s.advanceLoad l).2.stores.get? (.cache l.job.source) =
        some (y.change (s.nextStep l).change) := by
      rw [get?_advanceLoad, if_pos own.symm, hy]
      rfl
    show (Session.store (s.advanceLoad l).2 (.cache l.job.source)).finished = false
    rw [Session.store, after]
    exact unfinished_change unfinished (LoadPhase.change_ne_of_panics panics)

/-- The load that kills a worker of the pool in the event. -/
def victim? (s : Session) (n : PoolName) : Event → Option Job
  | .move (.worker m i) =>
    if m = n then
      match (s.pool n).staff[i]? with
      | some (.loading l none) => (s.loadFault? l).map fun _ => l.job
      | _ => none
    else none
  | _ => none

theorem victim?_iff {j : Job} : s.victim? n e = some j ↔
    ∃ i l, e = .move (.worker n i) ∧ (s.pool n).staff[i]? = some (.loading l none) ∧ l.job = j ∧
      (s.loadFault? l).isSome = true := by
  constructor
  · intro h
    unfold victim? at h
    split at h
    · split at h
      · next same =>
        subst same
        split at h
        · next i l hw =>
          obtain ⟨f, hf, rfl⟩ := Option.map_eq_some_iff.1 h
          exact ⟨_, l, rfl, hw, rfl, Option.isSome_of_eq_some hf⟩
        · cases h
      · cases h
    · cases h
  · rintro ⟨i, l, rfl, hw, rfl, fault⟩
    obtain ⟨f, hf⟩ := Option.isSome_iff_exists.1 fault
    simp [victim?, hw, hf]

theorem kills_of_victim? {j : Job} (h : s.victim? n e = some j) : s.Kills n j e := by
  obtain ⟨i, l, rfl, hw, rfl, fault⟩ := victim?_iff.1 h
  exact ⟨i, l, rfl, Pool.load?_of_loading hw, rfl, fault⟩

/-- A worker dies of a load. -/
theorem marks_dead : Pool.Marks (· = .dead) where
  struck {w} spared := by
    cases w with
    | dead => cases spared
    | _ => rfl
  shed _ _ _ := rfl

theorem length_victim? {a : Pool.Act} (acts : s.poolActs n e = [a]) :
    (s.victim? n e).toList.length = if a.marks (· = .dead) then 1 else 0 := by
  have cause := cause (a := a) (by rw [acts]; exact List.mem_cons_self)
  cases cause with
  | @turns n i l o hw =>
    have panics := s.panics_turn (l := l) i o
    have marks : Pool.Act.marks (· = .dead) (.turn i l o (s.advanceLoad l).1) =
        decide (Worker.after l o (s.advanceLoad l).1 = .dead) := rfl
    rw [marks]
    cases o with
    | none =>
      cases fault : s.loadFault? l <;> cases move : (s.advanceLoad l).1 <;>
        simp_all [victim?, Worker.after, Pool.Act.panics]
    | some rest => cases move : (s.advanceLoad l).1 <;> simp [victim?, hw, Worker.after]
  | looks hw => rcases hw with hw | hw <;> simp [victim?, hw, Pool.Act.marks]
  | retracts hw | takesUp hw | sheds hw => simp [victim?, hw, Pool.Act.marks]
  | _ => rfl

end Session

namespace Run
open Session Keys

variable {config : CacheConfig} {workers : Nat} (r : Run (start config workers))
variable {n : PoolName} {m : Nat} {j : Job} {c : CallId} {k : Key}

/-- What the pool of the registry was given to load, unless the call that has given it gives up as
a stand-in. -/
theorem deferred (h : j ∈ (r.ledger .registry m).submitted) :
    (r.state m).Deferred j.source ∨ r.TakenOver .registry j.source m := by
  induction m with
  | zero => cases h
  | succ m ih =>
    rcases Ledger.submitted_enterAll h with before | ⟨t, now⟩
    · rcases ih before with deferred | takenOver
      · by_cases stands : ∀ k i, (r.state m).task? j.source = some (.standIn k i) →
            (r.state m).fall? .registry i = none
        · left
          rw [r.state_succ]
          exact deferred.after (r.reach m) (r.admitted m) stands
        · right
          simp only [not_forall] at stands
          obtain ⟨k, i, ht, fallen⟩ := stands
          obtain ⟨text, fall⟩ := Option.ne_none_iff_exists'.1 fallen
          exact (r.takenOver_of_fall ht fall).mono r (Nat.le_succ m)
      · exact .inr (takenOver.mono r (Nat.le_succ m))
    · left
      rw [r.state_succ]
      have cause := cause now
      generalize r.event m = e at cause
      cases cause with
      | loaded ht gives => exact deferred_of_loaded ht gives

/-- Whoever still stands in for a worker in a settled session has taken its own load over. -/
theorem takenOver_of_settled {i : Nat} (settled : (r.state m).Settled)
    (ht : (r.state m).task? c = some (.standIn k i)) : r.TakenOver .registry c m := by
  obtain ⟨rest, l, hw, -⟩ := (r.reach m).lingers_of_standIn settled ht
  rcases r.excused_or_takenOver ht hw with same | same | takenOver
  · cases same
  · cases same
  · exact takenOver

/-- The loads that have killed workers of the pool in the first `m` moments, in turn. -/
def victims (r : Run (start config workers)) (n : PoolName) (m : Nat) : List Job :=
  (List.range m).flatMap fun i => ((r.state i).victim? n (r.event i)).toList

theorem victims_succ (n : PoolName) (m : Nat) :
    r.victims n (m + 1) = r.victims n m ++ ((r.state m).victim? n (r.event m)).toList := by
  simp [victims, List.range_succ]

theorem mem_victims : j ∈ r.victims n m ↔
    ∃ i, i < m ∧ (r.state i).victim? n (r.event i) = some j := by
  simp [victims]

theorem length_victims (n : PoolName) (m : Nat) :
    (r.victims n m).length = ((r.state m).pool n).dead := by
  induction m with
  | zero =>
    rw [r.state_zero, pool_start]
    rfl
  | succ m ih =>
    rw [victims_succ, List.length_append, ih]
    rcases r.pool_step n m with ⟨acts, same⟩ | ⟨a, acts, allowed, step⟩
    · have none : (r.state m).victim? n (r.event m) = none := by
        refine Option.eq_none_iff_forall_ne_some.2 fun j victim => ?_
        obtain ⟨i, l, event, hw, -⟩ := victim?_iff.1 victim
        simp [event, poolActs, workerActs, hw] at acts
      rw [same, none]
      rfl
    · rw [step, length_victim? acts]
      exact (Pool.marked_act marks_dead allowed).symm

/-- A load that has killed a worker has stopped, and its store is not finished. -/
theorem gone_of_mem_victims (h : j ∈ r.victims .registry m) :
    ((r.state m).track j.source).Gone ∧
      ((r.state m).store (.cache j.source)).finished = false := by
  obtain ⟨i, lt, victim⟩ := r.mem_victims.1 h
  have stopped := (kills_of_victim? victim).gone (r.sound i)
  rw [← r.state_succ] at stopped
  obtain ⟨gone, unfinished⟩ := stopped
  have rests := r.rests gone lt
  exact ⟨rests.gone, rests.finished.trans unfinished⟩

/-- It was taken by that worker. -/
theorem taken_of_mem_victims (h : j ∈ r.victims n m) : ∃ i w, (i, j) ∈ (r.ledger n m).taken ∧
    ((r.state m).pool n).staff[i]? = some w ∧ w.standsIn = false := by
  obtain ⟨k, lt, victim⟩ := r.mem_victims.1 h
  obtain ⟨i, l, -, hw, rfl, -⟩ := victim?_iff.1 victim
  have taken := (r.agrees n k).runs hw (j := l.job) (by simp [Pool.workerJobs, Worker.load?])
  obtain ⟨w, hw', -, same⟩ := r.standsIn_kept hw (by simp) (Nat.le_of_lt lt)
  exact ⟨i, w, r.taken_mono (Nat.le_of_lt lt) taken, hw', same⟩

/-! ## Loads that are not done -/

/-- Whoever tears a cache down has found it in the slot of its key. -/
theorem loads_of_retires {id : CallId}
    (retires : (r.state m).keys.role id = some (.retires k c)) : r.Loads m c := by
  induction m with
  | zero => simp [r.state_zero, start, keys, task?] at retires
  | succ m ih =>
    rcases (r.step m).slot_of_retires_after retires with before | slot
    · have cached := (r.sound m).keys.cache_of_retires before
      exact (ih before).succ r (cached_iff.2 ⟨k, cached⟩)
    · have cached := (r.sound m).keys.cache_of_slot slot
      exact (r.loads_of_slot slot).succ r (cached_iff.2 ⟨k, cached⟩)

/-- The loads that are queued, those that workers run and those that have killed workers. -/
def undone (r : Run (start config workers)) (m : Nat) : List Job :=
  (r.state m).registry.pool.queue ++ (r.state m).registry.pool.busy.map Load.job ++
    r.victims .registry m

theorem nodup_victims (m : Nat) : ((r.victims .registry m).map Job.source).Nodup := by
  induction m with
  | zero => exact List.nodup_nil
  | succ m ih =>
    rw [victims_succ, List.map_append]
    refine ih.append ?_ fun c before now => ?_
    · cases (r.state m).victim? .registry (r.event m) <;> simp
    · obtain ⟨j, hj, rfl⟩ := List.mem_map.1 now
      obtain ⟨j', hj', same⟩ := List.mem_map.1 before
      obtain ⟨i, l, -, hw, rfl, -⟩ := victim?_iff.1 (Option.mem_toList.1 hj)
      have gone := (r.gone_of_mem_victims hj').1
      exact (r.sound m).source_ne_of_gone gone (Pool.mem_jobs_of_staff hw) same.symm

theorem sublist_jobs (p : Pool) : (p.queue ++ p.busy.map Load.job).Sublist p.jobs :=
  (List.sublist_append_left ..).append (p.busy_sublist.map Load.job)

theorem nodup_undone (m : Nat) : ((r.undone m).map Job.source).Nodup := by
  have sub := sublist_jobs (r.state m).registry.pool
  rw [undone, List.map_append]
  refine ((sub.map Job.source).nodup (r.sound m).nodup_jobs).append (r.nodup_victims m) ?_
  intro c pooled killed
  obtain ⟨j, hj, rfl⟩ := List.mem_map.1 pooled
  obtain ⟨j', hj', same⟩ := List.mem_map.1 killed
  exact (r.sound m).source_ne_of_gone (r.gone_of_mem_victims hj').1 (sub.subset hj) same.symm

/-- No stand-in has taken such a load over, and its store is not finished. -/
theorem unfinished_of_mem_undone (h : j ∈ r.undone m) : j ∈ (r.ledger .registry m).submitted ∧
    ((r.state m).store (.cache j.source)).finished = false ∧
      ¬ r.TakenOver .registry j.source m := by
  have hs := r.sound m
  have sub := (sublist_jobs (r.state m).registry.pool).subset
  rcases List.mem_append.1 h with pooled | killed
  · refine ⟨r.submitted_of_jobs (sub pooled), hs.unfinished_of_mem_jobs (sub pooled), ?_⟩
    rcases List.mem_append.1 pooled with queued | busy
    · exact r.not_takenOver_of_queue queued
    · obtain ⟨l, hl, rfl⟩ := List.mem_map.1 busy
      obtain ⟨i, hw⟩ := Pool.mem_busy_iff.1 hl
      have taken := (r.agrees .registry m).runs hw (j := l.job)
        (by simp [Pool.workerJobs, Worker.load?])
      rw [r.takenOver_iff hw taken]
      simp [Worker.standsIn]
  · obtain ⟨i, w, taken, hw, own⟩ := r.taken_of_mem_victims killed
    refine ⟨r.submitted_of_taken taken, (r.gone_of_mem_victims killed).2, ?_⟩
    rw [r.takenOver_iff hw taken, own]
    simp

/-- A load is not done when it has a place: it is queued, a worker runs it, or it has killed its
worker. -/
theorem mem_undone_iff (settled : (r.state m).Settled)
    (going : (r.state m).registry.ended = false) : c ∈ (r.undone m).map Job.source ↔
      (r.state m).Unloaded c ∧ ¬ r.TakenOver .registry c m := by
  constructor
  · intro h
    obtain ⟨j, hj, rfl⟩ := List.mem_map.1 h
    obtain ⟨submitted, unfinished, own⟩ := r.unfinished_of_mem_undone hj
    have deferred := (r.deferred submitted).resolve_right own
    have tended := deferred.tended (r.attentive m) settled (r.sound m) going unfinished
      fun k i ht => own (r.takenOver_of_settled settled ht)
    exact ⟨⟨deferred.mode, tended, unfinished⟩, own⟩
  · rintro ⟨⟨-, tended, unfinished⟩, own⟩
    refine List.mem_map.2 ⟨config.job c, ?_, rfl⟩
    have place := Or.resolve_left (a := ((r.state m).store (.cache c)).finished = true)
      (b := (r.state m).registry.pool.Has (config.job c) ∨
        r.Killed .registry (config.job c) m ∨ r.Shed .registry (config.job c) m) ?_
        (by simp [unfinished])
    · have spared : ∀ {k i : Nat} {w}, k ≤ m → ((r.state k).pool .registry).staff[i]? = some w →
          config.job c ∈ Pool.workerJobs w → w.standsIn = false := by
        intro k i w le hw mem
        have taken := (r.agrees .registry k).runs hw mem
        rw [← Bool.not_eq_true, ← r.takenOver_iff hw taken]
        exact fun takenOver => own (takenOver.mono r le)
      rcases place with (queued | ⟨i, w, hw, mem⟩) | ⟨k, lt, i, l, event, load, job, fault⟩ |
        ⟨k, lt, i, text, rest, -, hw⟩
      · exact List.mem_append_left _ (List.mem_append_left _ queued)
      · have busy := Pool.mem_busy_of_worker hw mem (spared (Nat.le_refl m) hw mem)
        exact List.mem_append_left _ (List.mem_append_right _ busy)
      · obtain ⟨o, hw⟩ := Pool.load?_eq_some load
        have alone := spared (Nat.le_of_lt lt) hw (by simp [Pool.workerJobs, Worker.load?, job])
        cases o with
        | none =>
          refine List.mem_append_right _ (r.mem_victims.2 ⟨k, lt, ?_⟩)
          exact victim?_iff.2 ⟨i, l, event, hw, job, fault⟩
        | some rest => cases alone
      · cases spared (Nat.le_of_lt lt) hw (by simp [Pool.workerJobs, Worker.rest])
    · rcases tended with slot | ⟨id, ht⟩
      · exact r.place_of_slot slot
      · have retires := role_of_task ht
        refine r.place_of_loads (r.loads_of_retires retires) fun idle => ?_
        cases (idle.role id).symm.trans retires

/-- There are as many as the pool counts. -/
theorem length_undone (settled : (r.state m).Settled) : (r.undone m).length =
    (r.state m).registry.pool.active + (r.state m).registry.pool.queue.length := by
  have pool : (r.state m).pool .registry = (r.state m).registry.pool := rfl
  have all := (r.state m).registry.pool.length_staff
  have le := (r.state m).registry.pool.inline_le_loads
  have loads := (r.state m).registry.pool.length_loads
  have dead := r.length_victims .registry m
  obtain ⟨ready, woken, denied⟩ := settled.nobody_looks .registry
  obtain ⟨workers, idle, -⟩ := r.balanced .registry m
  rw [pool] at dead ready woken denied workers idle
  rw [undone, List.length_append, List.length_append, List.length_map, dead, Pool.active]
  omega

end Run
end SharedStream
