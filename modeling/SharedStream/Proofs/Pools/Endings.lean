import SharedStream.Proofs.Pools.Fates

/-! # How background loads end

A load that is in the hands of a pool has an open source. Whoever waits for the store of a load that
was submitted waits for a load that is queued or that waits in a read, unless the load has killed
its worker or has gone with its queue.
-/
namespace SharedStream

/-- The load that the call runs into a separate store, or is about to run. -/
def Task.job? : Task → Option Job
  | .makeLoad j => some j
  | .load l => some l.job
  | _ => none

theorem Task.Leads.job? {a b : Task} (h : a.Leads b) : b.job? = a.job? := by
  cases h with
  | start => rfl
  | loading l l' same => exact congrArg some same
  | _ => rfl

namespace Pool

variable {p : Pool} {a : Act} {i : Nat} {c : CallId} {j : Job} {l : Load} {o : Option (List Job)}

/-! ## Stages -/

/-- A load of the source waits, or is run and has not closed the source. -/
def Draws (p : Pool) (c : CallId) : Prop := ∃ st ∈ p.stages c, st ≠ .running .finishing

theorem draws_of_waiting (h : j ∈ p.waiting) : p.Draws j.source := by
  have some : p.waiting.countP (·.source = j.source) ≠ 0 :=
    Nat.ne_of_gt (List.countP_pos_iff.2 ⟨j, h, by simp⟩)
  exact ⟨.queued, List.mem_append_left _ (List.mem_replicate.2 ⟨some, rfl⟩), by simp⟩

theorem draws_of_staff (h : p.staff[i]? = some (.loading l o)) (phase : l.phase ≠ .finishing) :
    p.Draws l.job.source := by
  have mem : l ∈ p.loads := List.mem_filterMap.2 ⟨_, List.mem_of_getElem? h, rfl⟩
  refine ⟨.running l.phase, List.mem_append_right _ ?_, by simpa using phase⟩
  exact List.mem_map.2 ⟨l, List.mem_filter.2 ⟨mem, by simp⟩, rfl⟩

theorem exists_job_of_stages (some : p.stages c ≠ []) : ∃ j ∈ p.jobs, j.source = c := by
  by_contra none
  exact some (stages_eq_nil fun {j} hj source => none ⟨j, hj, source⟩)

/-- What an act makes of the stages of a source. -/
inductive Shift (a : Act) (c : CallId) : List Stage → List Stage → Prop
  | same {sts : List Stage} : Shift a c sts sts
  | queues {j : Job} {t : Bool} : a = .submit j t → j.source = c → Shift a c [] [.queued]
  | starts : Shift a c [.queued] [.running .allocating]
  | moves {i : Nat} {l : Load} {o : Option (List Job)} {m : LoadMove} :
      a = .turn i l o m → l.job.source = c → Shift a c [.running l.phase] m.stage?.toList
  /-- It leaves the pool, and nobody has begun it. -/
  | drops : Shift a c [.queued] []

theorem Shift.length_le {sts sts' : List Stage} (h : Shift a c sts sts') (one : sts.length ≤ 1) :
    sts'.length ≤ 1 := by
  cases h with
  | same => exact one
  | moves => exact Option.length_toList_le
  | _ => simp

theorem Shift.of_begins {sts sts' : List Stage}
    (h : sts' = sts ∨ sts = [.queued] ∧ sts' = [.running .allocating]) : Shift a c sts sts' := by
  rcases h with rfl | ⟨rfl, rfl⟩
  · exact .same
  · exact .starts

theorem shift_act (allowed : p.Allows a) (one : (p.stages c).length ≤ 1)
    (fresh : ∀ j t, a = .submit j t → p.stages j.source = []) :
    Shift a c (p.stages c) ((p.act a).stages c) := by
  cases a with
  | submit j t =>
    by_cases own : j.source = c
    · subst own
      have none := fresh j t rfl
      rw [act, stages_submit_self none, none]
      exact .queues rfl rfl
    · rw [act, stages_submit_of_ne own]
      exact .same
  | look i =>
    obtain ⟨w, hw, free⟩ := exists_free allowed
    obtain ⟨q, looks, staff, queue, -⟩ := p.act_look i
    have same : q.stages c = p.stages c := by
      simp only [stages, running, waiting, orphans, loads, staff, queue]
    rw [← same] at one ⊢
    rw [looks]
    rw [← staff] at hw
    refine .of_begins (stages_look hw ?_ ?_ one)
    · rcases free with rfl | rfl <;> rfl
    · rcases free with rfl | rfl <;> rfl
  | turn i l o m =>
    by_cases own : l.job.source = c
    · subst own
      obtain ⟨before, after⟩ := stages_after_self (m := m) allowed one
      rw [act, before, after]
      exact .moves rfl rfl
    · rw [act, stages_after_of_ne allowed own]
      exact .same
  | retract i =>
    rw [act, stages_retract allowed]
    exact .same
  | next i j rest => exact .of_begins (stages_next allowed one)
  | shed i text j rest =>
    by_cases own : j.source = c
    · subst own
      have waits : j ∈ p.waiting :=
        List.mem_append_right _ (mem_orphans_of_staff allowed List.mem_cons_self)
      rw [act, stages_shed_self allowed one, (stages_of_waiting waits rfl one).1]
      exact .drops
    · rw [act, stages_shed_of_ne allowed own]
      exact .same
  | cancel x =>
    by_cases own : ∃ j ∈ p.queue, j.source = c ∧ j.store = x
    · obtain ⟨j, queued, source, store⟩ := own
      rw [act, stages_dequeue_self queued source store one, (stages_of_queued queued source one).1]
      exact .drops
    · rw [act, stages_dequeue_of_ne fun j queued source store => own ⟨j, queued, source, store⟩]
      exact .same
  | shutdown =>
    rw [act, stages_congr (.of_eq waiting_shutdown) loads_shutdown]
    exact .same
  | drop =>
    by_cases own : ∃ j ∈ p.queue, j.source = c
    · obtain ⟨j, queued, source⟩ := own
      rw [act, stages_clear_self queued source one, (stages_of_queued queued source one).1]
      exact .drops
    · rw [act, stages_clear_of_ne fun j queued source => own ⟨j, queued, source⟩]
      exact .same

end Pool

namespace Session
open Pool

variable {s : Session} {n : PoolName} {id c : CallId} {e : Event} {a b : Task} {j : Job} {l : Load}
variable {i : Nat} {o : Option (List Job)}

/-- Nothing is left of a load that was dropped. -/
theorem Drops.stages (h : s.Drops n j e) (one : ((s.pool n).stages j.source).length ≤ 1) :
    ((s.after e).pool n).stages j.source = [] := by
  rw [pool_after]
  cases h with
  | removed queued cancel =>
    rw [poolActs_eq_singleton cancel]
    exact stages_dequeue_self queued rfl rfl one
  | lost queued drop =>
    rw [poolActs_of_drop drop]
    exact stages_clear_self queued rfl one
  | shed act =>
    rw [poolActs_eq_singleton act]
    cases cause act with
    | sheds hw => exact stages_shed_self hw one

/-! ## Open sources -/

/-- A load of the registry that waits or is run has an open source. -/
theorem Sound.open_of_draws (hs : s.Sound) (h : s.registry.pool.Draws c) :
    (s.source c).closed = false := by
  obtain ⟨st, staged, early⟩ := h
  obtain ⟨j, mem, rfl⟩ := exists_job_of_stages (List.ne_nil_of_mem staged)
  have cached := (hs.own mem).2
  obtain ⟨-, x, -, hx, -, source⟩ := eq_of_track_of_stages hs cached
  have closed := (hs.track (not_apart_of_cached cached)).closed_iff
    (List.mem_append_left _ staged) hx
  rw [source, ← Bool.not_eq_true]
  exact fun h => early (closed.1 h)

/-- The source of a load that a call runs into a separate store goes by the name of the call. -/
theorem Reach.source_of_job {config : CacheConfig} {workers : Nat}
    (h : Reach (start config workers) s) (ht : s.task? id = some a) (job : a.job? = some j) :
    j.source = id := by
  refine h.invariant (P := fun s => ∀ id a j, s.task? id = some a → a.job? = some j →
    j.source = id) ?_ ?_ id a j ht job
  · intro id a j ht
    cases ht
  intro s e reach ih admitted id b j hb job
  rcases task_after reach.sound reach.attentive admitted hb with ⟨op, rfl⟩ | ⟨a, ht, same⟩
  · have first := (entry { s with clock := id + 1 } id op).firstTask? hb
    cases op with
    | load =>
      cases first
      cases job
      rfl
    | read x goal buf =>
      obtain ⟨handle, -, rfl⟩ := Option.map_eq_some_iff.1 first
      cases job
    | part x parting =>
      cases first
      split at job <;> cases job
    | submit x plan size =>
      obtain ⟨i, -, rfl⟩ := Option.map_eq_some_iff.1 first
      cases job
    | _ => cases first <;> cases job
  · refine ih id a j ht ?_
    rcases same with rfl | leads
    · exact job
    · exact leads.job?.symm.trans job

/-- So does the source of every load that a call runs. -/
theorem Reach.source_of_load {config : CacheConfig} {workers : Nat}
    (h : Reach (start config workers) s) (ht : s.task? id = some a) (load : a.load? = some l) :
    l.job.source = id := by
  cases a with
  | fill k l' =>
    cases load
    exact (h.sound.fits ht).2
  | load l' =>
    cases load
    exact h.source_of_job ht rfl
  | _ => cases load

theorem fits_nextStep (open_ : (s.source l.job.source).closed = false)
    (phase : l.phase ≠ .finishing) : (s.nextStep l).Fits := by
  unfold nextStep
  by_cases reading : l.phase = .reading
  · rw [reading]
    exact LoadPhase.afterRead_fits _ open_
  · exact LoadPhase.step_fits _ reading (by simp [open_, phase])

theorem source_submit {x : CallId} {plan : SourcePlan} {size : Nat} (gives : plan.factory = .gives)
    (present : s.stores.contains (.separate x) = true) (going : s.separate.shutDown = false) :
    ((s.after (.begin id (.submit x plan size))).source id).closed = false := by
  simp only [after, begin, enter, withStore, withPool, submit, gives, present, going]
  simp only [if_true, Bool.false_eq_true, if_false]
  split <;> simp [source, setPool, answer, call, SourcePlan.source, Source.build]

/-- Whoever waits for a store waits for it to be finished. -/
theorem Waits.unfinished {x : StoreId} (h : s.Waits a) (awaits : a.awaits x = true) :
    (s.store x).finished = false := by
  cases a with
  | awaitCache k c =>
    obtain rfl : .cache c = x := by simpa [Task.awaits] using awaits
    exact h
  | awaitStore y =>
    obtain rfl : y = x := by simpa [Task.awaits] using awaits
    exact h
  | readStore y q =>
    obtain rfl : y = x := by simpa [Task.awaits] using awaits
    exact (Store.read_eq_waits_iff.1 h).2.2
  | read rd =>
    obtain rfl : .cache rd.cache = x := by simpa [Task.awaits] using awaits
    obtain ⟨handle, -, waits⟩ := h
    exact (Store.read_eq_waits_iff.1 waits).2.2
  | _ => cases awaits

/-! ## Moves of workers -/

theorem sources_moveWorker (hw : (s.pool n).staff[i]? = some (.loading l o)) :
    (s.after (.move (.worker n i))).sources =
      s.sources.modify l.job.source fun _ => (s.nextStep l).source := by
  rw [after, move, moveWorker, hw, ← sources_advanceLoad]
  cases n <;> rfl

theorem stages_moveWorker (hw : (s.pool n).staff[i]? = some (.loading l o))
    (one : ((s.pool n).stages l.job.source).length ≤ 1) :
    ((s.after (.move (.worker n i))).pool n).stages l.job.source =
      (s.nextStep l).move.stage?.toList := by
  have turn : s.poolActs n (.move (.worker n i)) = [.turn i l o (s.nextStep l).move] := by
    simp [poolActs, workerActs, hw, advanceLoad_fst]
  rw [pool_after, turn]
  exact (stages_after_self hw one).2

/-- A worker closes the source of its load only before the last move. -/
theorem open_of_moved (hw : (s.pool n).staff[i]? = some (.loading l o))
    (one : ((s.pool n).stages l.job.source).length ≤ 1)
    (before : l.phase ≠ .finishing → (s.source l.job.source).closed = false)
    (draws : ((s.after (.move (.worker n i))).pool n).Draws l.job.source) :
    ((s.after (.move (.worker n i))).source l.job.source).closed = false := by
  obtain ⟨st, staged, early⟩ := draws
  rw [stages_moveWorker hw one] at staged
  have unfinished : l.phase ≠ .finishing := by
    intro last
    simp [nextStep, last, LoadPhase.step, LoadMove.stage?] at staged
  have fits := fits_nextStep (before unfinished) unfinished
  have open_ : (s.nextStep l).source.closed = false := by
    unfold LoadStep.Fits at fits
    cases next : (s.nextStep l).move with
    | goesOn p =>
      rw [next] at fits staged
      obtain rfl : st = .running p := by simpa [LoadMove.stage?] using staged
      rw [← Bool.not_eq_true]
      exact fun closed => early (congrArg Stage.running (fits.1.1 closed))
    | ends =>
      rw [next] at staged
      cases staged
    | panics text =>
      rw [next] at staged
      cases staged
  rw [source, sources_moveWorker hw, Table.get?_modify, if_pos rfl]
  cases s.sources.get? l.job.source with
  | none => rfl
  | some x => exact open_

/-- The two pools have no source in common. -/
theorem Sound.source_ne {j' : Job} (hs : s.Sound) (mem : j ∈ s.separate.jobs)
    (mem' : j' ∈ s.registry.pool.jobs) : j'.source ≠ j.source := by
  intro same
  exact not_apart_of_cached (same ▸ (hs.own mem').2) (hs.foreign mem).2

theorem Drops.mem_waiting (h : s.Drops n j e) : j ∈ (s.pool n).waiting := by
  cases h with
  | removed queued | lost queued => exact List.mem_append_left _ queued
  | shed act =>
    cases cause act with
    | sheds hw => exact List.mem_append_right _ (mem_orphans_of_staff hw List.mem_cons_self)

end Session

namespace Run
open Session Pool

variable {config : CacheConfig} {workers : Nat} (r : Run (start config workers))
variable {n : PoolName} {m : Nat} {c : CallId} {i i' : Nat} {j j' : Job} {l l' : Load}
variable {o o' : Option (List Job)}

/-! ## The sources of loads in the separate pool -/

theorem submitted_of_taken (h : (i, j) ∈ (r.ledger n m).taken) : j ∈ (r.ledger n m).submitted := by
  refine (r.agrees n m).perm.subset ?_
  simp only [List.mem_append]
  exact .inr (.inl (.inl (List.mem_map_of_mem h)))

theorem submitted_of_jobs (h : j ∈ ((r.state m).pool n).jobs) : j ∈ (r.ledger n m).submitted := by
  rcases worker_of_mem_jobs h with queued | ⟨i, w, hw, mem⟩
  · exact (r.agrees n m).queue_subset queued
  · exact r.submitted_of_taken ((r.agrees n m).runs hw mem)

/-- What becomes of the load of a source at the next moment, if there is not more than one. -/
theorem shift_succ (one : (((r.state m).pool n).stages c).length ≤ 1) :
    ((r.state m).poolActs n (r.event m) = [] ∧
      ((r.state (m + 1)).pool n).stages c = ((r.state m).pool n).stages c) ∨
    ∃ a, (r.state m).poolActs n (r.event m) = [a] ∧
      Shift a c (((r.state m).pool n).stages c) (((r.state (m + 1)).pool n).stages c) := by
  rcases r.pool_step n m with ⟨acts, same⟩ | ⟨a, acts, allowed, step⟩
  · exact .inl ⟨acts, by rw [same]⟩
  refine .inr ⟨a, acts, ?_⟩
  rw [step]
  refine shift_act allowed one fun j t submits => ?_
  by_contra some
  obtain ⟨j', mem, source⟩ := exists_job_of_stages some
  have given := r.given (r.submitted_of_jobs mem)
  rw [source] at given
  have now : .submit j t ∈ (r.state m).poolActs n (r.event m) := by simp [acts, submits]
  exact (given_of_submit (r.sound m) (r.admitted m) now).1 given

theorem length_stages_le (n : PoolName) (m : Nat) (c : CallId) :
    (((r.state m).pool n).stages c).length ≤ 1 := by
  induction m with
  | zero =>
    rw [r.state_zero, pool_start]
    exact Nat.zero_le 1
  | succ m ih =>
    rcases r.shift_succ ih with ⟨-, same⟩ | ⟨a, -, shift⟩
    · rwa [same]
    · exact shift.length_le ih

/-- Whoever has submitted a load to the separate pool does nothing more but stand in for a
worker. -/
theorem assist_of_submitted {a : Task} (h : j ∈ (r.ledger .separate m).submitted)
    (ht : (r.state m).task? j.source = some a) : ∃ i, a = .assist i := by
  induction m generalizing a with
  | zero => cases h
  | succ m ih =>
    rw [r.state_succ] at ht
    rcases Ledger.submitted_enterAll h with before | ⟨t, now⟩
    · rcases task_after (r.sound m) (r.attentive m) (r.admitted m) ht with
        ⟨op, begins⟩ | ⟨a', ht', rfl | leads⟩
      · have given : j.source < (r.state m).clock := r.given before
        have admitted := r.admitted m
        rw [begins] at admitted
        exact absurd given (Nat.not_lt_of_le admitted)
      · exact ih before ht'
      · obtain ⟨i, rfl⟩ := ih before ht'
        cases leads
    · have cause := cause now
      generalize r.event m = e at cause ht
      cases cause with
      | @submitted id x plan size =>
        have first := (entry { r.state m with clock := id + 1 } id _).firstTask? ht
        obtain ⟨i, -, same⟩ := Option.map_eq_some_iff.1 first
        exact ⟨i, same.symm⟩

/-- Nobody touches the source of a load of the separate pool but its worker and whoever drops it. -/
theorem touches_separate (some : ((r.state m).pool .separate).stages c ≠ [])
    (touch : (r.state m).Touches (r.event m) c) :
    (∃ i l o, r.event m = .move (.worker .separate i) ∧
      ((r.state m).pool .separate).staff[i]? = .some (.loading l o) ∧ l.job.source = c) ∨
        ∃ j, (r.state m).Drops .separate j (r.event m) ∧ j.source = c := by
  obtain ⟨j, mem, rfl⟩ := exists_job_of_stages some
  rcases touch with ⟨l, moves, source⟩ | ⟨n, j', drops, source⟩
  · rcases movesLoad?_cases moves with ⟨id, a, -, ht, load⟩ | ⟨n, i, o, event, loading⟩
    · have own := (r.reach m).source_of_load ht load
      rw [← own, source] at ht
      obtain ⟨i, rfl⟩ := r.assist_of_submitted (r.submitted_of_jobs mem) ht
      cases load
    · cases n with
      | registry => exact absurd source ((r.sound m).source_ne mem (mem_jobs_of_staff loading))
      | separate => exact .inl ⟨i, l, o, event, loading, source⟩
  · cases n with
    | registry =>
        exact absurd source ((r.sound m).source_ne mem (mem_jobs_of_waiting drops.mem_waiting))
    | separate => exact .inr ⟨j', drops, source⟩

/-- The load was submitted at this moment. -/
theorem open_of_fresh (none : ((r.state m).pool .separate).stages c = [])
    (some : ((r.state (m + 1)).pool .separate).stages c ≠ []) :
    ((r.state (m + 1)).source c).closed = false := by
  rcases r.shift_succ (r.length_stages_le .separate m c) with ⟨-, same⟩ | ⟨a, acts, shift⟩
  · exact absurd (same.trans none) some
  rw [none] at shift
  generalize ((r.state (m + 1)).pool .separate).stages c = sts at some shift
  cases shift with
  | same => exact absurd rfl some
  | @queues j t submits source =>
    have mem : .submit j t ∈ (r.state m).poolActs .separate (r.event m) := by simp [acts, submits]
    have cause := cause mem
    generalize event : r.event m = e at cause
    cases cause with
    | submitted gives present going =>
      rw [r.state_succ, event, ← source]
      exact source_submit gives present going

/-- The worker moves the load, and has not closed the source by that. -/
theorem open_of_touched (some : ((r.state m).pool .separate).stages c ≠ [])
    (before : ((r.state m).pool .separate).Draws c → ((r.state m).source c).closed = false)
    (touch : (r.state m).Touches (r.event m) c)
    (draws : ((r.state (m + 1)).pool .separate).Draws c) :
    ((r.state (m + 1)).source c).closed = false := by
  rcases r.touches_separate some touch with ⟨i, l, o, event, hw, rfl⟩ | ⟨j, drops, rfl⟩
  · rw [r.state_succ, event] at draws ⊢
    exact open_of_moved hw (r.length_stages_le .separate m _)
      (fun phase => before (draws_of_staff hw phase)) draws
  · obtain ⟨st, staged, -⟩ := draws
    rw [r.state_succ, drops.stages (r.length_stages_le .separate m _)] at staged
    cases staged

theorem draws_of_untouched (some : ((r.state m).pool .separate).stages c ≠ [])
    (untouched : ¬ (r.state m).Touches (r.event m) c)
    (draws : ((r.state (m + 1)).pool .separate).Draws c) :
    ((r.state m).pool .separate).Draws c := by
  unfold Draws at draws ⊢
  rcases r.shift_succ (r.length_stages_le .separate m c) with ⟨-, same⟩ | ⟨a, acts, shift⟩
  · rwa [same] at draws
  generalize ((r.state m).pool .separate).stages c = sts at some shift
  generalize ((r.state (m + 1)).pool .separate).stages c = sts' at draws shift
  cases shift with
  | same => exact draws
  | queues => exact absurd rfl some
  | starts => exact ⟨.queued, List.mem_cons_self, by simp⟩
  | @moves i l o move turn source =>
    have mem : .turn i l o move ∈ (r.state m).poolActs .separate (r.event m) := by simp [acts, turn]
    have cause := cause mem
    generalize event : r.event m = e at cause
    cases cause with
    | turns hw =>
      refine absurd (.inl ⟨l, ?_, source⟩) untouched
      simp [event, movesLoad?, loadOf?, hw]
  | drops =>
    obtain ⟨st, staged, -⟩ := draws
    cases staged

/-- A load that waits or is run has its source open. -/
theorem open_separate (h : ((r.state m).pool .separate).Draws c) :
    ((r.state m).source c).closed = false := by
  induction m with
  | zero =>
    rw [r.state_zero, pool_start] at h
    obtain ⟨st, staged, -⟩ := h
    cases staged
  | succ m ih =>
    by_cases none : ((r.state m).pool .separate).stages c = []
    · obtain ⟨st, staged, -⟩ := h
      exact r.open_of_fresh none (List.ne_nil_of_mem staged)
    by_cases touch : (r.state m).Touches (r.event m) c
    · exact r.open_of_touched none ih touch h
    · rw [← Bool.not_eq_true, r.state_succ]
      intro closed
      rcases seals_after (r.event m) c closed with early | touched
      · cases (ih (r.draws_of_untouched none touch h)).symm.trans early
      · exact touch touched

/-- A load that waits or is run has its source open. -/
theorem open_of_draws (n : PoolName) (m : Nat) (h : ((r.state m).pool n).Draws c) :
    ((r.state m).source c).closed = false := by
  cases n with
  | registry => exact (r.sound m).open_of_draws h
  | separate => exact r.open_separate h

/-! ## Who waits for a load -/

theorem submitted_mono {m' : Nat} (le : m ≤ m') :
    (r.ledger n m).submitted ⊆ (r.ledger n m').submitted := by
  induction le with
  | refl => exact List.Subset.refl _
  | step _ ih => exact List.Subset.trans ih Ledger.submitted_subset

theorem submitted_of_submits {k : Nat} (lt : k < m)
    (submits : (r.state k).Submits n j (r.event k)) : j ∈ (r.ledger n m).submitted := by
  obtain ⟨t, acts⟩ := submits.poolActs
  refine r.submitted_mono lt ?_
  rw [ledger, acts]
  exact List.mem_append_right _ List.mem_cons_self

/-- The load is queued, or somebody waits in a read for it, or it is in the hands of a stand-in who
waits in a read for another one; and its source is open. -/
structure Pends (r : Run (start config workers)) (n : PoolName) (j : Job) (m : Nat) : Prop where
  place : j ∈ ((r.state m).pool n).queue ∨
    (∃ i l, ((r.state m).pool n).load? i = some l ∧ l.job = j ∧ (r.state m).Stalls l) ∨
    ∃ i rest, (r.state m).Lingers n i rest ∧ j ∈ rest
  opened : ((r.state m).source j.source).closed = false

/-- The load has panicked, or was dropped by a stand-in in whose hands another one had panicked, or
it has gone with a queue for which nobody was left. -/
def Lapsed (r : Run (start config workers)) (n : PoolName) (j : Job) (m : Nat) : Prop :=
  r.Killed n j m ∨ r.Shed n j m ∨ j ∈ (r.ledger n m).lost ∧ r.Deserted n m

theorem busy (settled : (r.state m).Settled) (h : ((r.state m).pool n).load? i = some l) :
    (r.state m).Stalls l ∧ ((r.state m).source l.job.source).closed = false := by
  obtain ⟨o, hw⟩ := load?_eq_some h
  have stalls := (r.attentive m).stalls settled (.inl ⟨n, i, o, hw⟩)
  refine ⟨stalls, r.open_of_draws n m (draws_of_staff hw ?_)⟩
  simp [stalls.1]

theorem pends (settled : (r.state m).Settled) (has : ((r.state m).pool n).Has j) :
    r.Pends n j m := by
  rcases has with queued | ⟨i, w, hw, mem⟩
  · exact ⟨.inl queued, r.open_of_draws n m (draws_of_waiting (List.mem_append_left _ queued))⟩
  rcases List.mem_append.1 mem with taken | load
  · have waits : j ∈ ((r.state m).pool n).waiting :=
      List.mem_append_right _ (mem_orphans_of_staff hw taken)
    obtain ⟨rest, lingers, rfl⟩ := lingers_of_settled settled hw (Worker.isDue_of_rest taken)
    exact ⟨.inr (.inr ⟨i, w.rest, lingers, taken⟩), r.open_of_draws n m (draws_of_waiting waits)⟩
  · obtain ⟨l, hl, rfl⟩ : ∃ l, w.load? = some l ∧ l.job = j := by simpa using load
    have runs : ((r.state m).pool n).load? i = some l := by rw [load?, hw, Option.bind_some, hl]
    obtain ⟨stalls, opened⟩ := r.busy settled runs
    exact ⟨.inr (.inl ⟨i, l, runs, rfl, stalls⟩), opened⟩

theorem pends_or_lapsed {k : Nat} (lt : k < m) (submits : (r.state k).Submits n j (r.event k))
    (settled : (r.state m).Settled) (unfinished : ((r.state m).store j.store).finished = false) :
    r.Pends n j m ∨ r.Lapsed n j m := by
  rcases r.fate (r.submitted_of_submits lt submits) with has | finished | killed | shed | lost
  · exact .inl (r.pends settled has)
  · rw [unfinished] at finished
    cases finished
  · exact .inr (.inl killed)
  · exact .inr (.inr (.inl shed))
  · exact .inr (.inr (.inr ⟨lost, r.deserted_of_lost (List.ne_nil_of_mem lost)⟩))

theorem faults_subset {k : Nat} (le : k ≤ m) : r.faults n k ⊆ r.faults n m := by
  intro f hf
  obtain ⟨i, hi, mem⟩ := List.mem_flatMap.1 hf
  have lt := Nat.lt_of_lt_of_le (List.mem_range.1 hi) le
  exact List.mem_flatMap.2 ⟨i, List.mem_range.2 lt, mem⟩

theorem faults_ne_nil (lapsed : r.Lapsed n j m) : r.faults n m ≠ [] := by
  rcases lapsed with ⟨k, lt, i, l, event, busy, -, fault⟩ | ⟨k, lt, i, text, rest, -, hw⟩ |
    ⟨-, -, some, -⟩
  · obtain ⟨f, hf⟩ := Option.isSome_iff_exists.1 fault
    refine List.ne_nil_of_mem (a := f) (List.mem_flatMap.2 ⟨k, List.mem_range.2 lt, ?_⟩)
    simp [event, fault?, busy, hf]
  · have struck : 0 < ((r.state k).pool n).struck :=
      List.countP_pos_iff.2 ⟨_, List.mem_of_getElem? hw, rfl⟩
    rw [r.struck n k] at struck
    intro none
    have before := r.faults_subset (n := n) (Nat.le_of_lt lt)
    rw [none, List.subset_nil] at before
    simp [before] at struck
  · exact List.length_pos_iff.1 some

/-- How the loads of a pool release those who wait for them. -/
structure Releases (r : Run (start config workers)) (n : PoolName) : Prop where
  /-- If the store of a submitted load is not finished, the load pends, -/
  pends : ∀ {k m j}, k < m → (r.state k).Submits n j (r.event k) → (r.state m).Settled →
    ((r.state m).store j.store).finished = false → r.Pends n j m ∨ r.Lapsed n j m
  /-- so that no reader and no writer waits for a load that does not. -/
  waits : ∀ {k m j i a}, k < m → (r.state k).Submits n j (r.event k) → (r.state m).Settled →
    (r.state m).task? i = some a → a.awaits j.store = true → r.Pends n j m ∨ r.Lapsed n j m
  /-- Whoever is busy has a load whose source is open, -/
  busy : ∀ {m i l}, (r.state m).Settled → ((r.state m).pool n).load? i = some l →
    (r.state m).Stalls l ∧ ((r.state m).source l.job.source).closed = false
  /-- or a load of his has panicked. -/
  active : ∀ {m}, (r.state m).Settled → ((r.state m).pool n).active +
      ((r.state m).pool n).inline + ((r.state m).pool n).fallen =
    ((r.state m).pool n).loads.length + (r.faults n m).length
  /-- Nothing lapses unless loads panic. -/
  spared : ∀ {m j}, r.faults n m = [] → ¬ r.Lapsed n j m
  /-- If every worker has its thread, then loads pend in the queue or with the workers, and whoever
  counts as busy is a worker with a load or one that was killed. -/
  threaded : ∀ {m}, ((r.state m).pool n).Threaded →
    (∀ {j}, r.Pends n j m → j ∈ ((r.state m).pool n).queue ∨
      ∃ i l, ((r.state m).pool n).load? i = some l ∧ l.job = j ∧ (r.state m).Stalls l) ∧
      (∀ {j}, ¬ r.Shed n j m) ∧ ((r.state m).Settled →
        ((r.state m).pool n).active =
          ((r.state m).pool n).loads.length + (r.faults n m).length)

theorem releases (n : PoolName) : r.Releases n where
  pends lt submits settled unfinished := r.pends_or_lapsed lt submits settled unfinished
  waits {k m j i a} lt submits settled ht awaits := by
    refine r.pends_or_lapsed lt submits settled ?_
    rcases (r.attentive m).waits_or settled ht with waits | held
    · exact waits.unfinished awaits
    · cases a with
      | awaitCache | awaitStore | readStore | read => cases held
      | _ => cases awaits
  busy settled h := r.busy settled h
  active {m} settled := by
    have active := (r.conserves n).active settled
    have kinds := Fault.length_eq (r.faults n m)
    omega
  spared none lapsed := r.faults_ne_nil lapsed none
  threaded {m} threaded := by
    refine ⟨fun pends => ?_, r.not_shed threaded, fun settled => ?_⟩
    · rcases pends.1 with queued | runs | ⟨i, rest, lingers, -⟩
      · exact .inl queued
      · exact .inr runs
      · exact absurd lingers (not_lingers threaded)
    · have active := (r.conserves n).active settled
      have kinds := Fault.length_eq (r.faults n m)
      have fallen := threaded.fallen
      have counts := threaded.counts
      omega

end Run

namespace Session

/-- The only read of a source panics, and a reader waits for its bytes. -/
def unreleased : List Event :=
  [.begin 0 (.openReader ⟨"a"⟩ (some .async) { script := [.panic "x"] }), .move (.call 0),
    .move (.call 0), .move (.call 0), .move (.worker .registry 0), .move (.worker .registry 0),
    .move (.worker .registry 0), .move (.worker .registry 0), .move (.worker .registry 0),
    .begin 1 (.read 0 .byte .empty), .move (.call 1)]

/-- The source was dropped when the worker died, and no load is queued or run; but the store is not
finished, the reader waits for it, and the worker counts as busy. -/
theorem lapsed_unreleased : ∃ plays : (start {} 1).Plays unreleased,
    ((Run.ofList plays).state 11).Settled ∧
      ((Run.ofList plays).state 2).Submits .registry ⟨.cache 0, 0, 4096⟩
        ((Run.ofList plays).event 2) ∧
      (((Run.ofList plays).state 11).source 0).closed = true ∧
      (((Run.ofList plays).state 11).pool .registry).queue = [] ∧
      (((Run.ofList plays).state 11).pool .registry).loads = [] ∧
      (((Run.ofList plays).state 11).pool .registry).active = 1 ∧
      (((Run.ofList plays).state 11).store (.cache 0)).finished = false ∧
      (((Run.ofList plays).state 11).task? 1).any (·.awaits (.cache 0)) = true := by
  have plays : (start {} 1).Plays unreleased := by
    unfold Plays
    decide
  have settled : ((start {} 1).play unreleased 11).Settled := by
    rw [settled_iff]
    decide
  refine ⟨plays, settled, ⟨rfl, rfl, ⟨⟨"a"⟩, rfl⟩, rfl⟩, ?_, ?_, ?_, ?_, ?_, ?_⟩ <;> rfl

end Session
end SharedStream
