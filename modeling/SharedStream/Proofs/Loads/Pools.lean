import SharedStream.Pool
import SharedStream.Proofs.Loads

/-! # Queues and loads of a pool

What each operation of a pool does to the loads that wait in it and to those that are run.
-/
namespace SharedStream

namespace Worker
variable {l : Load} {o : Option (List Job)} {m : LoadMove}

def load? : Worker → Option Load
  | .loading l _ => some l
  | .ready | .asleep | .woken | .gone | .dead | .denied | .between _ | .fallen .. => none

theorem job_of_after {l' : Load} (h : (Worker.after l o m).load? = some l') : l'.job = l.job := by
  cases m with
  | goesOn p =>
    cases o <;> cases h <;> rfl
  | ends | panics => cases o <;> cases h

theorem stage_of_after (l : Load) (o : Option (List Job)) (m : LoadMove) :
    (Worker.after l o m).load?.map (fun l => Stage.running l.phase) = m.stage? := by
  cases m <;> cases o <;> rfl

/-- A stand-in keeps the loads that it has taken. -/
theorem rest_after (l : Load) (o : Option (List Job)) (m : LoadMove) :
    (Worker.after l o m).rest = (Worker.loading l o).rest := by
  cases m <;> cases o <;> rfl

end Worker

/-- A change of one entry changes one place of the list. -/
theorem exists_split {α : Type} {l : List α} {i : Nat} {x : α} (h : l[i]? = some x) :
    ∃ before rest, l = before ++ x :: rest ∧ ∀ y, l.set i y = before ++ y :: rest := by
  induction l generalizing i with
  | nil => simp at h
  | cons a l ih =>
    cases i with
    | zero =>
      cases h
      exact ⟨[], l, rfl, fun y => rfl⟩
    | succ i =>
      obtain ⟨before, rest, old, new⟩ := ih (i := i) (by simpa using h)
      exact ⟨a :: before, rest, by simp [← old], fun y => by simp [new]⟩

namespace Pool
variable {p q : Pool} {i : Nat} {w w' : Worker} {t : Bool}

def loads (p : Pool) : List Load := p.staff.filterMap Worker.load?

theorem loads_wakeOne (staff : List Worker) :
    (wakeOne staff).filterMap Worker.load? = staff.filterMap Worker.load? := by
  induction staff with
  | nil => rfl
  | cons w staff ih => cases w <;> simp [wakeOne, Worker.load?, List.filterMap_cons, ih]

theorem orphans_wakeOne (staff : List Worker) :
    (wakeOne staff).flatMap Worker.rest = staff.flatMap Worker.rest := by
  induction staff with
  | nil => rfl
  | cons w staff ih => cases w <;> simp [wakeOne, Worker.rest, ih]

@[simp] theorem queue_submit (j : Job) : (p.submit j t).queue = p.queue ++ [j] := by
  simp only [submit]
  split
  · rfl
  · split <;> rfl

@[simp] theorem loads_submit (j : Job) : (p.submit j t).loads = p.loads := by
  simp only [submit]
  split
  · exact loads_wakeOne _
  · split
    · cases t <;> simp [loads, Worker.load?]
    · rfl

@[simp] theorem orphans_submit (j : Job) : (p.submit j t).orphans = p.orphans := by
  simp only [submit]
  split
  · exact orphans_wakeOne _
  · split
    · cases t <;> simp [orphans, Worker.rest]
    · rfl

@[simp] theorem loads_shutdown : p.shutdown.loads = p.loads := by
  simp only [loads, shutdown, List.filterMap_map]
  congr 1
  funext w
  cases w <;> rfl

@[simp] theorem orphans_shutdown : p.shutdown.orphans = p.orphans := by
  simp only [orphans, shutdown, List.flatMap_map]
  congr 1
  funext w
  cases w <;> rfl

@[simp] theorem waiting_shutdown : p.shutdown.waiting = p.waiting :=
  congrArg (p.queue ++ ·) orphans_shutdown

/-- One worker comes to be another. -/
theorem loads_set (h : p.staff[i]? = some w) (staff : q.staff = p.staff.set i w') :
    ∃ before rest, p.loads = before ++ w.load?.toList ++ rest ∧
      q.loads = before ++ w'.load?.toList ++ rest := by
  obtain ⟨before, rest, old, new⟩ := exists_split h
  refine ⟨before.filterMap Worker.load?, rest.filterMap Worker.load?, ?_, ?_⟩
  · cases hw : w.load? <;> simp [loads, old, hw]
  · cases hw : w'.load? <;> simp [loads, staff, new, hw]

theorem orphans_set (h : p.staff[i]? = some w) (staff : q.staff = p.staff.set i w') :
    ∃ before rest, p.orphans = before ++ w.rest ++ rest ∧
      q.orphans = before ++ w'.rest ++ rest := by
  obtain ⟨before, rest, old, new⟩ := exists_split h
  exact ⟨before.flatMap Worker.rest, rest.flatMap Worker.rest, by simp [orphans, old],
    by simp [orphans, staff, new]⟩

theorem loads_idle (h : p.staff[i]? = some w) (staff : q.staff = p.staff.set i w')
    (hw : w.load? = none) (hw' : w'.load? = none) : q.loads = p.loads := by
  obtain ⟨before, rest, old, new⟩ := loads_set h staff
  rw [new, old, hw, hw']

theorem orphans_same (h : p.staff[i]? = some w) (staff : q.staff = p.staff.set i w')
    (same : w'.rest = w.rest) : q.orphans = p.orphans := by
  obtain ⟨before, rest, old, new⟩ := orphans_set h staff
  rw [new, old, same]

/-- A worker that looks for work takes the first load of the queue, -/
theorem look_of_cons {j : Job} {queue : List Job} (h : p.staff[i]? = some w)
    (hw : w.load? = none) (none : w.rest = []) (hq : p.queue = j :: queue) :
    (p.look i).queue = queue ∧ (p.look i).orphans = p.orphans ∧ ∃ before rest,
      p.loads = before ++ rest ∧ (p.look i).loads = before ++ j.start :: rest := by
  have look : p.look i =
      { p with queue := queue, staff := p.staff.set i (.loading j.start Option.none) } := by
    simp [Pool.look, hq]
  have staff : (p.look i).staff = p.staff.set i (.loading j.start Option.none) := by rw [look]
  obtain ⟨before, rest, old, new⟩ := loads_set h staff
  exact ⟨by rw [look], orphans_same h staff none.symm, before, rest, by simp [old, hw],
    by simp [new, Worker.load?]⟩

/-- or leaves the loads alone. -/
theorem look_of_nil (h : p.staff[i]? = some w) (hw : w.load? = none) (none : w.rest = [])
    (hq : p.queue = []) :
    (p.look i).queue = [] ∧ (p.look i).orphans = p.orphans ∧ (p.look i).loads = p.loads := by
  unfold look
  rw [hq]
  dsimp only
  split <;> exact ⟨rfl, orphans_same h rfl none.symm, loads_idle h rfl hw rfl⟩

/-! ## Jobs -/

/-- The jobs that wait or are run. -/
def jobs (p : Pool) : List Job := p.waiting ++ p.loads.map Load.job

theorem mem_jobs_iff {j : Job} :
    j ∈ p.jobs ↔ j ∈ p.queue ∨ j ∈ p.orphans ∨ ∃ l ∈ p.loads, l.job = j := by
  simp [jobs, waiting]

theorem mem_jobs_of_queue {j : Job} (h : j ∈ p.queue) : j ∈ p.jobs := mem_jobs_iff.2 (.inl h)

theorem mem_jobs_of_waiting {j : Job} (h : j ∈ p.waiting) : j ∈ p.jobs :=
  List.mem_append_left _ h

theorem mem_orphans_of_staff {j : Job} (h : p.staff[i]? = some w) (hj : j ∈ w.rest) :
    j ∈ p.orphans :=
  List.mem_flatMap.2 ⟨w, List.mem_of_getElem? h, hj⟩

theorem mem_jobs_of_staff {l : Load} {o : Option (List Job)}
    (h : p.staff[i]? = some (.loading l o)) : l.job ∈ p.jobs :=
  mem_jobs_iff.2 (.inr (.inr ⟨l, List.mem_filterMap.2 ⟨_, List.mem_of_getElem? h, rfl⟩, rfl⟩))

theorem mem_jobs_of_staff_rest {j : Job} (h : p.staff[i]? = some w) (hj : j ∈ w.rest) :
    j ∈ p.jobs :=
  mem_jobs_iff.2 (.inr (.inl (mem_orphans_of_staff h hj)))

theorem mem_jobs_submit {j j' : Job} (h : j' ∈ (p.submit j t).jobs) : j' = j ∨ j' ∈ p.jobs := by
  simp only [mem_jobs_iff, queue_submit, orphans_submit, loads_submit, List.mem_append,
    List.mem_singleton] at h ⊢
  rcases h with (h | h) | h
  · exact .inr (.inl h)
  · exact .inl h
  · exact .inr (.inr h)

theorem mem_jobs_dequeue {x : StoreId} {j : Job} (h : j ∈ (p.dequeue x).jobs) : j ∈ p.jobs := by
  rw [mem_jobs_iff] at h ⊢
  exact h.imp_left fun h => (List.mem_filter.1 h).1

theorem mem_jobs_look {j : Job} (h : p.staff[i]? = some w) (hw : w.load? = none)
    (none : w.rest = []) (hj : j ∈ (p.look i).jobs) : j ∈ p.jobs := by
  rw [mem_jobs_iff] at hj ⊢
  cases hq : p.queue with
  | nil =>
    obtain ⟨queue, orphans, loads⟩ := look_of_nil h hw none hq
    rwa [queue, orphans, loads] at hj
  | cons j' queue =>
    obtain ⟨queue', orphans, before, rest, old, new⟩ := look_of_cons h hw none hq
    rw [queue', orphans, new] at hj
    rw [old]
    rcases hj with hj | hj | ⟨l, hl, rfl⟩
    · exact .inl (List.mem_cons_of_mem j' hj)
    · exact .inr (.inl hj)
    · rcases List.mem_append.1 hl with hl | hl
      · exact .inr (.inr ⟨l, List.mem_append_left _ hl, rfl⟩)
      · rcases List.mem_cons.1 hl with rfl | hl
        · exact .inl List.mem_cons_self
        · exact .inr (.inr ⟨l, List.mem_append_right _ hl, rfl⟩)

/-- What a worker has to do with, all in all. -/
def workerJobs (w : Worker) : List Job := w.rest ++ (w.load?.map Load.job).toList

/-- Nothing comes to a pool when a worker has no more to do with than before. -/
theorem mem_jobs_set {j : Job} (h : p.staff[i]? = some w) (staff : q.staff = p.staff.set i w')
    (queue : q.queue = p.queue) (less : workerJobs w' ⊆ workerJobs w) (hj : j ∈ q.jobs) :
    j ∈ p.jobs := by
  obtain ⟨before, rest, old, new⟩ := loads_set h staff
  obtain ⟨before', rest', old', new'⟩ := orphans_set h staff
  have own : j ∈ workerJobs w' → j ∈ p.orphans ∨ ∃ l ∈ p.loads, l.job = j := by
    intro mem
    rcases List.mem_append.1 (less mem) with mem | mem
    · exact .inl (by simp [old', mem])
    · obtain ⟨l, hl, rfl⟩ : ∃ l, w.load? = some l ∧ l.job = j := by simpa using mem
      exact .inr ⟨l, by simp [old, hl], rfl⟩
  rw [mem_jobs_iff, queue, new, new'] at hj
  rw [mem_jobs_iff]
  refine hj.imp_right fun hj => ?_
  rcases hj with hj | ⟨l, hl, rfl⟩
  · rcases List.mem_append.1 hj with hj | hj
    · rcases List.mem_append.1 hj with hj | hj
      · exact .inl (by simp [old', hj])
      · exact own (List.mem_append_left _ hj)
    · exact .inl (by simp [old', hj])
  · rcases List.mem_append.1 hl with hl | hl
    · rcases List.mem_append.1 hl with hl | hl
      · exact .inr ⟨l, by simp [old, hl], rfl⟩
      · exact own (List.mem_append_right _ (by simpa using ⟨l, by simpa using hl, rfl⟩))
    · exact .inr ⟨l, by simp [old, hl], rfl⟩

/-- Every job waits in the queue, or somebody has to do with it. -/
theorem worker_of_mem_jobs {j : Job} (h : j ∈ p.jobs) : j ∈ p.queue ∨
    ∃ (k : Nat) (w : Worker), p.staff[k]? = some w ∧ j ∈ workerJobs w := by
  refine (mem_jobs_iff.1 h).imp_right ?_
  rintro (orphan | ⟨l, hl, rfl⟩)
  · obtain ⟨w, hw, mem⟩ := List.mem_flatMap.1 orphan
    obtain ⟨k, hk⟩ := List.mem_iff_getElem?.1 hw
    exact ⟨k, w, hk, List.mem_append_left _ mem⟩
  · obtain ⟨w, hw, load⟩ := List.mem_filterMap.1 hl
    obtain ⟨k, hk⟩ := List.mem_iff_getElem?.1 hw
    exact ⟨k, w, hk, by simp [workerJobs, load]⟩

theorem mem_jobs_of_worker {j : Job} (h : p.staff[i]? = some w) (hj : j ∈ workerJobs w) :
    j ∈ p.jobs := by
  rcases List.mem_append.1 hj with rest | load
  · exact mem_jobs_of_staff_rest h rest
  · obtain ⟨l, hl, rfl⟩ : ∃ l, w.load? = some l ∧ l.job = j := by simpa using load
    exact mem_jobs_iff.2
      (.inr (.inr ⟨l, List.mem_filterMap.2 ⟨w, List.mem_of_getElem? h, hl⟩, rfl⟩))

theorem mem_jobs_after {l : Load} {o : Option (List Job)} {m : LoadMove} {j : Job}
    (h : p.staff[i]? = some (.loading l o)) (hj : j ∈ (p.setWorker i (.after l o m)).jobs) :
    j ∈ p.jobs := by
  refine mem_jobs_set (q := p.setWorker i (.after l o m)) h rfl rfl (fun j' mem => ?_) hj
  rw [workerJobs, Worker.rest_after] at mem
  refine List.mem_append.2 ((List.mem_append.1 mem).imp_right fun mem => ?_)
  obtain ⟨l', hl', rfl⟩ : ∃ l', (Worker.after l o m).load? = some l' ∧ l'.job = j' := by
    simpa using mem
  simp [Worker.job_of_after hl', Worker.load?]

theorem mem_jobs_next {j j' : Job} {rest : List Job}
    (h : p.staff[i]? = some (.between (j :: rest)))
    (hj : j' ∈ (p.setWorker i (.loading j.start (some rest))).jobs) : j' ∈ p.jobs := by
  refine mem_jobs_set (q := p.setWorker i (.loading j.start (some rest))) h rfl rfl
    (fun j' mem => ?_) hj
  simpa [workerJobs, Worker.rest, Worker.load?, Job.start, or_comm] using mem

theorem mem_jobs_shed {text : String} {j j' : Job} {rest : List Job}
    (h : p.staff[i]? = some (.fallen text (j :: rest)))
    (hj : j' ∈ (p.setWorker i (.fallen text rest)).jobs) : j' ∈ p.jobs := by
  refine mem_jobs_set (q := p.setWorker i (.fallen text rest)) h rfl rfl (fun j' mem => ?_) hj
  have mem : j' ∈ rest := by simpa [workerJobs, Worker.rest, Worker.load?] using mem
  simp [workerJobs, Worker.rest, mem]

/-- A stand-in gives away the first of the loads that it has taken. -/
theorem waiting_cons {j : Job} (h : p.staff[i]? = some w) (staff : q.staff = p.staff.set i w')
    (queue : q.queue = p.queue) (first : w.rest = j :: w'.rest) :
    p.waiting.Perm (j :: q.waiting) := by
  obtain ⟨before, after, old, new⟩ := orphans_set h staff
  rw [waiting, waiting, queue, old, new, first, List.append_assoc, List.append_assoc,
    ← List.append_assoc p.queue, ← List.append_assoc p.queue]
  exact List.perm_middle

/-- What a stand-in takes from the queue is in its hands. -/
theorem orphans_retract (h : p.staff[i]? = some .denied) :
    p.workers - 1 = 0 ∧ (p.retract i).queue = [] ∧ (∃ before rest, p.orphans = before ++ rest ∧
        (p.retract i).orphans = before ++ p.queue ++ rest) ∨
      p.workers - 1 ≠ 0 ∧ (p.retract i).queue = p.queue ∧ (p.retract i).orphans = p.orphans := by
  unfold retract
  dsimp only
  split
  · next last =>
    obtain ⟨before, rest, old, new⟩ := orphans_set (q := { p with
      workers := p.workers - 1, queue := [], staff := p.staff.set i (.between p.queue) }) h rfl
    exact .inl ⟨last, rfl, before, rest, by simpa [Worker.rest] using old, new⟩
  · next more => exact .inr ⟨more, rfl, orphans_same h rfl rfl⟩

theorem loads_retract (h : p.staff[i]? = some .denied) : (p.retract i).loads = p.loads := by
  unfold retract
  dsimp only
  split <;> exact loads_idle h rfl rfl rfl

theorem waiting_retract (h : p.staff[i]? = some .denied) :
    (p.retract i).waiting.Perm p.waiting := by
  rcases orphans_retract h with ⟨-, queue, before, rest, old, new⟩ | ⟨-, queue, orphans⟩
  · rw [waiting, waiting, queue, new, old, List.nil_append, List.append_assoc]
    exact List.perm_append_comm_assoc before p.queue rest
  · rw [waiting, waiting, queue, orphans]

theorem mem_jobs_retract {j : Job} (h : p.staff[i]? = some .denied)
    (hj : j ∈ (p.retract i).jobs) : j ∈ p.jobs := by
  rw [jobs, loads_retract h] at hj
  exact List.mem_append.2 ((List.mem_append.1 hj).imp_left fun hj => (waiting_retract h).subset hj)

/-! ## Stages -/

variable {c : CallId} {j : Job} {l : Load} {o : Option (List Job)} {x : StoreId}

/-- How far the loads of a source have come that are run. -/
def running (p : Pool) (c : CallId) : List Stage :=
  (p.loads.filter (·.job.source = c)).map fun l => .running l.phase

/-- How far the loads of a source have come that are in the hands of the pool. -/
def stages (p : Pool) (c : CallId) : List Stage :=
  List.replicate (p.waiting.countP (·.source = c)) .queued ++ p.running c

/-- Without a job of the source nothing is left of it. -/
theorem stages_eq_nil (none : ∀ {j}, j ∈ p.jobs → j.source ≠ c) : p.stages c = [] := by
  rw [stages, running, List.append_eq_nil_iff, List.map_eq_nil_iff, List.replicate_eq_nil_iff]
  constructor
  · refine List.countP_eq_zero.2 fun j hj => ?_
    simpa using none (mem_jobs_of_waiting hj)
  · refine List.filter_eq_nil_iff.2 fun l hl => ?_
    simpa using none (mem_jobs_iff.2 (.inr (.inr ⟨l, hl, rfl⟩)))

theorem stages_congr (waiting : q.waiting.Perm p.waiting) (loads : q.loads = p.loads) :
    q.stages c = p.stages c := by
  rw [stages, stages, running, running, waiting.countP_eq, loads]

/-- A load that waits is the only one if there is at most one. -/
theorem stages_of_waiting (hj : j ∈ p.waiting) (hc : j.source = c)
    (one : (p.stages c).length ≤ 1) :
    p.stages c = [.queued] ∧ p.running c = [] ∧ p.waiting.countP (·.source = c) = 1 := by
  have some : 0 < p.waiting.countP (·.source = c) :=
    List.countP_pos_iff.2 ⟨j, hj, by simpa using hc⟩
  rw [stages, List.length_append, List.length_replicate] at one
  have single : p.waiting.countP (·.source = c) = 1 := by omega
  have none : p.running c = [] := List.length_eq_zero_iff.1 (by omega)
  exact ⟨by rw [stages, single, none]; rfl, none, single⟩

theorem stages_of_queued (hj : j ∈ p.queue) (hc : j.source = c)
    (one : (p.stages c).length ≤ 1) : p.stages c = [.queued] ∧ p.running c = [] := by
  obtain ⟨queued, idle, -⟩ := stages_of_waiting (List.mem_append_left _ hj) hc one
  exact ⟨queued, idle⟩

theorem stages_submit_of_ne (hc : j.source ≠ c) : (p.submit j t).stages c = p.stages c := by
  simp [stages, running, waiting, hc]

theorem stages_submit_self (none : p.stages j.source = []) :
    (p.submit j t).stages j.source = [.queued] := by
  simp only [stages, running, waiting, List.append_eq_nil_iff, List.map_eq_nil_iff,
    List.replicate_eq_nil_iff, List.countP_append] at none
  have queue : p.queue.countP (·.source = j.source) = 0 := by omega
  have orphans : p.orphans.countP (·.source = j.source) = 0 := by omega
  simp [stages, running, waiting, none.2, queue, orphans]

theorem stages_dequeue_of_ne (h : ∀ j ∈ p.queue, j.source = c → j.store ≠ x) :
    (p.dequeue x).stages c = p.stages c := by
  have same : (p.dequeue x).queue.countP (·.source = c) = p.queue.countP (·.source = c) := by
    simp only [dequeue, List.countP_filter]
    refine List.countP_congr fun j hj => ?_
    by_cases hc : j.source = c <;> simp [hc, h j hj]
  have orphans : (p.dequeue x).orphans = p.orphans := rfl
  rw [stages, waiting, List.countP_append, same, orphans, ← List.countP_append]
  rfl

/-- The only load of a source that waits is out of the queue. -/
theorem stages_unqueue (hj : j ∈ p.queue) (hc : j.source = c) (one : (p.stages c).length ≤ 1)
    (staff : q.staff = p.staff) (out : q.queue.countP (·.source = c) + 1 ≤
      p.queue.countP (·.source = c)) : q.stages c = [] := by
  obtain ⟨-, idle, single⟩ := stages_of_waiting (List.mem_append_left _ hj) hc one
  rw [waiting, List.countP_append] at single
  have orphans : q.orphans = p.orphans := by rw [Pool.orphans, staff, Pool.orphans]
  have loads : q.loads = p.loads := by rw [Pool.loads, staff, Pool.loads]
  have none : q.waiting.countP (·.source = c) = 0 := by
    rw [waiting, List.countP_append, orphans]
    omega
  rw [stages, none, running, loads, ← running, idle]
  rfl

theorem stages_dequeue_self (hj : j ∈ p.queue) (hc : j.source = c) (hx : j.store = x)
    (one : (p.stages c).length ≤ 1) : (p.dequeue x).stages c = [] := by
  refine stages_unqueue hj hc one rfl ?_
  have split := List.countP_eq_countP_filter_add p.queue (fun j => decide (j.source = c))
    fun j => decide (j.store = x)
  have removed : 0 < (p.queue.filter (·.store = x)).countP (·.source = c) :=
    List.countP_pos_iff.2 ⟨j, List.mem_filter.2 ⟨hj, by simpa using hx⟩, by simpa using hc⟩
  simp only [dequeue, decide_not, ne_eq]
  omega

theorem stages_clear_self (hj : j ∈ p.queue) (hc : j.source = c)
    (one : (p.stages c).length ≤ 1) : ({ p with queue := [] } : Pool).stages c = [] :=
  stages_unqueue hj hc one rfl (List.countP_pos_iff.2 ⟨j, hj, by simpa using hc⟩)

theorem stages_clear_of_ne (h : ∀ j ∈ p.queue, j.source ≠ c) :
    ({ p with queue := [] } : Pool).stages c = p.stages c := by
  have none : p.queue.countP (·.source = c) = 0 :=
    List.countP_eq_zero.2 fun j hj => by simpa using h j hj
  have orphans : ({ p with queue := [] } : Pool).orphans = p.orphans := rfl
  rw [stages, stages, waiting, waiting, List.countP_append, List.countP_append, none, orphans]
  rfl

/-- A load that waits is begun. -/
theorem stages_take {before rest : List Load} (waiting : p.waiting.Perm (j :: q.waiting))
    (old : p.loads = before ++ rest) (new : q.loads = before ++ j.start :: rest)
    (one : (p.stages c).length ≤ 1) :
    q.stages c = p.stages c ∨
      p.stages c = [.queued] ∧ q.stages c = [.running .allocating] := by
  by_cases hc : j.source = c
  · right
    obtain ⟨queued, idle, single⟩ :=
      stages_of_waiting (waiting.symm.subset List.mem_cons_self) hc one
    have none : q.waiting.countP (·.source = c) = 0 := by
      rw [waiting.countP_eq, List.countP_cons_of_pos (by simpa using hc)] at single
      omega
    simp only [running, old, List.filter_append, List.map_append, List.append_eq_nil_iff,
      List.map_eq_nil_iff] at idle
    refine ⟨queued, ?_⟩
    simp [stages, running, none, new, idle.1, idle.2, Job.start, hc]
  · left
    have same : p.waiting.countP (·.source = c) = q.waiting.countP (·.source = c) := by
      rw [waiting.countP_eq, List.countP_cons_of_neg (by simpa using hc)]
    simp [stages, running, same, old, new, Job.start, hc]

/-- A stand-in begins the next of the loads that it has taken. -/
theorem stages_next {rest : List Job} (h : p.staff[i]? = some (.between (j :: rest)))
    (one : (p.stages c).length ≤ 1) :
    (p.setWorker i (.loading j.start (some rest))).stages c = p.stages c ∨
      p.stages c = [.queued] ∧
        (p.setWorker i (.loading j.start (some rest))).stages c = [.running .allocating] := by
  obtain ⟨before, after, old, new⟩ :=
    loads_set (q := p.setWorker i (.loading j.start (some rest))) h rfl
  exact stages_take (waiting_cons h rfl rfl rfl) (by simpa [Worker.load?] using old)
    (by simpa [Worker.load?] using new) one

/-- A load that a fallen stand-in has not run is dropped. -/
theorem stages_shed_of_ne {text : String} {rest : List Job}
    (h : p.staff[i]? = some (.fallen text (j :: rest))) (hc : j.source ≠ c) :
    (p.setWorker i (.fallen text rest)).stages c = p.stages c := by
  have loads : (p.setWorker i (.fallen text rest)).loads = p.loads := loads_idle h rfl rfl rfl
  have perm : p.waiting.Perm (j :: (p.setWorker i (.fallen text rest)).waiting) :=
    waiting_cons h rfl rfl rfl
  rw [stages, stages, running, running, loads, perm.countP_eq,
    List.countP_cons_of_neg (by simpa using hc)]

theorem stages_shed_self {text : String} {rest : List Job}
    (h : p.staff[i]? = some (.fallen text (j :: rest)))
    (one : (p.stages j.source).length ≤ 1) :
    (p.setWorker i (.fallen text rest)).stages j.source = [] := by
  have loads : (p.setWorker i (.fallen text rest)).loads = p.loads := loads_idle h rfl rfl rfl
  have perm : p.waiting.Perm (j :: (p.setWorker i (.fallen text rest)).waiting) :=
    waiting_cons h rfl rfl rfl
  obtain ⟨-, idle, single⟩ := stages_of_waiting (perm.symm.subset List.mem_cons_self) rfl one
  rw [perm.countP_eq, List.countP_cons_of_pos (by simp)] at single
  have none : (p.setWorker i (.fallen text rest)).waiting.countP (·.source = j.source) = 0 := by
    omega
  rw [stages, none, running, loads, ← running, idle]
  rfl

theorem stages_retract (h : p.staff[i]? = some .denied) : (p.retract i).stages c = p.stages c :=
  stages_congr (waiting_retract h) (loads_retract h)

theorem waiting_after {m : LoadMove} (h : p.staff[i]? = some (.loading l o)) :
    (p.setWorker i (.after l o m)).waiting = p.waiting := by
  have orphans := orphans_same (q := p.setWorker i (.after l o m)) h rfl (Worker.rest_after l o m)
  rw [waiting, waiting, orphans]
  rfl

theorem stages_after_of_ne {m : LoadMove} (h : p.staff[i]? = some (.loading l o))
    (hc : l.job.source ≠ c) : (p.setWorker i (.after l o m)).stages c = p.stages c := by
  obtain ⟨before, rest, old, new⟩ := loads_set (q := p.setWorker i (.after l o m)) h rfl
  have none : (Worker.after l o m).load?.toList.filter (·.job.source = c) = [] := by
    rw [List.filter_eq_nil_iff]
    intro l' hl'
    simp [Worker.job_of_after (Option.mem_toList.1 hl'), hc]
  rw [stages, stages, waiting_after h, running, running, old, new, List.filter_append,
    List.filter_append, none]
  simp [Worker.load?, hc]

theorem stages_after_self {m : LoadMove} (h : p.staff[i]? = some (.loading l o))
    (one : (p.stages l.job.source).length ≤ 1) :
    p.stages l.job.source = [.running l.phase] ∧
      (p.setWorker i (.after l o m)).stages l.job.source = m.stage?.toList := by
  obtain ⟨before, rest, old, new⟩ := loads_set (q := p.setWorker i (.after l o m)) h rfl
  simp only [Worker.load?, Option.toList_some, List.append_assoc, List.singleton_append] at old
  have none : p.waiting.countP (·.source = l.job.source) = 0 ∧
      before.filter (·.job.source = l.job.source) = [] ∧
      rest.filter (·.job.source = l.job.source) = [] := by
    simp only [stages, running, old, List.filter_append, List.length_append, List.length_map,
      List.filter_cons_of_pos, decide_true, List.length_cons, List.length_replicate] at one
    refine ⟨by omega, ?_, ?_⟩ <;> rw [← List.length_eq_zero_iff] <;> omega
  obtain ⟨hq, hb, hr⟩ := none
  refine ⟨by simp [stages, running, old, hq, hb, hr], ?_⟩
  rw [← Worker.stage_of_after l o m, stages, waiting_after h, running, new, hq]
  cases hl : (Worker.after l o m).load? with
  | none => simp [hb, hr]
  | some l' => simp [hb, hr, Worker.job_of_after hl]

theorem stages_of_staff (h : p.staff[i]? = some (.loading l o))
    (one : (p.stages l.job.source).length ≤ 1) : p.stages l.job.source = [.running l.phase] :=
  (stages_after_self (m := .ends) h one).1

/-- A worker that looks for work begins a load of the queue or none. -/
theorem stages_look (h : p.staff[i]? = some w) (hw : w.load? = none) (none : w.rest = [])
    (one : (p.stages c).length ≤ 1) :
    (p.look i).stages c = p.stages c ∨
      p.stages c = [.queued] ∧ (p.look i).stages c = [.running .allocating] := by
  cases hq : p.queue with
  | nil =>
    obtain ⟨queue, orphans, loads⟩ := look_of_nil h hw none hq
    exact .inl (stages_congr (by rw [waiting, waiting, queue, orphans, hq]) loads)
  | cons j queue =>
    obtain ⟨queue', orphans, before, rest, old, new⟩ := look_of_cons h hw none hq
    exact stages_take (j := j) (by simp [waiting, queue', orphans, hq]) old new one

end Pool
end SharedStream
