import SharedStream.Proofs.Pools.Acts

/-! # Workers and the loads that wait for them

How a pool counts its workers, and what keeps a load from waiting in the queue while a worker is
free or could be hired: no more loads are queued than workers are about to look for one. That is so
as long as every worker that is hired gets a thread.
-/
namespace SharedStream

/-- A call runs loads in its place, or has done so. -/
def Worker.standsIn : Worker → Bool
  | .loading _ (some _) | .between _ | .fallen .. => true
  | .loading _ none | .ready | .asleep | .woken | .gone | .dead | .denied => false

/-- It is a stand-in that runs a load. -/
def Worker.inline : Worker → Bool
  | .loading _ (some _) => true
  | .loading _ none | .ready | .asleep | .woken | .gone | .dead | .denied | .between _
  | .fallen .. => false

theorem Worker.inline_le (w : Worker) (h : w.standsIn = false) : w.inline = false := by
  cases w with
  | loading l o => cases o <;> first | rfl | cases h
  | _ => rfl

theorem Worker.standsIn_after (l : Load) (o : Option (List Job)) (m : LoadMove) :
    (Worker.after l o m).standsIn = (Worker.loading l o).standsIn := by
  cases m <;> cases o <;> rfl

namespace Pool

variable {p : Pool} {a : Act} {i : Nat} {w w' : Worker} {j : Job}

def asleep (p : Pool) : Nat := p.staff.countP (· = .asleep)

def woken (p : Pool) : Nat := p.staff.countP (· = .woken)

def ready (p : Pool) : Nat := p.staff.countP (· = .ready)

def gone (p : Pool) : Nat := p.staff.countP (· = .gone)

def dead (p : Pool) : Nat := p.staff.countP (· = .dead)

def denied (p : Pool) : Nat := p.staff.countP (· = .denied)

def standIns (p : Pool) : Nat := p.staff.countP Worker.standsIn

def inline (p : Pool) : Nat := p.staff.countP Worker.inline

/-- No worker was denied a thread. -/
def Threaded (p : Pool) : Prop := ∀ w ∈ p.staff, w ≠ .denied ∧ w.standsIn = false

theorem Threaded.counts (h : p.Threaded) : p.denied = 0 ∧ p.standIns = 0 ∧ p.inline = 0 := by
  refine ⟨List.countP_eq_zero.2 fun w hw => ?_, List.countP_eq_zero.2 fun w hw => ?_,
    List.countP_eq_zero.2 fun w hw => ?_⟩
  · simpa using (h w hw).1
  · simpa using (h w hw).2
  · simp [w.inline_le (h w hw).2]

structure Balanced (p : Pool) : Prop where
  workers : p.workers + p.gone + p.standIns = p.staff.length
  idle : p.idle = p.asleep + p.woken
  wakeups : p.shutDown = false → p.wakeups = p.woken
  awake : p.shutDown = true → p.asleep = 0
  cap : p.workers ≤ p.maxWorkers
  /-- As long as a worker sleeps, somebody is on the way for every load, -/
  attended : 0 < p.asleep → p.queue.length ≤ p.ready + p.woken
  /-- and so it is as long as a worker could be hired, unless one was denied a thread. -/
  served : p.denied + p.standIns = 0 → p.workers < p.maxWorkers →
    p.queue.length ≤ p.ready + p.woken
  /-- The queue is left to workers that are counted. -/
  staffed : 0 < p.queue.length → 0 < p.workers
  capable : 0 < p.maxWorkers

/-! ## Counting workers -/

theorem countP_set {v : Worker} (f : Worker → Bool) (h : p.staff[i]? = some w) :
    (p.staff.set i v).countP f + (if f w then 1 else 0) =
      p.staff.countP f + if f v then 1 else 0 := by
  obtain ⟨hi, rfl⟩ := List.getElem?_eq_some_iff.1 h
  have some : (if f p.staff[i] then 1 else 0) ≤ p.staff.countP f := by
    split
    · next hf => exact List.countP_pos_iff.2 ⟨_, List.getElem_mem hi, hf⟩
    · exact Nat.zero_le _
  rw [List.countP_set hi]
  omega

theorem length_staff (p : Pool) : p.staff.length + p.inline =
    p.ready + p.asleep + p.woken + p.loads.length + p.gone + p.dead + p.denied + p.standIns := by
  unfold ready asleep woken loads gone dead denied standIns inline
  induction p.staff with
  | nil => rfl
  | cons w staff ih =>
    cases w with
    | loading l o =>
      cases o <;> simp [List.countP_cons, Worker.load?, Worker.standsIn, Worker.inline] <;> omega
    | _ =>
      simp [List.filterMap_cons, List.countP_cons, Worker.load?, Worker.standsIn, Worker.inline]
      omega

theorem inline_le_loads (p : Pool) : p.inline ≤ p.loads.length := by
  unfold inline loads
  induction p.staff with
  | nil => exact Nat.le_refl 0
  | cons w staff ih =>
    cases w with
    | loading l o =>
      cases o <;> simp [List.countP_cons, Worker.load?, Worker.inline] <;> omega
    | _ => simpa [List.filterMap_cons, List.countP_cons, Worker.load?, Worker.inline] using ih

/-- One worker is replaced by another. -/
structure Replaced (p : Pool) (w w' : Worker) (q : Pool) : Prop where
  length : q.staff.length = p.staff.length
  asleep : q.asleep + (if w = .asleep then 1 else 0) = p.asleep + if w' = .asleep then 1 else 0
  woken : q.woken + (if w = .woken then 1 else 0) = p.woken + if w' = .woken then 1 else 0
  ready : q.ready + (if w = .ready then 1 else 0) = p.ready + if w' = .ready then 1 else 0
  gone : q.gone + (if w = .gone then 1 else 0) = p.gone + if w' = .gone then 1 else 0
  dead : q.dead + (if w = .dead then 1 else 0) = p.dead + if w' = .dead then 1 else 0
  denied : q.denied + (if w = .denied then 1 else 0) = p.denied + if w' = .denied then 1 else 0
  standIns : q.standIns + (if w.standsIn then 1 else 0) = p.standIns + if w'.standsIn then 1 else 0

theorem replaced {q : Pool} (h : p.staff[i]? = some w) (staff : q.staff = p.staff.set i w') :
    p.Replaced w w' q := by
  refine ⟨by rw [staff, List.length_set], ?_, ?_, ?_, ?_, ?_, ?_, ?_⟩
  · simpa [Pool.asleep, staff] using countP_set (fun w => decide (w = .asleep)) h
  · simpa [Pool.woken, staff] using countP_set (fun w => decide (w = .woken)) h
  · simpa [Pool.ready, staff] using countP_set (fun w => decide (w = .ready)) h
  · simpa [Pool.gone, staff] using countP_set (fun w => decide (w = .gone)) h
  · simpa [Pool.dead, staff] using countP_set (fun w => decide (w = .dead)) h
  · simpa [Pool.denied, staff] using countP_set (fun w => decide (w = .denied)) h
  · simpa [Pool.standIns, staff] using countP_set Worker.standsIn h

/-- The load that a worker runs. -/
def load? (p : Pool) (i : Nat) : Option Load := p.staff[i]?.bind Worker.load?

/-! ## What each act keeps -/

/-- A worker that is about to look for a load. -/
def Free (w : Worker) : Prop := w = .ready ∨ w = .woken

theorem exists_free (allowed : p.Allows (.look i)) : ∃ w, p.staff[i]? = some w ∧ Free w := by
  rcases allowed with hw | hw
  · exact ⟨.ready, hw, .inl rfl⟩
  · exact ⟨.woken, hw, .inr rfl⟩

/-- The pool in which a worker that was ready or woken looks for a load. -/
def roused (p : Pool) (w : Worker) : Pool := if w = .woken then p.rouse else p

@[simp] theorem staff_roused : (p.roused w).staff = p.staff := by
  unfold roused
  split <;> rfl

@[simp] theorem queue_roused : (p.roused w).queue = p.queue := by
  unfold roused
  split <;> rfl

/-- It takes the first load of the queue, -/
theorem Balanced.takes {j : Job} {rest : List Job} (h : p.Balanced) (hw : p.staff[i]? = some w)
    (free : Free w) (more : p.queue = j :: rest) : Balanced
      { p.roused w with
        queue := rest, staff := (p.roused w).staff.set i (.loading j.start none) } := by
  obtain ⟨workers, idle, wakeups, awake, cap, attended, served, staffed, capable⟩ := h
  obtain ⟨length, asleep, woken, ready, gone, -, denied, standIns⟩ := replaced hw
    (q := { p.roused w with
      queue := rest, staff := (p.roused w).staff.set i (.loading j.start none) })
    (by rw [staff_roused])
  rw [more, List.length_cons] at attended served staffed
  have all := p.length_staff
  have le := p.inline_le_loads
  rcases free with rfl | rfl <;>
    simp [roused, rouse, Worker.standsIn] at asleep woken ready gone length denied standIns ⊢ <;>
    constructor <;> grind

/-- goes if the queue is empty and the pool is shut down, -/
theorem Balanced.goes (h : p.Balanced) (hw : p.staff[i]? = some w) (free : Free w)
    (none : p.queue = []) (down : p.shutDown = true) : Balanced
      { p.roused w with
        workers := (p.roused w).workers - 1, staff := (p.roused w).staff.set i .gone } := by
  obtain ⟨workers, idle, wakeups, awake, cap, attended, served, staffed, capable⟩ := h
  obtain ⟨length, asleep, woken, ready, gone, -, denied, standIns⟩ := replaced hw
    (q := { p.roused w with
      workers := (p.roused w).workers - 1, staff := (p.roused w).staff.set i .gone })
    (by rw [staff_roused])
  have all := p.length_staff
  have le := p.inline_le_loads
  rcases free with rfl | rfl <;>
    simp [roused, rouse, none, Worker.standsIn]
      at asleep woken ready gone length down denied standIns ⊢ <;>
    constructor <;> grind

/-- and sleeps otherwise. -/
theorem Balanced.sleeps (h : p.Balanced) (hw : p.staff[i]? = some w) (free : Free w)
    (none : p.queue = []) (going : p.shutDown = false) : Balanced
      { p.roused w with
        idle := (p.roused w).idle + 1, staff := (p.roused w).staff.set i .asleep } := by
  obtain ⟨workers, idle, wakeups, awake, cap, attended, served, staffed, capable⟩ := h
  obtain ⟨length, asleep, woken, ready, gone, -, denied, standIns⟩ := replaced hw
    (q := { p.roused w with
      idle := (p.roused w).idle + 1, staff := (p.roused w).staff.set i .asleep })
    (by rw [staff_roused])
  have all := p.length_staff
  have le := p.inline_le_loads
  rcases free with rfl | rfl <;>
    simp [roused, rouse, none, Worker.standsIn]
      at asleep woken ready gone length going denied standIns ⊢ <;>
    constructor <;> grind

theorem Balanced.look (h : p.Balanced) (hw : p.staff[i]? = some w) (free : Free w) :
    ((p.roused w).look i).Balanced := by
  have shutDown : (p.roused w).shutDown = p.shutDown := by
    unfold roused
    split <;> rfl
  unfold Pool.look
  split
  · next more => exact h.takes hw free (queue_roused.symm.trans more)
  next none =>
  have none := queue_roused.symm.trans none
  split
  · next down => exact h.goes hw free none (shutDown.symm.trans down)
  · next going => exact h.sleeps hw free none (by simpa [shutDown] using going)

/-- Neither falls asleep nor is counted otherwise than before. -/
structure Alike (w w' : Worker) : Prop where
  asleep : w = .asleep ↔ w' = .asleep
  woken : w = .woken ↔ w' = .woken
  ready : w = .ready → w' = .ready
  gone : w = .gone ↔ w' = .gone
  denied : w = .denied ↔ w' = .denied
  standIns : w.standsIn = w'.standsIn

theorem Balanced.set (h : p.Balanced) (hw : p.staff[i]? = some w) (alike : Alike w w') :
    (p.setWorker i w').Balanced := by
  obtain ⟨workers, idle, wakeups, awake, cap, attended, served, staffed, capable⟩ := h
  obtain ⟨asleep', woken', ready', gone', denied', standIns'⟩ := alike
  obtain ⟨length, asleep, woken, ready, gone, -, denied, standIns⟩ :=
    replaced (q := p.setWorker i w') hw rfl
  have same : (p.setWorker i w').workers = p.workers ∧ (p.setWorker i w').idle = p.idle ∧
      (p.setWorker i w').maxWorkers = p.maxWorkers ∧ (p.setWorker i w').queue = p.queue ∧
      (p.setWorker i w').wakeups = p.wakeups ∧ (p.setWorker i w').shutDown = p.shutDown :=
    ⟨rfl, rfl, rfl, rfl, rfl, rfl⟩
  constructor <;> grind

theorem alike_after (l : Load) (o : Option (List Job)) (m : LoadMove) :
    Alike (.loading l o) (.after l o m) := by
  constructor <;> cases m <;> cases o <;> simp [Worker.after, Worker.standsIn]

/-- A worker that was denied a thread is counted no more, but as a stand-in. -/
theorem Balanced.retract (h : p.Balanced) (hw : p.staff[i]? = some .denied) :
    (p.retract i).Balanced := by
  obtain ⟨workers, idle, wakeups, awake, cap, attended, served, staffed, capable⟩ := h
  have all := p.length_staff
  have le := p.inline_le_loads
  have some : 0 < p.denied := List.countP_pos_iff.2 ⟨_, List.mem_of_getElem? hw, by simp⟩
  unfold Pool.retract
  dsimp only
  split
  · obtain ⟨length, asleep, woken, ready, gone, -, denied, standIns⟩ := replaced (p := p)
      (q := { p with
        workers := p.workers - 1, queue := [], staff := p.staff.set i (.between p.queue) }) hw rfl
    simp [Worker.standsIn] at asleep woken ready gone length denied standIns ⊢
    constructor <;> grind
  · obtain ⟨length, asleep, woken, ready, gone, -, denied, standIns⟩ := replaced (p := p)
      (q := { p with workers := p.workers - 1, staff := p.staff.set i (.between []) }) hw rfl
    simp [Worker.standsIn, setWorker] at asleep woken ready gone length denied standIns ⊢
    constructor <;> grind

/-- Whoever sleeps can be woken. -/
theorem countP_wakeOne (f : Worker → Bool) {staff : List Worker} (some : .asleep ∈ staff) :
    (wakeOne staff).countP f + (if f .asleep then 1 else 0) =
      staff.countP f + if f .woken then 1 else 0 := by
  induction staff with
  | nil => cases some
  | cons w staff ih =>
    by_cases hw : w = .asleep
    · subst hw
      simp only [wakeOne, List.countP_cons]
      omega
    · have rest : .asleep ∈ staff := by
        rcases List.mem_cons.1 some with rfl | rest
        · exact absurd rfl hw
        · exact rest
      have next : wakeOne (w :: staff) = w :: wakeOne staff := by
        cases w <;> first | rfl | exact absurd rfl hw
      have := ih rest
      rw [next, List.countP_cons, List.countP_cons]
      omega

theorem length_wakeOne (staff : List Worker) : (wakeOne staff).length = staff.length := by
  induction staff with
  | nil => rfl
  | cons w staff ih => cases w <;> simp [wakeOne, ih]

theorem mem_asleep (h : 0 < p.asleep) : .asleep ∈ p.staff := by
  obtain ⟨w, hw, asleep⟩ := List.countP_pos_iff.1 h
  simpa using (of_decide_eq_true asleep) ▸ hw

/-- A sleeper is replaced by a worker that is woken. -/
theorem replaced_wakeOne {q : Pool} (some : 0 < p.asleep) (staff : q.staff = wakeOne p.staff) :
    p.Replaced .asleep .woken q := by
  have mem := mem_asleep some
  refine ⟨by rw [staff, length_wakeOne], ?_, ?_, ?_, ?_, ?_, ?_, ?_⟩
  · simpa [Pool.asleep, staff] using countP_wakeOne (fun w => decide (w = .asleep)) mem
  · simpa [Pool.woken, staff] using countP_wakeOne (fun w => decide (w = .woken)) mem
  · simpa [Pool.ready, staff] using countP_wakeOne (fun w => decide (w = .ready)) mem
  · simpa [Pool.gone, staff] using countP_wakeOne (fun w => decide (w = .gone)) mem
  · simpa [Pool.dead, staff] using countP_wakeOne (fun w => decide (w = .dead)) mem
  · simpa [Pool.denied, staff] using countP_wakeOne (fun w => decide (w = .denied)) mem
  · simpa [Pool.standIns, staff] using countP_wakeOne Worker.standsIn mem

theorem counts_hire {q : Pool} {t : Bool}
    (staff : q.staff = p.staff ++ [if t then .ready else .denied]) :
    q.staff.length = p.staff.length + 1 ∧ q.asleep = p.asleep ∧ q.woken = p.woken ∧
      q.ready = p.ready + (if t then 1 else 0) ∧ q.gone = p.gone ∧
      q.denied = p.denied + (if t then 0 else 1) ∧ q.standIns = p.standIns := by
  cases t <;> simp [asleep, woken, ready, gone, denied, standIns, staff, List.countP_append,
    Worker.standsIn]

theorem Balanced.submit (h : p.Balanced) (going : p.shutDown = false) (j : Job) (t : Bool) :
    (p.submit j t).Balanced := by
  obtain ⟨workers, idle, wakeups, awake, cap, attended, served, staffed, capable⟩ := h
  have all := p.length_staff
  have le := p.inline_le_loads
  have wakeups := wakeups going
  unfold Pool.submit
  dsimp only
  split
  · next some =>
    obtain ⟨length, asleep, woken, ready, gone, -, denied, standIns⟩ :=
      replaced_wakeOne (p := p) (by omega)
        (q := { p with
          queue := p.queue ++ [j], wakeups := p.wakeups + 1, staff := wakeOne p.staff }) rfl
    simp [Worker.standsIn] at asleep woken ready gone length denied standIns ⊢
    constructor <;> grind
  split
  · obtain ⟨length, asleep, woken, ready, gone, denied, standIns⟩ :=
      counts_hire (p := p) (t := t) (q := { p with
        queue := p.queue ++ [j]
        workers := p.workers + 1
        staff := p.staff ++ [if t then .ready else .denied] }) rfl
    simp only [List.length_append, List.length_singleton] at *
    constructor <;> grind
  · have busy : ¬ 0 < p.asleep := by omega
    refine ⟨workers, idle, fun _ => wakeups, awake, cap, fun some => absurd some busy,
      fun _ free => ?_, fun _ => ?_, capable⟩
    · dsimp only at *
      omega
    · dsimp only at *
      omega

theorem Balanced.dequeue (h : p.Balanced) (x : StoreId) : (p.dequeue x).Balanced := by
  obtain ⟨workers, idle, wakeups, awake, cap, attended, served, staffed, capable⟩ := h
  have le : (p.dequeue x).queue.length ≤ p.queue.length := List.length_filter_le ..
  exact ⟨workers, idle, wakeups, awake, cap, fun some => Nat.le_trans le (attended some),
    fun all free => Nat.le_trans le (served all free),
    fun some => staffed (Nat.lt_of_lt_of_le some le), capable⟩

theorem Balanced.drop (h : p.Balanced) : ({ p with queue := [] } : Pool).Balanced := by
  obtain ⟨workers, idle, wakeups, awake, cap, -, -, -, capable⟩ := h
  exact ⟨workers, idle, wakeups, awake, cap, fun _ => Nat.zero_le _, fun _ _ => Nat.zero_le _,
    fun some => absurd some (Nat.lt_irrefl 0), capable⟩

/-- All sleepers are woken when the pool is dropped. -/
theorem counts_shutdown (p : Pool) :
    p.shutdown.asleep = 0 ∧ p.shutdown.woken = p.woken + p.asleep ∧
      p.shutdown.ready = p.ready ∧ p.shutdown.gone = p.gone ∧
      p.shutdown.staff.length = p.staff.length ∧
      p.shutdown.denied = p.denied ∧ p.shutdown.standIns = p.standIns := by
  unfold asleep woken ready gone denied standIns Pool.shutdown
  induction p.staff with
  | nil => simp
  | cons w staff ih =>
    obtain ⟨asleep, woken, ready, gone, length, denied, standIns⟩ := ih
    dsimp only at *
    cases w <;> simp [asleep, woken, ready, gone, denied, standIns, List.countP_cons,
      Worker.standsIn] <;> omega

theorem Balanced.shutdown (h : p.Balanced) : p.shutdown.Balanced := by
  obtain ⟨workers, idle, wakeups, awake, cap, attended, served, staffed, capable⟩ := h
  obtain ⟨asleep, woken, ready, gone, length, denied, standIns⟩ := p.counts_shutdown
  have same : p.shutdown.workers = p.workers ∧ p.shutdown.idle = p.idle ∧
      p.shutdown.maxWorkers = p.maxWorkers ∧ p.shutdown.queue = p.queue ∧
      p.shutdown.shutDown = true := ⟨rfl, rfl, rfl, rfl, rfl⟩
  constructor <;> grind

theorem act_balanced (h : p.Balanced) (allowed : p.Allows a) : (p.act a).Balanced := by
  cases a with
  | submit j threaded => exact h.submit allowed j threaded
  | look i =>
    obtain ⟨w, hw, free⟩ := exists_free allowed
    have look := h.look hw free
    rcases free with rfl | rfl <;> simpa [act, hw, roused] using look
  | turn i l o m => exact h.set allowed (alike_after l o m)
  | retract i => exact h.retract allowed
  | next => exact h.set allowed (by constructor <;> simp [Worker.standsIn])
  | shed => exact h.set allowed (by constructor <;> simp [Worker.standsIn])
  | cancel x => exact h.dequeue x
  | shutdown => exact h.shutdown
  | drop => exact h.drop

theorem balanced_ofLimit (n : Nat) : (ofLimit n).Balanced := by
  have capable : 0 < max 1 n := by omega
  constructor <;> simp [ofLimit, asleep, woken, ready, gone, standIns, capable]

end Pool
end SharedStream
