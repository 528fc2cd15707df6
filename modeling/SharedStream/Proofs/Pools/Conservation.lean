import SharedStream.Proofs.Pools.Events
import SharedStream.Proofs.Turns

/-! # Work conservation

A pool runs no more loads at once than its bound lets it. In a settled session its active workers
are those whose load waits in a read of its source and those that a load has killed, and a load is
queued only if all workers that the bound lets the pool have are active.
-/
namespace SharedStream

/-- What a load panics by. It kills its worker, or makes a stand-in fall. -/
inductive Fault where
  /-- A read of its source panics. -/
  | source
  /-- The buffer for its reads is larger than any can be. -/
  | buffer
  deriving DecidableEq, Repr

theorem Fault.length_eq (fs : List Fault) :
    fs.length = fs.count .source + fs.count .buffer := by
  induction fs with
  | nil => rfl
  | cons f fs ih => cases f <;> simp [ih] <;> omega

namespace Worker

/-- Its load has panicked. -/
def isStruck : Worker → Bool
  | .dead | .fallen .. => true
  | .ready | .asleep | .woken | .loading .. | .gone | .denied | .between _ => false

/-- It is a stand-in whose load has panicked. -/
def hasFallen : Worker → Bool
  | .fallen .. => true
  | .ready | .asleep | .woken | .loading .. | .gone | .dead | .denied | .between _ => false

end Worker

namespace Pool

variable {p : Pool} {a : Act} {i : Nat}

def Act.panics : Act → Bool
  | .turn _ _ _ (.panics _) => true
  | _ => false

/-! ### Whoever has been struck by a load -/

def struck (p : Pool) : Nat := p.staff.countP Worker.isStruck

/-- The stand-ins whose load has panicked. -/
def fallen (p : Pool) : Nat := p.staff.countP Worker.hasFallen

theorem struck_eq (p : Pool) : p.struck = p.dead + p.fallen := by
  unfold struck dead fallen
  induction p.staff with
  | nil => rfl
  | cons w staff ih =>
    cases w <;> simp [List.countP_cons, Worker.isStruck, Worker.hasFallen, ih] <;> omega

theorem Threaded.fallen (h : p.Threaded) : p.fallen = 0 := by
  refine List.countP_eq_zero.2 fun w hw => ?_
  have here := (h w hw).2
  cases w <;> simp_all [Worker.hasFallen, Worker.standsIn]

theorem countP_wakeOne_of_eq {f : Worker → Bool} (same : f .asleep = f .woken)
    (staff : List Worker) : (wakeOne staff).countP f = staff.countP f := by
  induction staff with
  | nil => rfl
  | cons w staff ih => cases w <;> simp [wakeOne, List.countP_cons, same, ih]

/-- Only whoever has been struck is marked, and he stays so. -/
structure Marks (f : Worker → Bool) : Prop where
  struck : ∀ {w}, w.isStruck = false → f w = false
  shed : ∀ text j rest, f (.fallen text rest) = f (.fallen text (j :: rest))

theorem marks_struck : Marks Worker.isStruck := ⟨fun h => h, fun _ _ _ => rfl⟩

/-- The act makes a marked worker of one that was not. -/
def Act.marks (f : Worker → Bool) : Act → Bool
  | .turn _ l o m => f (.after l o m)
  | _ => false

theorem Act.marks_struck (a : Act) : a.marks Worker.isStruck = a.panics := by
  cases a with
  | turn i l o m => cases o <;> cases m <;> rfl
  | _ => rfl

section
variable {f : Worker → Bool} (hf : Marks f)
include hf

theorem marked_submit (p : Pool) (j : Job) (t : Bool) :
    (p.submit j t).staff.countP f = p.staff.countP f := by
  unfold Pool.submit
  dsimp only
  split
  · exact countP_wakeOne_of_eq ((hf.struck rfl).trans (hf.struck rfl).symm) p.staff
  split
  · have new : f (if t then .ready else .denied) = false := hf.struck (by cases t <;> rfl)
    simp [List.countP_append, new]
  · rfl

theorem marked_shutdown (p : Pool) : p.shutdown.staff.countP f = p.staff.countP f := by
  rw [Pool.shutdown, List.countP_map]
  refine List.countP_congr fun w _ => ?_
  rw [Function.comp_apply]
  split
  · next asleep =>
    rw [asleep, hf.struck (w := .woken) rfl, hf.struck (w := .asleep) rfl]
  · exact Iff.rfl

omit hf in
theorem marked_set {q : Pool} {w w' : Worker} (hw : p.staff[i]? = some w)
    (staff : q.staff = p.staff.set i w') (same : f w' = f w) :
    q.staff.countP f = p.staff.countP f := by
  have count := countP_set (v := w') f hw
  rw [same] at count
  rw [staff]
  omega

theorem marked_look {w : Worker} (hw : p.staff[i]? = some w) (free : Free w) :
    (p.look i).staff.countP f = p.staff.countP f := by
  have spared : f w = false := by rcases free with rfl | rfl <;> exact hf.struck rfl
  have set : ∀ {w'}, w'.isStruck = false → f w' = f w :=
    fun unstruck => (hf.struck unstruck).trans spared.symm
  unfold Pool.look
  split
  · exact marked_set hw rfl (set rfl)
  · split <;> exact marked_set hw rfl (set rfl)

theorem marked_turn {l : Load} {o : Option (List Job)} (m : LoadMove)
    (hw : p.staff[i]? = some (.loading l o)) : (p.setWorker i (.after l o m)).staff.countP f =
      p.staff.countP f + if (Act.turn i l o m).marks f then 1 else 0 := by
  have count := countP_set (v := .after l o m) f hw
  have spared : f (.loading l o) = false := hf.struck rfl
  rw [spared] at count
  exact count

theorem marked_retract (hw : p.staff[i]? = some .denied) :
    (p.retract i).staff.countP f = p.staff.countP f := by
  have set : ∀ rest, f (.between rest) = f .denied :=
    fun rest => (hf.struck rfl).trans (hf.struck rfl).symm
  unfold Pool.retract
  dsimp only
  split <;> exact marked_set hw rfl (set _)

/-- Nobody is marked but whose load panics. -/
theorem marked_act (allowed : p.Allows a) :
    (p.act a).staff.countP f = p.staff.countP f + if a.marks f then 1 else 0 := by
  cases a with
  | submit j t => exact marked_submit hf p j t
  | look i =>
    obtain ⟨w, hw, free⟩ := exists_free allowed
    obtain ⟨q, looks, staff, -⟩ := p.act_look i
    rw [looks, marked_look hf (staff ▸ hw) free, staff]
    rfl
  | turn i l o m => exact marked_turn hf m allowed
  | retract i => exact marked_retract hf allowed
  | next i j rest => exact marked_set allowed rfl ((hf.struck rfl).trans (hf.struck rfl).symm)
  | shed i text j rest => exact marked_set allowed rfl (hf.shed text j rest)
  | shutdown => exact marked_shutdown hf p
  | cancel | drop => rfl

end

/-- Nobody is struck unless his load panics. -/
theorem struck_act (allowed : p.Allows a) :
    (p.act a).struck = p.struck + if a.panics then 1 else 0 := by
  rw [← a.marks_struck]
  exact marked_act marks_struck allowed

theorem struck_acts {as : List Act} (allowed : p.AllowsAll as) :
    (p.acts as).struck = p.struck + as.countP Act.panics := by
  induction as generalizing p with
  | nil => rfl
  | cons a as ih =>
    show ((p.act a).acts as).struck = _
    rw [ih allowed.2, struck_act allowed.1, List.countP_cons]
    omega

@[simp] theorem maxWorkers_act (p : Pool) (a : Act) : (p.act a).maxWorkers = p.maxWorkers := by
  cases a with
  | submit j =>
    unfold act Pool.submit
    dsimp only
    split
    · rfl
    · split <;> rfl
  | look i =>
    obtain ⟨q, looks, -, -, -, -, same⟩ := p.act_look i
    rw [looks, ← same]
    unfold Pool.look
    split
    · rfl
    · split <;> rfl
  | retract i =>
    unfold act Pool.retract
    dsimp only
    split <;> rfl
  | _ => rfl

/-- Workers are hired only for loads that are submitted. -/
theorem workers_act_le (other : ∀ j t, a ≠ .submit j t) : (p.act a).workers ≤ p.workers := by
  cases a with
  | submit j t => exact absurd rfl (other j t)
  | look i =>
    obtain ⟨q, looks, -, -, -, same, -⟩ := p.act_look i
    rw [looks, ← same]
    unfold Pool.look
    split
    · exact Nat.le_refl _
    · split
      · exact Nat.sub_le ..
      · exact Nat.le_refl _
  | retract i =>
    unfold act Pool.retract
    dsimp only
    split <;> exact Nat.sub_le ..
  | _ => exact Nat.le_refl _

theorem workers_acts_le {as : List Act} (other : ∀ j t, .submit j t ∉ as) :
    (p.acts as).workers ≤ p.workers := by
  induction as generalizing p with
  | nil => exact Nat.le_refl _
  | cons a as ih =>
    have first : (p.act a).workers ≤ p.workers :=
      workers_act_le fun j t h => other j t (h ▸ List.mem_cons_self)
    exact Nat.le_trans (ih fun j t hj => other j t (List.mem_cons_of_mem a hj)) first

/-- A worker is hired only when whoever sleeps is woken for another load. -/
theorem submit_hires (h : p.Balanced) (going : p.shutDown = false) {j : Job} {t : Bool}
    (grows : p.workers < (p.submit j t).workers) :
    p.idle = p.wakeups ∧ .asleep ∉ p.staff ∧ (p.submit j t).workers = p.workers + 1 := by
  have idle := h.idle
  have wakeups := h.wakeups going
  simp only [Pool.submit] at grows ⊢
  split at grows
  · exact absurd grows (Nat.lt_irrefl _)
  next none =>
  split at grows
  · next room =>
    refine ⟨by omega, fun mem => ?_, by rw [if_neg none, if_pos room]⟩
    have some : 0 < p.asleep := List.countP_pos_iff.2 ⟨_, mem, by simp⟩
    omega
  · exact absurd grows (Nat.lt_irrefl _)

end Pool

namespace Session
open Pool

variable {s : Session} {n : PoolName} {e : Event} {l : Load}

/-- What the load panics by in its next move. -/
def loadFault? (s : Session) (l : Load) : Option Fault :=
  match l.phase, (s.source l.job.source).answer.1 with
  | .reading, .panicked _ => some .source
  | .allocating, _ => if halfLimit ≤ l.job.chunkSize then some .buffer else none
  | _, _ => none

/-- What the event kills a worker of the pool by, or makes a stand-in fall. -/
def fault? (s : Session) (n : PoolName) : Event → Option Fault
  | .move (.worker m i) =>
    if m = n then ((s.pool n).load? i).bind s.loadFault? else none
  | _ => none

theorem panics_turn (i : Nat) (l : Load) (o : Option (List Job)) :
    (Act.turn i l o (s.advanceLoad l).1).panics = (s.loadFault? l).isSome := by
  rw [advanceLoad_fst, nextStep, loadFault?]
  cases l.phase with
  | allocating =>
    dsimp only [LoadPhase.step]
    by_cases fits : l.job.chunkSize < halfLimit
    · simp [fits, Nat.not_le_of_lt fits, Act.panics]
    · simp [fits, Nat.le_of_not_lt fits, Act.panics]
  | checking =>
    dsimp only [LoadPhase.step]
    split <;> simp [Act.panics]
  | reading =>
    dsimp only [LoadPhase.step]
    rcases (s.source l.job.source).answer with ⟨a, x⟩
    cases a with
    | bytes data =>
      dsimp only [LoadPhase.afterRead]
      split <;> simp [Act.panics]
    | failed e => simp [LoadPhase.afterRead, Act.panics]
    | panicked text => simp [LoadPhase.afterRead, Act.panics]
  | beginning | closing | finishing => simp [LoadPhase.step, Act.panics]

theorem countP_workerActs (n : PoolName) (i : Nat) : (s.workerActs n i).countP Act.panics =
    (((s.pool n).load? i).bind s.loadFault?).toList.length := by
  unfold workerActs Pool.load?
  split
  case h_3 l o hw =>
    have panics := s.panics_turn i l o
    cases hf : s.loadFault? l <;> simp_all [Worker.load?]
  all_goals
    next hw => simp [hw, Worker.load?, Act.panics]

/-- Nobody is struck but by a move of his own load. -/
theorem countP_poolActs (n : PoolName) (e : Event) :
    (s.poolActs n e).countP Act.panics = (s.fault? n e).toList.length := by
  have spared : (∀ m i, e ≠ .move (.worker m i)) → (s.poolActs n e).countP Act.panics = 0 := by
    intro other
    refine List.countP_eq_zero.2 fun a ha => ?_
    cases cause ha with
    | turns => exact absurd rfl (other _ _)
    | _ => simp [Act.panics]
  cases e with
  | begin id op => exact spared (by simp)
  | move b =>
    cases b with
    | worker m i =>
      simp only [poolActs, fault?]
      split
      · exact countP_workerActs n i
      · rfl
    | call id => exact spared (by simp)
    | pool m => exact spared (by simp)
    | registry => exact spared (by simp)

/-- How many loads a pool is asked to run at once. -/
def limit (config : CacheConfig) (workers : Nat) : PoolName → Nat
  | .registry => config.maxConcurrentLoads
  | .separate => workers

theorem pool_start (config : CacheConfig) (workers : Nat) (n : PoolName) :
    (start config workers).pool n = .ofLimit (limit config workers n) := by
  cases n <;> rfl

/-- Whoever could look for a load in a settled session has looked. -/
theorem Settled.nobody_looks (settled : s.Settled) (n : PoolName) :
    (s.pool n).ready = 0 ∧ (s.pool n).woken = 0 ∧ (s.pool n).denied = 0 := by
  have still : ∀ w ∈ (s.pool n).staff, w ≠ .ready ∧ w ≠ .woken ∧ w ≠ .denied := by
    intro w hw
    obtain ⟨i, hi⟩ := List.mem_iff_getElem?.1 hw
    have hold : s.workerCanMove n i = false := settled (.worker n i)
    rw [workerCanMove, hi] at hold
    refine ⟨?_, ?_, ?_⟩
    all_goals
      rintro rfl
      cases hold
  refine ⟨?_, ?_, ?_⟩
  · exact List.countP_eq_zero.2 fun w hw => by simpa using (still w hw).1
  · exact List.countP_eq_zero.2 fun w hw => by simpa using (still w hw).2.1
  · exact List.countP_eq_zero.2 fun w hw => by simpa using (still w hw).2.2

theorem Attentive.stalls_of_mem (ha : s.Attentive) (settled : s.Settled)
    (hl : l ∈ (s.pool n).loads) : s.Stalls l := by
  obtain ⟨w, hw, load⟩ := List.mem_filterMap.1 hl
  obtain ⟨i, hi⟩ := List.mem_iff_getElem?.1 hw
  cases w with
  | loading l' o =>
    cases load
    exact ha.stalls settled (.inl ⟨n, i, o, hi⟩)
  | _ => cases load

end Session

namespace Run
open Session

variable {config : CacheConfig} {workers : Nat} (r : Run (start config workers))

/-- What has killed workers of the pool in the first `m` moments, or has made stand-ins fall, in
turn. -/
def faults (r : Run (start config workers)) (n : PoolName) (m : Nat) : List Fault :=
  (List.range m).flatMap fun i => ((r.state i).fault? n (r.event i)).toList

theorem struck (n : PoolName) (m : Nat) :
    ((r.state m).pool n).struck = (r.faults n m).length := by
  induction m with
  | zero =>
    rw [r.state_zero, pool_start]
    rfl
  | succ m ih =>
    rw [r.pool_succ, Pool.struck_acts (r.allows n m), ih, countP_poolActs]
    simp [faults, List.range_succ]

theorem maxWorkers (n : PoolName) (m : Nat) :
    ((r.state m).pool n).maxWorkers = max 1 (limit config workers n) := by
  refine (r.reach m).kept_pool (P := fun p => p.maxWorkers = max 1 (limit config workers n)) ?_ ?_
  · rw [pool_start]
    rfl
  · intro p a kept _
    rw [Pool.maxWorkers_act, kept]

/-- How a pool keeps to its bound, and how it makes use of it. -/
structure Conserves (r : Run (start config workers)) (n : PoolName) : Prop where
  limit : ∀ m, ((r.state m).pool n).maxWorkers = max 1 (limit config workers n)
  idle : ∀ m, ((r.state m).pool n).idle ≤ ((r.state m).pool n).workers
  cap : ∀ m, ((r.state m).pool n).workers ≤ ((r.state m).pool n).maxWorkers
  /-- The loads in progress have an active worker each, but for those that stand-ins run. -/
  loads : ∀ m, ((r.state m).pool n).loads.length ≤
      ((r.state m).pool n).active + ((r.state m).pool n).inline ∧
    ((r.state m).pool n).active ≤ ((r.state m).pool n).maxWorkers
  /-- There are no stand-ins unless a worker was denied a thread. -/
  standIns : ∀ {m}, ((r.state m).pool n).Threaded →
    ((r.state m).pool n).inline = 0 ∧ ((r.state m).pool n).fallen = 0
  stalls : ∀ {m l}, (r.state m).Settled → l ∈ ((r.state m).pool n).loads → (r.state m).Stalls l
  active : ∀ {m}, (r.state m).Settled →
    ((r.state m).pool n).active + ((r.state m).pool n).inline + ((r.state m).pool n).fallen =
      ((r.state m).pool n).loads.length + (r.faults n m).count .source +
        (r.faults n m).count .buffer
  /-- No load waits while a worker is free or could be hired. A worker that was denied a thread is
  not hired again before the next load. -/
  busy : ∀ {m}, (r.state m).Settled → ((r.state m).pool n).queue ≠ [] →
    ((r.state m).pool n).idle = 0 ∧ (((r.state m).pool n).Threaded →
      ((r.state m).pool n).workers = ((r.state m).pool n).maxWorkers)
  /-- A worker is hired when a load is submitted and whoever sleeps is woken for another one. -/
  hires : ∀ {m}, ((r.state m).pool n).workers < ((r.state (m + 1)).pool n).workers →
    ((r.state m).pool n).idle = ((r.state m).pool n).wakeups ∧
      .asleep ∉ ((r.state m).pool n).staff ∧
      ∃ j t, (r.state m).poolActs n (r.event m) = [.submit j t] ∧
        ((r.state (m + 1)).pool n).workers = ((r.state m).pool n).workers + 1

theorem conserves (n : PoolName) : r.Conserves n where
  limit m := r.maxWorkers n m
  idle m := by
    have all := ((r.state m).pool n).length_staff
    have le := ((r.state m).pool n).inline_le_loads
    obtain ⟨workers, idle, -⟩ := r.balanced n m
    omega
  cap m := (r.balanced n m).cap
  loads m := by
    have all := ((r.state m).pool n).length_staff
    obtain ⟨workers, idle, -, -, cap, -⟩ := r.balanced n m
    unfold Pool.active
    omega
  standIns threaded := ⟨threaded.counts.2.2, threaded.fallen⟩
  stalls settled hl := (r.attentive _).stalls_of_mem settled hl
  active {m} settled := by
    have all := ((r.state m).pool n).length_staff
    have le := ((r.state m).pool n).inline_le_loads
    have struck := r.struck n m
    have parts := ((r.state m).pool n).struck_eq
    have kinds := Fault.length_eq (r.faults n m)
    obtain ⟨ready, woken, denied⟩ := settled.nobody_looks n
    obtain ⟨workers, idle, -⟩ := r.balanced n m
    unfold Pool.active
    omega
  busy {m} settled queued := by
    have some := List.length_pos_iff.2 queued
    obtain ⟨ready, woken, -⟩ := settled.nobody_looks n
    obtain ⟨-, idle, -, -, cap, attended, served, -, -⟩ := r.balanced n m
    refine ⟨by omega, fun threaded => ?_⟩
    obtain ⟨denied, standIns, -⟩ := threaded.counts
    omega
  hires {m} grows := by
    by_cases mem : ∃ j t, .submit j t ∈ (r.state m).poolActs n (r.event m)
    · obtain ⟨j, t, hj⟩ := mem
      have acts := poolActs_of_submit hj
      have allows := r.allows n m
      rw [acts] at allows
      rw [r.pool_succ, acts] at grows
      obtain ⟨signalled, awake, one⟩ := Pool.submit_hires (r.balanced n m) allows.1 grows
      refine ⟨signalled, awake, j, t, acts, ?_⟩
      rw [r.pool_succ, acts]
      exact one
    · rw [r.pool_succ] at grows
      have le := Pool.workers_acts_le (p := (r.state m).pool n) (by simpa using mem)
      exact absurd grows (Nat.not_lt_of_le le)

end Run

namespace Session

/-- A load is queued whose buffer is larger than any can be. -/
def oversized : List Event :=
  [.begin 0 (.openReader ⟨"a"⟩ (some .async) {}), .move (.call 0), .move (.call 0), .move (.call 0),
    .move (.worker .registry 0), .move (.worker .registry 0)]

/-- Its worker stays active, though no load waits for a source and no source has panicked. -/
theorem active_oversized :
    ∃ plays : (start { chunkSize := halfLimit, maxConcurrentLoads := 1 } 1).Plays oversized,
      ((Run.ofList plays).state 6).Settled ∧
        (((Run.ofList plays).state 6).pool .registry).active = 1 ∧
        (((Run.ofList plays).state 6).pool .registry).loads = [] ∧
        ((Run.ofList plays).faults .registry 6).count .source = 0 := by
  have plays : (start { chunkSize := halfLimit, maxConcurrentLoads := 1 } 1).Plays oversized := by
    unfold Plays
    decide
  have settled : ((start { chunkSize := halfLimit, maxConcurrentLoads := 1 } 1).play
      oversized 6).Settled := by
    rw [settled_iff]
    decide
  have active : (((start { chunkSize := halfLimit, maxConcurrentLoads := 1 } 1).play
      oversized 6).pool .registry).active = 1 := by decide
  have loads : (((start { chunkSize := halfLimit, maxConcurrentLoads := 1 } 1).play
      oversized 6).pool .registry).loads = [] := by decide
  have faults : (Run.ofList plays).faults .registry 6 = [.buffer] := by
    simp only [Run.faults, Run.ofList]
    decide
  exact ⟨plays, settled, active, loads, by rw [faults]; decide⟩

end Session
end SharedStream
