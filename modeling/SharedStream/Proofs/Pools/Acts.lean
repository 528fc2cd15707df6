import SharedStream.Proofs.Bystanders
import SharedStream.Proofs.Entries
import SharedStream.Proofs.Run
import SharedStream.Proofs.Loads.Queues

/-! # What happens to a pool

The ways in which a pool can change, and which of them an event brings about.
-/
namespace SharedStream

namespace Pool

inductive Act where
  | submit (j : Job) (threaded : Bool)
  /-- A worker without work looks for a load. -/
  | look (i : Nat)
  /-- The load of a worker or of a stand-in has made a move. -/
  | turn (i : Nat) (l : Load) (rest : Option (List Job)) (m : LoadMove)
  /-- A worker that was denied a thread is counted no more. -/
  | retract (i : Nat)
  /-- A stand-in begins the first of the loads that it has taken, -/
  | next (i : Nat) (j : Job) (rest : List Job)
  /-- or drops it, since a load of its own has panicked. -/
  | shed (i : Nat) (text : String) (j : Job) (rest : List Job)
  | cancel (x : StoreId)
  | shutdown
  /-- The queue goes with the pool. -/
  | drop

def act (p : Pool) : Act → Pool
  | .submit j threaded => p.submit j threaded
  | .look i => if p.staff[i]? = some .woken then p.rouse.look i else p.look i
  | .turn i l rest m => p.setWorker i (.after l rest m)
  | .retract i => p.retract i
  | .next i j rest => p.setWorker i (.loading j.start (some rest))
  | .shed i text _ rest => p.setWorker i (.fallen text rest)
  | .cancel x => p.dequeue x
  | .shutdown => p.shutdown
  | .drop => { p with queue := [] }

/-- What a pool has to be like for something to happen to it. -/
def Allows (p : Pool) : Act → Prop
  | .submit .. => p.shutDown = false
  | .look i => p.staff[i]? = some .ready ∨ p.staff[i]? = some .woken
  | .turn i l rest _ => p.staff[i]? = some (.loading l rest)
  | .retract i => p.staff[i]? = some .denied
  | .next i j rest => p.staff[i]? = some (.between (j :: rest))
  | .shed i text j rest => p.staff[i]? = some (.fallen text (j :: rest))
  | .drop => p.isAbandoned = true
  | .cancel _ | .shutdown => True

/-- Each act is allowed when its turn comes. -/
def AllowsAll (p : Pool) : List Act → Prop
  | [] => True
  | a :: as => p.Allows a ∧ (p.act a).AllowsAll as

def acts (p : Pool) (as : List Act) : Pool := as.foldl act p

/-- A worker that was woken looks for a load as any other does. -/
theorem act_look (p : Pool) (i : Nat) : ∃ q : Pool, p.act (.look i) = q.look i ∧
    q.staff = p.staff ∧ q.queue = p.queue ∧ q.shutDown = p.shutDown ∧ q.workers = p.workers ∧
      q.maxWorkers = p.maxWorkers := by
  by_cases woken : p.staff[i]? = some .woken
  · exact ⟨p.rouse, by rw [act, if_pos woken], rfl, rfl, rfl, rfl, rfl⟩
  · exact ⟨p, by rw [act, if_neg woken], rfl, rfl, rfl, rfl, rfl⟩

/-- What is kept by each act is kept by all of them. -/
theorem acts_keep {P : Pool → Prop} (step : ∀ {p : Pool} {a}, P p → p.Allows a → P (p.act a))
    {p : Pool} {as : List Act} (hp : P p) (allowed : p.AllowsAll as) : P (p.acts as) := by
  induction as generalizing p with
  | nil => exact hp
  | cons a as ih => exact ih (step hp allowed.1) allowed.2

end Pool

namespace Session
open Pool

variable {s u : Session} {n : PoolName} {id : CallId} {t : Task} {e : Event}

/-- What a move of a call does to a pool. -/
def taskActs (s : Session) (n : PoolName) (id : CallId) : Task → List Act
  | .makeSource _ .async =>
    match n, (s.source id).factory with
    | .registry, .gives =>
      [.submit ⟨.cache id, id, s.registry.config.chunkSize⟩ (s.source id).threaded]
    | _, _ => []
  | .dequeueCache _ cache =>
    match n with
    | .registry => [.cancel (.cache cache)]
    | .separate => []
  | _ => []

def workerActs (s : Session) (n : PoolName) (i : Nat) : List Act :=
  match (s.pool n).staff[i]? with
  | some .ready | some .woken => [.look i]
  | some (.loading l rest) => [.turn i l rest (s.advanceLoad l).1]
  | some .denied => [.retract i]
  | some (.between (j :: rest)) => [.next i j rest]
  | some (.fallen text (j :: rest)) => [.shed i text j rest]
  | some .asleep | some .gone | some .dead | some (.between []) | some (.fallen _ []) | none => []

/-- What an operation does to a pool at once. -/
def opActs (s : Session) (n : PoolName) (id : CallId) : Op → List Act
  | .submit store plan chunkSize =>
    match n, plan.factory with
    | .separate, .gives =>
      if s.stores.contains (.separate store) && !s.separate.shutDown then
        [.submit ⟨.separate store, id, chunkSize⟩ plan.threaded]
      else []
    | _, _ => []
  | .dequeue store =>
    if n = .separate ∧ s.stores.contains (.separate store) = true ∧ s.separate.shutDown = false then
      [.cancel (.separate store)]
    else []
  | .dropPool => if n = .separate ∧ s.separate.shutDown = false then [.shutdown] else []
  | _ => []

/-- All that an event does to a pool. -/
def poolActs (s : Session) (n : PoolName) : Event → List Act
  | .begin id op => s.opActs n id op
  | .move (.call id) =>
    match s.task? id with
    | some t => s.taskActs n id t
    | none => []
  | .move (.worker m i) => if m = n then s.workerActs n i else []
  | .move (.pool m) => if m = n then [.drop] else []
  | .move .registry =>
    match n, s.registry.ending with
    | .registry, .dequeue c _ => [.cancel (.cache c)]
    | .registry, .cancel [] => [.shutdown]
    | _, _ => []

/-- Where what happens to a pool comes from. -/
inductive Cause (s : Session) : PoolName → Event → Act → Prop where
  | submitted {id x : CallId} {plan : SourcePlan} {size : Nat} : plan.factory = .gives →
      s.stores.contains (.separate x) = true → s.separate.shutDown = false →
      Cause s .separate (.begin id (.submit x plan size))
        (.submit ⟨.separate x, id, size⟩ plan.threaded)
  /-- A reader is opened whose cache is loaded in the background. -/
  | loaded {id : CallId} {k : Key} : s.task? id = some (.makeSource k .async) →
      (s.source id).factory = .gives →
      Cause s .registry (.move (.call id))
        (.submit ⟨.cache id, id, s.registry.config.chunkSize⟩ (s.source id).threaded)
  | looks {n : PoolName} {i : Nat} :
      (s.pool n).staff[i]? = some .ready ∨ (s.pool n).staff[i]? = some .woken →
      Cause s n (.move (.worker n i)) (.look i)
  | turns {n : PoolName} {i : Nat} {l : Load} {rest : Option (List Job)} :
      (s.pool n).staff[i]? = some (.loading l rest) →
      Cause s n (.move (.worker n i)) (.turn i l rest (s.advanceLoad l).1)
  | retracts {n : PoolName} {i : Nat} : (s.pool n).staff[i]? = some .denied →
      Cause s n (.move (.worker n i)) (.retract i)
  | takesUp {n : PoolName} {i : Nat} {j : Job} {rest : List Job} :
      (s.pool n).staff[i]? = some (.between (j :: rest)) →
      Cause s n (.move (.worker n i)) (.next i j rest)
  | sheds {n : PoolName} {i : Nat} {text : String} {j : Job} {rest : List Job} :
      (s.pool n).staff[i]? = some (.fallen text (j :: rest)) →
      Cause s n (.move (.worker n i)) (.shed i text j rest)
  | dequeued {id x : CallId} :
      Cause s .separate (.begin id (.dequeue x)) (.cancel (.separate x))
  /-- A cache is torn down. -/
  | retired {id c : CallId} {k : Key} : s.task? id = some (.dequeueCache k c) →
      Cause s .registry (.move (.call id)) (.cancel (.cache c))
  | dropped {id : CallId} : Cause s .separate (.begin id .dropPool) .shutdown
  | abandoned {n : PoolName} : Cause s n (.move (.pool n)) .drop
  /-- The registry ends, which stops all its loads. -/
  | stopped {c : CallId} {rest : List CallId} : s.registry.ending = .dequeue c rest →
      Cause s .registry (.move .registry) (.cancel (.cache c))
  | ended : s.registry.ending = .cancel [] → Cause s .registry (.move .registry) .shutdown

theorem cause_of_opActs {a : Act} {op : Op} (h : a ∈ s.opActs n id op) :
    s.Cause n (.begin id op) a := by
  cases op with
  | submit x plan size =>
    simp only [opActs] at h
    split at h
    · next gives =>
      split at h
      · next open_ =>
        simp only [Bool.and_eq_true, Bool.not_eq_true'] at open_
        rw [List.mem_singleton.1 h]
        exact .submitted gives open_.1 open_.2
      · cases h
    · cases h
  | dequeue x =>
    simp only [opActs] at h
    split at h
    · next open_ =>
      rw [List.mem_singleton.1 h, open_.1]
      exact .dequeued
    · cases h
  | dropPool =>
    simp only [opActs] at h
    split at h
    · next open_ =>
      rw [List.mem_singleton.1 h, open_.1]
      exact .dropped
    · cases h
  | _ => cases h

theorem cause_of_taskActs {a : Act} (ht : s.task? id = some t) (h : a ∈ s.taskActs n id t) :
    s.Cause n (.move (.call id)) a := by
  cases t with
  | makeSource k mode =>
    cases mode with
    | sync => cases h
    | async =>
      simp only [taskActs] at h
      split at h
      · next gives =>
        rw [List.mem_singleton.1 h]
        exact .loaded ht gives
      · cases h
  | dequeueCache k c =>
    cases n with
    | registry =>
      rw [List.mem_singleton.1 h]
      exact .retired ht
    | separate => cases h
  | _ => cases h

theorem cause_of_workerActs {a : Act} {i : Nat} (h : a ∈ s.workerActs n i) :
    s.Cause n (.move (.worker n i)) a := by
  unfold workerActs at h
  split at h
  · next hw =>
    rw [List.mem_singleton.1 h]
    exact .looks (.inl hw)
  · next hw =>
    rw [List.mem_singleton.1 h]
    exact .looks (.inr hw)
  · next l rest hw =>
    rw [List.mem_singleton.1 h]
    exact .turns hw
  · next hw =>
    rw [List.mem_singleton.1 h]
    exact .retracts hw
  · next j rest hw =>
    rw [List.mem_singleton.1 h]
    exact .takesUp hw
  · next text j rest hw =>
    rw [List.mem_singleton.1 h]
    exact .sheds hw
  all_goals cases h

theorem cause {a : Act} (h : a ∈ s.poolActs n e) : s.Cause n e a := by
  cases e with
  | begin id op => exact cause_of_opActs h
  | move b =>
    cases b with
    | call id =>
      simp only [poolActs] at h
      split at h
      · next t ht => exact cause_of_taskActs ht h
      · cases h
    | worker m i =>
      simp only [poolActs] at h
      split at h
      · next same =>
        subst same
        exact cause_of_workerActs h
      · cases h
    | pool m =>
      simp only [poolActs] at h
      split at h
      · next same =>
        subst same
        rw [List.mem_singleton.1 h]
        exact .abandoned
      · cases h
    | registry =>
      simp only [poolActs] at h
      split at h
      · next stage =>
        rw [List.mem_singleton.1 h]
        exact .stopped stage
      · next stage =>
        rw [List.mem_singleton.1 h]
        exact .ended stage
      · cases h

/-- An event does at most one thing to a pool. -/
theorem length_poolActs_le : (s.poolActs n e).length ≤ 1 := by
  cases e with
  | begin id op =>
    simp only [poolActs, opActs]
    split
    · split
      · split <;> simp
      · simp
    · split <;> simp
    · split <;> simp
    · simp
  | move a =>
    cases a with
    | call id =>
      simp only [poolActs, taskActs]
      split
      · split
        · split <;> simp
        · split <;> simp
        · simp
      · simp
    | worker m i =>
      simp only [poolActs, workerActs]
      split
      · split <;> simp
      · simp
    | pool m =>
      simp only [poolActs]
      split <;> simp
    | registry =>
      simp only [poolActs]
      split <;> simp

theorem poolActs_eq_singleton {a : Act} (h : a ∈ s.poolActs n e) : s.poolActs n e = [a] := by
  have le := length_poolActs_le (s := s) (n := n) (e := e)
  cases as : s.poolActs n e with
  | nil => simp [as] at h
  | cons b rest =>
    rw [as] at h le
    have none : rest = [] := by simpa using le
    subst none
    rw [List.mem_singleton.1 h]

/-! ## Parts of moves -/

/-- Both pools stay as they are. -/
theorem pool_congr (registry : u.registry.pool = s.registry.pool)
    (separate : u.separate = s.separate) (n : PoolName) : u.pool n = s.pool n := by
  cases n with
  | registry => exact registry
  | separate => exact separate

@[simp] theorem pool_setPool (p : Pool) : (s.setPool n p).pool n = p := by
  cases n <;> rfl

theorem pool_setPool_of_ne {m : PoolName} (h : m ≠ n) (p : Pool) :
    (s.setPool m p).pool n = s.pool n := by
  cases m <;> cases n <;> first | rfl | exact absurd rfl h

@[simp] theorem pool_closeSources (jobs : List Job) :
    (jobs.foldl (fun s job => s.modifySource job.source Source.close) s).pool n = s.pool n := by
  obtain ⟨sources, closed⟩ := closeSources_eq (s := s) jobs
  rw [closed]
  exact pool_congr rfl rfl n

theorem pool_changeStore (x : StoreId) (change : StoreChange) :
    (s.changeStore x change).pool n = s.pool n := by
  obtain ⟨stores, calls, changed⟩ := changeStore_eq (s := s) x change
  rw [changed]
  exact pool_congr rfl rfl n

theorem dequeue_of_none {p : Pool} {x : StoreId} (h : p.queuedFor x = []) : p.dequeue x = p := by
  have all : ∀ j ∈ p.queue, ¬ j.store = x := by
    simpa [queuedFor] using h
  have same : p.queue.filter (·.store ≠ x) = p.queue := by
    rw [List.filter_eq_self]
    simpa using all
  rw [Pool.dequeue, same]

theorem pool_dequeue (x : StoreId) : (s.dequeue n x).pool n = (s.pool n).dequeue x := by
  unfold Session.dequeue
  split
  · next none => exact (dequeue_of_none none).symm
  · exact (pool_changeStore x .finish).trans ((pool_closeSources _).trans (pool_setPool _))

theorem pool_dequeue_of_ne {m : PoolName} (h : m ≠ n) (x : StoreId) :
    (s.dequeue m x).pool n = s.pool n := by
  unfold Session.dequeue
  split
  · rfl
  · exact (pool_changeStore x .finish).trans
      ((pool_closeSources _).trans (pool_setPool_of_ne h _))

/-! ## Moves -/

theorem pool_moveMakeSource {k : Key} {mode : LoadMode} :
    (s.moveMakeSource id k mode).pool n =
      (s.pool n).acts (s.taskActs n id (.makeSource k mode)) := by
  unfold moveMakeSource taskActs
  cases (s.source id).factory with
  | fails e => cases mode <;> cases n <;> rfl
  | panics text => cases mode <;> cases n <;> rfl
  | gives => cases mode <;> cases n <;> rfl

theorem pool_moveDequeueCache {k : Key} {c : CallId} :
    (s.moveDequeueCache id k c).pool n =
      (s.pool n).acts (s.taskActs n id (.dequeueCache k c)) := by
  cases n with
  | registry => exact pool_dequeue (n := .registry) (.cache c)
  | separate => exact pool_dequeue_of_ne (m := .registry) (n := .separate) (by simp) (.cache c)

/-- Bystanders leave both pools as they are. -/
theorem Bystands.pools (h : s.Bystands u) (n : PoolName) : u.pool n = s.pool n :=
  pool_congr h.pool h.separate n

/-- The loads that calls run are no business of the pools. -/
theorem pool_of_load {t : Task} {l : Load} (load : t.load? = some l) :
    (s.moveTask id t).pool n = s.pool n :=
  ((bystands_of_load load).pools n).trans (pool_advanceLoad n)

theorem pool_moveTask (t : Task) :
    (s.moveTask id t).pool n = (s.pool n).acts (s.taskActs n id t) := by
  cases t with
  | makeSource key mode => exact pool_moveMakeSource
  | dequeueCache key cache => exact pool_moveDequeueCache
  | seekReader key mode =>
    show (s.moveSeekReader id key mode).pool n = s.pool n
    unfold moveSeekReader
    split
    · exact pool_congr rfl rfl n
    split <;> exact pool_congr rfl rfl n
  | fill key l => exact pool_of_load rfl
  | load l => exact pool_of_load rfl
  | cancelCache key cache => exact pool_congr rfl rfl n
  | _ => exact (bystands_moveTask rfl).pools n

/-! ## Workers, pools and the end of the registry -/

theorem pool_moveWorker (i : Nat) :
    (s.moveWorker n i).pool n = (s.pool n).acts (s.workerActs n i) := by
  cases hw : (s.pool n).staff[i]? with
  | none => simp [moveWorker, workerActs, hw, acts]
  | some w =>
    cases w with
    | loading l rest =>
      simp only [moveWorker, workerActs, hw, acts, List.foldl_cons, List.foldl_nil, act,
        pool_setPool, pool_advanceLoad]
    | between rest => cases rest <;> simp [moveWorker, workerActs, hw, acts, act]
    | fallen text rest => cases rest <;> simp [moveWorker, workerActs, hw, acts, act]
    | ready | woken | denied => simp [moveWorker, workerActs, hw, acts, act]
    | asleep | gone | dead => simp [moveWorker, workerActs, hw, acts]

theorem pool_moveWorker_of_ne {m : PoolName} (h : m ≠ n) (i : Nat) :
    (s.moveWorker m i).pool n = s.pool n := by
  have move := s.workerMove m i
  generalize s.moveWorker m i = u at move ⊢
  cases move with
  | still => rfl
  | look | retract | next => exact pool_setPool_of_ne h _
  | shed => exact (pool_setPool_of_ne h _).trans (pool_congr rfl rfl n)
  | load => exact (pool_setPool_of_ne h _).trans (pool_advanceLoad n)

theorem pool_dropQueue : (s.dropQueue n).pool n = (s.pool n).acts [.drop] := by
  unfold dropQueue
  exact (pool_closeSources _).trans (pool_setPool _)

theorem pool_dropQueue_of_ne {m : PoolName} (h : m ≠ n) : (s.dropQueue m).pool n = s.pool n := by
  unfold dropQueue
  exact (pool_closeSources _).trans (pool_setPool_of_ne h _)

theorem pool_endRegistry :
    s.endRegistry.pool n = (s.pool n).acts (s.poolActs n (.move .registry)) := by
  unfold endRegistry
  split
  · next h => cases n <;> simp [poolActs, h, acts, Session.pool]
  · next h => cases n <;> simp [poolActs, h, acts, Session.pool, setEnding, cancelStore]
  · next c rest h =>
    cases n with
    | registry =>
      simp only [poolActs, h]
      exact pool_dequeue (n := .registry) (.cache c)
    | separate =>
      simp only [poolActs]
      exact pool_dequeue_of_ne (m := .registry) (n := .separate) (by simp) _
  · next h => cases n <;> simp [poolActs, h, acts, act, Session.pool, setEnding, setPool]
  · next h => cases n <;> simp [poolActs, h, acts, Session.pool]

/-! ## Operations -/

theorem Entry.pool {op : Op} (h : s.Entry id op u)
    (other : ∀ x plan k, op ≠ .submit x plan k) (kept : ∀ x, op ≠ .dequeue x)
    (open_ : op ≠ .dropPool) : u.pool n = s.pool n := by
  cases h with
  | append => exact (pool_congr rfl rfl n).trans (pool_changeStore _ (.append _))
  | unsourced | submit | assist => exact absurd rfl (other _ _ _)
  | dequeue => exact absurd rfl (kept _)
  | dropPool => exact absurd rfl open_
  | _ => exact pool_congr rfl rfl n

theorem pool_enter (op : Op) : (s.enter id op).pool n = (s.pool n).acts (s.opActs n id op) := by
  have answered : ∀ r, (s.answer id r).pool n = s.pool n := fun r => pool_congr rfl rfl n
  cases op with
  | submit x plan k =>
    simp only [enter, withStore, withPool, Session.submit, opActs]
    split
    · next present =>
      split
      · next closed => cases n <;> cases plan.factory <;> simp [present, closed, answered, acts]
      · next going =>
        cases hf : plan.factory with
        | fails e => cases n <;> exact pool_congr rfl rfl _
        | panics text => cases n <;> exact pool_congr rfl rfl _
        | gives =>
          cases n with
          | registry =>
            dsimp only
            split <;> exact pool_congr rfl rfl _
          | separate =>
            have going : s.separate.shutDown = false := by simpa using going
            rw [present, going]
            dsimp only
            split <;> rfl
    · next absent => cases n <;> cases plan.factory <;> simp [absent, answered, acts]
  | dequeue x =>
    simp only [enter, withStore, withPool, opActs]
    split
    · next present =>
      split
      · next closed => simp [closed, answered, acts]
      · next going =>
        have going : s.separate.shutDown = false := by simpa using going
        cases n with
        | registry => exact pool_dequeue_of_ne (m := .separate) (n := .registry) (by simp) _
        | separate =>
          rw [if_pos ⟨rfl, present, going⟩]
          exact pool_dequeue (n := .separate) _
    · next absent => simp [absent, answered, acts]
  | dropPool =>
    simp only [enter, withPool, opActs]
    split
    · next closed => simp [closed, answered, acts]
    · next going =>
      have going : s.separate.shutDown = false := by simpa using going
      cases n with
      | registry => exact pool_congr rfl rfl _
      | separate =>
        rw [if_pos ⟨rfl, going⟩]
        rfl
  | _ => exact (entry s id _).pool (by simp) (by simp) (by simp)

/-- What an event does to a pool. -/
theorem pool_after (e : Event) : (s.after e).pool n = (s.pool n).acts (s.poolActs n e) := by
  cases e with
  | begin id op => exact (pool_enter (s := { s with clock := id + 1 }) op)
  | move a =>
    cases a with
    | call id =>
      cases ht : s.task? id with
      | none =>
        have absent : s.calls.get? id = none := by simpa [task?] using ht
        simp [after, move, absent, poolActs, ht, acts]
      | some t =>
        rw [after, move_of_task ht, poolActs, ht]
        exact pool_moveTask t
    | worker m i =>
      by_cases h : m = n
      · subst h
        rw [poolActs, if_pos rfl]
        exact pool_moveWorker i
      · rw [poolActs, if_neg h]
        exact pool_moveWorker_of_ne h i
    | pool m =>
      by_cases h : m = n
      · subst h
        rw [poolActs, if_pos rfl]
        exact pool_dropQueue
      · rw [poolActs, if_neg h]
        exact pool_dropQueue_of_ne h
    | registry => exact pool_endRegistry

end Session
end SharedStream
