import SharedStream.Proofs.Pools.Handling
import SharedStream.Proofs.StoreReads

/-! # What happens to a store

What an event does to a store, whoever it comes from: the callers, the loads, the teardown of its
cache, or the end of the registry. In a run a store is what all of it has made of an empty one.
-/
namespace SharedStream

namespace Store
variable {y : Store}

theorem following_append (y : Store) (as bs : List StoreAct) :
    y.following (as ++ bs) = (y.following as).following bs :=
  List.foldl_append

end Store

/-- What a change of a store is made of. -/
def StoreChange.acts : StoreChange → List StoreAct
  | .none => []
  | .append data => [.append data]
  | .finish => [.finish]

theorem Store.change_eq (y : Store) (change : StoreChange) :
    y.change change = y.following change.acts := by
  cases change <;> rfl

namespace Session

variable {s t u : Session} {f g : StoreId → List StoreAct} {n : PoolName} {id : CallId}
variable {x : StoreId}
variable {a : Task} {e : Event} {l : Load}

/-! ## Acts of the parties -/

/-- What a load does to a store with its next move. It offers what its source gives, and the store
may turn that down. -/
def loadActs (s : Session) (x : StoreId) (l : Load) : List StoreAct :=
  if x = l.job.store then
    match l.phase with
    | .reading =>
      match (s.source l.job.source).answer.1 with
      | .bytes data => if data.size = 0 then [] else [.append data]
      | .failed _ | .panicked _ => []
    | .finishing => [.finish]
    | .allocating | .checking | .beginning | .closing => []
  else []

/-- What it does to a store that its loads are removed from a queue. -/
def removalActs (s : Session) (n : PoolName) (x : StoreId) : List StoreAct :=
  if (s.pool n).queuedFor x = [] then [] else [.finish]

def opStoreActs (s : Session) (x : StoreId) : Op → List StoreAct
  | .append y data => if x = .separate y then [.append data] else []
  | .finish y => if x = .separate y then [.finish] else []
  | .cancel y => if x = .separate y then [.cancel] else []
  | .dequeue y =>
    if x = .separate y then if s.separate.shutDown then [] else s.removalActs .separate x else []
  | _ => []

def taskStoreActs (s : Session) (x : StoreId) : Task → List StoreAct
  | .fill _ l | .load l => s.loadActs x l
  | .cancelCache _ c => if x = .cache c then [.cancel] else []
  | .dequeueCache _ c => if x = .cache c then s.removalActs .registry x else []
  | _ => []

/-- What the end of a registry does next to the stores of its caches. -/
def stopActs (s : Session) (x : StoreId) : List StoreAct :=
  match s.registry.ending with
  | .cancel (c :: _) => if x = .cache c then [.cancel] else []
  | .dequeue c _ => if x = .cache c then s.removalActs .registry x else []
  | .ahead | .cancel [] | .done => []

/-- All that an event does to a store. -/
def storeActs (s : Session) (x : StoreId) (e : Event) : List StoreAct :=
  if s.stores.contains x then
    match e with
    | .begin _ op => s.opStoreActs x op
    | .move (.call id) =>
      match s.task? id with
      | some a => s.taskStoreActs x a
      | none => []
    | .move (.worker n i) =>
      match s.loadOf? (.worker n i) with
      | some l => s.loadActs x l
      | none => []
    | .move (.pool _) => []
    | .move .registry => s.stopActs x
  else []

/-! ## Parts of events -/

/-- Each store is what the acts have made of it. -/
def Made (s : Session) (f : StoreId → List StoreAct) (u : Session) : Prop :=
  ∀ x, u.stores.get? x = (s.stores.get? x).map (·.following (f x))

theorem made_of_eq (stores : u.stores = s.stores) : s.Made (fun _ => []) u := by
  intro x
  rw [stores]
  exact Option.map_id'.symm

/-- What leaves the stores alone changes nothing about how they came about. -/
theorem Made.congr (h : s.Made f t) (stores : u.stores = t.stores) : s.Made f u := by
  intro x
  rw [stores]
  exact h x

theorem Made.store (h : s.Made f u) (x : StoreId) :
    u.store x = (s.store x).following (if s.stores.contains x then f x else []) := by
  rw [Session.store, h x, Session.store, Table.contains]
  cases s.stores.get? x <;> rfl

theorem made_changeStore (y : StoreId) (change : StoreChange) :
    s.Made (fun x => if x = y then change.acts else []) (s.changeStore y change) := by
  intro x
  dsimp only
  rw [get?_changeStore]
  split
  · simp only [Store.change_eq]
  · exact Option.map_id'.symm

theorem made_cancelStore (y : StoreId) :
    s.Made (fun x => if x = y then [.cancel] else []) (s.cancelStore y) := by
  intro x
  dsimp only
  rw [cancelStore, Table.get?_modify]
  split
  · rfl
  · exact Option.map_id'.symm

/-- A load changes its store by what it offers, if the store takes it. -/
theorem change_nextStep (l : Load) :
    (s.store l.job.store).change (s.nextStep l).change =
      (s.store l.job.store).following (s.loadActs l.job.store l) := by
  rcases l with ⟨j, p⟩
  rw [loadActs, if_pos rfl, nextStep]
  cases p with
  | allocating | checking =>
    simp only [LoadPhase.step]
    split <;> rfl
  | reading =>
    simp only [LoadPhase.step]
    rcases (s.source j.source).answer with ⟨answer, source⟩
    cases answer with
    | bytes data =>
      by_cases none : data.size = 0
      · simp [LoadPhase.afterRead, Store.change, none]
      · cases taken : (s.store j.store).isOpen with
        | true => simp [LoadPhase.afterRead, Store.change, Store.act, none, taken]
        | false =>
          have kept := Store.append_of_not_isOpen taken data
          simp [LoadPhase.afterRead, Store.change, Store.act, none, taken, kept]
    | failed | panicked => rfl
  | beginning | closing | finishing => rfl

theorem made_advanceLoad (l : Load) :
    s.Made (fun x => s.loadActs x l) (s.advanceLoad l).2 := by
  intro x
  rw [get?_advanceLoad]
  split
  · next own =>
    subst own
    cases present : s.stores.get? l.job.store with
    | none => rfl
    | some y =>
      have made := s.change_nextStep l
      rw [show s.store l.job.store = y by rw [Session.store, present, Option.getD_some]] at made
      exact congrArg some made
  · next other =>
    simp only [loadActs, if_neg other]
    exact Option.map_id'.symm

theorem made_dequeue (y : StoreId) :
    s.Made (fun x => if x = y then s.removalActs n x else []) (s.dequeue n y) := by
  intro x
  rw [(cancels_dequeue s n y).store x]
  by_cases own : x = y
  · subst own
    by_cases queued : (s.pool n).queuedFor x = []
    · simp [removalActs, queued]
    · simp [removalActs, queued, Store.act]
  · simp [own]

theorem made_endRegistry : s.Made (fun x => s.stopActs x) s.endRegistry := by
  unfold endRegistry
  split
  · next stage =>
    simp only [stopActs, stage]
    exact made_of_eq rfl
  · next c rest stage =>
    simp only [stopActs, stage]
    exact (made_cancelStore (.cache c)).congr rfl
  · next c rest stage =>
    simp only [stopActs, stage]
    exact (made_dequeue (n := .registry) (.cache c)).congr rfl
  · next stage =>
    simp only [stopActs, stage]
    exact made_of_eq rfl
  · next stage =>
    simp only [stopActs, stage]
    exact made_of_eq rfl

/-! ## Events -/

/-- A call changes stores by its task, unless it makes a new one. -/
theorem made_moveTask (old : ∀ k mode, a ≠ .makeSource k mode) :
    s.Made (fun x => s.taskStoreActs x a) (s.moveTask id a) := by
  cases a with
  | makeSource key mode => exact absurd rfl (old key mode)
  | fill key l => exact (made_advanceLoad l).congr (bystands_of_load rfl).stores
  | load l => exact (made_advanceLoad l).congr (bystands_of_load rfl).stores
  | cancelCache key cache => exact (made_cancelStore (.cache cache)).congr rfl
  | dequeueCache key cache => exact (made_dequeue (n := .registry) (.cache cache)).congr rfl
  | seekReader key mode =>
    show s.Made _ (s.moveSeekReader id key mode)
    unfold moveSeekReader
    split
    · exact made_of_eq rfl
    split <;> exact made_of_eq rfl
  | _ => exact made_of_eq (bystands_moveTask rfl).stores

theorem made_moveWorker (i : Nat) :
    s.Made (fun x => match s.loadOf? (.worker n i) with
      | some l => s.loadActs x l
      | none => []) (s.moveWorker n i) := by
  have move := s.workerMove n i
  generalize s.moveWorker n i = u at move ⊢
  cases move with
  | still idle =>
    rw [idle]
    exact made_of_eq rfl
  | look idle | retract idle | next idle | shed idle =>
    rw [idle]
    exact made_of_eq (by cases n <;> rfl)
  | load load =>
    rw [load]
    exact (made_advanceLoad _).congr (by cases n <;> rfl)

theorem stores_closeSources (jobs : List Job) :
    (jobs.foldl (fun s job => s.modifySource job.source Source.close) s).stores = s.stores := by
  obtain ⟨sources, closed⟩ := closeSources_eq (s := s) jobs
  rw [closed]

/-- A new store is empty, as a store is that is not there. -/
theorem store_of_set (stores : ∀ y, u.stores.get? y = if y = x then some {} else s.stores.get? y)
    (absent : s.stores.get? x = none) (y : StoreId) : u.store y = s.store y := by
  rw [Session.store, stores, Session.store]
  split
  · next own => rw [own, absent]; rfl
  · rfl

theorem made_withStore {y : CallId} {acts : StoreId → List StoreAct} {f : StoreId → Session}
    (made : s.Made (fun x => if x = .separate y then acts x else []) (f (.separate y))) :
    s.Made (fun x => if x = .separate y then acts x else []) (s.withStore id y f) := by
  unfold Session.withStore
  split
  · exact made
  · next missing =>
    intro x
    dsimp only
    split
    · next own =>
      subst own
      have absent : s.stores.get? (.separate y) = none := by
        simpa [Table.contains] using missing
      show s.stores.get? (.separate y) = _
      rw [absent]
      rfl
    · exact Option.map_id'.symm

/-- The operations that say nothing about stores leave them alone. -/
theorem Entry.stores {op : Op} (h : s.Entry id op u) (idle : ∀ x, s.opStoreActs x op = [])
    (old : op ≠ .newStore) : u.stores = s.stores := by
  cases h with
  | newStore => exact absurd rfl old
  | @append y | @finish y | @cancel y => simpa [opStoreActs] using idle (.separate y)
  | @dequeue y going =>
    have none : (s.pool .separate).queuedFor (.separate y) = [] := by
      simpa [opStoreActs, removalActs, going] using idle (.separate y)
    show (s.dequeue .separate (.separate y)).stores = s.stores
    simp [Session.dequeue, none]
  | _ => rfl

/-- An operation changes stores at once, unless it makes a new one. -/
theorem made_enter {op : Op} (old : op ≠ .newStore) :
    s.Made (fun x => s.opStoreActs x op) (s.enter id op) := by
  cases op with
  | append y data =>
    simp only [enter]
    exact made_withStore ((made_changeStore (.separate y) (.append data)).congr rfl)
  | finish y =>
    simp only [enter]
    exact made_withStore ((made_changeStore (.separate y) .finish).congr rfl)
  | cancel y =>
    simp only [enter]
    exact made_withStore ((made_cancelStore (.separate y)).congr rfl)
  | dequeue y =>
    simp only [enter]
    refine made_withStore ?_
    unfold withPool
    cases shut : s.separate.shutDown with
    | true =>
      simp only [if_true, ite_self]
      exact made_of_eq rfl
    | false => exact (made_dequeue (n := .separate) (.separate y)).congr rfl
  | newStore => exact absurd rfl old
  | _ => exact made_of_eq ((s.entry id _).stores (fun _ => rfl) old)

theorem store_moveMakeSource {k : Key} {mode : LoadMode}
    (absent : s.stores.get? (.cache id) = none) :
    (s.moveMakeSource id k mode).store x = s.store x := by
  unfold moveMakeSource
  split
  · rfl
  · rfl
  · have made := store_of_set (u := s.newCache id k mode) (fun y => Table.get?_set ..) absent x
    cases mode <;> exact made

/-- In every event a store is changed by what happens to it, and by nothing else. -/
theorem store_after (hs : s.Sound) (stocked : s.Stocked) (admitted : s.admits e) (x : StoreId) :
    (s.after e).store x = (s.store x).following (s.storeActs x e) := by
  cases e with
  | begin id op =>
    by_cases new : op = .newStore
    · subst new
      have absent : s.stores.get? (.separate id) = none := by
        by_contra present
        obtain ⟨y, hy⟩ := Option.ne_none_iff_exists'.1 present
        exact absurd (stocked _ y hy).1 (Nat.not_lt.2 admitted)
      have same := store_of_set (u := s.after (.begin id .newStore))
        (fun y => Table.get?_set ..) absent x
      rw [same, storeActs]
      split <;> rfl
    · exact (made_enter (s := { s with clock := id + 1 }) new).store x
  | move actor =>
    cases actor with
    | call id =>
      cases ht : s.task? id with
      | none =>
        have idle : s.calls.get? id = none := by simpa [task?] using ht
        rw [storeActs, ht]
        simp [after, move, idle]
      | some a =>
        rw [after, move_of_task ht]
        by_cases makes : ∃ k mode, a = .makeSource k mode
        · obtain ⟨k, mode, rfl⟩ := makes
          have uncached := (uncached_of_makes hs (role_of_task ht)).1
          have absent : s.stores.get? (.cache id) = none := by
            by_contra present
            obtain ⟨y, hy⟩ := Option.ne_none_iff_exists'.1 present
            have named : s.caches.contains id = true := (stocked _ y hy).1
            rw [uncached] at named
            cases named
          have none : s.storeActs x (.move (.call id)) = [] := by
            rw [storeActs, ht]
            exact ite_self _
          rw [none]
          exact store_moveMakeSource absent
        · have made : s.Made (fun y => s.taskStoreActs y a) (s.moveTask id a) :=
            made_moveTask (by simpa using makes)
          rw [made.store x, storeActs, ht]
    | worker n i => exact (made_moveWorker i).store x
    | pool n =>
      have same : (s.after (.move (.pool n))).stores = s.stores :=
        (stores_closeSources _).trans (by cases n <;> rfl)
      rw [(made_of_eq same).store x]
      rfl
    | registry => exact made_endRegistry.store x

end Session

namespace Run
open Session

variable {config : CacheConfig} {workers : Nat} (r : Run (start config workers))
variable {x : StoreId} {m n : Nat}

/-- All that has happened to a store in the first `n` moments. -/
def acts (x : StoreId) (n : Nat) : List StoreAct :=
  (List.range n).flatMap fun i => (r.state i).storeActs x (r.event i)

theorem acts_succ (x : StoreId) (n : Nat) :
    r.acts x (n + 1) = r.acts x n ++ (r.state n).storeActs x (r.event n) := by
  rw [acts, List.range_succ, List.flatMap_append, acts]
  simp

theorem store_succ (x : StoreId) (n : Nat) :
    (r.state (n + 1)).store x =
      ((r.state n).store x).following ((r.state n).storeActs x (r.event n)) := by
  rw [r.state_succ]
  exact store_after (r.sound n) (r.attentive n).stocked (r.admitted n) x

/-- A store goes on from what it is by all that happens to it later. -/
theorem acts_onward (x : StoreId) (le : m ≤ n) : ∃ later, r.acts x n = r.acts x m ++ later ∧
    (r.state n).store x = ((r.state m).store x).following later := by
  induction le with
  | refl => exact ⟨[], (List.append_nil _).symm, rfl⟩
  | @step n le ih =>
    obtain ⟨later, acts_eq, store_eq⟩ := ih
    refine ⟨later ++ (r.state n).storeActs x (r.event n), ?_, ?_⟩
    · rw [acts_succ, acts_eq, List.append_assoc]
    · rw [r.store_succ, store_eq, Store.following_append]

/-- A store is what its history has made of an empty one. -/
theorem store_eq (x : StoreId) (n : Nat) :
    (r.state n).store x = ({} : Store).following (r.acts x n) := by
  obtain ⟨later, acts_eq, store_eq⟩ := r.acts_onward x (Nat.zero_le n)
  have empty : (r.state 0).store x = {} := by
    rw [r.state_zero]
    rfl
  rw [store_eq, empty, acts_eq]
  rfl

end Run
end SharedStream
