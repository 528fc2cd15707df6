import SharedStream.Proofs.Frames

/-! # What does not ask whether the registry is shut down

Only a call that seeks a key asks whether the registry is shut down. All other events do the same
before and after it.
-/
namespace SharedStream.Session

variable {s : Session} {id c : CallId} {k : Key} {a : Task} {e : Event}

/-- The same session, but that its registry is shut down. -/
def down (s : Session) : Session := { s with registry := { s.registry with shutDown := true } }

@[simp] theorem pool_down (n : PoolName) : s.down.pool n = s.pool n := by cases n <;> rfl

@[simp] theorem source_down (i : CallId) : s.down.source i = s.source i := rfl

@[simp] theorem store_down (x : StoreId) : s.down.store x = s.store x := rfl

@[simp] theorem stores_down : s.down.stores = s.stores := rfl

@[simp] theorem sources_down : s.down.sources = s.sources := rfl

@[simp] theorem readers_down : s.down.readers = s.readers := rfl

@[simp] theorem writers_down : s.down.writers = s.writers := rfl

@[simp] theorem calls_down : s.down.calls = s.calls := rfl

@[simp] theorem separate_down : s.down.separate = s.separate := rfl

@[simp] theorem held_down : s.down.held = s.held := rfl

@[simp] theorem slots_down : s.down.registry.slots = s.registry.slots := rfl

@[simp] theorem ending_down : s.down.registry.ending = s.registry.ending := rfl

@[simp] theorem refs_down (c : CallId) : s.down.refs c = s.refs c := rfl

@[simp] theorem reader?_down (x : CallId) : s.down.reader? x = s.reader? x := rfl

@[simp] theorem writer?_down (x : CallId) : s.down.writer? x = s.writer? x := rfl

theorem down_setPool (n : PoolName) (p : Pool) : s.down.setPool n p = (s.setPool n p).down := by
  cases n <;> rfl

theorem down_appendTo (x : StoreId) (data : ByteArray) :
    s.down.appendTo x data = (s.appendTo x data).down := by
  unfold appendTo
  rw [store_down, apply_ite down]
  rfl

theorem down_changeStore (x : StoreId) (change : StoreChange) :
    s.down.changeStore x change = (s.changeStore x change).down := by
  cases change with
  | none => rfl
  | append data => exact down_appendTo x data
  | finish => rfl

theorem down_advanceLoad (l : Load) :
    s.down.advanceLoad l = ((s.advanceLoad l).1, (s.advanceLoad l).2.down) :=
  Prod.ext rfl (down_changeStore (s := s.modifySource l.job.source fun _ =>
    (s.nextStep l).source) l.job.store (s.nextStep l).change)

theorem down_closeSources (jobs : List Job) :
    jobs.foldl (fun s job => s.modifySource job.source Source.close) s.down =
      (jobs.foldl (fun s job => s.modifySource job.source Source.close) s).down := by
  induction jobs generalizing s with
  | nil => rfl
  | cons j jobs ih => exact ih (s := s.modifySource j.source Source.close)

theorem down_dequeue (n : PoolName) (x : StoreId) :
    s.down.dequeue n x = (s.dequeue n x).down := by
  unfold dequeue
  rw [pool_down]
  split
  · rfl
  · dsimp only
    rw [down_setPool, down_closeSources]
    rfl

/-! ## Moves -/

theorem down_moveMakeSource (mode : LoadMode) :
    s.down.moveMakeSource id k mode = (s.moveMakeSource id k mode).down := by
  unfold moveMakeSource
  rw [source_down]
  cases (s.source id).factory with
  | fails e => rfl
  | panics text => rfl
  | gives => cases mode <;> rfl

theorem down_moveFill (l : Load) : s.down.moveFill id k l = (s.moveFill id k l).down := by
  unfold moveFill
  rw [down_advanceLoad]
  rcases s.advanceLoad l with ⟨m, t⟩
  cases m <;> rfl

theorem fall?_down (n : PoolName) (i : Nat) : s.down.fall? n i = s.fall? n i := by
  rw [fall?, pool_down, fall?]

theorem down_moveStandIn (i : Nat) : s.down.moveStandIn id k i = (s.moveStandIn id k i).down := by
  unfold moveStandIn
  rw [fall?_down]
  cases s.fall? .registry i <;> rfl

theorem down_moveAssist (i : Nat) : s.down.moveAssist id i = (s.moveAssist id i).down := by
  unfold moveAssist
  rw [fall?_down]
  cases s.fall? .separate i <;> rfl

theorem down_moveLoad (l : Load) : s.down.moveLoad id l = (s.moveLoad id l).down := by
  unfold moveLoad
  rw [down_advanceLoad]
  rcases s.advanceLoad l with ⟨m, t⟩
  cases m <;> rfl

theorem down_moveReading (r : Reading) : s.down.moveReading id r = (s.moveReading id r).down := by
  unfold moveReading
  rw [readers_down]
  cases s.readers.get? r.reader with
  | none => rfl
  | some h =>
    dsimp only
    rw [store_down]
    cases (s.store (.cache r.cache)).read (r.request h.cursor.position) with
    | refused e => rfl
    | waits => rfl
    | done o buf =>
      dsimp only
      by_cases empty : (r.request h.cursor.position).len = 0
      · rw [if_pos empty, if_pos empty]
        cases r.after o buf <;> rfl
      · rw [if_neg empty, if_neg empty]
        cases r.after o buf <;> rfl

theorem down_depart (x : ClosedHandle) (r : Result) (p : Parting) :
    s.down.depart id x r p = (s.depart id x r p).down := by
  cases p <;> rfl

theorem down_moveLeave (x : CallId) (p : Parting) :
    s.down.moveLeave id x p = (s.moveLeave id x p).down := by
  unfold moveLeave
  rw [readers_down]
  cases s.readers.get? x with
  | none => rfl
  | some h =>
    dsimp only
    rw [refs_down, apply_ite down, apply_ite down]
    cases p <;> rfl

theorem down_moveGiveBack (x : CallId) (f : Option IoFailure) (p : Parting) :
    s.down.moveGiveBack id x f p = (s.moveGiveBack id x f p).down := by
  unfold moveGiveBack
  rw [writers_down]
  cases s.writers.get? x with
  | none => rfl
  | some w =>
    dsimp only
    rw [slots_down, apply_ite down]
    cases p <;> rfl

theorem down_settleHandle (x : ClosedHandle) :
    s.down.settleHandle x = (s.settleHandle x).down := by
  cases x with
  | reader cache released =>
    simp only [settleHandle, refs_down, apply_ite down]
    rfl
  | writer w key =>
    simp only [settleHandle, apply_ite down]
    rfl

/-- Every move of a call does the same, unless the call seeks a key. -/
theorem down_moveTask (other : a.seeks = false) :
    s.down.moveTask id a = (s.moveTask id a).down := by
  cases a with
  | seekReader | seekWriter => cases other
  | makeSource key mode => exact down_moveMakeSource mode
  | fill key l => exact down_moveFill l
  | standIn key i => exact down_moveStandIn i
  | dequeueCache key cache =>
    simp only [moveTask, moveDequeueCache, down_dequeue]
    rfl
  | awaitCache key cache =>
    simp only [moveTask, moveAwaitCache, store_down, apply_ite down]
    rfl
  | lease key =>
    simp only [moveTask, moveLease, slots_down, apply_ite down]
    rfl
  | read r => exact down_moveReading r
  | leave reader parting => exact down_moveLeave reader parting
  | announce h parting => exact down_depart (s := s.notifyKeys) ..
  | giveBack writer flush parting => exact down_moveGiveBack writer flush parting
  | expire h r =>
    simp only [moveTask, moveExpire, down_settleHandle]
    rfl
  | readStore store r =>
    simp only [moveTask, moveReadStore, store_down]
    cases (s.store store).read r <;> rfl
  | awaitStore store =>
    simp only [moveTask, moveAwaitStore, store_down, apply_ite down]
    rfl
  | makeLoad job =>
    simp only [moveTask, moveMakeLoad, source_down]
    cases (s.source job.source).factory <;> rfl
  | load l => exact down_moveLoad l
  | assist i => exact down_moveAssist i
  | _ => rfl

theorem down_moveWorker (n : PoolName) (i : Nat) :
    s.down.moveWorker n i = (s.moveWorker n i).down := by
  unfold moveWorker
  rw [pool_down]
  cases (s.pool n).staff[i]? with
  | none => rfl
  | some w =>
    cases w with
    | ready => exact down_setPool ..
    | woken => exact down_setPool ..
    | loading l rest =>
      dsimp only
      rw [down_advanceLoad]
      dsimp only
      rw [pool_down, down_setPool]
    | denied => exact down_setPool ..
    | between rest =>
      cases rest with
      | nil => rfl
      | cons job rest => exact down_setPool ..
    | fallen text rest =>
      cases rest with
      | nil => rfl
      | cons job rest => exact down_setPool (s := s.modifySource job.source Source.close) ..
    | _ => rfl

theorem down_dropQueue (n : PoolName) : s.down.dropQueue n = (s.dropQueue n).down := by
  simp only [dropQueue, pool_down, down_setPool, down_closeSources]

theorem down_endRegistry : s.down.endRegistry = s.endRegistry.down := by
  unfold endRegistry
  rw [ending_down]
  split
  · rfl
  · rfl
  · rw [down_dequeue]
    rfl
  · rfl
  · rfl

/-! ## Operations -/

theorem down_withReader {r : CallId} {f g : Reader → Session} (same : ∀ h, g h = (f h).down) :
    s.down.withReader id r g = (s.withReader id r f).down := by
  unfold withReader
  rw [reader?_down]
  cases s.reader? r with
  | none => rfl
  | some h => exact same h

theorem down_withWriter {w : CallId} {f g : Writer → Session} (same : ∀ h, g h = (f h).down) :
    s.down.withWriter id w g = (s.withWriter id w f).down := by
  unfold withWriter
  rw [writer?_down]
  cases s.writer? w with
  | none => rfl
  | some h => exact same h

theorem down_withStore {x : CallId} {f g : StoreId → Session}
    (same : ∀ y, g y = (f y).down) :
    s.down.withStore id x g = (s.withStore id x f).down := by
  unfold withStore
  rw [stores_down, apply_ite down, same]
  rfl

theorem down_withPool {t u : Session} (same : u = t.down) :
    s.down.withPool id u = (s.withPool id t).down := by
  unfold withPool
  rw [separate_down, apply_ite down, same]
  rfl

theorem down_withRegistry {t u : Session} (same : u = t.down) :
    s.down.withRegistry id u = (s.withRegistry id t).down := by
  unfold withRegistry
  rw [held_down, apply_ite down, same]
  rfl

theorem down_withSource (x : CallId) (f : Source → Source) :
    s.down.withSource id x f = (s.withSource id x f).down := by
  unfold withSource
  rw [sources_down, apply_ite down]
  rfl

theorem down_submit (x : StoreId) (plan : SourcePlan) (n : Nat) :
    s.down.submit id x plan n = (s.submit id x plan n).down := by
  unfold submit
  cases plan.factory with
  | gives =>
    dsimp only
    rw [separate_down]
    cases s.separate.denied? plan.threaded <;> rfl
  | fails e => rfl
  | panics text => rfl

theorem down_enter (op : Op) : s.down.enter id op = (s.enter id op).down := by
  cases op with
  | openReader | openWriter | shutdown | dropRegistry => exact down_withRegistry rfl
  | read | skip => exact down_withReader fun _ => rfl
  | write | writeAll | flush => exact down_withWriter fun _ => rfl
  | part handle parting =>
    simp only [enter, reader?_down, apply_ite down]
    rw [← down_withWriter (g := fun _ => s.down.call id (.closeSink handle parting)) fun _ => rfl]
    rfl
  | feed | ungate | release => exact down_withSource ..
  | newStore => rfl
  | append store data =>
    simp only [enter]
    refine down_withStore fun y => ?_
    rw [down_appendTo]
    rfl
  | finish | cancel | readStore | awaitStore | load =>
    simp only [enter]
    exact down_withStore fun _ => rfl
  | submit store plan n => exact down_withStore fun _ => down_withPool (down_submit ..)
  | dequeue store =>
    refine down_withStore fun y => down_withPool ?_
    rw [down_dequeue]
    rfl
  | dropPool => exact down_withPool rfl

/-! ## All events -/

theorem canMove_down (a : Actor) : s.down.canMove a = s.canMove a := by
  cases a with
  | worker n i => simp only [canMove, workerCanMove, pool_down]; rfl
  | pool n => simp only [canMove, poolCanMove, pool_down]
  | call | registry => rfl

/-- A call that seeks a key moves. -/
def Looks (s : Session) : Event → Prop
  | .move (.call id) => ∃ a, s.task? id = some a ∧ a.seeks = true
  | .move _ | .begin .. => False

/-- Whether the registry is shut down makes no difference to any other event. -/
theorem down_after (other : ¬ s.Looks e) : s.down.after e = (s.after e).down := by
  cases e with
  | begin id op => exact down_enter (s := { s with clock := id + 1 }) op
  | move a =>
    cases a with
    | worker n i => exact down_moveWorker n i
    | pool n => exact down_dropQueue n
    | registry => exact down_endRegistry
    | call id =>
      cases hc : s.calls.get? id with
      | none => simp only [after, move, calls_down, hc]
      | some c =>
        simp only [after, move, calls_down, hc]
        refine down_moveTask ?_
        rw [← Bool.not_eq_true]
        exact fun seeks => other ⟨c.task, by simp [task?, hc], seeks⟩

theorem admits_down : s.down.admits e ↔ s.admits e := by
  cases e with
  | begin id op => exact Iff.rfl
  | move a =>
    show s.down.canMove a = true ↔ _
    rw [canMove_down]
    exact Iff.rfl

end SharedStream.Session
