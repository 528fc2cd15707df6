import SharedStream.Proofs.Failures.Without

/-! # Events that are not the call's

Nobody has to do with what a call has brought along before it is registered. So whatever others do
or ask for, they do the same without the call, except to look at the key that it has `opening`.
-/
namespace SharedStream

/-- The task of another call, which uses nothing that the call `id` has brought along, and does not
put a cache into the slot of the key in `o`. -/
def Task.Shuns (id : CallId) (o : Option Key) : Task → Prop
  | .register k => o ≠ some k
  | .fill _ l | .load l => l.job.source ≠ id ∧ l.job.store ≠ .cache id
  | .awaitCache _ c => c ≠ id
  | .read r => r.cache ≠ id
  | .readStore x _ | .awaitStore x => x ≠ .cache id
  | .closeSink w _ | .expire (.writer w _) _ => w ≠ id
  | .makeLoad j => j.source ≠ id
  | .seekReader .. | .makeSource .. | .standIn .. | .seekWriter _ | .cancelCache ..
  | .dequeueCache .. | .lease _ | .leave .. | .announce .. | .giveBack ..
  | .expire (.reader ..) _ | .assist _ => True

namespace Session

/-- Nobody else uses what the call `id` has brought along, and the key in `o` is `opening`. -/
structure Clear (s : Session) (id : CallId) (o : Option Key) : Prop where
  opening : ∀ k, o = some k → s.registry.slots.get? k = some .opening
  slot : ∀ k, s.registry.slots.get? k ≠ some (.reader id)
  reader : ∀ {x h}, s.readers.get? x = some h → h.cache ≠ id
  writer : s.writers.get? id = none
  handle : ∀ {a}, s.task? id = some a → a.handle? = none
  worker : ∀ {n : PoolName} {i : Nat} {l : Load} {rest : Option (List Job)},
    (s.pool n).staff[i]? = some (.loading l rest) → l.job.source ≠ id ∧ l.job.store ≠ .cache id
  task : ∀ {i a}, i ≠ id → s.task? i = some a → a.Shuns id o

variable {s u : Session} {id i c : CallId} {o : Option Key} {k : Key} {a : Task} {l : Load}
variable {e : Event}

namespace Without
variable (h : s.Without id o u)
include h

/-! ## Moves of other calls -/

theorem moveSeekReader (mode : LoadMode)
    (away : s.registry.shutDown = false → o ≠ some k) :
    (s.moveSeekReader i k mode).Without id o (u.moveSeekReader i k mode) := by
  unfold Session.moveSeekReader
  rw [h.shutDown]
  split
  · exact h.answer ..
  next going =>
  have away := away (by simpa using going)
  rw [h.slot_of_ne away]
  split
  · exact ((h.setSlot away .opening).modifySource i _).goOn _
  · exact h.attach ..
  all_goals exact h.sleep

theorem moveMakeSource (other : i ≠ id) (mode : LoadMode) :
    (s.moveMakeSource i k mode).Without id o (u.moveMakeSource i k mode) := by
  have made := h.newCache other k mode
  unfold Session.moveMakeSource
  rw [h.source other]
  split
  · exact h.abandon ..
  · exact h.abandon ..
  · rw [h.config]
    dsimp only
    cases mode with
    | sync => exact made.goOn _
    | async =>
      dsimp only
      rw [made.pool .registry, made.source other]
      exact (made.setPool .registry _).goOn _

theorem moveFill (source : l.job.source ≠ id) (store : l.job.store ≠ .cache id) :
    (s.moveFill i k l).Without id o (u.moveFill i k l) := by
  have loaded := h.advanceLoad source store
  unfold Session.moveFill
  rcases hs : s.advanceLoad l with ⟨m, t⟩
  rcases hu : u.advanceLoad l with ⟨m', v⟩
  rw [hs, hu] at loaded
  obtain ⟨rfl, loaded⟩ := loaded
  cases m' with
  | goesOn p => exact loaded.goOn _
  | ends => exact loaded.goOn _
  | panics text => exact loaded.abandon ..

theorem moveLoad (source : l.job.source ≠ id) (store : l.job.store ≠ .cache id) :
    (s.moveLoad i l).Without id o (u.moveLoad i l) := by
  have loaded := h.advanceLoad source store
  unfold Session.moveLoad
  rcases hs : s.advanceLoad l with ⟨m, t⟩
  rcases hu : u.advanceLoad l with ⟨m', v⟩
  rw [hs, hu] at loaded
  obtain ⟨rfl, loaded⟩ := loaded
  cases m' with
  | goesOn p => exact loaded.goOn _
  | ends => exact loaded.answer ..
  | panics text => exact loaded.answer ..

theorem moveStandIn (j : Nat) : (s.moveStandIn i k j).Without id o (u.moveStandIn i k j) := by
  unfold Session.moveStandIn Session.fall?
  rw [h.pool]
  split
  · exact h.abandon ..
  · exact h.goOn _

theorem moveAssist (j : Nat) : (s.moveAssist i j).Without id o (u.moveAssist i j) := by
  unfold Session.moveAssist Session.fall?
  rw [h.pool]
  split
  · exact h.answer ..
  · exact h.answer ..

theorem moveRegister (away : o ≠ some k) :
    (s.moveRegister i k).Without id o (u.moveRegister i k) :=
  ((h.setSlot away (.reader i)).wake _).attach ..

theorem moveSeekWriter (unread : ∀ k, s.registry.slots.get? k ≠ some (.reader id))
    (away : s.registry.shutDown = false → o ≠ some k) :
    (s.moveSeekWriter i k).Without id o (u.moveSeekWriter i k) := by
  unfold Session.moveSeekWriter
  rw [h.shutDown]
  split
  · exact h.refuse ..
  next going =>
  have away := away (by simpa using going)
  rw [h.slot_of_ne away]
  split
  · exact h.grant i away
  · next c slot =>
    have other : c ≠ id := by
      rintro rfl
      exact unread k slot
    rw [h.refs other]
    split
    · exact h.refuse ..
    split
    · exact (h.setSlot away .closing).goOn _
    · exact h.sleep
  all_goals exact h.sleep

theorem moveDequeueCache : (s.moveDequeueCache i k c).Without id o (u.moveDequeueCache i k c) :=
  (h.dequeue ..).goOn _

theorem moveAwaitCache (other : c ≠ id) :
    (s.moveAwaitCache i k c).Without id o (u.moveAwaitCache i k c) := by
  unfold Session.moveAwaitCache
  rw [h.store (by simpa using other)]
  split
  · exact h.goOn _
  · exact h.sleep

theorem moveLease (opening : ∀ k, o = some k → s.registry.slots.get? k = some .opening) :
    (s.moveLease i k).Without id o (u.moveLease i k) := by
  have closing := h.slot_iff (k := k) opening (x := .closing) (by simp)
  unfold Session.moveLease
  by_cases slot : s.registry.slots.get? k = some .closing
  · rw [if_pos slot, if_pos (closing.2 slot)]
    refine h.grant i fun own => ?_
    cases slot.symm.trans (opening k own)
  · rw [if_neg slot, if_neg fun same => slot (closing.1 same)]
    exact h.refuse ..

theorem moved (r : Reading) (y : Reader) (n : ReadOutcome) :
    (s.moved r y n).Without id o (u.moved r y n) := by
  have advanced : ({ s with readers := s.readers.set r.reader (advanced r y n) }).Without id o
      { u with readers := u.readers.set r.reader (advanced r y n) } :=
    h.setReaders (by rw [h.readers])
  unfold Session.moved
  dsimp only
  split
  · exact advanced
  · exact advanced.touch r.cache

theorem moveReading {r : Reading} (other : r.cache ≠ id) :
    (s.moveReading i r).Without id o (u.moveReading i r) := by
  have reader : u.readers.get? r.reader = s.readers.get? r.reader := by rw [h.readers]
  unfold Session.moveReading
  rw [reader]
  split
  · exact h.answer ..
  rw [h.store (by simpa using other)]
  dsimp only
  split
  · exact h.answer ..
  · exact h.sleep
  · split
    · exact (h.moved ..).goOn _
    · exact (h.moved ..).answer ..

theorem depart (x : ClosedHandle) (r : Result) (p : Parting) :
    (s.depart i x r p).Without id o (u.depart i x r p) := by
  cases p with
  | close => exact h.goOn _
  | drop => exact h.answer ..

theorem moveLeave {x : CallId} {p : Parting} (hs : s.Sound)
    (other : ∀ {y}, s.readers.get? x = some y → y.cache ≠ id) :
    (s.moveLeave i x p).Without id o (u.moveLeave i x p) := by
  have erased := h.setReaders (t := s.readers.erase x) rfl
  unfold Session.moveLeave
  rw [h.readers]
  split
  · exact h.answer ..
  next y hy =>
  rw [h.refs (other hy)]
  obtain ⟨k, n, -, refs, pos⟩ := refs_pos hs.keys hy
  have counted : ¬ s.refs y.cache ≤ 0 := by omega
  dsimp only
  rw [if_neg counted, if_neg counted]
  split
  · exact (erased.addRefs ..).goOn _
  · exact (erased.addRefs ..).depart ..

theorem moveCloseSink {w : CallId} {p : Parting} (other : w ≠ id) :
    (s.moveCloseSink i w p).Without id o (u.moveCloseSink i w p) := by
  unfold Session.moveCloseSink Session.takeSink
  rw [h.sink other]
  exact (h.setSinks w _).goOn _

theorem moveGiveBack {w : CallId} {f : Option IoFailure} {p : Parting} (hs : s.Sound)
    (opening : ∀ k, o = some k → s.registry.slots.get? k = some .opening) :
    (s.moveGiveBack i w f p).Without id o (u.moveGiveBack i w f p) := by
  have erased := h.setWriters (t := s.writers.erase w) rfl
  unfold Session.moveGiveBack
  rw [h.writers]
  split
  · exact h.answer ..
  next y hy =>
  have slot := slot_of_writer hs.keys hy
  have leased := h.slot_iff (k := y.key) opening (x := .writer w) (by simp)
  dsimp only
  rw [if_pos slot, if_pos (leased.2 slot)]
  exact ((erased.freeSlot _).wake _).depart ..

theorem moveExpire {x : ClosedHandle} {r : Result} (completed : s.Completed x)
    (other : (Task.expire x r).Shuns id o) :
    (s.moveExpire i x r).Without id o (u.moveExpire i x r) := by
  have completed' : u.Completed x := by
    cases x with
    | reader cache released => exact completed
    | writer w key => simpa only [Completed, isOpen, h.sink other] using completed
  rw [moveExpire_eq completed, moveExpire_eq completed']
  exact h.answer ..

theorem moveReadStore {x : StoreId} {r : Store.Request} (other : x ≠ .cache id) :
    (s.moveReadStore i x r).Without id o (u.moveReadStore i x r) := by
  unfold Session.moveReadStore
  rw [h.store other]
  split
  · exact h.answer ..
  · exact h.sleep
  · exact h.answer ..

theorem moveAwaitStore {x : StoreId} (other : x ≠ .cache id) :
    (s.moveAwaitStore i x).Without id o (u.moveAwaitStore i x) := by
  unfold Session.moveAwaitStore
  rw [h.store other]
  split
  · exact h.answer ..
  · exact h.sleep

theorem moveMakeLoad {j : Job} (other : j.source ≠ id) :
    (s.moveMakeLoad i j).Without id o (u.moveMakeLoad i j) := by
  unfold Session.moveMakeLoad
  rw [h.source other]
  split
  · exact h.goOn _
  · exact h.answer ..
  · exact h.answer ..

/-- Another call makes the same move without the call, unless it looks at the key in `o`. -/
theorem moveTask (hs : s.Sound) (clear : s.Clear id o) (other : i ≠ id) (ht : s.task? i = some a)
    (away : ∀ k, a.role? = some (.seeks k) → s.registry.shutDown = false → o ≠ some k) :
    (s.moveTask i a).Without id o (u.moveTask i a) := by
  have shuns := clear.task other ht
  cases a with
  | seekReader key mode => exact h.moveSeekReader mode (away key rfl)
  | makeSource key mode => exact h.moveMakeSource other mode
  | fill key l => exact h.moveFill shuns.1 shuns.2
  | standIn key j => exact h.moveStandIn j
  | register key => exact h.moveRegister shuns
  | seekWriter key => exact h.moveSeekWriter clear.slot (away key rfl)
  | cancelCache key cache => exact (h.cancelStore _).goOn _
  | dequeueCache key cache => exact h.moveDequeueCache
  | awaitCache key cache => exact h.moveAwaitCache shuns
  | lease key => exact h.moveLease clear.opening
  | read r => exact h.moveReading shuns
  | leave reader parting => exact h.moveLeave hs clear.reader
  | announce x parting => exact (h.wake _).depart ..
  | closeSink writer parting => exact h.moveCloseSink shuns
  | giveBack writer flush parting => exact h.moveGiveBack hs clear.opening
  | expire x r => exact h.moveExpire (hs.completed ht).1 shuns
  | readStore store r => exact h.moveReadStore shuns
  | awaitStore store => exact h.moveAwaitStore shuns
  | makeLoad job => exact h.moveMakeLoad shuns
  | load l => exact h.moveLoad shuns.1 shuns.2
  | assist j => exact h.moveAssist j

/-! ## Workers and queues -/

theorem moveWorker (clear : s.Clear id o) (n : PoolName) (i : Nat) :
    (s.moveWorker n i).Without id o (u.moveWorker n i) := by
  unfold Session.moveWorker
  rw [h.pool]
  split
  · exact h.setPool ..
  · exact h.setPool ..
  · next l rest loading =>
    obtain ⟨source, store⟩ := clear.worker loading
    have loaded := h.advanceLoad source store
    rcases hs : s.advanceLoad l with ⟨m, t⟩
    rcases hu : u.advanceLoad l with ⟨m', v⟩
    rw [hs, hu] at loaded
    obtain ⟨rfl, loaded⟩ := loaded
    dsimp only
    rw [loaded.pool]
    exact loaded.setPool ..
  · exact h.setPool ..
  · exact h.setPool ..
  · exact (h.modifySource ..).setPool ..
  all_goals exact h

theorem dropQueue (n : PoolName) : (s.dropQueue n).Without id o (u.dropQueue n) := by
  unfold Session.dropQueue
  rw [h.pool]
  exact (h.setPool n _).closeSources _

/-! ## Operations -/

theorem withRegistry {s' u' : Session} (h' : s'.Without id o u') :
    (s.withRegistry i s').Without id o (u.withRegistry i u') := by
  unfold Session.withRegistry
  rw [h.held]
  split
  · exact h'
  · exact h.answer ..

theorem withPool {s' u' : Session} (h' : s'.Without id o u') :
    (s.withPool i s').Without id o (u.withPool i u') := by
  unfold Session.withPool
  rw [show u.separate = s.separate from h.pool .separate]
  split
  · exact h.answer ..
  · exact h'

theorem withStore {x : CallId} {f g : StoreId → Session}
    (h' : (f (.separate x)).Without id o (g (.separate x))) :
    (s.withStore i x f).Without id o (u.withStore i x g) := by
  unfold Session.withStore
  rw [h.stores.contains (by simp)]
  split
  · exact h'
  · exact h.answer ..

/-- The source of the call may get more to give, which makes no difference to others. -/
theorem withSource (x : CallId) (f : Source → Source) :
    (s.withSource i x f).Without id o (u.withSource i x f) := by
  unfold Session.withSource
  by_cases own : x = id
  · subst own
    have left : (s.modifySource x f).Without x o u :=
      { h with sources := h.sources.modify_left f }
    have right : s.Without x o (u.modifySource x f) :=
      { h with sources := h.sources.modify_right f }
    split <;> split
    · exact (h.modifySource x f).answer ..
    · exact left.answer ..
    · exact right.answer ..
    · exact h.answer ..
  · rw [h.sources.contains own]
    split
    · exact (h.modifySource x f).answer ..
    · exact h.answer ..

theorem withReader (clear : s.Clear id o) {x : CallId} {f g : Reader → Session}
    (h' : ∀ y, y.cache ≠ id → (f y).Without id o (g y)) :
    (s.withReader i x f).Without id o (u.withReader i x g) := by
  have same : u.reader? x = s.reader? x := by
    rw [Session.reader?, Session.reader?, h.isAway clear.handle, h.readers]
  unfold Session.withReader
  rw [same]
  split
  · next y hy => exact h' y (clear.reader (get?_of_reader? hy))
  · exact h.answer ..

theorem withWriter (clear : s.Clear id o) {x : CallId} {f g : Writer → Session}
    (h' : ∀ w, x ≠ id → (f w).Without id o (g w)) :
    (s.withWriter i x f).Without id o (u.withWriter i x g) := by
  have same : u.writer? x = s.writer? x := by
    rw [Session.writer?, Session.writer?, h.isAway clear.handle, h.writers]
  unfold Session.withWriter
  rw [same]
  split
  · next w hw =>
    refine h' w ?_
    rintro rfl
    cases clear.writer.symm.trans (get?_of_writer? hw)
  · exact h.answer ..

theorem setTally (x : CallId) (w : Writer) (t : Tally) :
    (s.setTally x w t).Without id o (u.setTally x w t) :=
  { h with
    sinks := h.sinks.set x t.sink
    writers := by rw [Session.setTally, Session.setTally, h.writers] }

theorem tally {x : CallId} (other : x ≠ id) (w : Writer) : u.tally x w = s.tally x w := by
  rw [Session.tally, h.sink other, Session.tally]

theorem submit (other : i ≠ id) (x : StoreId) (plan : SourcePlan) (n : Nat) :
    (s.submit i x plan n).Without id o (u.submit i x plan n) := by
  have asked := h.setSource i plan.source.build
  have pool : u.separate = s.separate := h.pool .separate
  unfold Session.submit
  cases plan.factory with
  | gives =>
    dsimp only
    rw [pool]
    split
    · exact (asked.setPool .separate _).begins other _
    · exact (asked.setPool .separate _).answer ..
  | fails e => exact asked.answer ..
  | panics text => exact asked.answer ..

theorem enter (clear : s.Clear id o) (other : i ≠ id) (op : Op) :
    (s.enter i op).Without id o (u.enter i op) := by
  cases op with
  | openReader key mode plan =>
    simp only [Session.enter, h.config]
    exact h.withRegistry ((h.setSource i plan.source).begins other _)
  | openWriter key plan =>
    have asked : ({ s with sinks := s.sinks.set i plan.sink }).Without id o
        { u with sinks := u.sinks.set i plan.sink } := { h with sinks := h.sinks.set i plan.sink }
    exact h.withRegistry (asked.begins other _)
  | shutdown =>
    have shut : ({ s with registry := { s.registry with shutDown := true } }).Without id o
        { u with registry := { u.registry with shutDown := true } } :=
      { h with
        shutDown := rfl
        pool := fun n => by
          cases n
          · exact h.pool .registry
          · exact h.pool .separate }
    exact h.withRegistry ((shut.wake Task.seeks).answer ..)
  | dropRegistry =>
    have letGo : ({ s with held := false }).Without id o { u with held := false } :=
      { h with held := rfl }
    exact h.withRegistry (letGo.answer ..)
  | read reader goal buf => exact h.withReader clear fun _ _ => h.begins other _
  | skip reader len =>
    refine h.withReader clear fun y home => ?_
    unfold Session.skip
    rw [h.store (by simpa using home), h.readers]
    exact (h.setReaders rfl).answer ..
  | write writer data =>
    refine h.withWriter clear fun w home => ?_
    rw [h.tally home]
    exact (h.setTally ..).answer ..
  | writeAll writer data =>
    refine h.withWriter clear fun w home => ?_
    rw [h.tally home]
    exact (h.setTally ..).answer ..
  | flush writer =>
    refine h.withWriter clear fun w home => ?_
    rw [h.tally home]
    exact (h.setTally ..).answer ..
  | part handle parting =>
    have same : u.reader? handle = s.reader? handle := by
      rw [Session.reader?, Session.reader?, h.isAway clear.handle, h.readers]
    simp only [Session.enter, same]
    split
    · exact h.begins other _
    · exact h.withWriter clear fun _ _ => h.begins other _
  | feed source items => exact h.withSource source _
  | ungate source => exact h.withSource source _
  | release source => exact h.withSource source _
  | newStore =>
    have made : ({ s with stores := s.stores.set (.separate i) {} }).Without id o
        { u with stores := u.stores.set (.separate i) {} } :=
      { h with stores := h.stores.set (.separate i) {} }
    exact made.answer ..
  | append store data =>
    simp only [Session.enter]
    refine h.withStore ?_
    exact (h.appendTo (by simp) data).answer ..
  | finish store =>
    simp only [Session.enter]
    refine h.withStore ?_
    exact (h.finishStore _).answer ..
  | cancel store =>
    simp only [Session.enter]
    refine h.withStore ?_
    exact (h.cancelStore _).answer ..
  | readStore store r =>
    simp only [Session.enter]
    exact h.withStore (h.begins other _)
  | awaitStore store =>
    simp only [Session.enter]
    exact h.withStore (h.begins other _)
  | load store plan n =>
    simp only [Session.enter]
    refine h.withStore ?_
    exact (h.setSource i plan.source.build).begins other _
  | submit store plan n =>
    simp only [Session.enter]
    exact h.withStore (h.withPool (h.submit other ..))
  | dequeue store =>
    simp only [Session.enter, show u.separate = s.separate from h.pool .separate]
    refine h.withStore (h.withPool ?_)
    exact (h.dequeue .separate _).answer ..
  | dropPool =>
    simp only [Session.enter, show u.separate = s.separate from h.pool .separate]
    exact h.withPool ((h.setPool .separate _).answer ..)

theorem begin (clear : s.Clear id o) (other : i ≠ id) (op : Op) :
    (s.begin i op).Without id o (u.begin i op) := by
  have later : ({ s with clock := i + 1 }).Without id o { u with clock := i + 1 } :=
    { h with clock := Nat.le_refl _ }
  exact later.enter { clear with } other op

/-! ## All events -/

theorem canMove (clear : s.Clear id o) {x : Actor} (other : x.caller ≠ some id)
    (going : x ≠ .registry) (can : s.canMove x = true) : u.canMove x = true := by
  have loads : ∀ {l : Load}, l.job.source ≠ id → u.loadCanMove l = s.loadCanMove l := by
    intro l source
    rw [loadCanMove, h.source source, loadCanMove]
  cases x with
  | registry => exact absurd rfl going
  | pool n => rwa [Session.canMove, poolCanMove, h.pool]
  | worker n i =>
    rw [Session.canMove, workerCanMove] at can ⊢
    rw [h.pool]
    split at can
    case h_6 l rest loading => rwa [loads (clear.worker loading).1]
    all_goals exact can
  | call i =>
    have other : i ≠ id := fun same => other (congrArg some same)
    obtain ⟨a, ht⟩ := task_of_canMove can
    obtain ⟨call, hc, rfl⟩ := Option.map_eq_some_iff.1 ht
    obtain ⟨awake, hu⟩ := h.call i other
    have shuns := clear.task other ht
    have same : u.taskCanMove i call.task = s.taskCanMove i call.task := by
      cases task : call.task with
      | makeSource => rw [taskCanMove, h.source other, taskCanMove]
      | makeLoad j =>
        rw [task] at shuns
        rw [taskCanMove, h.source shuns, taskCanMove]
      | fill key l =>
        rw [task] at shuns
        exact loads shuns.1
      | load l =>
        rw [task] at shuns
        exact loads shuns.1
      | standIn | assist =>
        rw [taskCanMove, hasStoodIn, h.pool, taskCanMove, hasStoodIn]
      | _ => rfl
    rw [Session.canMove, hc] at can
    obtain ⟨woken, free⟩ := Bool.and_eq_true_iff.1 can
    rw [Session.canMove, hu, hc]
    simp [Call.rouse, woken, same, free]

/-- What others do can be done without the call. -/
theorem admits (clear : s.Clear id o) (other : e.caller ≠ some id) (going : e ≠ .move .registry)
    (admitted : s.admits e) : u.admits e := by
  cases e with
  | begin i op => exact Nat.le_trans h.clock admitted
  | move x => exact h.canMove clear other (fun same => going (same ▸ rfl)) admitted

/-- What others do is the same without the call, except to look at the key in `o`. -/
theorem after (hs : s.Sound) (clear : s.Clear id o) (other : e.caller ≠ some id)
    (going : e ≠ .move .registry)
    (away : ∀ i a k, e = .move (.call i) → s.task? i = some a → a.role? = some (.seeks k) →
      s.registry.shutDown = false → o ≠ some k) :
    (s.after e).Without id o (u.after e) := by
  cases e with
  | begin i op => exact h.begin clear (fun same => other (congrArg some same)) op
  | move x =>
    cases x with
    | worker n i => exact h.moveWorker clear n i
    | pool n => exact h.dropQueue n
    | registry => exact absurd rfl going
    | call i =>
      have ne : i ≠ id := fun same => other (congrArg some same)
      cases ht : s.task? i with
      | none =>
        have hs : s.calls.get? i = none := by simpa [Session.task?] using ht
        have hu : u.calls.get? i = none := by
          have none := (h.task ne).trans ht
          simpa [Session.task?] using none
        simp only [Session.after, move, hs, hu]
        exact h
      | some a =>
        rw [Session.after, move_of_task ht, Session.after, move_of_task ((h.task ne).trans ht)]
        exact h.moveTask hs clear ne ht fun k => away i a k rfl ht

end Without
end Session
end SharedStream
