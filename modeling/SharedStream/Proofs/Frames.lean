import SharedStream.Proofs.Bystanders
import SharedStream.Proofs.Reachable

/-! # What events leave alone

Which caches are asked to stop, and the reader handles, under all events.
-/
namespace SharedStream.Session
open Keys

variable {s t u : Session} {id c : CallId} {k : Key}

def canceled (s : Session) (c : CallId) : Bool := (s.store (.cache c)).canceled

/-- No cache is asked to stop. -/
structure Frame (s u : Session) : Prop where
  canceled : ∀ c, u.canceled c = true → s.canceled c = true

/-- Besides, all reader handles stay as they are. -/
structure Still (s u : Session) : Prop extends s.Frame u where
  readers : u.readers = s.readers

theorem Frame.refl (s : Session) : s.Frame s := ⟨fun _ h => h⟩

theorem Frame.trans (h : s.Frame t) (h' : t.Frame u) : s.Frame u :=
  ⟨fun c hc => h.canceled c (h'.canceled c hc)⟩

theorem Still.refl (s : Session) : s.Still s := ⟨.refl s, rfl⟩

theorem Still.trans (h : s.Still t) (h' : t.Still u) : s.Still u :=
  ⟨h.toFrame.trans h'.toFrame, h'.readers.trans h.readers⟩

theorem canceled_congr (h : u.stores = s.stores) : u.canceled c = s.canceled c := by
  rw [canceled, store, h]
  rfl

theorem Frame.of_eq (stores : u.stores = s.stores) : s.Frame u :=
  ⟨fun _ h => by rwa [canceled_congr stores] at h⟩

theorem Still.of_eq (stores : u.stores = s.stores) (readers : u.readers = s.readers) : s.Still u :=
  ⟨.of_eq stores, readers⟩

/-! ## Parts of moves -/

theorem still_answer (r : Result) : s.Still (s.answer id r) := .of_eq rfl rfl

theorem still_goOn (t : Task) : s.Still (s.goOn id t) := .of_eq rfl rfl

theorem still_call (t : Task) : s.Still (s.call id t) := .of_eq rfl rfl

theorem still_sleep : s.Still (s.sleep id) := .of_eq rfl rfl

theorem Frame.depart (h : s.Frame u) (x : ClosedHandle) (r : Result) (p : Parting) :
    s.Frame (u.depart id x r p) := by
  cases p with
  | close => exact h.trans (still_goOn _).toFrame
  | drop => exact h.trans (still_answer r).toFrame

theorem readers_depart (x : ClosedHandle) (r : Result) (p : Parting) :
    (s.depart id x r p).readers = s.readers := by
  cases p <;> rfl

theorem Still.depart (h : s.Still u) (x : ClosedHandle) (r : Result) (p : Parting) :
    s.Still (u.depart id x r p) := by
  cases p with
  | close => exact h.trans (still_goOn _)
  | drop => exact h.trans (still_answer r)

theorem still_abandon (r : Result) : s.Still (s.abandon id k r) := .of_eq rfl rfl

theorem still_refuse (e : CacheError) : s.Still (s.refuse id e) := .of_eq rfl rfl

theorem still_grant : s.Still (s.grant id k) := .of_eq rfl rfl

theorem still_setPool (n : PoolName) (p : Pool) : s.Still (s.setPool n p) := by
  cases n <;> exact .of_eq rfl rfl

theorem still_changeStore (x : StoreId) (change : StoreChange) :
    s.Still (s.changeStore x change) := by
  have stores := fun z => get?_changeStore (s := s) x z change
  obtain ⟨table, calls, changed⟩ := changeStore_eq (s := s) x change
  rw [changed] at stores ⊢
  refine ⟨⟨fun c hc => ?_⟩, rfl⟩
  rw [canceled, store, stores] at hc
  rw [canceled, store]
  split at hc
  · cases hy : s.stores.get? (.cache c) with
    | none => simp [hy] at hc
    | some y => simpa [hy, canceled_change] using hc
  · exact hc

theorem still_advanceLoad (l : Load) : s.Still (s.advanceLoad l).2 :=
  (Still.of_eq rfl rfl : s.Still (s.modifySource l.job.source _)).trans
    (still_changeStore ..)

theorem still_closeSources (jobs : List Job) :
    s.Still (jobs.foldl (fun s job => s.modifySource job.source Source.close) s) := by
  obtain ⟨sources, closed⟩ := closeSources_eq (s := s) jobs
  rw [closed]
  exact .of_eq rfl rfl

theorem still_dequeue (n : PoolName) (x : StoreId) : s.Still (s.dequeue n x) := by
  unfold dequeue
  split
  · exact .refl s
  · exact ((still_setPool n _).trans (still_closeSources _)).trans (still_changeStore x .finish)

theorem still_newCache (mode : LoadMode) : s.Still (s.newCache id k mode) := by
  refine ⟨⟨fun c hc => ?_⟩, rfl⟩
  rw [canceled, store, get?_newCache] at hc
  split at hc
  · simp at hc
  · exact hc

theorem frame_attach : s.Frame (s.attach id c) := .of_eq rfl

/-! ## Moves of calls -/

theorem frame_moveSeekReader (mode : LoadMode) : s.Frame (s.moveSeekReader id k mode) := by
  unfold moveSeekReader
  split
  · exact (still_answer _).toFrame
  split
  · exact .of_eq rfl
  · exact frame_attach
  all_goals exact still_sleep.toFrame

theorem still_moveMakeSource (mode : LoadMode) : s.Still (s.moveMakeSource id k mode) := by
  unfold moveMakeSource
  split
  · exact still_abandon _
  · exact still_abandon _
  · dsimp only
    cases mode with
    | sync => exact (still_newCache _).trans (still_goOn _)
    | async => exact ((still_newCache _).trans (still_setPool ..)).trans (still_goOn _)

theorem still_moveFill (l : Load) : s.Still (s.moveFill id k l) := by
  have load := still_advanceLoad (s := s) l
  unfold moveFill
  rcases hl : s.advanceLoad l with ⟨m, t⟩
  rw [hl] at load
  cases m with
  | goesOn p => exact load.trans (still_goOn _)
  | ends => exact load.trans (still_goOn _)
  | panics text => exact load.trans (still_abandon _)

theorem frame_moveRegister : s.Frame (s.moveRegister id k) := .of_eq rfl

theorem still_moveSeekWriter : s.Still (s.moveSeekWriter id k) := by
  unfold moveSeekWriter
  split
  · exact still_refuse _
  split
  · exact still_grant
  · split
    · exact still_refuse _
    split
    · exact .of_eq rfl rfl
    · exact still_sleep
  all_goals exact still_sleep

theorem still_moveDequeueCache : s.Still (s.moveDequeueCache id k c) :=
  (still_dequeue ..).trans (still_goOn _)

theorem still_moveAwaitCache : s.Still (s.moveAwaitCache id k c) := by
  unfold moveAwaitCache
  split
  · exact still_goOn _
  · exact still_sleep

theorem still_moveLease : s.Still (s.moveLease id k) := by
  unfold moveLease
  split
  · exact still_grant
  · exact still_refuse _

theorem frame_moved (r : Reading) (h : Reader) (o : ReadOutcome) : s.Frame (s.moved r h o) := by
  unfold moved
  dsimp only
  split <;> exact .of_eq rfl

theorem frame_moveReading (r : Reading) : s.Frame (s.moveReading id r) := by
  have move := s.readMove id r
  generalize s.moveReading id r = u at move ⊢
  cases move with
  | missing => exact (still_answer _).toFrame
  | refused => exact (still_answer _).toFrame
  | waits => exact still_sleep.toFrame
  | goesOn => exact (frame_moved ..).trans (still_goOn _).toFrame
  | ends => exact (frame_moved ..).trans (still_answer _).toFrame

theorem frame_moveLeave (r : CallId) (p : Parting) : s.Frame (s.moveLeave id r p) := by
  unfold moveLeave
  split
  · exact (still_answer _).toFrame
  dsimp only
  split
  · refine Frame.depart ?_ ..
    exact .of_eq rfl
  split
  · exact .of_eq rfl
  · refine Frame.depart ?_ ..
    exact .of_eq rfl

theorem still_moveGiveBack (w : CallId) (f : Option IoFailure) (p : Parting) :
    s.Still (s.moveGiveBack id w f p) := by
  unfold moveGiveBack
  split
  · exact still_answer _
  dsimp only
  split
  · refine Still.depart ?_ ..
    exact .of_eq rfl rfl
  · refine Still.depart ?_ ..
    exact .of_eq rfl rfl

theorem still_moveAnnounce (h : ClosedHandle) (p : Parting) : s.Still (s.moveAnnounce id h p) := by
  refine Still.depart (u := s.notifyKeys) ?_ ..
  exact .of_eq rfl rfl

theorem readers_settleHandle (h : ClosedHandle) : (s.settleHandle h).readers = s.readers := by
  cases h with
  | reader cache released =>
    simp only [settleHandle]
    split
    · rfl
    split <;> rfl
  | writer writer key =>
    simp only [settleHandle]
    split
    · rfl
    split <;> rfl

theorem still_moveExpire (h : ClosedHandle) (r : Result) : s.Still (s.moveExpire id h r) :=
  .of_eq (bystands_settleHandle h).stores (readers_settleHandle h)

theorem still_moveReadStore (x : StoreId) (r : Store.Request) :
    s.Still (s.moveReadStore id x r) := by
  unfold moveReadStore
  split
  · exact still_answer _
  · exact still_sleep
  · exact still_answer _

theorem still_moveAwaitStore (x : StoreId) : s.Still (s.moveAwaitStore id x) := by
  unfold moveAwaitStore
  split
  · exact still_answer _
  · exact still_sleep

theorem still_moveMakeLoad (j : Job) : s.Still (s.moveMakeLoad id j) := by
  unfold moveMakeLoad
  split
  · exact still_goOn _
  · exact still_answer _
  · exact still_answer _

theorem still_moveLoad (l : Load) : s.Still (s.moveLoad id l) := by
  have load := still_advanceLoad (s := s) l
  unfold moveLoad
  rcases hl : s.advanceLoad l with ⟨m, t⟩
  rw [hl] at load
  cases m with
  | goesOn p => exact load.trans (still_goOn _)
  | ends => exact load.trans (still_answer _)
  | panics text => exact load.trans (still_answer _)

theorem still_moveStandIn (i : Nat) : s.Still (s.moveStandIn id k i) := by
  unfold moveStandIn
  split
  · exact still_abandon _
  · exact still_goOn _

theorem still_moveAssist (i : Nat) : s.Still (s.moveAssist id i) := by
  unfold moveAssist
  split
  · exact still_answer _
  · exact still_answer _

theorem frame_moveTask {t : Task} (other : ∀ k c, t ≠ .cancelCache k c) :
    s.Frame (s.moveTask id t) := by
  cases t with
  | seekReader key mode => exact frame_moveSeekReader mode
  | makeSource key mode => exact (still_moveMakeSource mode).toFrame
  | fill key l => exact (still_moveFill l).toFrame
  | standIn key i => exact (still_moveStandIn i).toFrame
  | register key => exact frame_moveRegister
  | seekWriter key => exact still_moveSeekWriter.toFrame
  | cancelCache key cache => exact absurd rfl (other key cache)
  | dequeueCache key cache => exact still_moveDequeueCache.toFrame
  | awaitCache key cache => exact still_moveAwaitCache.toFrame
  | lease key => exact still_moveLease.toFrame
  | read r => exact frame_moveReading r
  | leave reader parting => exact frame_moveLeave reader parting
  | announce h parting => exact (still_moveAnnounce h parting).toFrame
  | closeSink writer parting => exact .of_eq rfl
  | giveBack writer flush parting => exact (still_moveGiveBack writer flush parting).toFrame
  | expire h r => exact (still_moveExpire h r).toFrame
  | readStore store r => exact (still_moveReadStore store r).toFrame
  | awaitStore store => exact (still_moveAwaitStore store).toFrame
  | makeLoad job => exact (still_moveMakeLoad job).toFrame
  | load l => exact (still_moveLoad l).toFrame
  | assist i => exact (still_moveAssist i).toFrame

/-! ## Other events -/

theorem still_moveWorker (n : PoolName) (i : Nat) : s.Still (s.moveWorker n i) := by
  have move := s.workerMove n i
  generalize s.moveWorker n i = u at move ⊢
  cases move with
  | still => exact .refl s
  | look | retract | next => exact still_setPool ..
  | @shed _ j => exact (still_closeSources [j]).trans (still_setPool ..)
  | load => exact (still_advanceLoad _).trans (still_setPool ..)

theorem still_dropQueue (n : PoolName) : s.Still (s.dropQueue n) :=
  (still_setPool n _).trans (still_closeSources _)

theorem canceled_cancelStore (c c' : CallId) :
    (s.cancelStore (.cache c)).canceled c' = true → c' = c ∨ s.canceled c' = true := by
  intro h
  by_cases hc : c' = c
  · exact .inl hc
  · refine .inr ?_
    simpa [canceled, store, cancelStore, Table.get?_modify, hc] using h

/-! ## Operations -/

theorem still_newStore : s.Still { s with stores := s.stores.set (.separate id) {} } := by
  refine ⟨⟨fun c hc => ?_⟩, rfl⟩
  simpa [canceled, store, Table.get?_set] using hc

theorem still_cancelStore (i : CallId) : s.Still (s.cancelStore (.separate i)) := by
  refine ⟨⟨fun c hc => ?_⟩, rfl⟩
  simpa [canceled, store, cancelStore, Table.get?_modify] using hc

namespace Still

theorem answer (h : s.Still u) (r : Result) : s.Still (u.answer id r) := h.trans (still_answer r)

theorem call (h : s.Still u) (t : Task) : s.Still (u.call id t) := h.trans (still_call t)

theorem withRegistry (h : s.Still u) (h' : s.Still t) : s.Still (u.withRegistry id t) := by
  unfold Session.withRegistry
  split
  · exact h'
  · exact h.answer _

theorem withPool (h : s.Still u) (h' : s.Still t) : s.Still (u.withPool id t) := by
  unfold Session.withPool
  split
  · exact h.answer _
  · exact h'

theorem withStore (h : s.Still u) (x : CallId) {f : StoreId → Session}
    (h' : s.Still (f (.separate x))) : s.Still (u.withStore id x f) := by
  unfold Session.withStore
  split
  · exact h'
  · exact h.answer _

theorem withSource (h : s.Still u) (x : CallId) (f : Source → Source) :
    s.Still (u.withSource id x f) := by
  unfold Session.withSource
  split
  · have changed : s.Still (u.modifySource x f) := h.trans (.of_eq rfl rfl)
    exact changed.answer _
  · exact h.answer _

theorem withReader (h : s.Still u) (r : CallId) {f : Reader → Session}
    (h' : ∀ x, s.Still (f x)) : s.Still (u.withReader id r f) := by
  unfold Session.withReader
  split
  · exact h' _
  · exact h.answer _

theorem withWriter (h : s.Still u) (w : CallId) {f : Writer → Session}
    (h' : ∀ x, s.Still (f x)) : s.Still (u.withWriter id w f) := by
  unfold Session.withWriter
  split
  · exact h' _
  · exact h.answer _

theorem submit (h : s.Still u) (x : StoreId) (plan : SourcePlan) (n : Nat) :
    s.Still (u.submit id x plan n) := by
  have source : s.Still { u with sources := u.sources.set id plan.source.build } :=
    h.trans (.of_eq rfl rfl)
  unfold Session.submit
  cases plan.factory with
  | gives =>
    dsimp only
    split
    · exact (source.trans (still_setPool ..)).call _
    · exact (source.trans (still_setPool ..)).answer _
  | fails e => exact source.answer _
  | panics text => exact source.answer _

end Still

/-- Nothing that is asked for changes a handle at once, but a skip. -/
theorem still_begin {op : Op} (other : ∀ r n, op ≠ .skip r n) : s.Still (s.begin id op) := by
  have plain : s.Still { s with clock := id + 1 } := .of_eq rfl rfl
  unfold begin
  cases op with
  | openReader key mode plan => exact plain.withRegistry (.of_eq rfl rfl)
  | openWriter key plan => exact plain.withRegistry (.of_eq rfl rfl)
  | shutdown => exact plain.withRegistry (.of_eq rfl rfl)
  | dropRegistry => exact plain.withRegistry (.of_eq rfl rfl)
  | read reader goal buf => exact plain.withReader reader fun _ => .of_eq rfl rfl
  | skip reader len => exact absurd rfl (other reader len)
  | write writer data => exact plain.withWriter writer fun _ => .of_eq rfl rfl
  | writeAll writer data => exact plain.withWriter writer fun _ => .of_eq rfl rfl
  | flush writer => exact plain.withWriter writer fun _ => .of_eq rfl rfl
  | part handle parting =>
    simp only [enter]
    split
    · exact plain.call _
    · exact plain.withWriter handle fun _ => plain.call _
  | feed source items => exact plain.withSource source _
  | ungate source => exact plain.withSource source _
  | release source => exact plain.withSource source _
  | newStore => exact (plain.trans still_newStore).answer _
  | append store data =>
    simp only [enter]
    refine plain.withStore store ?_
    exact (plain.trans (still_changeStore _ (.append data))).answer _
  | finish store =>
    simp only [enter]
    refine plain.withStore store ?_
    exact (plain.trans (still_changeStore _ .finish)).answer _
  | cancel store =>
    simp only [enter]
    refine plain.withStore store ?_
    exact (plain.trans (still_cancelStore store)).answer _
  | readStore store r =>
    simp only [enter]
    refine plain.withStore store ?_
    exact plain.call _
  | awaitStore store =>
    simp only [enter]
    refine plain.withStore store ?_
    exact plain.call _
  | load store plan n =>
    simp only [enter]
    refine plain.withStore store ?_
    exact .of_eq rfl rfl
  | submit store plan n =>
    simp only [enter]
    refine plain.withStore store (plain.withPool ?_)
    exact plain.submit ..
  | dequeue store =>
    simp only [enter]
    refine plain.withStore store (plain.withPool ?_)
    exact (plain.trans (still_dequeue ..)).answer _
  | dropPool => exact plain.withPool ((plain.trans (still_setPool ..)).answer _)

theorem frame_begin (op : Op) : s.Frame (s.begin id op) := by
  by_cases skips : ∃ r n, op = .skip r n
  · obtain ⟨r, n, rfl⟩ := skips
    simp only [begin, enter, withReader]
    split <;> exact .of_eq rfl
  · exact (still_begin fun r n h => skips ⟨r, n, h⟩).toFrame

/-! ## All events -/

theorem readers_endRegistry : s.endRegistry.readers = s.readers := by
  unfold endRegistry
  split
  · rfl
  · rfl
  · next c rest _ => exact (still_dequeue .registry (.cache c)).readers
  · rfl
  · rfl

/-- A cache is asked to stop by the call that tears it down, or at the end of the registry. -/
theorem canceled_after {e : Event} (h : (s.after e).canceled c = true) :
    s.canceled c = true ∨ (∃ id k, e = .move (.call id) ∧ s.task? id = some (.cancelCache k c)) ∨
      e = .move .registry ∧ ∃ rest, s.registry.ending = .cancel (c :: rest) := by
  cases e with
  | begin id op => exact .inl ((frame_begin op).canceled c h)
  | move a =>
    cases a with
    | worker n i => exact .inl ((still_moveWorker n i).canceled c h)
    | pool n => exact .inl ((still_dropQueue n).canceled c h)
    | registry =>
      simp only [after, move, endRegistry] at h
      split at h
      · exact .inl h
      · next c' rest ending =>
        rcases canceled_cancelStore c' c h with rfl | h
        · exact .inr (.inr ⟨rfl, rest, ending⟩)
        · exact .inl h
      · next c' rest ending => exact .inl ((still_dequeue .registry (.cache c')).canceled c h)
      · exact .inl h
      · exact .inl h
    | call id =>
      cases ht : s.task? id with
      | none =>
        have none : s.calls.get? id = none := by simpa [task?] using ht
        simp only [after, move, none] at h
        exact .inl h
      | some t =>
        rw [after, move_of_task ht] at h
        by_cases cancels : ∃ k c', t = .cancelCache k c'
        · obtain ⟨k, c', rfl⟩ := cancels
          rcases canceled_cancelStore c' c h with rfl | h
          · exact .inr (.inl ⟨id, k, rfl, ht⟩)
          · exact .inl h
        · exact .inl ((frame_moveTask fun k c' hc => cancels ⟨k, c', hc⟩).canceled c h)

/-- Nobody finds a cache any more that is asked to stop. -/
theorem Reach.spent {config : CacheConfig} {workers : Nat} (h : Reach (start config workers) s)
    (canceled : s.canceled c = true) : s.keys.Spent c := by
  refine h.invariant (P := fun s => s.canceled c = true → s.keys.Spent c) ?_ ?_ canceled
  · intro canceled
    simp [Session.canceled, store, start] at canceled
  · intro s e reach ih admitted canceled
    have hs := reach.sound
    have step := step_after hs admitted
    rcases canceled_after canceled with before | ⟨id, k, -, ht⟩ | ⟨-, rest, ending⟩
    · exact step.spent (ih before)
    · have retires := role_of_task ht
      obtain ⟨n, hn⟩ := hs.keys.cache_of_retires retires
      have closing := hs.keys.slot_of_retires retires
      exact step.spent (hs.keys.spent_of_cache hn (by simp [closing]) (by simp [closing]))
    · exact step.spent (hs.spent_of_halt (by simp [ending, Ending.caches]))

end SharedStream.Session
