import SharedStream.Proofs.Reads.Twins

/-! # Twins stay twins

Each move and each operation does the same to twins, but for reads that go by a position that does
not show. Twins have the same moves, so that they settle in the same way.
-/
namespace SharedStream.Session

variable {v : View} {s t u : Session} {id c x : CallId} {k : Key} {n : PoolName} {a : Task}
variable {e : Event} {op : Op}

theorem moveReading_eq {r : Reading} {y : Reader} (hr : s.readers.get? r.reader = some y) :
    s.moveReading id r =
      match (s.store (.cache r.cache)).read (r.request y.cursor.position) with
      | .refused e => s.answer id (.read (.refused e) y.cursor.position)
      | .waits => s.sleep id
      | .done o buf =>
        match r.after o buf with
        | .inl r' => (s.moved r y o).goOn id (.read r')
        | .inr result =>
          (s.moved r y o).answer id (.read result (advanced r y o).cursor.position) := by
  rw [moveReading, hr]
  rfl

namespace Twin

section
variable (h : s.Twin v t)
include h

/-! ## Moves of calls that open -/

theorem moveSeekReader (mode : LoadMode) :
    (s.moveSeekReader id k mode).Twin v (t.moveSeekReader id k mode) := by
  unfold Session.moveSeekReader
  rw [h.registry]
  split
  · exact h.answer ..
  split
  · exact ((h.setSlot ..).modifySource ..).goOn ..
  · exact h.attach ..
  all_goals exact h.sleep id

theorem moveMakeSource (mode : LoadMode) :
    (s.moveMakeSource id k mode).Twin v (t.moveMakeSource id k mode) := by
  have made := h.newCache id k mode
  unfold Session.moveMakeSource
  rw [h.source]
  split
  · exact h.abandon ..
  · exact h.abandon ..
  · rw [h.registry]
    dsimp only
    cases mode with
    | sync => exact made.goOn ..
    | async =>
      dsimp only
      rw [made.pool, made.source]
      exact (made.setPool ..).goOn ..

theorem moveFill (l : Load) : (s.moveFill id k l).Twin v (t.moveFill id k l) := by
  have loaded := h.advanceLoad l
  unfold Session.moveFill
  rcases hs : s.advanceLoad l with ⟨m, s'⟩
  rcases ht : t.advanceLoad l with ⟨m', t'⟩
  rw [hs, ht] at loaded
  obtain ⟨rfl, loaded⟩ := loaded
  cases m' with
  | goesOn p => exact loaded.goOn ..
  | ends => exact loaded.goOn ..
  | panics text => exact loaded.abandon ..

theorem moveSeekWriter : (s.moveSeekWriter id k).Twin v (t.moveSeekWriter id k) := by
  unfold Session.moveSeekWriter
  rw [h.registry]
  split
  · exact h.refuse ..
  split
  · exact h.grant ..
  · rw [h.refs]
    split
    · exact h.refuse ..
    split
    · exact (h.setSlot ..).goOn ..
    · exact h.sleep id
  all_goals exact h.sleep id

theorem moveAwaitCache : (s.moveAwaitCache id k c).Twin v (t.moveAwaitCache id k c) := by
  unfold Session.moveAwaitCache
  rw [h.store]
  split
  · exact h.goOn ..
  · exact h.sleep id

theorem moveLease : (s.moveLease id k).Twin v (t.moveLease id k) := by
  unfold Session.moveLease
  rw [h.registry, h.describeSlot]
  split
  · exact h.grant ..
  · exact h.refuse ..

/-! ## Moves of calls that read or part -/

theorem moved (r : Reading) {y y' : Reader} (o : ReadOutcome) (cache : y'.cache = y.cache)
    (same : v.reader ≠ some r.reader → y' = y)
    (request : (r.request y'.cursor.position).len = (r.request y.cursor.position).len) :
    (s.moved r y o).Twin v (t.moved r y' o) := by
  have set : ({ s with readers := s.readers.set r.reader (advanced r y o) }).Twin v
      { t with readers := t.readers.set r.reader (advanced r y' o) } :=
    h.setReader r.reader cache fun shows => by rw [same shows]
  unfold Session.moved
  rw [request]
  dsimp only
  split
  · exact set
  · exact set.touch r.cache

/-- A call that reads does the same, unless it goes by a position that does not show. -/
theorem moveReading {r : Reading}
    (shows : v.reader = some r.reader → r.goal.moves = false ∧ v.blurs id) :
    (s.moveReading id r).Twin v (t.moveReading id r) := by
  have reader := h.readers r.reader
  cases hs : s.readers.get? r.reader with
  | none =>
    rw [hs] at reader
    rw [Session.moveReading, hs, Session.moveReading, Option.map_eq_none_iff.1 reader]
    exact h.answer ..
  | some y =>
    rw [hs] at reader
    obtain ⟨y', ht, cache⟩ := Option.map_eq_some_iff.1 reader
    have same : v.reader ≠ some r.reader → y' = y := fun other => by
      have := h.reader other
      rw [hs, ht] at this
      exact Option.some.inj this
    have request : r.request y'.cursor.position = r.request y.cursor.position := by
      by_cases own : v.reader = some r.reader
      · obtain ⟨still, -⟩ := shows own
        unfold Reading.request
        cases goal : r.goal with
        | absolute => rfl
        | _ =>
          rw [goal] at still
          cases still
      · rw [same own]
    have sharp : ¬ v.blurs id → y' = y := fun sharp => same fun own => sharp (shows own).2
    rw [moveReading_eq hs, moveReading_eq ht, h.store, request]
    split
    · exact h.answer_of id fun _ => ⟨rfl, fun sharp' => by rw [sharp sharp']⟩
    · exact h.sleep id
    next o buf read =>
    have moved := h.moved r o cache same (congrArg Store.Request.len request)
    split
    · exact moved.goOn ..
    · exact moved.answer_of id fun _ => ⟨rfl, fun sharp' => by rw [sharp sharp']⟩

theorem depart (x : ClosedHandle) (r : Result) (p : Parting) :
    (s.depart id x r p).Twin v (t.depart id x r p) := by
  cases p with
  | close => exact h.goOn ..
  | drop => exact h.answer ..

theorem moveLeave (p : Parting) : (s.moveLeave id x p).Twin v (t.moveLeave id x p) := by
  have reader := h.readers x
  have erased := h.eraseReader x
  unfold Session.moveLeave
  cases hs : s.readers.get? x with
  | none =>
    rw [hs] at reader
    rw [Option.map_eq_none_iff.1 reader]
    exact h.answer ..
  | some y =>
    rw [hs] at reader
    obtain ⟨y', ht, cache⟩ := Option.map_eq_some_iff.1 reader
    rw [ht]
    dsimp only [Reader.closed]
    rw [cache, h.refs, erased.keyOf]
    split
    · exact erased.depart ..
    split
    · exact (erased.addRefs ..).goOn ..
    · exact (erased.addRefs ..).depart ..

theorem takeSink (x : CallId) : (t.takeSink x).1 = (s.takeSink x).1 ∧
    (s.takeSink x).2.Twin v (t.takeSink x).2 := by
  unfold Session.takeSink
  rw [h.sink]
  exact ⟨rfl, h.map (f := fun u =>
    { u with sinks := u.sinks.set x (s.sink x).flush.2.close }) fun _ _ => rfl⟩

theorem moveCloseSink (p : Parting) :
    (s.moveCloseSink id x p).Twin v (t.moveCloseSink id x p) := by
  obtain ⟨flush, taken⟩ := h.takeSink x
  unfold Session.moveCloseSink
  dsimp only
  rw [flush]
  exact taken.goOn ..

theorem moveGiveBack (f : Option IoFailure) (p : Parting) :
    (s.moveGiveBack id x f p).Twin v (t.moveGiveBack id x f p) := by
  have erased := h.map (f := fun u => { u with writers := u.writers.erase x }) fun _ _ => rfl
  have writer : t.writers.get? x = s.writers.get? x := by rw [h.writers]
  unfold Session.moveGiveBack
  rw [writer]
  split
  · exact h.answer ..
  next y _ =>
  have slot : t.registry.slots.get? y.key = s.registry.slots.get? y.key := by rw [h.registry]
  rw [h.describeSlot]
  dsimp only
  rw [slot]
  split
  · exact ((erased.freeSlot _).notifyKeys).depart ..
  · exact erased.depart ..

theorem settleHandle (x : ClosedHandle) : (s.settleHandle x).Twin v (t.settleHandle x) := by
  cases x with
  | reader cache released =>
    unfold Session.settleHandle
    dsimp only
    rw [h.refs]
    split
    · exact h
    split
    · exact (h.addRefs ..).notifyKeys
    · exact h.addRefs ..
  | writer w key =>
    have slot : t.registry.slots.get? key = s.registry.slots.get? key := by rw [h.registry]
    have taken := (h.takeSink w).2
    unfold Session.settleHandle Session.isOpen
    dsimp only
    rw [h.sink]
    split
    · exact h
    · rw [show (s.takeSink w).2.registry = s.registry from rfl,
        show (t.takeSink w).2.registry = t.registry from rfl, slot]
      split
      · exact (taken.freeSlot _).notifyKeys
      · exact taken

/-! ## Moves that have to do with stores and loads -/

theorem moveReadStore (y : StoreId) (r : Store.Request) :
    (s.moveReadStore id y r).Twin v (t.moveReadStore id y r) := by
  unfold Session.moveReadStore
  rw [h.store]
  split
  · exact h.answer ..
  · exact h.sleep id
  · exact h.answer ..

theorem moveAwaitStore (y : StoreId) :
    (s.moveAwaitStore id y).Twin v (t.moveAwaitStore id y) := by
  unfold Session.moveAwaitStore
  rw [h.store]
  split
  · exact h.answer ..
  · exact h.sleep id

theorem moveMakeLoad (j : Job) : (s.moveMakeLoad id j).Twin v (t.moveMakeLoad id j) := by
  unfold Session.moveMakeLoad
  rw [h.source]
  split
  · exact h.goOn ..
  · exact h.answer ..
  · exact h.answer ..

theorem moveLoad (l : Load) : (s.moveLoad id l).Twin v (t.moveLoad id l) := by
  have loaded := h.advanceLoad l
  unfold Session.moveLoad
  rcases hs : s.advanceLoad l with ⟨m, s'⟩
  rcases ht : t.advanceLoad l with ⟨m', t'⟩
  rw [hs, ht] at loaded
  obtain ⟨rfl, loaded⟩ := loaded
  cases m' with
  | goesOn p => exact loaded.goOn ..
  | ends =>
    dsimp only
    rw [loaded.store]
    exact loaded.answer ..
  | panics text => exact loaded.answer ..

theorem moveWorker (n : PoolName) (i : Nat) : (s.moveWorker n i).Twin v (t.moveWorker n i) := by
  unfold Session.moveWorker
  rw [h.pool]
  split
  · exact h.setPool ..
  · exact h.setPool ..
  · next l rest _ =>
    have loaded := h.advanceLoad l
    rcases hs : s.advanceLoad l with ⟨m, s'⟩
    rcases ht : t.advanceLoad l with ⟨m', t'⟩
    rw [hs, ht] at loaded
    obtain ⟨rfl, loaded⟩ := loaded
    dsimp only
    rw [loaded.pool]
    exact loaded.setPool ..
  · exact h.setPool ..
  · exact h.setPool ..
  · exact (h.modifySource ..).setPool ..
  all_goals exact h

theorem moveStandIn (i : Nat) : (s.moveStandIn id k i).Twin v (t.moveStandIn id k i) := by
  unfold Session.moveStandIn Session.fall?
  rw [h.pool]
  split
  · exact h.abandon ..
  · exact h.goOn ..

theorem moveAssist (i : Nat) : (s.moveAssist id i).Twin v (t.moveAssist id i) := by
  unfold Session.moveAssist Session.fall?
  rw [h.pool]
  split
  · exact h.answer ..
  · exact h.answer ..

/-! ## Moves -/

theorem moveTask (shows : ∀ r, a = .read r → v.reader = some r.reader →
    r.goal.moves = false ∧ v.blurs id) : (s.moveTask id a).Twin v (t.moveTask id a) := by
  cases a with
  | seekReader k mode => exact h.moveSeekReader mode
  | makeSource k mode => exact h.moveMakeSource mode
  | fill k l => exact h.moveFill l
  | standIn k i => exact h.moveStandIn i
  | register k => exact ((h.setSlot ..).notifyKeys).attach id id
  | seekWriter k => exact h.moveSeekWriter
  | cancelCache k c => exact (h.cancelStore _).goOn ..
  | dequeueCache k c => exact (h.dequeue ..).goOn ..
  | awaitCache k c => exact h.moveAwaitCache
  | lease k => exact h.moveLease
  | read r => exact h.moveReading (shows r rfl)
  | leave x p => exact h.moveLeave p
  | announce x p => exact h.notifyKeys.depart ..
  | closeSink x p => exact h.moveCloseSink p
  | giveBack x f p => exact h.moveGiveBack f p
  | expire x r => exact (h.settleHandle x).answer ..
  | readStore y r => exact h.moveReadStore y r
  | awaitStore y => exact h.moveAwaitStore y
  | makeLoad j => exact h.moveMakeLoad j
  | load l => exact h.moveLoad l
  | assist i => exact h.moveAssist i

end
end Twin

/-! ## Calls in progress -/

/-- No call in progress goes by a position that does not show. -/
def View.Fits (v : View) (s : Session) : Prop :=
  ∀ id r, s.task? id = some (.read r) → v.reader = some r.reader →
    r.goal.moves = false ∧ v.blurs id

/-- Nobody is asked in the event to go by a position that does not show. -/
def View.Allows (v : View) : Event → Prop
  | .begin id (.read r goal _) => v.reader = some r → goal.moves = false ∧ v.blurs id
  | .begin id (.skip r _) => v.reader = some r → v.hides id
  | _ => True

theorem View.Fits.after (fits : v.Fits s) (hs : s.Sound) (ha : s.Attentive)
    (admitted : s.admits e) (allows : v.Allows e) : v.Fits (s.after e) := by
  intro id r ht own
  rcases task_after hs ha admitted ht with ⟨op, rfl⟩ | ⟨a, before, rfl | leads⟩
  · have first := (entry { s with clock := id + 1 } id op).firstTask? ht
    cases op with
    | read x goal buf =>
      obtain ⟨y, -, same⟩ := Option.map_eq_some_iff.1 first
      cases same
      exact allows own
    | part x p =>
      simp only [firstTask?] at first
      split at first <;> cases first
    | submit x plan size =>
      obtain ⟨i, -, same⟩ := Option.map_eq_some_iff.1 first
      cases same
    | _ => cases first
  · exact fits id r before own
  · cases leads with
    | reading r' _ reader _ goal =>
      rw [goal]
      exact fits id r' before (reader ▸ own)

theorem View.Fits.of_none (none : v.reader = none) (s : Session) : v.Fits s :=
  fun _ _ _ own => by cases none.symm.trans own

/-! ## Operations -/

namespace Twin

section
variable (h : s.Twin v t)
include h

theorem withStore {f g : StoreId → Session}
    (same : ∀ y, (f y).Twin v (g y)) : (s.withStore id x f).Twin v (t.withStore id x g) := by
  unfold Session.withStore
  rw [h.stores]
  split
  · exact same _
  · exact h.answer ..

theorem withSource (f : Source → Source) :
    (s.withSource id x f).Twin v (t.withSource id x f) := by
  unfold Session.withSource
  rw [h.sources]
  split
  · exact (h.modifySource ..).answer ..
  · exact h.answer ..

theorem withRegistry {s' t' : Session} (same : s'.Twin v t') :
    (s.withRegistry id s').Twin v (t.withRegistry id t') := by
  unfold Session.withRegistry
  rw [h.held]
  split
  · exact same
  · exact h.answer ..

theorem withPool {s' t' : Session} (same : s'.Twin v t') :
    (s.withPool id s').Twin v (t.withPool id t') := by
  unfold Session.withPool
  rw [h.separate]
  split
  · exact h.answer ..
  · exact same

theorem withReader {f g : Reader → Session}
    (same : ∀ {y y'}, s.reader? x = some y → y'.cache = y.cache →
      (v.reader ≠ some x → y' = y) → (f y).Twin v (g y')) :
    (s.withReader id x f).Twin v (t.withReader id x g) := by
  have reader := h.reader? x
  unfold Session.withReader
  cases hs : s.reader? x with
  | none =>
    rw [hs] at reader
    rw [Option.map_eq_none_iff.1 reader]
    exact h.answer ..
  | some y =>
    rw [hs] at reader
    obtain ⟨y', ht, cache⟩ := Option.map_eq_some_iff.1 reader
    rw [ht]
    refine same hs cache fun shows => ?_
    have := h.reader?_eq shows
    rw [hs, ht] at this
    exact Option.some.inj this

theorem withWriter {f g : Writer → Session} (same : ∀ y, (f y).Twin v (g y)) :
    (s.withWriter id x f).Twin v (t.withWriter id x g) := by
  unfold Session.withWriter
  rw [h.writer?]
  split
  · exact same _
  · exact h.answer ..

theorem setTally (y : Writer) (z : Tally) : (s.setTally x y z).Twin v (t.setTally x y z) :=
  h.map (f := fun s => s.setTally x y z) fun _ _ => rfl

theorem skip {y y' : Reader} {len : Nat} (cache : y'.cache = y.cache)
    (same : v.reader ≠ some x → y' = y) (hidden : v.reader = some x → v.hides id) :
    (s.skip id x y len).Twin v (t.skip id x y' len) := by
  unfold Session.skip
  by_cases own : v.reader = some x
  · refine (h.setReader x ?_ ?_).answer_hidden (hidden own) _ _
    · exact cache
    · exact fun shows => absurd own shows
  · rw [same own, h.store]
    exact (h.setReader x rfl fun _ => rfl).answer ..

theorem submit (y : StoreId) (plan : SourcePlan) (size : Nat) :
    (s.submit id y plan size).Twin v (t.submit id y plan size) := by
  have set := h.setSource id plan.source.build
  unfold Session.submit
  dsimp only
  split
  · exact set.answer ..
  · exact set.answer ..
  · rw [h.separate]
    split
    · exact (set.setPool ..).call ..
    · exact (set.setPool ..).answer ..

theorem enter (allows : v.Allows (.begin id op)) : (s.enter id op).Twin v (t.enter id op) := by
  cases op with
  | openReader k mode plan =>
    have config : t.registry.config = s.registry.config := by rw [h.registry]
    simp only [Session.enter, config]
    exact h.withRegistry ((h.setSource ..).call ..)
  | openWriter k plan =>
    have set := h.map (f := fun s => { s with sinks := s.sinks.set id plan.sink }) fun _ _ => rfl
    exact h.withRegistry (set.call ..)
  | shutdown =>
    have down := h.map (f := fun s => s.shutdown) fun _ _ => rfl
    exact h.withRegistry (down.answer ..)
  | dropRegistry =>
    have dropped := h.map (f := fun s => { s with held := false }) fun _ _ => rfl
    exact h.withRegistry (dropped.answer ..)
  | read x goal buf =>
    refine h.withReader fun {y y'} _ cache _ => ?_
    rw [cache]
    exact h.call ..
  | skip x len => exact h.withReader fun _ cache same => h.skip cache same allows
  | write x data =>
    refine h.withWriter fun y => ?_
    rw [tally, tally, h.sink]
    exact (h.setTally ..).answer ..
  | writeAll x data =>
    refine h.withWriter fun y => ?_
    rw [tally, tally, h.sink]
    exact (h.setTally ..).answer ..
  | flush x =>
    refine h.withWriter fun y => ?_
    rw [tally, tally, h.sink]
    exact (h.setTally ..).answer ..
  | part x p =>
    have some : (t.reader? x).isSome = (s.reader? x).isSome := by
      rw [← Option.isSome_map (f := Reader.cache), h.reader?, Option.isSome_map]
    simp only [Session.enter, some]
    split
    · exact h.call ..
    · exact h.withWriter fun _ => h.call ..
  | feed x items => exact h.withSource _
  | ungate x => exact h.withSource _
  | release x => exact h.withSource _
  | newStore =>
    exact (h.map (f := fun s => { s with stores := s.stores.set (.separate id) {} })
      fun _ _ => rfl).answer ..
  | append x data =>
    simp only [Session.enter]
    refine h.withStore fun y => ?_
    rw [h.store]
    exact (h.appendTo ..).answer ..
  | finish x => exact h.withStore fun y => (h.finishStore y).answer ..
  | cancel x => exact h.withStore fun y => (h.cancelStore y).answer ..
  | readStore x r => exact h.withStore fun y => h.call ..
  | awaitStore x => exact h.withStore fun y => h.call ..
  | load x plan size => exact h.withStore fun y => (h.setSource ..).call ..
  | submit x plan size => exact h.withStore fun y => h.withPool (h.submit ..)
  | dequeue x =>
    simp only [Session.enter, h.separate]
    refine h.withStore fun y => ?_
    exact h.withPool ((h.dequeue ..).answer ..)
  | dropPool =>
    simp only [Session.enter, h.separate]
    exact h.withPool ((h.setPool ..).answer ..)

/-! ## Events -/

/-- What happens to twins leaves twins, as long as nobody goes by a position that does not show. -/
theorem after (fits : v.Fits s) (allows : v.Allows e) : (s.after e).Twin v (t.after e) := by
  cases e with
  | begin id op => exact (h.setClock (id + 1) (id + 1)).enter allows
  | move a =>
    cases a with
    | registry => exact h.endRegistry
    | pool n => exact h.dropQueue n
    | worker n i => exact h.moveWorker n i
    | call id =>
      cases ht : s.task? id with
      | none =>
        have absent : s.calls.get? id = none := Option.map_eq_none_iff.1 ht
        have absent' : t.calls.get? id = none := by rw [h.calls, absent]
        simp only [Session.after, Session.move, absent, absent']
        exact h
      | some a =>
        rw [Session.after, Session.after, move_of_task ht,
          move_of_task ((h.task id).trans ht)]
        exact h.moveTask fun r same => fits id r (same ▸ ht)

/-! ## Settling -/

theorem hasHolder : t.hasHolder = s.hasHolder := by
  have readers : t.readers.entries.isEmpty = s.readers.entries.isEmpty := by
    rw [Bool.eq_iff_iff, Table.isEmpty_iff, Table.isEmpty_iff]
    refine forall_congr' fun r => ?_
    rw [← Option.map_eq_none_iff (f := Reader.cache), h.readers, Option.map_eq_none_iff]
  rw [Session.hasHolder, Session.hasHolder, h.held, readers, h.writers, h.calls]

theorem canMove (a : Actor) : t.canMove a = s.canMove a := by
  cases a with
  | call id =>
    have can : ∀ a, t.taskCanMove id a = s.taskCanMove id a := by
      intro a
      cases a <;> simp only [taskCanMove, loadCanMove, h.source, hasStoodIn, h.pool]
    simp only [Session.canMove, h.calls, can]
  | worker n i => simp only [Session.canMove, workerCanMove, loadCanMove, h.pool, h.source]
  | pool n => rw [Session.canMove, poolCanMove, h.pool, Session.canMove, poolCanMove]
  | registry => rw [Session.canMove, h.hasHolder, h.registry, Session.canMove]

theorem settled : t.Settled ↔ s.Settled :=
  forall_congr' fun a => by rw [h.canMove]

theorem readsFrom? (a : Actor) : t.readsFrom? a = s.readsFrom? a := by
  cases a with
  | call id => rw [Session.readsFrom?, loadOf?, h.calls, Session.readsFrom?, loadOf?]
  | worker n i => rw [Session.readsFrom?, loadOf?, h.pool, Session.readsFrom?, loadOf?]
  | pool n => rfl
  | registry => rfl

theorem next? : t.next? = s.next? := by
  have actors : t.actors = s.actors := by
    rw [Session.actors, h.calls, h.registry, h.separate, Session.actors]
  have canMove : t.canMove = s.canMove := funext h.canMove
  have earlier : t.earlier = s.earlier := by
    funext best a
    simp only [Session.earlier, h.readsFrom?]
  have reads : t.readsFrom? = s.readsFrom? := funext h.readsFrom?
  rw [Session.next?, actors, canMove, earlier, reads, Session.next?]

theorem movesLeft : t.movesLeft = s.movesLeft := by
  have actors : t.actors = s.actors := by
    rw [Session.actors, h.calls, h.registry, h.separate, Session.actors]
  rw [Session.movesLeft, actors, h.registry, h.separate, h.sources, h.stores, Session.movesLeft]

end

variable {config : CacheConfig} {workers : Nat}

theorem settleWithin (h : s.Twin v t) (reach : Reach (start config workers) s)
    (fits : v.Fits s) (fuel : Nat) : (s.settleWithin fuel).Twin v (t.settleWithin fuel) ∧
      v.Fits (s.settleWithin fuel) := by
  induction fuel generalizing s t with
  | zero => exact ⟨h, fits⟩
  | succ fuel ih =>
    unfold Session.settleWithin
    rw [h.next?]
    split
    · next a next =>
      have can := canMove_of_next? next
      exact ih (h.after (e := .move a) fits trivial) (reach.move can)
        (fits.after (e := .move a) reach.sound reach.attentive can trivial)
    · exact ⟨h, fits⟩

/-- A step that does not go by a position that does not show leaves twins. -/
theorem step (h : s.Twin v t) (reach : Reach (start config workers) s) (fits : v.Fits s)
    (later : s.clock ≤ id) (allows : v.Allows (.begin id op)) :
    (s.step id op).Twin v (t.step id op) ∧ v.Fits (s.step id op) := by
  have begun : (s.begin id op).Twin v (t.begin id op) := h.after (e := .begin id op) fits allows
  unfold Session.step settle
  rw [begun.movesLeft]
  exact begun.settleWithin (reach.begin id op later)
    (fits.after (e := .begin id op) reach.sound reach.attentive later allows) _

end Twin
end SharedStream.Session
