import SharedStream.Session.Parting

/-! # Beginning calls

What an operation does at once. Some operations end there; the others go on in moves.
-/
namespace SharedStream.Session

/-- The registry is shut down: whoever waits for a key hears of it. -/
def shutdown (s : Session) : Session :=
  ({ s with registry := { s.registry with shutDown := true } }).notifyKeys

def skip (s : Session) (id reader : CallId) (h : Reader) (len : Nat) : Session :=
  let loaded := (s.store (.cache h.cache)).loadedLen
  let n := h.cursor.possible len loaded
  let cursor := h.cursor.advance n
  let s := { s with readers := s.readers.set reader { h with cursor := cursor } }
  s.answer id (.skipped n cursor.position (loaded - cursor.position))

def tally (s : Session) (writer : CallId) (w : Writer) : Tally := ⟨s.sink writer, w.written⟩

def setTally (s : Session) (writer : CallId) (w : Writer) (t : Tally) : Session :=
  { s with
    sinks := s.sinks.set writer t.sink
    writers := s.writers.set writer { w with written := t.written } }

def submit (s : Session) (id : CallId) (store : StoreId) (plan : SourcePlan) (chunkSize : Nat) :
    Session :=
  let s := { s with sources := s.sources.set id plan.source.build }
  match plan.factory with
  | .fails e => s.answer id (.failed e)
  | .panics text => s.answer id (.panicked text)
  | .gives =>
    let denied := s.separate.denied? plan.threaded
    let s := s.setPool .separate (s.separate.submit ⟨store, id, chunkSize⟩ plan.threaded)
    match denied with
    | some i => s.call id (.assist i)
    | none => s.answer id .done

/-- A call that needs a separate store is answered by `f` if there is one of that name. -/
def withStore (s : Session) (id store : CallId) (f : StoreId → Session) : Session :=
  if s.stores.contains (.separate store) then f (.separate store) else s.answer id (.missing .store)

/-- A call that needs a source is answered at once if there is one of that name. -/
def withSource (s : Session) (id source : CallId) (f : Source → Source) : Session :=
  if s.sources.contains source then (s.modifySource source f).answer id .done
  else s.answer id (.missing .source)

def withRegistry (s : Session) (id : CallId) (f : Session) : Session :=
  if s.held then f else s.answer id (.missing .registry)

def withPool (s : Session) (id : CallId) (f : Session) : Session :=
  if s.separate.shutDown then s.answer id (.missing .pool) else f

def withReader (s : Session) (id reader : CallId) (f : Reader → Session) : Session :=
  match s.reader? reader with
  | some h => f h
  | none => s.answer id (.missing .handle)

def withWriter (s : Session) (id writer : CallId) (f : Writer → Session) : Session :=
  match s.writer? writer with
  | some w => f w
  | none => s.answer id (.missing .handle)

def enter (s : Session) (id : CallId) : Op → Session
  | .openReader key mode plan =>
    s.withRegistry id <|
      ({ s with sources := s.sources.set id plan.source }).call id
        (.seekReader key (mode.getD s.registry.config.loadMode))
  | .openWriter key plan =>
    s.withRegistry id <| ({ s with sinks := s.sinks.set id plan.sink }).call id (.seekWriter key)
  | .shutdown => s.withRegistry id (s.shutdown.answer id .done)
  | .dropRegistry => s.withRegistry id (({ s with held := false }).answer id .done)
  | .read reader goal buf =>
    s.withReader id reader fun h =>
      s.call id (.read { reader := reader, cache := h.cache, goal := goal, buf := buf })
  | .skip reader len => s.withReader id reader fun h => s.skip id reader h len
  | .write writer data =>
    s.withWriter id writer fun w =>
      let (r, t) := (s.tally writer w).write data
      (s.setTally writer w t).answer id (.wrote r t.written)
  | .writeAll writer data =>
    s.withWriter id writer fun w =>
      let (r, t) := (s.tally writer w).writeAll data
      (s.setTally writer w t).answer id (.wroteAll r t.written)
  | .flush writer =>
    s.withWriter id writer fun w =>
      let (r, t) := (s.tally writer w).flush
      (s.setTally writer w t).answer id (.flushed r)
  | .part handle parting =>
    if (s.reader? handle).isSome then s.call id (.leave handle parting)
    else s.withWriter id handle fun _ => s.call id (.closeSink handle parting)
  | .feed source items => s.withSource id source (·.feed items)
  | .ungate source => s.withSource id source Source.ungate
  | .release source => s.withSource id source Source.release
  | .newStore => ({ s with stores := s.stores.set (.separate id) {} }).answer id .done
  | .append store data =>
    s.withStore id store fun store =>
      (s.appendTo store data).answer id (.flag ((s.store store).accepts data))
  | .finish store => s.withStore id store fun store => (s.finishStore store).answer id .done
  | .cancel store => s.withStore id store fun store => (s.cancelStore store).answer id .done
  | .readStore store r => s.withStore id store fun store => s.call id (.readStore store r)
  | .awaitStore store => s.withStore id store fun store => s.call id (.awaitStore store)
  | .load store plan chunkSize =>
    s.withStore id store fun store =>
      ({ s with sources := s.sources.set id plan.source.build }).call id
        (.makeLoad ⟨store, id, chunkSize⟩)
  | .submit store plan chunkSize =>
    s.withStore id store fun store => s.withPool id (s.submit id store plan chunkSize)
  | .dequeue store =>
    s.withStore id store fun store =>
      s.withPool id <|
        (s.dequeue .separate store).answer id (.flag !(s.separate.queuedFor store).isEmpty)
  | .dropPool => s.withPool id ((s.setPool .separate s.separate.shutdown).answer id .done)

/-- The operation is asked for at step `id`, which is later than all steps before it. -/
def begin (s : Session) (id : CallId) (op : Op) : Session :=
  ({ s with clock := id + 1 }).enter id op

end SharedStream.Session
