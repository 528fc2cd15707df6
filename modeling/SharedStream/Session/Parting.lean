import SharedStream.Session

/-! # Giving handles up

The moves of a call that closes or drops a handle. A reader is subtracted from its cache, which
stays. A writer's sink is flushed once and dropped before its lease is given back, whether or not
the flush succeeds. A handle that was closed is dropped after that, which finds nothing left to do.
The registry ends when nobody holds it any more.
-/
namespace SharedStream

def Parting.report : Parting → Option CacheError → Result
  | .close, some e => .refused e
  | .close, none => .done
  | .drop, _ => .done

namespace Session

def uncounted (key : Key) (refs : Int) : CacheError :=
  .invariantViolation
    ("ref count for " ++ key.text ++ " went negative (" ++ toString refs ++ ")")

def lostLease (lease : CallId) (key : Key) (found : String) : CacheError :=
  .invariantViolation
    ("writer lease " ++ lease.repr ++ " for " ++ key.text ++ " not held (slot: " ++ found ++ ")")

/-- The call has done what its handle asks for. A handle that was closed is dropped now. -/
def depart (s : Session) (id : CallId) (h : ClosedHandle) (r : Result) : Parting → Session
  | .close => s.goOn id (.expire h r)
  | .drop => s.answer id r

def moveLeave (s : Session) (id reader : CallId) (parting : Parting) : Session :=
  match s.readers.get? reader with
  | none => s.answer id (.missing .handle)
  | some h =>
    let refs := s.refs h.cache
    let s := { s with readers := s.readers.erase reader }
    let h := { h with released := true }
    if refs ≤ 0 then
      let e := uncounted (s.keyOf h.cache) (refs - 1)
      s.depart id h.closed (parting.report (some e)) parting
    else
      let s := s.addRefs h.cache (-1)
      if refs = 1 then s.goOn id (.announce h.closed parting)
      else s.depart id h.closed .done parting

def moveAnnounce (s : Session) (id : CallId) (h : ClosedHandle) (parting : Parting) : Session :=
  s.notifyKeys.depart id h .done parting

/-- The sink of a writer is taken from it, flushed and dropped. -/
def takeSink (s : Session) (writer : CallId) : Option IoFailure × Session :=
  let (flush, sink) := (s.sink writer).flush
  let failure := match flush with
    | .ok _ => none
    | .error e => some e
  (failure, { s with sinks := s.sinks.set writer sink.close })

def moveCloseSink (s : Session) (id writer : CallId) (parting : Parting) : Session :=
  let (failure, s) := s.takeSink writer
  s.goOn id (.giveBack writer failure parting)

def moveGiveBack (s : Session) (id writer : CallId) (flush : Option IoFailure)
    (parting : Parting) : Session :=
  match s.writers.get? writer with
  | none => s.answer id (.missing .handle)
  | some w =>
    let found := s.describeSlot w.key
    let s := { s with writers := s.writers.erase writer }
    if s.registry.slots.get? w.key = some (.writer writer) then
      let r := parting.report (flush.map .io)
      ((s.freeSlot w.key).notifyKeys).depart id (.writer writer w.key) r parting
    else
      let e := (flush.map .io).getD (lostLease writer w.key found)
      s.depart id (.writer writer w.key) (parting.report (some e)) parting

/-- What the drop of a handle does that is not closed, or not to its end. Failures are dropped. -/
def settleHandle (s : Session) : ClosedHandle → Session
  | .reader cache released =>
    if released || s.refs cache ≤ 0 then s
    else if s.refs cache = 1 then (s.addRefs cache (-1)).notifyKeys
    else s.addRefs cache (-1)
  | .writer writer key =>
    if !s.isOpen writer then s
    else
      let (_, s) := s.takeSink writer
      if s.registry.slots.get? key = some (.writer writer) then (s.freeSlot key).notifyKeys
      else s

/-- The handle that was closed is dropped. It has to look whether its close was all there is to
do. -/
def moveExpire (s : Session) (id : CallId) (h : ClosedHandle) (r : Result) : Session :=
  (s.settleHandle h).answer id r

def hasHolder (s : Session) : Bool :=
  s.held || !s.readers.entries.isEmpty || !s.writers.entries.isEmpty ||
    s.calls.any fun c => c.task.holdsRegistry

/-- One move of the end of the registry: all loads of its caches are asked to stop, and the queued
ones are dropped, one cache after the other; then its pool takes no more. -/
def endRegistry (s : Session) : Session :=
  match s.registry.ending with
  | .ahead =>
    let caches := s.registry.caches
    { s with registry := { s.registry with slots := ∅, ending := .cancel caches } }
  | .cancel (cache :: rest) => (s.cancelStore (.cache cache)).setEnding (.dequeue cache rest)
  | .dequeue cache rest => (s.dequeue .registry (.cache cache)).setEnding (.cancel rest)
  | .cancel [] => (s.setPool .registry (s.pool .registry).shutdown).setEnding .done
  | .done => s

end Session
end SharedStream
