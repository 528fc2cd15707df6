import SharedStream.Call
import SharedStream.Registry

/-! # Sessions

A registry at work: its caches, handles and sources, a pool of its own, a second pool with stores
that belong to no registry, and all calls in progress. A session changes in moves: a call, a worker,
a pool or the registry itself does one thing that nothing interrupts.
-/
namespace SharedStream

/-- What a registry knows of a cache, apart from its store. -/
structure Cache where
  key : Key
  mode : LoadMode
  /-- Reader handles that are not released. -/
  refs : Int := 0
  /-- The session's clock at the last access. -/
  lastAccess : Nat

inductive PoolName where
  | registry
  /-- The pool that belongs to no registry. -/
  | separate
  deriving DecidableEq, Repr

structure Session where
  registry : Registry
  separate : Pool
  /-- The registry was not let go by whoever made it. -/
  held : Bool := true
  stores : Table StoreId Store := ∅
  sources : Table CallId Source := ∅
  sinks : Table CallId Sink := ∅
  caches : Table CallId Cache := ∅
  readers : Table CallId Reader := ∅
  writers : Table CallId Writer := ∅
  calls : Table CallId Call := ∅
  /-- What the ended calls came to, in the order in which they ended. -/
  results : Table CallId Result := ∅
  clock : Nat := 0

namespace Session

def start (config : CacheConfig) (workers : Nat) : Session :=
  { registry := .ofConfig config, separate := .ofLimit workers }

/-! ## Parts -/

def store (s : Session) (id : StoreId) : Store := (s.stores.get? id).getD {}

def source (s : Session) (id : CallId) : Source := (s.sources.get? id).getD {}

def sink (s : Session) (id : CallId) : Sink := (s.sinks.get? id).getD {}

def pool (s : Session) : PoolName → Pool
  | .registry => s.registry.pool
  | .separate => s.separate

def setPool (s : Session) (n : PoolName) (p : Pool) : Session :=
  match n with
  | .registry => { s with registry := { s.registry with pool := p } }
  | .separate => { s with separate := p }

def setSlot (s : Session) (key : Key) (slot : Slot) : Session :=
  { s with registry := s.registry.setSlot key slot }

def freeSlot (s : Session) (key : Key) : Session :=
  { s with registry := s.registry.freeSlot key }

def setEnding (s : Session) (e : Ending) : Session :=
  { s with registry := { s.registry with ending := e } }

def modifySource (s : Session) (id : CallId) (f : Source → Source) : Session :=
  { s with sources := s.sources.modify id f }

def dropSink (s : Session) (id : CallId) : Session :=
  { s with sinks := s.sinks.modify id Sink.close }

/-- Whether the writer's sink was not taken from it. -/
def isOpen (s : Session) (writer : CallId) : Bool := !(s.sink writer).dropped

def isAway (s : Session) (handle : CallId) : Bool :=
  s.calls.any fun c => c.task.handle? = some handle

/-- A reader handle that can be used. -/
def reader? (s : Session) (id : CallId) : Option Reader :=
  if s.isAway id then none else s.readers.get? id

def writer? (s : Session) (id : CallId) : Option Writer :=
  if s.isAway id then none else s.writers.get? id

def refs (s : Session) (cache : CallId) : Int := ((s.caches.get? cache).map Cache.refs).getD 0

def keyOf (s : Session) (cache : CallId) : Key :=
  ((s.caches.get? cache).map Cache.key).getD default

/-! ## Calls -/

/-- A call begins. -/
def call (s : Session) (id : CallId) (t : Task) : Session :=
  { s with calls := s.calls.set id { task := t } }

def goOn (s : Session) (id : CallId) (t : Task) : Session :=
  { s with calls := s.calls.modify id fun c => { c with task := t } }

def sleep (s : Session) (id : CallId) : Session :=
  { s with calls := s.calls.modify id fun c => { c with awake := false } }

def answer (s : Session) (id : CallId) (r : Result) : Session :=
  { s with calls := s.calls.erase id, results := s.results.set id r }

/-- The calls whose task is such look again at what they wait for. -/
def wake (s : Session) (p : Task → Bool) : Session :=
  { s with calls := s.calls.map fun _ c => if p c.task then { c with awake := true } else c }

def notifyKeys (s : Session) : Session := s.wake Task.seeks

def notifyStore (s : Session) (id : StoreId) : Session := s.wake (Task.awaits id)

/-! ## Stores and caches -/

/-- Adds a chunk to the store. Whoever waits for the store hears of it if bytes were added. -/
def appendTo (s : Session) (id : StoreId) (data : ByteArray) : Session :=
  if data.size ≠ 0 ∧ (s.store id).isOpen then
    ({ s with stores := s.stores.modify id (·.append data) }).notifyStore id
  else s

/-- The load of the store has stopped. -/
def finishStore (s : Session) (id : StoreId) : Session :=
  ({ s with stores := s.stores.modify id Store.finish }).notifyStore id

def changeStore (s : Session) (id : StoreId) : StoreChange → Session
  | .none => s
  | .append data => s.appendTo id data
  | .finish => s.finishStore id

/-- The load of the store is asked to stop. Nobody who waits hears of it. -/
def cancelStore (s : Session) (id : StoreId) : Session :=
  { s with stores := s.stores.modify id Store.cancel }

/-- Removes the loads of a store from the queue of a pool: their sources are closed, and the store
is finished if there were any. -/
def dequeue (s : Session) (n : PoolName) (id : StoreId) : Session :=
  match (s.pool n).queuedFor id with
  | [] => s
  | jobs@(_ :: _) =>
    let s := s.setPool n ((s.pool n).dequeue id)
    (jobs.foldl (fun s job => s.modifySource job.source Source.close) s).finishStore id

def touch (s : Session) (cache : CallId) : Session :=
  { s with caches := s.caches.modify cache fun c => { c with lastAccess := s.clock } }

def addRefs (s : Session) (cache : CallId) (n : Int) : Session :=
  { s with caches := s.caches.modify cache fun c => { c with refs := c.refs + n } }

def describeSlot (s : Session) (key : Key) : String :=
  match s.registry.slots.get? key with
  | none => "None"
  | some .opening => "Some(Opening)"
  | some (.reader cache) => "Some(Reader(ref_count=" ++ toString (s.refs cache) ++ "))"
  | some .closing => "Some(Closing)"
  | some (.writer lease) => "Some(Writer(" ++ lease.repr ++ "))"

end Session
end SharedStream
