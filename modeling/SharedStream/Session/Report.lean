import SharedStream.Session.Settle
import SharedStream.Session.Begin
import SharedStream.Stats

/-! # Reports

What can be seen of a session without changing it, and what a step of it brings.
-/
namespace SharedStream.Session

/-! ## Steps -/

/-- An operation is asked for at step `id`, and everything runs until nobody can move. -/
def step (s : Session) (id : CallId) (op : Op) : Session := (s.begin id op).settle

/-- What the calls came to that ended after `seen` others had, by the step at which they were
made. -/
def endedAfter (s : Session) (seen : Nat) : List (CallId × Result) :=
  (s.results.entries.drop seen).mergeSort fun a b => a.1 ≤ b.1

def pending (s : Session) : List CallId := s.calls.keys.mergeSort fun a b => a ≤ b

/-! ## The registry -/

def refCount? (s : Session) (key : Key) : Option Int := (s.registry.cache? key).map s.refs

def stats (s : Session) : RegistryStats where
  readers := s.registry.caches.length
  writers := s.registry.writerCount
  closing := s.registry.slots.countP (· = .closing)
  opening := s.registry.slots.countP (· = .opening)
  loadsActive := s.registry.pool.active
  loadsQueued := s.registry.pool.queue.length

def describeCache (s : Session) (id : CallId) (c : Cache) : ResourceStats Nat where
  key := c.key
  refCount := c.refs
  loadedBytes := (s.store (.cache id)).loadedLen
  chunks := (s.store (.cache id)).chunks.size
  finished := (s.store (.cache id)).finished
  loadMode := c.mode
  lastAccess := c.lastAccess

def snapshot (s : Session) : List (ResourceStats Nat) :=
  (s.registry.caches.filterMap fun id => (s.caches.get? id).map (s.describeCache id)).mergeSort
    fun a b => b.lastAccess ≤ a.lastAccess

/-! ## Handles -/

def available (s : Session) (h : Reader) : Nat :=
  (s.store (.cache h.cache)).loadedLen - h.cursor.position

/-- Whether two handles read from the same cache; nothing unless both can be used. -/
def shares? (s : Session) (a b : CallId) : Option Bool := do
  return (← s.reader? a).cache = (← s.reader? b).cache

def describeReader (s : Session) (h : Reader) : String :=
  "CachedReader \x7b key: " ++ (s.keyOf h.cache).describe ++ ", position: " ++
    h.cursor.position.repr ++ ", released: " ++ toString h.released ++ " \x7d"

/-- A writer handle as a fault report shows it, with `lease` for the name of its lease. -/
def describeWriter (s : Session) (id : CallId) (w : Writer) (lease : String) : String :=
  "CachedWriter \x7b key: " ++ w.key.describe ++ ", lease: " ++ lease ++ ", bytes_written: " ++
    w.written.repr ++ ", open: " ++ toString (s.isOpen id) ++ " \x7d"

/-- Whether the call was given a lease, now or earlier. -/
def wasGranted (s : Session) (id : CallId) : Bool :=
  s.sinks.contains id && match s.results.get? id with
    | some .done => true
    | _ => false

/-- Whether two calls were given the same lease; nothing unless both were given one. -/
def sameLease? (s : Session) (a b : CallId) : Option Bool :=
  if s.wasGranted a && s.wasGranted b then some (a = b) else none

end SharedStream.Session
