import SharedStream.Config
import SharedStream.Handle
import SharedStream.Load
import SharedStream.Pool
import SharedStream.Reading
import SharedStream.Sink
import SharedStream.Source

/-! # Calls

What callers may ask for, what each call is about to do next, and what it comes to. A call goes on
in moves that nothing interrupts; its task says which move is next.
-/
namespace SharedStream

/-- The two ways to give a handle up. -/
inductive Parting where
  /-- Failures are reported. -/
  | close
  /-- Failures are dropped. -/
  | drop
  deriving DecidableEq, Repr

inductive Op where
  | openReader (key : Key) (mode : Option LoadMode) (plan : SourcePlan)
  | openWriter (key : Key) (plan : SinkPlan)
  | shutdown
  /-- The registry is let go. It ends when no handle and no open is left. -/
  | dropRegistry
  | read (reader : CallId) (goal : Goal) (buf : ByteArray)
  | skip (reader : CallId) (len : Nat)
  | write (writer : CallId) (data : ByteArray)
  | writeAll (writer : CallId) (data : ByteArray)
  | flush (writer : CallId)
  | part (handle : CallId) (parting : Parting)
  | feed (source : CallId) (items : List SourceItem)
  | ungate (source : CallId)
  | release (source : CallId)
  | newStore
  | append (store : CallId) (data : ByteArray)
  | finish (store : CallId)
  | cancel (store : CallId)
  | readStore (store : CallId) (request : Store.Request)
  | awaitStore (store : CallId)
  | load (store : CallId) (plan : SourcePlan) (chunkSize : Nat)
  | submit (store : CallId) (plan : SourcePlan) (chunkSize : Nat)
  | dequeue (store : CallId)
  | dropPool

inductive Missing where
  | registry
  | handle
  | source
  | store
  | pool
  deriving DecidableEq, Repr

inductive Result where
  | done
  | refused (e : CacheError)
  | failed (e : IoFailure)
  | panicked (text : String)
  | missing (m : Missing)
  | flag (b : Bool)
  /-- What a reading came to, and where it left its handle. -/
  | read (r : ReadResult) (position : Nat)
  | storeRead (r : ReadResult)
  | skipped (n position available : Nat)
  /-- What a write came to, and all that its writer has written. -/
  | wrote (r : Except IoFailure Nat) (total : Nat)
  | wroteAll (r : Except IoFailure Unit) (total : Nat)
  | flushed (r : Except IoFailure Unit)
  | length (n : Nat)
  | loaded (len chunks : Nat)

inductive Task where
  /-- Looks at the slot of the key that is to be read. -/
  | seekReader (key : Key) (mode : LoadMode)
  /-- Runs its factory; the slot is `opening`. -/
  | makeSource (key : Key) (mode : LoadMode)
  | fill (key : Key) (load : Load)
  /-- Stands in for worker `i` of the pool of the registry, for which no thread could be had. -/
  | standIn (key : Key) (i : Nat)
  | register (key : Key)
  | seekWriter (key : Key)
  /-- Asks the load of the cache to stop; the slot is `closing`. -/
  | cancelCache (key : Key) (cache : CallId)
  | dequeueCache (key : Key) (cache : CallId)
  | awaitCache (key : Key) (cache : CallId)
  | lease (key : Key)
  | read (r : Reading)
  /-- Subtracts the handle from the readers of its cache. -/
  | leave (reader : CallId) (parting : Parting)
  /-- Tells the other calls that a cache has lost its last reader. -/
  | announce (h : ClosedHandle) (parting : Parting)
  | closeSink (writer : CallId) (parting : Parting)
  /-- Gives the lease back; the flush may have failed. -/
  | giveBack (writer : CallId) (flush : Option IoFailure) (parting : Parting)
  /-- Drops a handle after its close, which came to `r`. -/
  | expire (h : ClosedHandle) (r : Result)
  | readStore (store : StoreId) (request : Store.Request)
  | awaitStore (store : StoreId)
  | makeLoad (job : Job)
  | load (load : Load)
  /-- Stands in for worker `i` of the separate pool. -/
  | assist (i : Nat)

namespace Task

/-- Whether the call waits for a change of its key's slot. -/
def seeks : Task → Bool
  | .seekReader .. | .seekWriter _ => true
  | _ => false

/-- Whether the call waits for a change of the store. -/
def awaits (store : StoreId) : Task → Bool
  | .awaitCache _ cache => .cache cache = store
  | .read r => .cache r.cache = store
  | .readStore id _ | .awaitStore id => id = store
  | _ => false

def handle? : Task → Option CallId
  | .read r => some r.reader
  | .leave h _ | .closeSink h _ | .giveBack h _ _ => some h
  | _ => none

/-- Whether the call keeps the registry from ending. -/
def holdsRegistry : Task → Bool
  | .seekReader .. | .makeSource .. | .fill .. | .standIn .. | .register .. | .seekWriter _
  | .cancelCache .. | .dequeueCache .. | .awaitCache .. | .lease _ | .leave .. | .announce ..
  | .closeSink .. | .giveBack .. | .expire .. => true
  | .read _ | .readStore .. | .awaitStore _ | .makeLoad _ | .load _ | .assist _ => false

/-- What a call does that has submitted a load for its key: it goes on, or stands in for the worker
that was denied a thread. -/
def submitted (key : Key) : Option Nat → Task
  | none => .register key
  | some i => .standIn key i

def load? : Task → Option Load
  | .fill _ l | .load l => some l
  | _ => none

end Task

structure Call where
  task : Task
  /-- Whether it may try its next move. It sleeps after it has found that it has to wait. -/
  awake : Bool := true

end SharedStream
