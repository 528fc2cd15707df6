import SharedStream.Session

/-! # Leasing keys to writers

The moves of a call that opens a writer. A cache that nobody reads is torn down first, while the
slot is `closing`: the lease is taken only after the load of the cache has stopped.
-/
namespace SharedStream.Session

def refuse (s : Session) (id : CallId) (e : CacheError) : Session :=
  (s.dropSink id).answer id (.refused e)

def grant (s : Session) (id : CallId) (key : Key) : Session :=
  let s := (s.setSlot key (.writer id)).notifyKeys
  ({ s with writers := s.writers.set id { key := key } }).answer id .done

def negativeRefs (key : Key) (refs : Int) : CacheError :=
  .invariantViolation ("ref count for " ++ key.text ++ " is negative (" ++ toString refs ++ ")")

def lostSlot (key : Key) (found : String) : CacheError :=
  .invariantViolation
    ("slot for " ++ key.text ++ " changed during teardown (slot: " ++ found ++ ")")

def moveSeekWriter (s : Session) (id : CallId) (key : Key) : Session :=
  if s.registry.shutDown then s.refuse id (.interruptedWait key)
  else match s.registry.slots.get? key with
    | none => s.grant id key
    | some (.reader cache) =>
      if s.refs cache < 0 then s.refuse id (negativeRefs key (s.refs cache))
      else if s.refs cache = 0 then (s.setSlot key .closing).goOn id (.cancelCache key cache)
      else s.sleep id
    | some .opening | some .closing | some (.writer _) => s.sleep id

def moveCancelCache (s : Session) (id : CallId) (key : Key) (cache : CallId) : Session :=
  (s.cancelStore (.cache cache)).goOn id (.dequeueCache key cache)

def moveDequeueCache (s : Session) (id : CallId) (key : Key) (cache : CallId) : Session :=
  (s.dequeue .registry (.cache cache)).goOn id (.awaitCache key cache)

def moveAwaitCache (s : Session) (id : CallId) (key : Key) (cache : CallId) : Session :=
  if (s.store (.cache cache)).finished then s.goOn id (.lease key) else s.sleep id

def moveLease (s : Session) (id : CallId) (key : Key) : Session :=
  if s.registry.slots.get? key = some .closing then s.grant id key
  else s.refuse id (lostSlot key (s.describeSlot key))

end SharedStream.Session
