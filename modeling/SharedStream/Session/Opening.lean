import SharedStream.Session.Loading

/-! # Opening readers

The moves of a call that opens a reader. It attaches to the cache of its key if there is one. On a
free key it builds the cache itself while the slot is `opening`; if that fails, the key is free
again.
-/
namespace SharedStream.Session

def attach (s : Session) (id cache : CallId) : Session :=
  let s := (s.addRefs cache 1).touch cache
  ({ s with readers := s.readers.set id { cache := cache } }).answer id .done

def newCache (s : Session) (id : CallId) (key : Key) (mode : LoadMode) : Session :=
  { s with
    stores := s.stores.set (.cache id) {}
    caches := s.caches.set id { key := key, mode := mode, lastAccess := s.clock } }

def abandon (s : Session) (id : CallId) (key : Key) (r : Result) : Session :=
  ((s.freeSlot key).notifyKeys).answer id r

def moveSeekReader (s : Session) (id : CallId) (key : Key) (mode : LoadMode) : Session :=
  if s.registry.shutDown then s.answer id (.refused (.interruptedWait key))
  else match s.registry.slots.get? key with
    | none => ((s.setSlot key .opening).modifySource id Source.build).goOn id (.makeSource key mode)
    | some (.reader cache) => s.attach id cache
    | some .opening | some .closing | some (.writer _) => s.sleep id

/-- The factory runs. What it gives is loaded by the call itself or queued. -/
def moveMakeSource (s : Session) (id : CallId) (key : Key) (mode : LoadMode) : Session :=
  match (s.source id).factory with
  | .fails e => s.abandon id key (.refused (.sourceCreation key e))
  | .panics text => s.abandon id key (.panicked text)
  | .gives =>
    let job : Job := ⟨.cache id, id, s.registry.config.chunkSize⟩
    let s := s.newCache id key mode
    match mode with
    | .sync => s.goOn id (.fill key job.start)
    | .async =>
      let threaded := (s.source id).threaded
      let denied := (s.pool .registry).denied? threaded
      (s.setPool .registry ((s.pool .registry).submit job threaded)).goOn id (.submitted key denied)

def moveFill (s : Session) (id : CallId) (key : Key) (l : Load) : Session :=
  let (m, s) := s.advanceLoad l
  match m with
  | .goesOn p => s.goOn id (.fill key { l with phase := p })
  | .ends => s.goOn id (.register key)
  | .panics text => s.abandon id key (.panicked text)

/-- The call has run loads in the place of a worker. If one has panicked, so does the call. -/
def moveStandIn (s : Session) (id : CallId) (key : Key) (i : Nat) : Session :=
  match s.fall? .registry i with
  | some text => s.abandon id key (.panicked text)
  | none => s.goOn id (.register key)

def moveRegister (s : Session) (id : CallId) (key : Key) : Session :=
  ((s.setSlot key (.reader id)).notifyKeys).attach id id

end SharedStream.Session
