import SharedStream.Session

/-! # Loading

The moves of workers and of those that stand in for them, of calls that run a load themselves, and
of a queue that no worker is left for.
-/
namespace SharedStream.Session

def advanceLoad (s : Session) (l : Load) : LoadMove × Session :=
  let step := l.phase.step l.job.chunkSize (s.source l.job.source) (s.store l.job.store)
  let s := s.modifySource l.job.source fun _ => step.source
  (step.move, s.changeStore l.job.store step.change)

def loadCanMove (s : Session) (l : Load) : Bool := l.phase.canMove (s.source l.job.source)

def moveWorker (s : Session) (n : PoolName) (i : Nat) : Session :=
  match (s.pool n).staff[i]? with
  | some .ready => s.setPool n ((s.pool n).look i)
  | some .woken => s.setPool n ((s.pool n).rouse.look i)
  | some (.loading l rest) =>
    let (m, s) := s.advanceLoad l
    s.setPool n ((s.pool n).setWorker i (.after l rest m))
  | some .denied => s.setPool n ((s.pool n).retract i)
  | some (.between (job :: rest)) =>
    s.setPool n ((s.pool n).setWorker i (.loading job.start (some rest)))
  | some (.fallen text (job :: rest)) =>
    (s.modifySource job.source Source.close).setPool n ((s.pool n).setWorker i (.fallen text rest))
  | some .asleep | some .gone | some .dead | some (.between []) | some (.fallen _ []) | none => s

def workerCanMove (s : Session) (n : PoolName) (i : Nat) : Bool :=
  match (s.pool n).staff[i]? with
  | some .ready | some .woken | some .denied | some (.between (_ :: _))
  | some (.fallen _ (_ :: _)) => true
  | some (.loading l _) => s.loadCanMove l
  | some .asleep | some .gone | some .dead | some (.between []) | some (.fallen _ [])
  | none => false

/-- Whether a stand-in has done all that it has to. -/
def hasStoodIn (s : Session) (n : PoolName) (i : Nat) : Bool :=
  match (s.pool n).staff[i]? with
  | some (.between []) | some (.fallen _ []) => true
  | _ => false

/-- What a stand-in has panicked with. -/
def fall? (s : Session) (n : PoolName) (i : Nat) : Option String :=
  match (s.pool n).staff[i]? with
  | some (.fallen text _) => some text
  | _ => none

/-- Whether a pool has loads that nobody will ever run. -/
def poolCanMove (s : Session) (n : PoolName) : Bool :=
  (s.pool n).isAbandoned && !(s.pool n).queue.isEmpty

/-- The queue of a pool goes with the pool: the sources of its loads are closed, and since nobody
ran the loads, their stores stay as they are. -/
def dropQueue (s : Session) (n : PoolName) : Session :=
  let jobs := (s.pool n).queue
  let s := s.setPool n { s.pool n with queue := [] }
  jobs.foldl (fun s job => s.modifySource job.source Source.close) s

def moveLoad (s : Session) (id : CallId) (l : Load) : Session :=
  let (m, s) := s.advanceLoad l
  match m with
  | .goesOn p => s.goOn id (.load { l with phase := p })
  | .ends =>
    let store := s.store l.job.store
    s.answer id (.loaded store.loadedLen store.chunks.size)
  | .panics text => s.answer id (.panicked text)

/-- The call has run loads in the place of a worker of the separate pool. -/
def moveAssist (s : Session) (id : CallId) (i : Nat) : Session :=
  match s.fall? .separate i with
  | some text => s.answer id (.panicked text)
  | none => s.answer id .done

def moveMakeLoad (s : Session) (id : CallId) (job : Job) : Session :=
  match (s.source job.source).factory with
  | .gives => s.goOn id (.load job.start)
  | .fails e => s.answer id (.failed e)
  | .panics text => s.answer id (.panicked text)

end SharedStream.Session
