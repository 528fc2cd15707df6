import SharedStream.Session.Leasing
import SharedStream.Session.Opening
import SharedStream.Session.Parting
import SharedStream.Session.Reading

/-! # Moves

Who can move in a session, and what the next move of each is. In a settled session nobody can.
-/
namespace SharedStream

inductive Actor where
  | call (id : CallId)
  | worker (pool : PoolName) (i : Nat)
  /-- A pool, which drops its queue when nobody works for it any more. -/
  | pool (name : PoolName)
  /-- The registry itself, which ends when nobody holds it. -/
  | registry
  deriving DecidableEq, Repr

namespace Session

/-- Whether the task is not held up by something outside the call: a factory that waits, a source
without anything to give, or the loads that the call runs in the place of a worker. -/
def taskCanMove (s : Session) (id : CallId) (t : Task) : Bool :=
  match t with
  | .makeSource .. => !(s.source id).held
  | .makeLoad job => !(s.source job.source).held
  | .fill _ l | .load l => s.loadCanMove l
  | .standIn _ i => s.hasStoodIn .registry i
  | .assist i => s.hasStoodIn .separate i
  | _ => true

def canMove (s : Session) : Actor → Bool
  | .call id =>
    match s.calls.get? id with
    | some c => c.awake && s.taskCanMove id c.task
    | none => false
  | .worker n i => s.workerCanMove n i
  | .pool n => s.poolCanMove n
  | .registry =>
    match s.registry.ending with
    | .ahead => !s.hasHolder
    | .cancel _ | .dequeue .. => true
    | .done => false

def moveTask (s : Session) (id : CallId) : Task → Session
  | .seekReader key mode => s.moveSeekReader id key mode
  | .makeSource key mode => s.moveMakeSource id key mode
  | .fill key l => s.moveFill id key l
  | .standIn key i => s.moveStandIn id key i
  | .register key => s.moveRegister id key
  | .seekWriter key => s.moveSeekWriter id key
  | .cancelCache key cache => s.moveCancelCache id key cache
  | .dequeueCache key cache => s.moveDequeueCache id key cache
  | .awaitCache key cache => s.moveAwaitCache id key cache
  | .lease key => s.moveLease id key
  | .read r => s.moveReading id r
  | .leave reader parting => s.moveLeave id reader parting
  | .announce h parting => s.moveAnnounce id h parting
  | .closeSink writer parting => s.moveCloseSink id writer parting
  | .giveBack writer flush parting => s.moveGiveBack id writer flush parting
  | .expire h r => s.moveExpire id h r
  | .readStore store r => s.moveReadStore id store r
  | .awaitStore store => s.moveAwaitStore id store
  | .makeLoad job => s.moveMakeLoad id job
  | .load l => s.moveLoad id l
  | .assist i => s.moveAssist id i

def move (s : Session) : Actor → Session
  | .call id =>
    match s.calls.get? id with
    | some c => s.moveTask id c.task
    | none => s
  | .worker n i => s.moveWorker n i
  | .pool n => s.dropQueue n
  | .registry => s.endRegistry

def actors (s : Session) : List Actor :=
  s.calls.keys.map .call ++
    (List.range s.registry.pool.staff.length).map (.worker .registry) ++
    (List.range s.separate.staff.length).map (.worker .separate) ++
    [.pool .registry, .pool .separate, .registry]

/-- Nobody can move before something new is asked for. -/
def Settled (s : Session) : Prop := ∀ a, s.canMove a = false

end Session
end SharedStream
