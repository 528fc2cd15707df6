import SharedStream.Proofs.Readings

/-! # Moves that leave the loads alone

Most tasks have to do with keys, handles and answers only. They leave all that loads are made of as
it is: sources, stores and pools.
-/
namespace SharedStream

/-- The task neither builds a source nor runs a load, and it stops none. -/
def Task.bystands : Task → Bool
  | .seekReader .. | .makeSource .. | .fill .. | .cancelCache .. | .dequeueCache ..
  | .load _ => false
  | _ => true

namespace Session

variable {s u : Session} {id : CallId} {a : Task} {l : Load}

/-- Sources, stores and pools are as they were. -/
structure Bystands (s u : Session) : Prop where
  sources : u.sources = s.sources
  stores : u.stores = s.stores
  pool : u.registry.pool = s.registry.pool
  separate : u.separate = s.separate
  config : u.registry.config = s.registry.config
  ending : u.registry.ending = s.registry.ending

theorem bystands_moved (r : Reading) (h : Reader) (o : ReadOutcome) :
    s.Bystands (s.moved r h o) := by
  unfold Session.moved
  dsimp only
  split <;> constructor <;> rfl

theorem bystands_moveReading (r : Reading) : s.Bystands (s.moveReading id r) := by
  have move := s.readMove id r
  generalize s.moveReading id r = u at move ⊢
  cases move with
  | missing | refused | waits => constructor <;> rfl
  | @goesOn h o => exact { bystands_moved r h o with }
  | @ends h o => exact { bystands_moved r h o with }

theorem Bystands.depart (h : s.Bystands u) (x : ClosedHandle) (r : Result) (p : Parting) :
    s.Bystands (u.depart id x r p) := by
  cases p <;> exact { h with }

theorem bystands_settleHandle (h : ClosedHandle) : s.Bystands (s.settleHandle h) := by
  cases h with
  | reader cache released =>
    simp only [settleHandle]
    split
    · constructor <;> rfl
    split <;> constructor <;> rfl
  | writer writer key =>
    simp only [settleHandle]
    split
    · constructor <;> rfl
    split <;> constructor <;> rfl

theorem bystands_moveTask (aside : a.bystands = true) : s.Bystands (s.moveTask id a) := by
  cases a with
  | seekReader | makeSource | fill | cancelCache | dequeueCache | load => cases aside
  | seekWriter key =>
    show s.Bystands (s.moveSeekWriter id key)
    unfold moveSeekWriter
    split
    · constructor <;> rfl
    split
    · constructor <;> rfl
    · split
      · constructor <;> rfl
      split <;> constructor <;> rfl
    all_goals constructor <;> rfl
  | awaitCache key cache =>
    show s.Bystands (s.moveAwaitCache id key cache)
    unfold moveAwaitCache
    split <;> constructor <;> rfl
  | lease key =>
    show s.Bystands (s.moveLease id key)
    unfold moveLease
    split <;> constructor <;> rfl
  | read r => exact bystands_moveReading r
  | leave reader parting =>
    show s.Bystands (s.moveLeave id reader parting)
    unfold moveLeave
    split
    · constructor <;> rfl
    dsimp only
    split
    · exact Bystands.depart (by constructor <;> rfl) ..
    split
    · constructor <;> rfl
    · exact Bystands.depart (by constructor <;> rfl) ..
  | announce h parting => exact Bystands.depart (by constructor <;> rfl) ..
  | giveBack writer flush parting =>
    show s.Bystands (s.moveGiveBack id writer flush parting)
    unfold moveGiveBack
    split
    · constructor <;> rfl
    dsimp only
    split
    · exact Bystands.depart (by constructor <;> rfl) ..
    · exact Bystands.depart (by constructor <;> rfl) ..
  | expire h r => exact { bystands_settleHandle h with }
  | readStore store r =>
    show s.Bystands (s.moveReadStore id store r)
    unfold moveReadStore
    split <;> constructor <;> rfl
  | awaitStore store =>
    show s.Bystands (s.moveAwaitStore id store)
    unfold moveAwaitStore
    split <;> constructor <;> rfl
  | makeLoad job =>
    show s.Bystands (s.moveMakeLoad id job)
    unfold moveMakeLoad
    split <;> constructor <;> rfl
  | standIn key i =>
    show s.Bystands (s.moveStandIn id key i)
    unfold moveStandIn
    split <;> constructor <;> rfl
  | assist i =>
    show s.Bystands (s.moveAssist id i)
    unfold moveAssist
    split <;> constructor <;> rfl
  | register | closeSink => constructor <;> rfl

/-- A call that runs a load does no more to them than the load does. -/
theorem bystands_of_load (load : a.load? = some l) :
    (s.advanceLoad l).2.Bystands (s.moveTask id a) := by
  cases a with
  | fill key l' =>
    cases load
    show (s.advanceLoad l).2.Bystands (s.moveFill id key l)
    unfold moveFill
    rcases hl : s.advanceLoad l with ⟨m, u⟩
    cases m <;> constructor <;> rfl
  | load l' =>
    cases load
    show (s.advanceLoad l).2.Bystands (s.moveLoad id l)
    unfold moveLoad
    rcases hl : s.advanceLoad l with ⟨m, u⟩
    cases m <;> constructor <;> rfl
  | _ => cases load

end Session
end SharedStream
