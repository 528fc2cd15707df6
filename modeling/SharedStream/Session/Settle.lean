import SharedStream.Session.Moves

/-! # Settling

One order of moves that leads to a settled session. Sources are read one read at a time: before
each read all other moves are made, and of several sources that can be read the one made first has
its turn.
-/
namespace SharedStream.Session

def loadOf? (s : Session) : Actor → Option Load
  | .call id => (s.calls.get? id).bind fun c => c.task.load?
  | .worker n i =>
    match (s.pool n).staff[i]? with
    | some (.loading l _) => some l
    | _ => none
  | .pool _ | .registry => none

def readsFrom? (s : Session) (a : Actor) : Option CallId :=
  (s.loadOf? a).bind fun l => if l.phase = .reading then some l.job.source else none

/-- Of two actors that wait for reads of sources, the one whose source was made first. -/
def earlier (s : Session) (best : Option Actor) (a : Actor) : Option Actor :=
  match best, s.readsFrom? a with
  | none, _ => some a
  | some b, some source =>
    if (s.readsFrom? b).any (source < ·) then some a else some b
  | some b, none => some b

def next? (s : Session) : Option Actor :=
  let ready := s.actors.filter s.canMove
  match ready.find? fun a => (s.readsFrom? a).isNone with
  | some a => some a
  | none => ready.foldl s.earlier none

/-- Makes moves until nobody can move, and at most `fuel` moves. -/
def settleWithin (fuel : Nat) (s : Session) : Session :=
  match fuel with
  | 0 => s
  | fuel + 1 =>
    match s.next? with
    | some a => settleWithin fuel (s.move a)
    | none => s

/-- A bound on the number of moves: each actor looks again only after somebody else has done
something, and what can be done is bounded by the reads that sources answer and the bytes that are
there to be read. -/
def movesLeft (s : Session) : Nat :=
  let waiting := s.registry.pool.waiting.length + s.separate.waiting.length
  let actors := s.actors.length + waiting + 1
  let reads := s.sources.values.foldl (fun n source => n + source.readsLeft) 0
  let bytes := s.stores.values.foldl (fun n store => n + store.loadedLen) 0
  64 * (actors * actors) * (actors + reads + bytes)

def settle (s : Session) : Session := s.settleWithin s.movesLeft

end SharedStream.Session
