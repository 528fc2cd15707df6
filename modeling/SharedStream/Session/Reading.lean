import SharedStream.Session

/-! # Reading

The moves of calls that read a store or wait for its end.
-/
namespace SharedStream.Session

/-- One read of the store for a reading. A read of some length is an access of the cache. -/
def moveReading (s : Session) (id : CallId) (r : Reading) : Session :=
  match s.readers.get? r.reader with
  | none => s.answer id (.missing .handle)
  | some h =>
    let request := r.request h.cursor.position
    match (s.store (.cache r.cache)).read request with
    | .refused e => s.answer id (.read (.refused e) h.cursor.position)
    | .waits => s.sleep id
    | .done o buf =>
      let cursor := if r.goal.moves then h.cursor.advance o.count else h.cursor
      let s := { s with readers := s.readers.set r.reader { h with cursor := cursor } }
      let s := if request.len = 0 then s else s.touch r.cache
      match r.after o buf with
      | .inl r => s.goOn id (.read r)
      | .inr result => s.answer id (.read result cursor.position)

def moveReadStore (s : Session) (id : CallId) (store : StoreId) (r : Store.Request) : Session :=
  match (s.store store).read r with
  | .refused e => s.answer id (.storeRead (.refused e))
  | .waits => s.sleep id
  | .done o buf => s.answer id (.storeRead (.outcome o buf))

def moveAwaitStore (s : Session) (id : CallId) (store : StoreId) : Session :=
  if (s.store store).finished then s.answer id (.length (s.store store).loadedLen) else s.sleep id

end SharedStream.Session
