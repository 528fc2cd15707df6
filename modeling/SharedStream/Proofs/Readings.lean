import SharedStream.Session.Reach

/-! # The moves of a reading

What one move of a call that reads can come to.
-/
namespace SharedStream

theorem Reading.after_inl {r r' : Reading} {o : ReadOutcome} {buf : ByteArray}
    (h : r.after o buf = .inl r') :
    r'.reader = r.reader ∧ r'.cache = r.cache ∧ r'.goal = r.goal := by
  unfold Reading.after at h
  split at h
  · cases h
  · cases h
  · cases h
  · cases h
  · next goal =>
    split at h
    · cases h
    split at h
    · cases h
    · cases h
      exact ⟨rfl, rfl, rfl⟩
  all_goals
    split at h
    · cases h
    · cases h
      exact ⟨rfl, rfl, rfl⟩

namespace Session

/-- The handle after a read of the store that came to `o`. -/
def advanced (r : Reading) (h : Reader) (o : ReadOutcome) : Reader :=
  { h with cursor := if r.goal.moves then h.cursor.advance o.count else h.cursor }

/-- The session after a read of the store that came to `o`, before the call goes on or ends. -/
def moved (s : Session) (r : Reading) (h : Reader) (o : ReadOutcome) : Session :=
  let t := { s with readers := s.readers.set r.reader (advanced r h o) }
  if (r.request h.cursor.position).len = 0 then t else t.touch r.cache

/-- What a move of a reading can come to. -/
inductive ReadMove (s : Session) (id : CallId) (r : Reading) : Session → Prop
  | missing : s.readers.get? r.reader = none → ReadMove s id r (s.answer id (.missing .handle))
  | refused {h : Reader} {e : CacheError} : s.readers.get? r.reader = some h →
      (s.store (.cache r.cache)).read (r.request h.cursor.position) = .refused e →
      ReadMove s id r (s.answer id (.read (.refused e) h.cursor.position))
  | waits {h : Reader} : s.readers.get? r.reader = some h →
      (s.store (.cache r.cache)).read (r.request h.cursor.position) = .waits →
      ReadMove s id r (s.sleep id)
  | goesOn {h : Reader} {o : ReadOutcome} {buf : ByteArray} {r' : Reading} :
      s.readers.get? r.reader = some h →
      (s.store (.cache r.cache)).read (r.request h.cursor.position) = .done o buf →
      r.after o buf = .inl r' → ReadMove s id r ((s.moved r h o).goOn id (.read r'))
  | ends {h : Reader} {o : ReadOutcome} {buf : ByteArray} {result : ReadResult} :
      s.readers.get? r.reader = some h →
      (s.store (.cache r.cache)).read (r.request h.cursor.position) = .done o buf →
      r.after o buf = .inr result →
      ReadMove s id r ((s.moved r h o).answer id (.read result (advanced r h o).cursor.position))

theorem readMove (s : Session) (id : CallId) (r : Reading) :
    s.ReadMove id r (s.moveReading id r) := by
  unfold moveReading
  split
  · next none => exact .missing none
  next h hr =>
  dsimp only
  split
  · next e read => exact .refused hr read
  · next read => exact .waits hr read
  next o buf read =>
  split
  · next r' after => exact .goesOn hr read after
  · next result after => exact .ends hr read after

@[simp] theorem calls_moved (s : Session) (r : Reading) (h : Reader) (o : ReadOutcome) :
    (s.moved r h o).calls = s.calls := by
  unfold moved
  dsimp only
  split <;> rfl

end Session
end SharedStream
