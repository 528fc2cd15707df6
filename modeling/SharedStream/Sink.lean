import SharedStream.Failure

/-! # Sinks

Where a writer's bytes go: a script of what each write and each flush does, what was accepted, and
how often it was called. When a script is used up, everything succeeds.
-/
namespace SharedStream

inductive WriteRule where
  /-- At most so many bytes are accepted. -/
  | accept (limit : Nat)
  | fail (e : IoFailure)

structure SinkPlan where
  writes : List WriteRule := []
  /-- What each flush does: it succeeds or fails. -/
  flushes : List (Option IoFailure) := []

structure Sink extends SinkPlan where
  data : ByteArray := .empty
  writeCalls : Nat := 0
  flushCalls : Nat := 0
  dropped : Bool := false

def SinkPlan.sink (p : SinkPlan) : Sink := { toSinkPlan := p }

namespace Sink

def write (s : Sink) (data : ByteArray) : Except IoFailure Nat × Sink :=
  let s := { s with writeCalls := s.writeCalls + 1 }
  match s.writes with
  | [] => (.ok data.size, { s with data := s.data ++ data })
  | .accept limit :: rest =>
    let n := min limit data.size
    (.ok n, { s with writes := rest, data := s.data ++ data.extract 0 n })
  | .fail e :: rest => (.error e, { s with writes := rest })

def flush (s : Sink) : Except IoFailure Unit × Sink :=
  let s := { s with flushCalls := s.flushCalls + 1 }
  match s.flushes with
  | some e :: rest => (.error e, { s with flushes := rest })
  | none :: rest => (.ok (), { s with flushes := rest })
  | [] => (.ok (), s)

def close (s : Sink) : Sink := { s with dropped := true }

@[simp] theorem dropped_write (s : Sink) (data : ByteArray) :
    (s.write data).2.dropped = s.dropped := by
  unfold write
  dsimp only
  split <;> rfl

@[simp] theorem dropped_flush (s : Sink) : s.flush.2.dropped = s.dropped := by
  unfold flush
  dsimp only
  split <;> rfl

end Sink

structure Tally where
  sink : Sink
  written : Nat

namespace Tally

def write (t : Tally) (data : ByteArray) : Except IoFailure Nat × Tally :=
  match t.sink.write data with
  | (.ok n, sink) => (.ok n, ⟨sink, t.written + n⟩)
  | (.error e, sink) => (.error e, ⟨sink, t.written⟩)

def flush (t : Tally) : Except IoFailure Unit × Tally :=
  let (r, sink) := t.sink.flush
  (r, { t with sink := sink })

def writeZero : IoFailure := ⟨.writeZero, "failed to write whole buffer"⟩

/-- Writes until all is accepted. An interrupted write is tried again; a write of which nothing is
accepted is a failure. Each round uses up a rule of the sink's script, or all bytes when none is
left, so `fuel` is more than the length of the script. -/
def writeAllFrom (fuel : Nat) (t : Tally) (data : ByteArray) : Except IoFailure Unit × Tally :=
  match fuel with
  | 0 => (.ok (), t)
  | fuel + 1 =>
    if data.size = 0 then (.ok (), t)
    else match t.write data with
      | (.ok 0, t) => (.error writeZero, t)
      | (.ok n, t) => writeAllFrom fuel t (data.extract n data.size)
      | (.error e, t) => if e.kind = .interrupted then writeAllFrom fuel t data else (.error e, t)

def writeAll (t : Tally) (data : ByteArray) : Except IoFailure Unit × Tally :=
  writeAllFrom (t.sink.writes.length + 2) t data

@[simp] theorem dropped_write (t : Tally) (data : ByteArray) :
    (t.write data).2.sink.dropped = t.sink.dropped := by
  have sink := t.sink.dropped_write data
  unfold write
  split <;> simp_all

@[simp] theorem dropped_flush (t : Tally) : t.flush.2.sink.dropped = t.sink.dropped :=
  t.sink.dropped_flush

/-- To write is not to give up. -/
@[simp] theorem dropped_writeAll (t : Tally) (data : ByteArray) :
    (t.writeAll data).2.sink.dropped = t.sink.dropped := by
  unfold writeAll
  generalize t.sink.writes.length + 2 = fuel
  induction fuel generalizing t data with
  | zero => rfl
  | succ fuel ih =>
    have first := t.dropped_write data
    unfold writeAllFrom
    split
    · rfl
    split
    · next u h =>
      rw [h] at first
      exact first
    · next n u _ h =>
      rw [h] at first
      exact (ih u _).trans first
    · next e u h =>
      rw [h] at first
      split
      · exact (ih u _).trans first
      · exact first

end Tally
end SharedStream
