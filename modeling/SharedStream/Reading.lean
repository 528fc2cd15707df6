import SharedStream.Ident
import SharedStream.Store

/-! # Readings

A read through a reader handle, which may take several reads of the store: what it is after, how
far it has come, and what it comes to.
-/
namespace SharedStream

/-- What a reading is after. -/
inductive Goal where
  /-- One read of up to `len` bytes to `offset` in the buffer. -/
  | into (offset len : Nat) (blocking : Bool)
  /-- One read from a position of its own, which leaves the handle where it is. -/
  | absolute (position : Nat) (blocking : Bool)
  | byte
  /-- One read of up to the buffer's length. -/
  | once
  /-- The whole buffer. -/
  | fill
  /-- All that is left. -/
  | toEnd
  | toText
  deriving DecidableEq, Repr

/-- Whether the handle moves on by what is read. -/
def Goal.moves : Goal → Bool
  | .absolute .. => false
  | .into .. | .byte | .once | .fill | .toEnd | .toText => true

inductive ReadResult where
  | outcome (o : ReadOutcome) (buf : ByteArray)
  | refused (e : CacheError)
  /-- The byte, unless the stream has ended. -/
  | byte (b : Option UInt8)
  | once (n : Nat) (buf : ByteArray)
  | filled (buf : ByteArray)
  | rest (data : ByteArray)
  | text (s : String)
  | failed (e : IoFailure)

structure Reading where
  reader : CallId
  cache : CallId
  goal : Goal
  /-- The buffer. For a goal that has none, what was read so far. -/
  buf : ByteArray
  /-- How much of the buffer is filled. -/
  filled : Nat := 0

namespace Reading

/-- The buffer for reads whose bytes are added to what was read so far. -/
def probe : ByteArray := ⟨Array.replicate 4096 0⟩

def request (r : Reading) (position : Nat) : Store.Request :=
  match r.goal with
  | .into offset len blocking => ⟨r.buf, offset, len, position, blocking⟩
  | .absolute own blocking => .whole r.buf own blocking
  | .byte => .whole [0].toByteArray position true
  | .once => .whole r.buf position true
  | .fill => ⟨r.buf, r.filled, r.buf.size - r.filled, position, true⟩
  | .toEnd | .toText => .whole probe position true

def unexpectedEnd : IoFailure := ⟨.unexpectedEof, "failed to fill whole buffer"⟩

def notText : IoFailure := ⟨.invalidData, "stream did not contain valid UTF-8"⟩

def textOf (data : ByteArray) : ReadResult :=
  match String.fromUTF8? data with
  | some s => .text s
  | none => .failed notText

def gather (r : Reading) (n : Nat) (buf : ByteArray) : Reading :=
  { r with buf := r.buf ++ buf.extract 0 n }

/-- The reading after one read of the store: it goes on, or it has come to something. -/
def after (r : Reading) (o : ReadOutcome) (buf : ByteArray) : Reading ⊕ ReadResult :=
  match r.goal with
  | .into .. | .absolute .. => .inr (.outcome o buf)
  | .byte => .inr (.byte (if o = .bytes 1 then buf.data[0]? else none))
  | .once => .inr (.once o.count buf)
  | .fill =>
    if buf.size ≤ r.filled + o.count then .inr (.filled buf)
    else if o.count = 0 then .inr (.failed unexpectedEnd)
    else .inl { r with buf := buf, filled := r.filled + o.count }
  | .toEnd => if o.count = 0 then .inr (.rest r.buf) else .inl (r.gather o.count buf)
  | .toText => if o.count = 0 then .inr (textOf r.buf) else .inl (r.gather o.count buf)

end Reading
end SharedStream
