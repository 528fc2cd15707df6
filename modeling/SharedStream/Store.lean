import SharedStream.Failure
import SharedStream.Outcome

/-! # Stores

The bytes of a resource as far as they are loaded: chunks in the order of the stream, each starting
where the one before it ends. A store only grows, until its load stops.
-/
namespace SharedStream

/-- A run of bytes and its place in the stream. -/
structure Chunk where
  start : Nat
  data : ByteArray

def Chunk.stop (c : Chunk) : Nat := c.start + c.data.size

structure Store where
  chunks : Array Chunk := #[]
  loadedLen : Nat := 0
  /-- The load has stopped: at the end of its source, at a failure, or because it was cancelled. -/
  finished : Bool := false
  /-- The load was asked to stop. -/
  canceled : Bool := false

namespace Store

def bytes (s : Store) : ByteArray := s.chunks.foldl (fun acc c => acc ++ c.data) .empty

def isOpen (s : Store) : Bool := !(s.finished || s.canceled)

/-- Whether `append` takes these bytes. No bytes are always taken, without a trace. -/
def accepts (s : Store) (data : ByteArray) : Bool := data.size = 0 || s.isOpen

def append (s : Store) (data : ByteArray) : Store :=
  if data.size ≠ 0 ∧ s.isOpen then
    { s with
      chunks := s.chunks.push ⟨s.loadedLen, data⟩
      loadedLen := s.loadedLen + data.size }
  else s

def finish (s : Store) : Store := { s with finished := true }

def cancel (s : Store) : Store := { s with canceled := true }

/-- Binary search between `lo` and `hi` for the first chunk that ends after `position`. -/
def search (chunks : Array Chunk) (position lo hi : Nat) : Nat :=
  if lo < hi then
    let mid := lo + (hi - lo) / 2
    match chunks[mid]? with
    | some c =>
      if c.stop ≤ position then search chunks position (mid + 1) hi
      else search chunks position lo mid
    | none => search chunks position lo mid
  else lo
termination_by hi - lo

def firstAfter (chunks : Array Chunk) (position : Nat) : Nat :=
  search chunks position 0 chunks.size

/-- The chunks from index `i` on that start before `limit`. -/
def startingBefore (chunks : Array Chunk) (limit i : Nat) : List Chunk :=
  if h : i < chunks.size then
    if chunks[i].start < limit then chunks[i] :: startingBefore chunks limit (i + 1) else []
  else []
termination_by chunks.size - i

/-- A buffer that is being filled, with the number of bytes that it has got. -/
structure Filling where
  buf : ByteArray
  copied : Nat

namespace Filling

/-- How much of the chunk lies before the next byte to copy. -/
def skipped (position : Nat) (f : Filling) (c : Chunk) : Nat := position + f.copied - c.start

/-- How many of the bytes still wanted the chunk gives. -/
def portion (position want : Nat) (f : Filling) (c : Chunk) : Nat :=
  min (c.data.size - f.skipped position c) (want - f.copied)

/-- Copies what a chunk has of the bytes still wanted: `want` bytes from `position` on go to
`offset` in the buffer. -/
def take (position want offset : Nat) (f : Filling) (c : Chunk) : Filling :=
  let n := f.portion position want c
  ⟨c.data.copySlice (f.skipped position c) f.buf (offset + f.copied) n, f.copied + n⟩

end Filling

/-- Copies `want` loaded bytes from `position` on to `offset` in the buffer. -/
def copy (s : Store) (buf : ByteArray) (offset want position : Nat) : Filling :=
  (startingBefore s.chunks (position + want) (firstAfter s.chunks position)).foldl
    (Filling.take position want offset) ⟨buf, 0⟩

/-- What a read asks for: up to `len` bytes from `position` on, to be put to `offset` in `buf`. -/
structure Request where
  buf : ByteArray
  offset : Nat
  len : Nat
  position : Nat
  /-- Whether to wait when nothing is loaded at the position yet. -/
  blocking : Bool

def Request.whole (buf : ByteArray) (position : Nat) (blocking : Bool) : Request :=
  ⟨buf, 0, buf.size, position, blocking⟩

/-- What a read comes to at one moment. -/
inductive Answer where
  | refused (e : CacheError)
  | done (outcome : ReadOutcome) (buf : ByteArray)
  | waits

/-- Answers a request from what is loaded now. -/
def read (s : Store) (r : Request) : Answer :=
  if r.buf.size < r.offset + r.len then .refused (.invalidArgument r.offset r.len r.buf.size)
  else if r.len = 0 then .done (.bytes 0) r.buf
  else if s.loadedLen ≤ r.position then
    if s.finished then .done .endOfStream r.buf
    else if r.blocking then .waits
    else .done .notYet r.buf
  else
    let f := s.copy r.buf r.offset (min r.len (s.loadedLen - r.position)) r.position
    .done (.bytes f.copied) f.buf

end Store
end SharedStream
