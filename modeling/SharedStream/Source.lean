import SharedStream.Failure

/-! # Sources

Where the bytes of a resource come from: a script of what the factory and then each read do. More
of the script may come while the source is in use, and a gated source makes reads wait for it.
-/
namespace SharedStream

/-- What one or more reads of a source do. -/
inductive SourceItem where
  /-- The bytes are given, at most `step` of them per read. -/
  | data (bytes : ByteArray) (step : Option Nat)
  /-- So many reads are interrupted, and at least one. -/
  | interrupted (times : Nat)
  | error (e : IoFailure)
  /-- A read gives no bytes. -/
  | eof
  | panic (text : String)

inductive FactoryEnd where
  | gives
  | fails (e : IoFailure)
  | panics (text : String)

structure SourcePlan where
  script : List SourceItem := []
  /-- When the script is used up, reads wait. -/
  gated : Bool := false
  /-- The factory waits. -/
  held : Bool := false
  factory : FactoryEnd := .gives
  /-- A thread can be had if a worker is to be hired for the load. -/
  threaded : Bool := true

structure Source extends SourcePlan where
  /-- How many items of the script are used up. -/
  place : Nat := 0
  /-- How much of the next item is used up: bytes, or interruptions. -/
  used : Nat := 0
  built : Bool := false
  closed : Bool := false
  /-- The reads begun. -/
  reads : Nat := 0
  /-- How many bytes the last read asked for. -/
  request : Nat := 0

def SourcePlan.source (p : SourcePlan) : Source := { toSourcePlan := p }

inductive SourceAnswer where
  | bytes (data : ByteArray)
  | failed (e : IoFailure)
  | panicked (text : String)

namespace Source

def next? (s : Source) : Option SourceItem := s.script[s.place]?

def isReady (s : Source) : Bool := s.next?.isSome || !s.gated

def beginRead (s : Source) (request : Nat) : Source :=
  { s with reads := s.reads + 1, request := request }

/-- The source past the next item of its script. -/
def pass (s : Source) : Source := { s with place := s.place + 1, used := 0 }

/-- How many bytes a read gives of an item with so many bytes left. -/
def portion (request : Nat) (step : Option Nat) (left : Nat) : Nat :=
  min (min request (step.getD request)) left

/-- Answers the read that has begun. -/
def answer (s : Source) : SourceAnswer × Source :=
  match s.next? with
  | none => (.bytes .empty, s)
  | some (.data bytes step) =>
    let n := portion s.request step (bytes.size - s.used)
    let s' := if bytes.size ≤ s.used + n then s.pass else { s with used := s.used + n }
    (.bytes (bytes.extract s.used (s.used + n)), s')
  | some (.interrupted times) =>
    let s' := if times ≤ s.used + 1 then s.pass else { s with used := s.used + 1 }
    (.failed ⟨.interrupted, "interrupted"⟩, s')
  | some (.error e) => (.failed e, s.pass)
  | some .eof => (.bytes .empty, s.pass)
  | some (.panic text) => (.panicked text, s.pass)

def feed (s : Source) (items : List SourceItem) : Source := { s with script := s.script ++ items }

def ungate (s : Source) : Source := { s with gated := false }

def release (s : Source) : Source := { s with held := false }

def build (s : Source) : Source := { s with built := true }

def close (s : Source) : Source := { s with closed := true }

def itemReads : SourceItem → Nat
  | .data bytes _ => bytes.size + 1
  | .interrupted times => times + 1
  | .error _ | .eof | .panic _ => 1

/-- A bound on how many reads the rest of the script answers. -/
def readsLeft (s : Source) : Nat :=
  (s.script.drop s.place).foldl (fun n item => n + itemReads item) 1

end Source
end SharedStream
