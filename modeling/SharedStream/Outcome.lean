import SharedStream.Word

/-! # Outcomes of reads -/
namespace SharedStream

inductive ReadOutcome where
  /-- So many bytes were copied: none only if none were asked for. -/
  | bytes (n : Nat)
  /-- Nothing is loaded there yet, and the read does not wait. -/
  | notYet
  /-- The position is at or past the end of a load that has stopped. -/
  | endOfStream
  deriving DecidableEq, Repr

namespace ReadOutcome

def count : ReadOutcome → Nat
  | .bytes n => n
  | .notYet | .endOfStream => 0

def isEnd (o : ReadOutcome) : Bool := o = .endOfStream

/-- The outcome as one signed number of 64 bits: the count, which wraps, with zero for "not yet"
and minus one for the end. -/
def sentinel : ReadOutcome → Int
  | .bytes n => (n : Int).bmod wordLimit
  | .notYet => 0
  | .endOfStream => -1

end ReadOutcome
end SharedStream
