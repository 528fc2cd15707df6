/-! # JSON values

A text of JSON as a tree. It keeps what a decoder may ask about and no more: integers by value,
other numbers by their spelling. A string may spell a surrogate without its partner, which is no
character: the string is then still a value, but it has no text.
-/
namespace SharedStream

namespace Json

/-- One element of a string: a character, or a surrogate that stands alone. -/
inductive Mark where
  | char (c : Char)
  | half (unit : Nat)
  deriving DecidableEq, Repr

end Json

inductive Json where
  | null
  | bool (b : Bool)
  | int (n : Int)
  /-- A number with a fraction or an exponent, or the negative zero, as it is spelled. -/
  | real (spelling : List Char)
  | str (marks : List Json.Mark)
  | arr (items : List Json)
  /-- The fields in the order of the text, repeated names included. -/
  | obj (fields : List (List Json.Mark × Json))

namespace Json

def marks (s : String) : List Mark := s.toList.map .char

def Mark.char? : Mark → Option Char
  | .char c => some c
  | .half _ => none

def text? (ms : List Mark) : Option String := (ms.mapM Mark.char?).map String.ofList

theorem mapM_char?_map (cs : List Char) : (cs.map Mark.char).mapM Mark.char? = some cs := by
  induction cs with
  | nil => rfl
  | cons c cs ih => simp [List.mapM_cons, Mark.char?, ih]

@[simp] theorem text?_marks (s : String) : text? (marks s) = some s := by
  rw [text?, marks, mapM_char?_map]
  simp

end Json
end SharedStream
