import SharedStream.Json
import SharedStream.Word

/-! # Records in JSON

A record is written as an object with a field for each of its parts. It is read from such an
object, where fields of other names do not matter, or from an array that gives the parts in order.
-/
namespace SharedStream.Json

def namedFields (fs : List (List Mark × Json)) : Option (List (String × Json)) :=
  fs.mapM fun (ms, x) => (text? ms).map (·, x)

/-- The value of the one field called `name`, `some none` if there is no such field, and nothing
if the name is given twice. -/
def uniqueField (fs : List (String × Json)) (name : String) : Option (Option Json) :=
  match fs.filter (·.1 = name) with
  | [] => some none
  | [(_, x)] => some (some x)
  | _ => none

/-- The parts of a record in the order of `names`, each as far as the value gives it. -/
def parts (names : List String) : Json → Option (List (Option Json))
  | .obj fs => do
    let fs ← namedFields fs
    names.mapM (uniqueField fs)
  | .arr xs =>
    if xs.length ≤ names.length then
      some (xs.map some ++ List.replicate (names.length - xs.length) none)
    else none
  | _ => none

def record (fs : List (String × Json)) : Json := .obj (fs.map fun (name, x) => (marks name, x))

def bool? : Json → Option Bool
  | .bool b => some b
  | _ => none

def string? : Json → Option String
  | .str ms => text? ms
  | _ => none

def size? : Json → Option Nat
  | .int n => if isWord n then some n.toNat else none
  | _ => none

def signed? : Json → Option Int
  | .int n => if isSignedWord n then some n else none
  | _ => none

end SharedStream.Json
