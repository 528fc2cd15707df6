/-! # TOML values

The values of a TOML document. Numbers with a fraction and moments in time are kept as they are
spelled, since nothing here asks for what they denote.
-/
namespace SharedStream

inductive Toml where
  | text (s : String)
  | integer (n : Int)
  | real (spelling : List Char)
  | truth (b : Bool)
  | moment (spelling : List Char)
  | array (items : List Toml)
  | table (entries : List (String × Toml))

namespace Toml

def entry? (entries : List (String × Toml)) (name : String) : Option Toml := entries.lookup name

def size? : Toml → Option Nat
  | .integer n => if 0 ≤ n then some n.toNat else none
  | _ => none

end Toml
end SharedStream
