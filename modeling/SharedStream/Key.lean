import SharedStream.Json.Record
import SharedStream.Text.Lossy
import SharedStream.Text.Quoted

/-! # Keys

The name of a resource: any text. Keys are compared as texts, character by character, which is also
the order of their encoded bytes.
-/
namespace SharedStream
open Text

structure Key where
  text : String
  deriving DecidableEq, Inhabited

inductive KeyError where
  | empty
  deriving DecidableEq, Repr

def KeyError.message : KeyError → String
  | .empty => "resource key must not be empty"

namespace Key

/-- A key that is not empty. -/
def check (s : String) : Except KeyError Key := if s = "" then .error .empty else .ok ⟨s⟩

def ofPath (bytes : ByteArray) : Key := ⟨ofBytesLossy bytes⟩

def compare (a b : Key) : Ordering := Ord.compare a.text b.text

/-- The keys in ascending order, each once. -/
def distinctSorted (ks : List Key) : List Key :=
  (ks.mergeSort fun a b => compare a b ≠ .gt).foldr
    (fun k rest => if rest.head? = some k then rest else k :: rest) []

def describe (k : Key) : String := "ResourceKey(" ++ quoted k.text ++ ")"

def toJson (k : Key) : Json := .str (Json.marks k.text)

def ofJson? (j : Json) : Option Key := (Json.string? j).map Key.mk

end Key
end SharedStream
