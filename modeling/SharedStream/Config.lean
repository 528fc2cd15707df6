import SharedStream.Json.Record
import SharedStream.Text.Blank
import SharedStream.Text.LowerCase
import SharedStream.Toml

/-! # Configuration

How much a source is asked for per read, how many loads run at once, and how a cache is filled
unless its opener says otherwise, with their JSON and TOML forms.
-/
namespace SharedStream
open Text

inductive LoadMode where
  /-- Whole, before its opener returns. -/
  | sync
  /-- In the background. -/
  | async
  deriving DecidableEq, Repr

namespace LoadMode

def name : LoadMode → String
  | .sync => "sync"
  | .async => "async"

def ofName? (s : String) : Option LoadMode :=
  if s = "sync" then some .sync else if s = "async" then some .async else none

/-- The mode that a person wrote: blanks at the ends and letter case do not matter, and there are
two more words for the modes. A refused text is given back as it was compared. -/
def parse (s : String) : Except String LoadMode :=
  let word := String.ofList (lower (trim s.toList))
  if word = "sync" ∨ word = "blocking" then .ok .sync
  else if word = "async" ∨ word = "background" then .ok .async
  else .error word

def toJson (m : LoadMode) : Json := .str (Json.marks m.name)

def ofJson? : Json → Option LoadMode
  | .str ms => (Json.text? ms).bind ofName?
  | .obj [(ms, .null)] => (Json.text? ms).bind ofName?
  | _ => none

/-- The name of a mode, or a table with that name as its only entry and nothing in it. -/
def ofToml? : Toml → Option LoadMode
  | .text s => ofName? s
  | .table [(s, .table [])] => ofName? s
  | .table [(s, .array [])] => ofName? s
  | _ => none

end LoadMode

structure CacheConfig where
  /-- Bytes asked for per read of a source, so each chunk is at most this long. -/
  chunkSize : Nat := 4096
  /-- How many loads run in the background at once. -/
  maxConcurrentLoads : Nat := 100
  /-- How a cache is filled unless its opener says otherwise. -/
  loadMode : LoadMode := .async
  deriving DecidableEq

namespace CacheConfig

def fieldNames : List String := ["chunk_size", "max_concurrent_loads", "load_mode"]

/-- A part that is read by `read?` if it is given, and has the value `otherwise` if it is not. -/
def part {α β : Type} (read? : α → Option β) (otherwise : β) : Option α → Option β
  | none => some otherwise
  | some a => read? a

/-- The configuration whose parts, as far as they are given, are read by `size?` and `mode?`. -/
def ofParts {α : Type} (size? : α → Option Nat) (mode? : α → Option LoadMode) :
    List (Option α) → Option CacheConfig
  | [chunk, loads, mode] => do
    let base : CacheConfig := {}
    let chunkSize ← part size? base.chunkSize chunk
    let maxConcurrentLoads ← part size? base.maxConcurrentLoads loads
    let loadMode ← part mode? base.loadMode mode
    return ⟨chunkSize, maxConcurrentLoads, loadMode⟩
  | _ => none

def toJson (c : CacheConfig) : Json :=
  Json.record [("chunk_size", .int c.chunkSize),
    ("max_concurrent_loads", .int c.maxConcurrentLoads), ("load_mode", c.loadMode.toJson)]

def ofJson? (j : Json) : Option CacheConfig := do
  ofParts Json.size? LoadMode.ofJson? (← Json.parts fieldNames j)

def tomlParts : Toml → Option (List (Option Toml))
  | .table entries => some (fieldNames.map (Toml.entry? entries))
  | .array xs =>
    if xs.length ≤ fieldNames.length then
      some (xs.map some ++ List.replicate (fieldNames.length - xs.length) none)
    else none
  | _ => none

def ofToml? (t : Toml) : Option CacheConfig := do
  ofParts Toml.size? LoadMode.ofToml? (← tomlParts t)

def describe (c : CacheConfig) : String :=
  "CacheConfig \x7b chunk_size: " ++ c.chunkSize.repr ++ ", max_concurrent_loads: " ++
    c.maxConcurrentLoads.repr ++ ", load_mode: " ++
    (match c.loadMode with | .sync => "Sync" | .async => "Async") ++ " \x7d"

end CacheConfig
end SharedStream
