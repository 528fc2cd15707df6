import SharedStream.Config
import SharedStream.Instant.Reader
import SharedStream.Key

/-! # Statistics

Plain values that describe a cache or a whole registry, with their JSON forms.
-/
namespace SharedStream

/-- One cache as a report shows it. Moments are values of `τ`. -/
structure ResourceStats (τ : Type) where
  key : Key
  /-- Reader handles that are not released. -/
  refCount : Int
  loadedBytes : Nat
  chunks : Nat
  finished : Bool
  loadMode : LoadMode
  /-- When the cache was last opened or read. -/
  lastAccess : τ
  deriving DecidableEq

namespace ResourceStats

def isIdle {τ : Type} (s : ResourceStats τ) : Bool := s.refCount = 0

def fieldNames : List String :=
  ["key", "ref_count", "loaded_bytes", "chunks", "finished", "load_mode", "last_access"]

def toJson (s : ResourceStats Instant) : Json :=
  Json.record [("key", s.key.toJson), ("ref_count", .int s.refCount),
    ("loaded_bytes", .int s.loadedBytes), ("chunks", .int s.chunks),
    ("finished", .bool s.finished), ("load_mode", s.loadMode.toJson),
    ("last_access", .str (Json.marks s.lastAccess.print))]

def ofJson? (j : Json) : Option (ResourceStats Instant) := do
  match ← Json.parts fieldNames j with
  | [some key, some refCount, some loadedBytes, some chunks, some finished, some loadMode,
      some lastAccess] => do
    return {
      key := ← Key.ofJson? key
      refCount := ← Json.signed? refCount
      loadedBytes := ← Json.size? loadedBytes
      chunks := ← Json.size? chunks
      finished := ← Json.bool? finished
      loadMode := ← LoadMode.ofJson? loadMode
      lastAccess := ← (Json.string? lastAccess).bind Instant.parse }
  | _ => none

end ResourceStats

structure RegistryStats where
  /-- Keys with a cache. -/
  readers : Nat := 0
  /-- Keys under a writer's lease. -/
  writers : Nat := 0
  /-- Keys whose cache is torn down for a writer. -/
  closing : Nat := 0
  /-- Keys whose cache is being built. -/
  opening : Nat := 0
  loadsActive : Nat := 0
  loadsQueued : Nat := 0
  deriving DecidableEq

namespace RegistryStats

def fieldNames : List String :=
  ["readers", "writers", "closing", "opening", "loads_active", "loads_queued"]

def toJson (s : RegistryStats) : Json :=
  Json.record [("readers", .int s.readers), ("writers", .int s.writers),
    ("closing", .int s.closing), ("opening", .int s.opening),
    ("loads_active", .int s.loadsActive), ("loads_queued", .int s.loadsQueued)]

def ofJson? (j : Json) : Option RegistryStats := do
  match ← Json.parts fieldNames j with
  | [some readers, some writers, some closing, some opening, some active, some queued] => do
    return {
      readers := ← Json.size? readers
      writers := ← Json.size? writers
      closing := ← Json.size? closing
      opening := ← Json.size? opening
      loadsActive := ← Json.size? active
      loadsQueued := ← Json.size? queued }
  | _ => none

end RegistryStats
end SharedStream
