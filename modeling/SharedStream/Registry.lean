import SharedStream.Config
import SharedStream.Ident
import SharedStream.Key
import SharedStream.Pool
import SharedStream.Table

/-! # Registries

Which keys are cached for readers and which are held by a writer. A key without a slot is free.
-/
namespace SharedStream

inductive Slot where
  /-- A reader's call builds the cache. -/
  | opening
  /-- Readers share the cache. -/
  | reader (cache : CallId)
  /-- A writer's call tears the cache down. -/
  | closing
  /-- A writer has the key to itself. -/
  | writer (lease : CallId)
  deriving DecidableEq, Repr

/-- How far the end of a registry has come, with the caches whose loads are still to be stopped. -/
inductive Ending where
  | ahead
  /-- The load of the first cache is asked to stop next. -/
  | cancel (caches : List CallId)
  /-- The load of `cache` was asked to stop, and is removed from the queue next. -/
  | dequeue (cache : CallId) (rest : List CallId)
  | done
  deriving DecidableEq, Repr

structure Registry where
  config : CacheConfig
  slots : Table Key Slot := ∅
  shutDown : Bool := false
  pool : Pool
  ending : Ending := .ahead

namespace Registry

def ofConfig (c : CacheConfig) : Registry := { config := c, pool := .ofLimit c.maxConcurrentLoads }

/-- Nobody can use it any more. -/
def ended (r : Registry) : Bool := r.ending ≠ .ahead

def setSlot (r : Registry) (k : Key) (slot : Slot) : Registry :=
  { r with slots := r.slots.set k slot }

def freeSlot (r : Registry) (k : Key) : Registry := { r with slots := r.slots.erase k }

def caches (r : Registry) : List CallId :=
  r.slots.values.filterMap fun
    | .reader cache => some cache
    | .opening | .closing | .writer _ => none

def cache? (r : Registry) (k : Key) : Option CallId :=
  match r.slots.get? k with
  | some (.reader cache) => some cache
  | _ => none

def hasWriter (r : Registry) (k : Key) : Bool :=
  match r.slots.get? k with
  | some (.writer _) => true
  | _ => false

def writerCount (r : Registry) : Nat :=
  r.slots.countP fun
    | .writer _ => true
    | .opening | .reader _ | .closing => false

def describe (r : Registry) : String :=
  "Registry \x7b config: " ++ r.config.describe ++ ", pool: " ++ r.pool.describe ++ " \x7d"

end Registry
end SharedStream
