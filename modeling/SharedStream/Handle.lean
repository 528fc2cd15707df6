import SharedStream.Cursor
import SharedStream.Ident
import SharedStream.Key

/-! # Handles

What callers hold of a registry: readers of a cache and writers that lease a key.
-/
namespace SharedStream

structure Reader where
  cache : CallId
  cursor : Cursor := {}
  /-- It was subtracted from the readers of its cache. -/
  released : Bool := false
  deriving DecidableEq

structure Writer where
  key : Key
  /-- Bytes that the sink has accepted. -/
  written : Nat := 0
  deriving DecidableEq

/-- What the drop of a handle goes by that was closed before. -/
inductive ClosedHandle where
  | reader (cache : CallId) (released : Bool)
  | writer (lease : CallId) (key : Key)
  deriving DecidableEq

def Reader.closed (h : Reader) : ClosedHandle := .reader h.cache h.released

end SharedStream
