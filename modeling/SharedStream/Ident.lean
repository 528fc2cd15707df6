/-! # Names

What a call brings along has no name of its own: its source or sink, its handle, its cache and its
store go by the name of the call.
-/
namespace SharedStream

/-- The name of a call: the step at which it was made. -/
abbrev CallId := Nat

inductive StoreId where
  | cache (id : CallId)
  /-- A store that a call made for itself. -/
  | separate (id : CallId)
  deriving DecidableEq, Repr

end SharedStream
