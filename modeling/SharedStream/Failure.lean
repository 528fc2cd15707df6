import SharedStream.Key

/-! # Failures

What can go wrong, by cause. The end of a stream is no failure.
-/
namespace SharedStream

inductive IoKind where
  | notFound
  | permissionDenied
  | brokenPipe
  | other
  | invalidData
  | invalidInput
  | unexpectedEof
  | timedOut
  | wouldBlock
  | interrupted
  | writeZero
  | alreadyExists
  | connectionReset
  deriving DecidableEq, Repr

structure IoFailure where
  kind : IoKind
  text : String
  deriving DecidableEq, Repr

inductive CacheError where
  /-- The factory gave no source. -/
  | sourceCreation (key : Key) (cause : IoFailure)
  /-- The part of the buffer to be filled does not lie in the buffer. -/
  | invalidArgument (offset len bufLen : Nat)
  /-- A count or a lease is not what the protocol of the cache makes it. -/
  | invariantViolation (text : String)
  /-- The registry was shut down while a call waited for its key. -/
  | interruptedWait (key : Key)
  | io (cause : IoFailure)
  deriving DecidableEq

namespace CacheError

def message : CacheError → String
  | .sourceCreation key cause => "failed to create source for " ++ key.text ++ ": " ++ cause.text
  | .invalidArgument offset len bufLen =>
    "invalid read arguments: offset " ++ offset.repr ++ " + len " ++ len.repr ++
      " exceeds buffer of " ++ bufLen.repr ++ " bytes"
  | .invariantViolation text => "critical invariant violation: " ++ text
  | .interruptedWait key => "wait on " ++ key.text ++ " interrupted: registry is shutting down"
  | .io cause => "I/O error: " ++ cause.text

/-- Whether the world outside is at fault, and not the program. -/
def isIo : CacheError → Bool
  | .sourceCreation .. | .interruptedWait _ | .io _ => true
  | .invalidArgument .. | .invariantViolation _ => false

/-- The same as a failure of input or output. One that wraps such a failure becomes it again. -/
def toIo : CacheError → IoFailure
  | .io cause => cause
  | .sourceCreation _ cause => cause
  | e@(.invalidArgument ..) => ⟨.invalidInput, e.message⟩
  | e@(.interruptedWait _) => ⟨.interrupted, e.message⟩
  | e@(.invariantViolation _) => ⟨.other, e.message⟩

end CacheError
end SharedStream
