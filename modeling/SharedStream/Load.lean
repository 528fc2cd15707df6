import SharedStream.Ident
import SharedStream.Source
import SharedStream.Store
import SharedStream.Word

/-! # Loads

A load asks its source for a chunk at a time and adds it to its store, until the source ends or
fails, or the store does not want more. The source is closed before the store is finished, so
whoever has waited for a finished store knows that its source is gone.
-/
namespace SharedStream

/-- Which source goes into which store, and how much is asked for per read. -/
structure Job where
  store : StoreId
  source : CallId
  chunkSize : Nat
  deriving DecidableEq, Repr

inductive LoadPhase where
  /-- It makes its buffer, whose size must be a signed word. -/
  | allocating
  /-- It asks its store whether to go on. -/
  | checking
  /-- It was told to go on, and begins a read of its source. A cancel that comes now is noticed only
  after that read. -/
  | beginning
  /-- It gets the answer to the read. -/
  | reading
  | closing
  | finishing
  deriving DecidableEq, Repr

structure Load where
  job : Job
  phase : LoadPhase
  deriving DecidableEq, Repr

def Job.start (j : Job) : Load := ⟨j, .allocating⟩

inductive LoadMove where
  | goesOn (p : LoadPhase)
  | ends
  /-- The load stops without finishing its store. -/
  | panics (text : String)

inductive StoreChange where
  | none
  | append (data : ByteArray)
  | finish

def Store.change (s : Store) : StoreChange → Store
  | .none => s
  | .append data => s.append data
  | .finish => s.finish

/-- A move of a load: what it leads to, the source after it, and what becomes of the store. -/
structure LoadStep where
  move : LoadMove
  source : Source
  change : StoreChange := .none

namespace LoadPhase

def afterRead (store : Store) : SourceAnswer × Source → LoadStep
  | (.bytes data, source) =>
    if data.size ≠ 0 ∧ store.isOpen then ⟨.goesOn .checking, source, .append data⟩
    else ⟨.goesOn .closing, source, .none⟩
  | (.failed e, source) =>
    ⟨.goesOn (if e.kind = .interrupted then .checking else .closing), source, .none⟩
  | (.panicked text, source) => ⟨.panics text, source.close, .none⟩

def step (chunkSize : Nat) (source : Source) (store : Store) : LoadPhase → LoadStep
  | .allocating =>
    if chunkSize < halfLimit then ⟨.goesOn .checking, source, .none⟩
    else ⟨.panics "capacity overflow", source.close, .none⟩
  | .checking =>
    if store.canceled then ⟨.goesOn .closing, source, .none⟩
    else ⟨.goesOn .beginning, source, .none⟩
  | .beginning => ⟨.goesOn .reading, source.beginRead chunkSize, .none⟩
  | .reading => afterRead store source.answer
  | .closing => ⟨.goesOn .finishing, source.close, .none⟩
  | .finishing => ⟨.ends, source, .finish⟩

/-- Whether the next move need not wait for the source. -/
def canMove (source : Source) (p : LoadPhase) : Bool := p ≠ .reading || source.isReady

end LoadPhase
end SharedStream
