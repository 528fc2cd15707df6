/-! # Cursors -/
namespace SharedStream

structure Cursor where
  position : Nat := 0
  deriving DecidableEq, Repr

namespace Cursor

def advance (c : Cursor) (n : Nat) : Cursor := ⟨c.position + n⟩

/-- How much of `len` fits before `limit`. -/
def possible (c : Cursor) (len limit : Nat) : Nat := min len (limit - c.position)

end Cursor
end SharedStream
