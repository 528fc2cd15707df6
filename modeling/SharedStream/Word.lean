/-! # Words

The numbers that fit into 64 bits.
-/
namespace SharedStream

/-- The first number that is too large for an unsigned word. -/
def wordLimit : Nat := 0x10000000000000000

/-- The first number that is too large for a signed word. -/
def halfLimit : Nat := 0x8000000000000000

def isWord (n : Int) : Bool := 0 ≤ n && n < wordLimit

def isSignedWord (n : Int) : Bool := -halfLimit ≤ n && n < halfLimit

end SharedStream
