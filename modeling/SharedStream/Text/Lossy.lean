/-! # Text from any bytes

Bytes that are not well formed are read as far as they could begin a character: each such stretch
becomes one replacement character.
-/
namespace SharedStream.Text

/-- The bytes that may stand second after a first byte of a character of three or four bytes. The
narrower ranges leave out long spellings, surrogates and what lies beyond the last code point. -/
def secondOk (first second : UInt8) : Bool :=
  if first == 0xe0 then 0xa0 ≤ second && second ≤ 0xbf
  else if first == 0xed then 0x80 ≤ second && second ≤ 0x9f
  else if first == 0xf0 then 0x90 ≤ second && second ≤ 0xbf
  else if first == 0xf4 then 0x80 ≤ second && second ≤ 0x8f
  else 0x80 ≤ second && second ≤ 0xbf

def isContinuation (b : UInt8) : Bool := 0x80 ≤ b && b ≤ 0xbf

/-- How many bytes of a stretch that is no character go into one replacement character: the
longest beginning of a well-formed character, and at least one byte. -/
def brokenLength (bytes : List UInt8) : Nat :=
  match bytes with
  | a :: b :: rest =>
    if 0xe0 ≤ a && a ≤ 0xef then if secondOk a b then 2 else 1
    else if 0xf0 ≤ a && a ≤ 0xf4 then
      if secondOk a b then
        match rest with
        | c :: _ => if isContinuation c then 3 else 2
        | [] => 2
      else 1
    else 1
  | _ => 1

/-- Reads on from position `pos`; `fuel` is more than the number of bytes that are left. -/
def lossyFrom (bytes : ByteArray) (fuel pos : Nat) : List Char :=
  match fuel with
  | 0 => []
  | fuel + 1 =>
    if pos < bytes.size then
      match bytes.utf8DecodeChar? pos with
      | some c => c :: lossyFrom bytes fuel (pos + c.utf8Size)
      | none =>
        '\uFFFD' :: lossyFrom bytes fuel
          (pos + brokenLength (bytes.extract pos (min bytes.size (pos + 3))).data.toList)
    else []

/-- The text of `bytes`, with one U+FFFD for each stretch that is not well formed. -/
def ofBytesLossy (bytes : ByteArray) : String :=
  String.ofList (lossyFrom bytes (bytes.size + 1) 0)

end SharedStream.Text
