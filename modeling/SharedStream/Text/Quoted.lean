import SharedStream.Text.PrintTable

/-! # Quoted text

Text between quotes as it is shown to a person who looks for a fault: what cannot be seen, or
would join the character before it, is spelled by its number.
-/
namespace SharedStream.Text

def isPrintable (c : Char) : Bool :=
  0x20 ≤ c.toNat && c.toNat ≠ 0x7f && !unprintableRanges.covers c.toNat

def escapeByNumber (c : Char) : List Char :=
  ['\\', 'u', '\x7b'] ++ Nat.toDigits 16 c.toNat ++ ['\x7d']

def escapeOne (c : Char) : List Char :=
  match c with
  | '\x00' => ['\\', '0']
  | '\t' => ['\\', 't']
  | '\r' => ['\\', 'r']
  | '\n' => ['\\', 'n']
  | '\\' => ['\\', '\\']
  | '"' => ['\\', '"']
  | c => if isPrintable c && !graphemeExtendRanges.covers c.toNat then [c] else escapeByNumber c

def quoted (s : String) : String :=
  String.ofList ('"' :: s.toList.flatMap escapeOne ++ ['"'])

end SharedStream.Text
