import SharedStream.Json
import SharedStream.Text.Digits

/-! # Writing JSON

The compact form: no blanks, and in a string only the quote, the backslash and the controls are
escaped, those with a letter of their own by that letter.
-/
namespace SharedStream.Json
open Text

/-- `\u` and the four digits of a code unit. -/
def escapeUnit (n : Nat) : List Char :=
  ['\\', 'u', (n / 4096 % 16).digitChar, (n / 256 % 16).digitChar, (n / 16 % 16).digitChar,
    (n % 16).digitChar]

def renderChar (c : Char) : List Char :=
  if c = '"' then ['\\', '"']
  else if c = '\\' then ['\\', '\\']
  else if c = '\x08' then ['\\', 'b']
  else if c = '\x0c' then ['\\', 'f']
  else if c = '\n' then ['\\', 'n']
  else if c = '\r' then ['\\', 'r']
  else if c = '\t' then ['\\', 't']
  else if c.toNat < 0x20 then escapeUnit c.toNat
  else [c]

def renderMark : Mark → List Char
  | .char c => renderChar c
  | .half n => escapeUnit n

def renderString (ms : List Mark) : List Char := '"' :: ms.flatMap renderMark ++ ['"']

def renderInt (n : Int) : List Char :=
  if n < 0 then '-' :: numeral n.natAbs else numeral n.natAbs

mutual

def render : Json → List Char
  | .null => ['n', 'u', 'l', 'l']
  | .bool true => ['t', 'r', 'u', 'e']
  | .bool false => ['f', 'a', 'l', 's', 'e']
  | .int n => renderInt n
  | .real spelling => spelling
  | .str ms => renderString ms
  | .arr [] => ['[', ']']
  | .arr (x :: xs) => '[' :: render x ++ renderItems xs
  | .obj [] => ['\x7b', '\x7d']
  | .obj ((name, x) :: fs) => '\x7b' :: renderString name ++ ':' :: render x ++ renderFields fs

def renderItems : List Json → List Char
  | [] => [']']
  | x :: xs => ',' :: render x ++ renderItems xs

def renderFields : List (List Mark × Json) → List Char
  | [] => ['\x7d']
  | (name, x) :: fs => ',' :: renderString name ++ ':' :: render x ++ renderFields fs

end

def print (j : Json) : String := String.ofList j.render

end SharedStream.Json
