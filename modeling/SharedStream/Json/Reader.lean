import SharedStream.Json
import SharedStream.Text.Digits

/-! # Reading JSON

Strict JSON: no comments, no trailing commas, no controls inside strings. Each reader takes the
text at hand and gives what it read with the rest of the text.
-/
namespace SharedStream.Json
open Text

def isGap (c : Char) : Bool := c = ' ' || c = '\t' || c = '\n' || c = '\r'

def skipGaps (cs : List Char) : List Char := cs.dropWhile isGap

def unescape (c : Char) : Option Char :=
  if c = '"' then some '"'
  else if c = '\\' then some '\\'
  else if c = '/' then some '/'
  else if c = 'b' then some '\x08'
  else if c = 'f' then some '\x0c'
  else if c = 'n' then some '\n'
  else if c = 'r' then some '\r'
  else if c = 't' then some '\t'
  else none

/-- An element of a string as it is spelled: a character, or a code unit by its number. -/
inductive Piece where
  | char (c : Char)
  | unit (n : Nat)
  deriving DecidableEq, Repr

/-- The rest of a string whose opening quote has been read. -/
def readPieces : List Char → Option (List Piece × List Char)
  | [] => none
  | c :: r =>
    if c = '"' then some ([], r)
    else if c = '\\' then
      match r with
      | 'u' :: d₃ :: d₂ :: d₁ :: d₀ :: r => do
        let n ← hexNumber [d₃, d₂, d₁, d₀]
        let (ps, r) ← readPieces r
        return (.unit n :: ps, r)
      | e :: r => do
        let c ← unescape e
        let (ps, r) ← readPieces r
        return (.char c :: ps, r)
      | [] => none
    else if c.toNat < 0x20 then none
    else do
      let (ps, r) ← readPieces r
      return (.char c :: ps, r)

def isHighHalf (n : Nat) : Bool := 0xD800 ≤ n && n < 0xDC00
def isLowHalf (n : Nat) : Bool := 0xDC00 ≤ n && n < 0xE000

/-- A code unit before marks. A high surrogate joins a low one that stands alone after it, and the
pair is one character. -/
def consUnit (n : Nat) (ms : List Mark) : List Mark :=
  if isHighHalf n then
    match ms with
    | .half m :: rest =>
      if isLowHalf m then
        .char (Char.ofNat (0x10000 + (n - 0xD800) * 0x400 + (m - 0xDC00))) :: rest
      else .half n :: ms
    | ms => .half n :: ms
  else if isLowHalf n then .half n :: ms
  else .char (Char.ofNat n) :: ms

def consPiece : Piece → List Mark → List Mark
  | .char c, ms => .char c :: ms
  | .unit n, ms => consUnit n ms

def joinHalves (ps : List Piece) : List Mark := ps.foldr consPiece []

def readString (cs : List Char) : Option (List Mark × List Char) := do
  let (ps, r) ← readPieces cs
  return (joinHalves ps, r)

/-- The digits before the point: a zero alone, or a digit other than zero and any digits. -/
def readWhole (cs : List Char) : Option (List Char × List Char) :=
  match cs with
  | '0' :: r => some (['0'], r)
  | c :: _ => if c.isDigit then some (digitRun cs, afterDigits cs) else none
  | [] => none

def readFraction (cs : List Char) : Option (List Char × List Char) :=
  match cs with
  | '.' :: r => if digitRun r = [] then none else some ('.' :: digitRun r, afterDigits r)
  | r => some ([], r)

def readExponent (cs : List Char) : Option (List Char × List Char) :=
  match cs with
  | e :: r =>
    if e = 'e' ∨ e = 'E' then
      let (sign, r) := match r with
        | '+' :: r => (['+'], r)
        | '-' :: r => (['-'], r)
        | r => ([], r)
      if digitRun r = [] then none else some (e :: sign ++ digitRun r, afterDigits r)
    else some ([], cs)
  | [] => some ([], [])

/-- The number that a spelling without its sign stands for. A negative zero is no integer. -/
def numberValue (negative : Bool) (whole fraction exponent : List Char) : Json :=
  if fraction = [] ∧ exponent = [] ∧ ¬(negative ∧ numberOf whole = 0) then
    .int (if negative then -(numberOf whole : Int) else numberOf whole)
  else .real ((if negative then ['-'] else []) ++ whole ++ fraction ++ exponent)

def readNumber (cs : List Char) : Option (Json × List Char) := do
  let (negative, r) := match cs with
    | '-' :: r => (true, r)
    | r => (false, r)
  let (whole, r) ← readWhole r
  let (fraction, r) ← readFraction r
  let (exponent, r) ← readExponent r
  return (numberValue negative whole fraction exponent, r)

mutual

def readValue (fuel : Nat) (cs : List Char) : Option (Json × List Char) :=
  match fuel with
  | 0 => none
  | fuel + 1 =>
    match cs with
    | 'n' :: 'u' :: 'l' :: 'l' :: r => some (.null, r)
    | 't' :: 'r' :: 'u' :: 'e' :: r => some (.bool true, r)
    | 'f' :: 'a' :: 'l' :: 's' :: 'e' :: r => some (.bool false, r)
    | '"' :: r => do
      let (ms, r) ← readString r
      return (.str ms, r)
    | '[' :: r =>
      match skipGaps r with
      | ']' :: r => some (.arr [], r)
      | r => do
        let (xs, r) ← readItems fuel r
        return (.arr xs, r)
    | '\x7b' :: r =>
      match skipGaps r with
      | '\x7d' :: r => some (.obj [], r)
      | r => do
        let (fs, r) ← readFields fuel r
        return (.obj fs, r)
    | cs => readNumber cs

def readItems (fuel : Nat) (cs : List Char) : Option (List Json × List Char) :=
  match fuel with
  | 0 => none
  | fuel + 1 => do
    let (x, r) ← readValue fuel cs
    match skipGaps r with
    | ']' :: r => return ([x], r)
    | ',' :: r => do
      let (xs, r) ← readItems fuel (skipGaps r)
      return (x :: xs, r)
    | _ => none

def readFields (fuel : Nat) (cs : List Char) : Option (List (List Mark × Json) × List Char) :=
  match fuel with
  | 0 => none
  | fuel + 1 =>
    match cs with
    | '"' :: r => do
      let (name, r) ← readString r
      match skipGaps r with
      | ':' :: r => do
        let (x, r) ← readValue fuel (skipGaps r)
        match skipGaps r with
        | '\x7d' :: r => return ([(name, x)], r)
        | ',' :: r => do
          let (fs, r) ← readFields fuel (skipGaps r)
          return ((name, x) :: fs, r)
        | _ => none
      | _ => none
    | _ => none

end

def parse (s : String) : Option Json := do
  let cs := s.toList
  let (j, r) ← readValue (2 * cs.length + 2) (skipGaps cs)
  if skipGaps r = [] then some j else none

end SharedStream.Json
