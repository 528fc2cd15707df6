import SharedStream.Toml
import SharedStream.Calendar
import SharedStream.Text.Digits
import SharedStream.Word

/-! # Scalars of TOML

Strings of the four kinds, numbers, and moments in time. Each reader takes the text at hand and
gives what it read with the rest of the text.
-/
namespace SharedStream.Toml
open Text

def isSpace (c : Char) : Bool := c = ' ' || c = '\t'

def skipSpaces (cs : List Char) : List Char := cs.dropWhile isSpace

/-- The characters that may stand in a comment: all but the controls, and the tabulator. -/
def isVisible (c : Char) : Bool := c = '\t' || (0x20 ≤ c.toNat && c.toNat ≠ 0x7f)

def afterNewline? : List Char → Option (List Char)
  | '\n' :: r => some r
  | '\r' :: '\n' :: r => some r
  | _ => none

def scalar? (n : Nat) : Option Char := if n.isValidChar then some (Char.ofNat n) else none

def unescape (c : Char) : Option Char :=
  if c = 'b' then some '\x08'
  else if c = 't' then some '\t'
  else if c = 'n' then some '\n'
  else if c = 'f' then some '\x0c'
  else if c = 'r' then some '\r'
  else if c = '"' then some '"'
  else if c = '\\' then some '\\'
  else none

/-- The rest of a string in double quotes on one line. -/
def readBasic : List Char → Option (List Char × List Char)
  | '"' :: r => some ([], r)
  | '\\' :: 'u' :: d₃ :: d₂ :: d₁ :: d₀ :: r => do
    let c ← (hexNumber [d₃, d₂, d₁, d₀]).bind scalar?
    let (s, r) ← readBasic r
    return (c :: s, r)
  | '\\' :: 'U' :: d₇ :: d₆ :: d₅ :: d₄ :: d₃ :: d₂ :: d₁ :: d₀ :: r => do
    let c ← (hexNumber [d₇, d₆, d₅, d₄, d₃, d₂, d₁, d₀]).bind scalar?
    let (s, r) ← readBasic r
    return (c :: s, r)
  | '\\' :: e :: r => do
    let c ← unescape e
    let (s, r) ← readBasic r
    return (c :: s, r)
  | c :: r =>
    if isVisible c && c ≠ '\\' then do
      let (s, r) ← readBasic r
      return (c :: s, r)
    else none
  | [] => none

def readLiteral : List Char → Option (List Char × List Char)
  | '\'' :: r => some ([], r)
  | c :: r =>
    if isVisible c then do
      let (s, r) ← readLiteral r
      return (c :: s, r)
    else none
  | [] => none

/-- The rest of a string in three double quotes. After a backslash at the end of a line, `skip`
says that blanks and ends of lines are still being passed over. Up to two quotes may stand right
before the closing ones. -/
def readBasicLines (skip : Bool) : List Char → Option (List Char × List Char)
  | '"' :: '"' :: '"' :: '"' :: '"' :: r => some (['"', '"'], r)
  | '"' :: '"' :: '"' :: '"' :: r => some (['"'], r)
  | '"' :: '"' :: '"' :: r => some ([], r)
  | '\\' :: 'u' :: d₃ :: d₂ :: d₁ :: d₀ :: r => do
    let c ← (hexNumber [d₃, d₂, d₁, d₀]).bind scalar?
    let (s, r) ← readBasicLines false r
    return (c :: s, r)
  | '\\' :: 'U' :: d₇ :: d₆ :: d₅ :: d₄ :: d₃ :: d₂ :: d₁ :: d₀ :: r => do
    let c ← (hexNumber [d₇, d₆, d₅, d₄, d₃, d₂, d₁, d₀]).bind scalar?
    let (s, r) ← readBasicLines false r
    return (c :: s, r)
  | '\\' :: e :: r =>
    if (afterNewline? (skipSpaces (e :: r))).isSome then readBasicLines true (e :: r)
    else do
      let c ← unescape e
      let (s, r) ← readBasicLines false r
      return (c :: s, r)
  | '\r' :: '\n' :: r =>
    if skip then readBasicLines true r
    else do
      let (s, r) ← readBasicLines false r
      return ('\n' :: s, r)
  | c :: r =>
    if skip && (isSpace c || c = '\n') then readBasicLines true r
    else if (isVisible c && c ≠ '\\') || c = '\n' then do
      let (s, r) ← readBasicLines false r
      return (c :: s, r)
    else none
  | [] => none

def readLiteralLines : List Char → Option (List Char × List Char)
  | '\'' :: '\'' :: '\'' :: '\'' :: '\'' :: r => some (['\'', '\''], r)
  | '\'' :: '\'' :: '\'' :: '\'' :: r => some (['\''], r)
  | '\'' :: '\'' :: '\'' :: r => some ([], r)
  | '\r' :: '\n' :: r => do
    let (s, r) ← readLiteralLines r
    return ('\n' :: s, r)
  | c :: r =>
    if isVisible c || c = '\n' then do
      let (s, r) ← readLiteralLines r
      return (c :: s, r)
    else none
  | [] => none

def dropNewline (cs : List Char) : List Char := (afterNewline? cs).getD cs

def readText : List Char → Option (List Char × List Char)
  | '"' :: '"' :: '"' :: r => readBasicLines false (dropNewline r)
  | '\'' :: '\'' :: '\'' :: r => readLiteralLines (dropNewline r)
  | '"' :: r => readBasic r
  | '\'' :: r => readLiteral r
  | _ => none

/-- The digits at the head of the text, without the underscores between them. -/
def readDigits (ok : Char → Bool) : List Char → Option (List Char × List Char)
  | '_' :: c :: r =>
    if ok c then do
      let (ds, r) ← readDigits ok r
      return (c :: ds, r)
    else none
  | c :: r =>
    if ok c then do
      let (ds, r) ← readDigits ok r
      return (c :: ds, r)
    else if c = '_' then none
    else some ([], c :: r)
  | [] => some ([], [])

def readSomeDigits (ok : Char → Bool) (cs : List Char) : Option (List Char × List Char) :=
  match cs with
  | c :: _ => if ok c then readDigits ok cs else none
  | [] => none

/-- The digits of a whole number: a zero alone, or digits that begin with another one. -/
def readWhole (cs : List Char) : Option (List Char × List Char) :=
  match cs with
  | '0' :: r => some (['0'], r)
  | cs => readSomeDigits Char.isDigit cs

def numberIn (base : Nat) (ds : List Char) : Nat :=
  ds.foldl (fun n c => base * n + (hexValue c).getD 0) 0

/-- A whole number that fits into 64 bits with its sign. -/
def integer? (n : Int) : Option Toml :=
  if isSignedWord n then some (.integer n) else none

/-- The first number that is rounded to an infinite double: it is halfway from the largest finite
one to the next power of two. -/
def infiniteFrom : Nat := Nat.pow 2 1024 - Nat.pow 2 970

/-- Whether `m * 10 ^ e` is rounded to an infinite double. The two outer cases keep the powers
small. -/
def overflows (m : Nat) (e : Int) : Bool :=
  let scale := ((numeral m).length : Int) + e
  if m = 0 then false
  else if scale < 300 then false
  else if 320 < scale then true
  else if 0 ≤ e then infiniteFrom ≤ m * Nat.pow 10 e.toNat
  else infiniteFrom * Nat.pow 10 (-e).toNat ≤ m

/-- A fraction: a point and digits, or nothing. -/
def readFraction (cs : List Char) : Option (List Char × List Char) :=
  match cs with
  | '.' :: r => readSomeDigits Char.isDigit r
  | r => some ([], r)

/-- An exponent: its mark, a sign and digits, or nothing. -/
def readExponent (cs : List Char) : Option (Option Int × List Char) :=
  match cs with
  | e :: r =>
    if e = 'e' ∨ e = 'E' then do
      let (negative, r) := match r with
        | '-' :: r => (true, r)
        | '+' :: r => (false, r)
        | r => (false, r)
      let (ds, r) ← readSomeDigits Char.isDigit r
      return (some (if negative then -(numberOf ds : Int) else numberOf ds), r)
    else some (none, cs)
  | [] => some (none, [])

/-- A decimal number after its sign. One with a fraction or an exponent must not be too large, but
it may be too small or too far below zero. -/
def readDecimal (negative : Bool) (cs : List Char) : Option (Toml × List Char) :=
  match cs with
  | 'i' :: 'n' :: 'f' :: r => some (.real ['i', 'n', 'f'], r)
  | 'n' :: 'a' :: 'n' :: r => some (.real ['n', 'a', 'n'], r)
  | cs => do
    let (whole, r) ← readWhole cs
    let (fraction, r) ← readFraction r
    let (exponent, r) ← readExponent r
    if fraction = [] ∧ exponent = none then do
      let n ← integer? (if negative then -(numberOf whole : Int) else numberOf whole)
      return (n, r)
    else
      let tooLarge := overflows (numberOf (whole ++ fraction))
        (exponent.getD 0 - fraction.length)
      if tooLarge ∧ ¬negative then none
      else return (.real (cs.take (cs.length - r.length)), r)

/-- A number in base two, eight or sixteen after its mark. -/
def readBased (base : Nat) (ok : Char → Bool) (cs : List Char) : Option (Toml × List Char) := do
  let (ds, r) ← readSomeDigits ok cs
  let n ← integer? (numberIn base ds)
  return (n, r)

def readNumber : List Char → Option (Toml × List Char)
  | '0' :: 'x' :: r => readBased 16 (fun c => (hexValue c).isSome) r
  | '0' :: 'o' :: r => readBased 8 (fun c => '0' ≤ c && c ≤ '7') r
  | '0' :: 'b' :: r => readBased 2 (fun c => c = '0' || c = '1') r
  | '-' :: r => readDecimal true r
  | '+' :: r => readDecimal false r
  | r => readDecimal false r

def readFixed (width : Nat) (cs : List Char) : Option (Nat × List Char) :=
  let ds := cs.take width
  if ds.length = width ∧ ds.all Char.isDigit then some (numberOf ds, cs.drop width) else none

def readMark (c : Char) : List Char → Option (List Char)
  | d :: r => if d = c then some r else none
  | [] => none

def skipDate (cs : List Char) : Option (List Char) := do
  let (year, r) ← readFixed 4 cs
  let r ← readMark '-' r
  let (month, r) ← readFixed 2 r
  let r ← readMark '-' r
  let (day, r) ← readFixed 2 r
  if (Date.of? year month day).isSome then some r else none

def skipTime (cs : List Char) : Option (List Char) := do
  let (hour, r) ← readFixed 2 cs
  let r ← readMark ':' r
  let (minute, r) ← readFixed 2 r
  let r ← readMark ':' r
  let (second, r) ← readFixed 2 r
  if hour < 24 ∧ minute < 60 ∧ second ≤ 60 then
    match r with
    | '.' :: r' => if digitRun r' = [] then some r else some (afterDigits r')
    | r => some r
  else none

def skipOffset (cs : List Char) : Option (List Char) :=
  match cs with
  | c :: r =>
    if c = 'Z' ∨ c = 'z' then some r
    else if c = '+' ∨ c = '-' then do
      let (hour, r) ← readFixed 2 r
      let r ← readMark ':' r
      let (minute, r) ← readFixed 2 r
      if hour < 24 ∧ minute < 60 then some r else none
    else none
  | [] => none

def skipTimeOfDate (cs : List Char) : Option (List Char) :=
  match cs with
  | c :: r =>
    if c = 'T' ∨ c = 't' ∨ c = ' ' then (skipTime r).map fun r => (skipOffset r).getD r else none
  | [] => none

def readMoment (cs : List Char) : Option (Toml × List Char) := do
  let r ← match skipDate cs with
    | some r => some ((skipTimeOfDate r).getD r)
    | none => skipTime cs
  return (.moment (cs.take (cs.length - r.length)), r)

/-- The moment that a whole text spells. -/
def moment? (s : String) : Option Toml :=
  match readMoment s.toList with
  | some (m, []) => some m
  | _ => none

end SharedStream.Toml
