import SharedStream.Instant
import SharedStream.Text.Blank

/-! # Reading instants

The written form of an instant, with some freedom: blanks around the parts, parts of fewer digits,
a blank or a small letter between date and time, any offset of less than a day, and digits beyond
the nanosecond, which are dropped.
-/
namespace SharedStream.Instant
open Text

def readPart (width : Nat) (cs : List Char) : Option (Nat × List Char) :=
  let cs := trimLeft cs
  let ds := (digitRun cs).take width
  if ds = [] then none else some (numberOf ds, cs.drop ds.length)

def readMark (c : Char) (cs : List Char) : Option (List Char) :=
  match trimLeft cs with
  | d :: r => if d = c then some r else none
  | [] => none

/-- A year of at most four digits, or of any number of digits after a sign. -/
def readYear (cs : List Char) : Option (Int × List Char) :=
  match trimLeft cs with
  | '-' :: r => if digitRun r = [] then none else some (-(numberOf (digitRun r)), afterDigits r)
  | '+' :: r => if digitRun r = [] then none else some (numberOf (digitRun r), afterDigits r)
  | r => (readPart 4 r).map fun (n, r) => ((n : Int), r)

def readDate (cs : List Char) : Option (Date × List Char) := do
  let (year, r) ← readYear cs
  let r ← readMark '-' r
  let (month, r) ← readPart 2 r
  let r ← readMark '-' r
  let (day, r) ← readPart 2 r
  let date ← Date.of? year month day
  return (date, r)

/-- Nanoseconds: a point and digits, of which nine count, or nothing. -/
def readNano (cs : List Char) : Option (Nat × List Char) :=
  match cs with
  | '.' :: r =>
    let ds := (digitRun r).take 9
    if ds = [] then none else some (numberOf ds * Nat.pow 10 (9 - ds.length), afterDigits r)
  | r => some (0, r)

/-- The second of the day and its nanoseconds. A sixtieth second makes the one before it long. -/
def readTime (cs : List Char) : Option ((Nat × Nat) × List Char) := do
  let (hour, r) ← readPart 2 cs
  let r ← readMark ':' r
  let (minute, r) ← readPart 2 r
  let r ← readMark ':' r
  let (second, r) ← readPart 2 r
  let (nano, r) ← readNano r
  if hour < 24 ∧ minute < 60 ∧ second ≤ 60 then
    let start := hour * 3600 + minute * 60
    return (if second = 60 then (start + 59, nano + 1000000000) else (start + second, nano), r)
  else none

def readPair (cs : List Char) : Option (Nat × List Char) :=
  match cs with
  | c :: d :: r => if c.isDigit && d.isDigit then some (numberOf [c, d], r) else none
  | _ => none

/-- The offset from universal time in seconds: `Z`, `UTC`, or a sign, hours and minutes, which
colons and blanks may part. -/
def readOffset (cs : List Char) : Option (Int × List Char) :=
  match cs with
  | c :: r =>
    if c = 'Z' ∨ c = 'z' then some (0, r)
    else if (cs.take 3).map Char.toUpper = ['U', 'T', 'C'] then some (0, cs.drop 3)
    else if c = '+' ∨ c = '-' ∨ c = '\u2212' then do
      let (hours, r) ← readPair r
      let (minutes, r) ← readPair (r.dropWhile fun c => c = ':' || isBlank c)
      let offset := (hours * 3600 + minutes * 60 : Nat)
      if minutes < 60 ∧ offset < 86400 then
        return (if c = '+' then (offset : Int) else -offset, r)
      else none
    else none
  | [] => none

def parse (s : String) : Option Instant := do
  let (date, r) ← readDate s.toList
  match r with
  | c :: r =>
    if c = 'T' ∨ c = 't' ∨ c = ' ' then
      let ((second, nano), r) ← readTime r
      let (offset, r) ← readOffset (trimLeft r)
      if trimLeft r = [] then ofLocal? date second nano offset else none
    else none
  | [] => none

end SharedStream.Instant
