import SharedStream.Calendar
import SharedStream.Text.Digits

/-! # Instants

A moment in universal time to the nanosecond, and its written form: date, `T`, time of day, as many
digits of a second as its thousands need, and `Z`.
-/
namespace SharedStream
open Text

/-- A day and a time in it. The last second of a minute may be a long one: its nanoseconds then go
on past the first billion. -/
structure Instant where
  date : Date
  second : Nat
  nano : Nat
  second_lt : second < 86400
  nano_lt : nano < 1000000000 ∨ second % 60 = 59 ∧ nano < 2000000000
  deriving DecidableEq

namespace Instant

/-- The instant that a clock shows that is `offset` seconds ahead of universal time, if the
calendar still has its day. -/
def ofLocal? (date : Date) (second : Nat) (nano : Nat) (offset : Int) : Option Instant := do
  let universal := (second : Int) - offset
  let date ←
    if universal < 0 then date.previous?
    else if 86400 ≤ universal then date.next?
    else some date
  let second := (universal % 86400).toNat
  if h : nano < 1000000000 ∨ second % 60 = 59 ∧ nano < 2000000000 then
    return ⟨date, second, nano, by omega, h⟩
  else none

/-- Four digits, or a sign and at least four for a year that four digits do not hold. -/
def renderYear (year : Int) : List Char :=
  if 0 ≤ year ∧ year ≤ 9999 then padded 4 year.toNat
  else (if year < 0 then '-' else '+') :: padded 4 year.natAbs

/-- No digits, or three, six or nine, whichever are enough. -/
def renderFraction (nano : Nat) : List Char :=
  if nano = 0 then []
  else if nano % 1000000 = 0 then '.' :: padded 3 (nano / 1000000)
  else if nano % 1000 = 0 then '.' :: padded 6 (nano / 1000)
  else '.' :: padded 9 nano

/-- The written form. A long second counts as the sixtieth of its minute. -/
def render (i : Instant) : List Char :=
  let long := 1000000000 ≤ i.nano
  renderYear i.date.year ++ '-' :: padded 2 i.date.month ++ '-' :: padded 2 i.date.day ++
    'T' :: padded 2 (i.second / 3600) ++ ':' :: padded 2 (i.second / 60 % 60) ++
    ':' :: padded 2 (if long then 60 else i.second % 60) ++
    renderFraction (if long then i.nano - 1000000000 else i.nano) ++ ['Z']

def print (i : Instant) : String := String.ofList i.render

end Instant
end SharedStream
