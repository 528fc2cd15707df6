/-! # Dates

Days of the proleptic Gregorian calendar, with a year zero, in the years that an instant may have.
-/
namespace SharedStream

def isLeapYear (year : Int) : Bool := year % 4 = 0 && (year % 100 ≠ 0 || year % 400 = 0)

def monthLength (year : Int) (month : Nat) : Nat :=
  match month with
  | 2 => if isLeapYear year then 29 else 28
  | 4 | 6 | 9 | 11 => 30
  | _ => 31

structure Date where
  year : Int
  month : Nat
  day : Nat
  year_range : -262143 ≤ year ∧ year ≤ 262142
  month_range : 1 ≤ month ∧ month ≤ 12
  day_range : 1 ≤ day ∧ day ≤ monthLength year month
  deriving DecidableEq

namespace Date

/-- The day with these numbers, if the calendar has it. -/
def of? (year : Int) (month day : Nat) : Option Date :=
  if hy : -262143 ≤ year ∧ year ≤ 262142 then
    if hm : 1 ≤ month ∧ month ≤ 12 then
      if hd : 1 ≤ day ∧ day ≤ monthLength year month then some ⟨year, month, day, hy, hm, hd⟩
      else none
    else none
  else none

theorem of?_fields (d : Date) : of? d.year d.month d.day = some d := by
  simp [of?, d.year_range, d.month_range, d.day_range]

def next? (d : Date) : Option Date :=
  of? d.year d.month (d.day + 1) <|> of? d.year (d.month + 1) 1 <|> of? (d.year + 1) 1 1

def previous? (d : Date) : Option Date :=
  of? d.year d.month (d.day - 1) <|>
    of? d.year (d.month - 1) (monthLength d.year (d.month - 1)) <|> of? (d.year - 1) 12 31

end Date
end SharedStream
