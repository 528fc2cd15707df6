import SharedStream.Calendar

/-! # Days that follow one another

A date has at most one next day and at most one day before it, and the two go back and forth.
-/
namespace SharedStream

theorem monthLength_le (year : Int) (month : Nat) : monthLength year month ≤ 31 := by
  unfold monthLength
  split
  · split <;> decide
  all_goals decide

theorem le_monthLength (year : Int) (month : Nat) : 28 ≤ monthLength year month := by
  unfold monthLength
  split
  · split <;> decide
  all_goals decide

namespace Date

theorem of?_eq_some_iff {year : Int} {month day : Nat} {d : Date} :
    of? year month day = some d ↔ d.year = year ∧ d.month = month ∧ d.day = day := by
  constructor
  · unfold of?
    split
    · split
      · split
        · rintro ⟨⟩
          exact ⟨rfl, rfl, rfl⟩
        · rintro ⟨⟩
      · rintro ⟨⟩
    · rintro ⟨⟩
  · rintro ⟨rfl, rfl, rfl⟩
    exact of?_fields d

theorem of?_eq_none_iff {year : Int} {month day : Nat} : of? year month day = none ↔
    ¬((-262143 ≤ year ∧ year ≤ 262142) ∧ (1 ≤ month ∧ month ≤ 12) ∧
      1 ≤ day ∧ day ≤ monthLength year month) := by
  constructor
  · rintro none ⟨hy, hm, hd⟩
    have here : of? year month day = some ⟨year, month, day, hy, hm, hd⟩ :=
      of?_eq_some_iff.2 ⟨rfl, rfl, rfl⟩
    rw [none] at here
    cases here
  · intro out
    rw [Option.eq_none_iff_forall_ne_some]
    rintro d here
    obtain ⟨rfl, rfl, rfl⟩ := of?_eq_some_iff.1 here
    exact out ⟨d.year_range, d.month_range, d.day_range⟩

/-- The second day comes right after the first. -/
inductive Follows (d e : Date) : Prop where
  | day (year : e.year = d.year) (month : e.month = d.month) (day : e.day = d.day + 1)
  | month (last : d.day = monthLength d.year d.month) (year : e.year = d.year)
      (month : e.month = d.month + 1) (day : e.day = 1)
  | year (last : d.month = 12 ∧ d.day = 31) (year : e.year = d.year + 1) (month : e.month = 1)
      (day : e.day = 1)

variable {d e : Date}

theorem next?_eq_some_iff : d.next? = some e ↔ Follows d e := by
  have year := d.year_range
  have month := d.month_range
  have day := d.day_range
  unfold next?
  simp only [Option.orElse_eq_orElse, Option.orElse_eq_or, Option.or_eq_some_iff, of?_eq_some_iff,
    of?_eq_none_iff]
  constructor
  · rintro (⟨hy, hm, hd⟩ | ⟨past, ⟨hy, hm, hd⟩ | ⟨beyond, hy, hm, hd⟩⟩)
    · exact .day hy hm hd
    · exact .month (by omega) hy hm hd
    · have long := le_monthLength d.year (d.month + 1)
      have last : d.month = 12 := by omega
      have length : monthLength d.year d.month = 31 := by
        rw [last]
        rfl
      exact .year ⟨last, by omega⟩ hy hm hd
  · rintro (⟨hy, hm, hd⟩ | ⟨last, hy, hm, hd⟩ | ⟨⟨last, long⟩, hy, hm, hd⟩)
    · exact .inl ⟨hy, hm, hd⟩
    · exact .inr ⟨by omega, .inl ⟨hy, hm, hd⟩⟩
    · have length : monthLength d.year d.month = 31 := by
        rw [last]
        rfl
      exact .inr ⟨by omega, .inr ⟨by omega, hy, hm, hd⟩⟩

theorem previous?_eq_some_iff : e.previous? = some d ↔ Follows d e := by
  have year := e.year_range
  have month := e.month_range
  have day := e.day_range
  have first := d.day_range.1
  have january := d.month_range.1
  unfold previous?
  simp only [Option.orElse_eq_orElse, Option.orElse_eq_or, Option.or_eq_some_iff, of?_eq_some_iff,
    of?_eq_none_iff]
  constructor
  · rintro (⟨hy, hm, hd⟩ | ⟨past, ⟨hy, hm, hd⟩ | ⟨beyond, hy, hm, hd⟩⟩)
    · exact .day hy.symm hm.symm (by omega)
    · have length := le_monthLength e.year (e.month - 1)
      exact .month (by rw [hd, hy, hm]) hy.symm (by omega) (by omega)
    · have length := le_monthLength e.year (e.month - 1)
      exact .year ⟨hm, hd⟩ (by omega) (by omega) (by omega)
  · rintro (⟨hy, hm, hd⟩ | ⟨last, hy, hm, hd⟩ | ⟨⟨last, long⟩, hy, hm, hd⟩)
    · exact .inl ⟨hy.symm, hm.symm, by omega⟩
    · have back : e.month - 1 = d.month := by omega
      exact .inr ⟨by omega, .inl ⟨hy.symm, back.symm, by rw [last, hy, back]⟩⟩
    · exact .inr ⟨by omega, .inr ⟨by omega, by omega, last, long⟩⟩

theorem next?_eq_some_iff_previous? : d.next? = some e ↔ e.previous? = some d :=
  next?_eq_some_iff.trans previous?_eq_some_iff.symm

end Date
end SharedStream
