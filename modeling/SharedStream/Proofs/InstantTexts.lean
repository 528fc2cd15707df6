import Mathlib.Algebra.Group.Nat.Defs
import Mathlib.Data.List.Basic
import SharedStream.Instant.Reader
import SharedStream.Proofs.Days

/-! # Written instants are read back

Each reader of a part gives back what the writer of that part wrote and leaves the rest of the text.
The offset of a written instant is zero, so the clock shows the instant itself. Main statement:
`parse_print`.
-/
namespace SharedStream
namespace Text

/-! ## Padded numerals -/

theorem isDigit_of_mem_padded {width n : Nat} {c : Char} (h : c ∈ padded width n) :
    c.isDigit = true := by
  rcases List.mem_append.1 h with zero | digit
  · rw [List.eq_of_mem_replicate zero]
    rfl
  · exact isDigit_of_mem_numeral digit

theorem padded_ne_nil (width n : Nat) : padded width n ≠ [] :=
  List.append_ne_nil_of_right_ne_nil _ (numeral_ne_nil n)

@[simp] theorem numberOf_padded (width n : Nat) : numberOf (padded width n) = n := by
  rw [numberOf, padded, Nat.ofDigitChars_append, Nat.ofDigitChars_replicate_zero, Nat.mul_zero]
  exact numberOf_numeral n

theorem length_padded {width n : Nat} (some : 0 < width) (fits : n < 10 ^ width) :
    (padded width n).length = width := by
  have short : (numeral n).length ≤ width :=
    (Nat.length_toDigits_le_iff (by decide) some).2 fits
  rw [padded, List.length_append, List.length_replicate]
  omega

theorem isBlank_of_isDigit {c : Char} (digit : c.isDigit = true) : isBlank c = false := by
  simp only [Char.isDigit, Bool.and_eq_true, decide_eq_true_eq] at digit
  have low : 48 ≤ c.toNat := UInt32.le_iff_toNat_le.1 digit.1
  have high : c.toNat ≤ 57 := UInt32.le_iff_toNat_le.1 digit.2
  rw [isBlank, Bool.eq_false_iff, ne_eq, Ranges.covers_iff]
  rintro ⟨r, hr, above, below⟩
  simp only [blankRanges, List.mem_cons, List.not_mem_nil, or_false] at hr
  rcases hr with rfl | rfl | rfl | rfl | rfl | rfl | rfl | rfl | rfl | rfl <;>
    simp only at above below <;> omega

theorem trimLeft_cons {c : Char} (visible : isBlank c = false) (r : List Char) :
    trimLeft (c :: r) = c :: r :=
  List.dropWhile_cons_of_neg (by simp [visible])

theorem endsNumeral_cons {c : Char} (h : c.isDigit = false) (r : List Char) :
    EndsNumeral (c :: r) := by
  rintro d hd
  cases hd
  exact h

section Padded
variable {width n : Nat} {rest : List Char}

theorem digitRun_padded (ends : EndsNumeral rest) :
    digitRun (padded width n ++ rest) = padded width n :=
  digitRun_append (fun _ => isDigit_of_mem_padded) ends

theorem afterDigits_padded (ends : EndsNumeral rest) :
    afterDigits (padded width n ++ rest) = rest :=
  afterDigits_append (fun _ => isDigit_of_mem_padded) ends

/-- A padded numeral begins with a digit. -/
theorem exists_padded (width n : Nat) : ∃ d ds, padded width n = d :: ds ∧ d.isDigit = true := by
  obtain ⟨d, ds, split⟩ := List.exists_cons_of_ne_nil (padded_ne_nil width n)
  have digit : d ∈ padded width n := by simp [split]
  exact ⟨d, ds, split, isDigit_of_mem_padded digit⟩

theorem trimLeft_padded (width n : Nat) (rest : List Char) :
    trimLeft (padded width n ++ rest) = padded width n ++ rest := by
  obtain ⟨d, ds, split, digit⟩ := exists_padded width n
  rw [split]
  exact trimLeft_cons (isBlank_of_isDigit digit) _

end Padded
end Text

namespace Instant
open Text

/-! ## Parts -/

section Parts
variable {width n : Nat} {rest : List Char}

theorem readPart_padded (some : 0 < width) (fits : n < 10 ^ width) (ends : EndsNumeral rest) :
    readPart width (padded width n ++ rest) = .some (n, rest) := by
  have length := length_padded some fits
  have all : (padded width n).take width = padded width n :=
    List.take_of_length_le (Nat.le_of_eq length)
  unfold readPart
  dsimp only
  rw [trimLeft_padded, digitRun_padded ends, all, if_neg (padded_ne_nil width n), numberOf_padded,
    List.drop_left]

theorem readMark_cons {c : Char} (visible : isBlank c = false) :
    readMark c (c :: rest) = some rest := by
  unfold readMark
  rw [trimLeft_cons visible]
  exact if_pos rfl

/-- The number after a sign, of which `value` makes a year. -/
theorem readDigits_padded (value : Nat → Int) (ends : EndsNumeral rest) :
    (if digitRun (padded width n ++ rest) = [] then none
      else some (value (numberOf (digitRun (padded width n ++ rest))),
        afterDigits (padded width n ++ rest))) = some (value n, rest) := by
  rw [digitRun_padded ends, afterDigits_padded ends, if_neg (padded_ne_nil width n),
    numberOf_padded]

theorem readYear_padded (fits : n < 10000) (ends : EndsNumeral rest) :
    readYear (padded 4 n ++ rest) = some ((n : Int), rest) := by
  have part : readPart 4 (padded 4 n ++ rest) = some (n, rest) :=
    readPart_padded (by decide) fits ends
  have visible := trimLeft_padded 4 n rest
  obtain ⟨d, ds, split, digit⟩ := exists_padded 4 n
  unfold readYear
  rw [visible]
  rw [split] at part ⊢
  -- a digit is no sign
  split
  · next same =>
    cases same
    cases digit
  · next same =>
    cases same
    cases digit
  · rw [part]
    rfl

theorem readYear_renderYear (year : Int) (ends : EndsNumeral rest) :
    readYear (renderYear year ++ rest) = some (year, rest) := by
  unfold renderYear
  split
  · next small =>
    rw [readYear_padded (by omega) ends, Int.toNat_of_nonneg small.1]
  · next large =>
    split
    · next before =>
      refine (readDigits_padded (fun n => -(n : Int)) ends).trans ?_
      rw [Int.ofNat_natAbs_of_nonpos (Int.le_of_lt before), Int.neg_neg]
    · next after =>
      refine (readDigits_padded (fun n => (n : Int)) ends).trans ?_
      rw [Int.natAbs_of_nonneg (by omega)]

theorem readNano_padded (some : 0 < width) (short : width ≤ 9) (fits : n < 10 ^ width)
    (ends : EndsNumeral rest) :
    readNano ('.' :: (padded width n ++ rest)) = .some (n * 10 ^ (9 - width), rest) := by
  have length := length_padded some fits
  have all : (padded width n).take 9 = padded width n := List.take_of_length_le (by omega)
  show (let ds := (digitRun (padded width n ++ rest)).take 9
    if ds = [] then none
    else Option.some (numberOf ds * Nat.pow 10 (9 - ds.length),
      afterDigits (padded width n ++ rest))) = _
  rw [digitRun_padded ends, all, afterDigits_padded ends]
  dsimp only
  rw [if_neg (padded_ne_nil width n), numberOf_padded, length]
  rfl

theorem readNano_renderFraction (fits : n < 1000000000) (ends : EndsNumeral rest)
    (point : rest.head? ≠ some '.') : readNano (renderFraction n ++ rest) = some (n, rest) := by
  unfold renderFraction
  split
  · next zero =>
    subst zero
    unfold readNano
    split
    · next same =>
      cases same
      exact absurd rfl point
    · rfl
  split
  · next thousandths =>
    refine (readNano_padded (by decide) (by decide) (by omega) ends).trans ?_
    congr 2
    omega
  split
  · next millionths =>
    refine (readNano_padded (by decide) (by decide) (by omega) ends).trans ?_
    congr 2
    omega
  · refine (readNano_padded (by decide) (by decide) fits ends).trans ?_
    rw [Nat.sub_self, Nat.pow_zero, Nat.mul_one]

end Parts

/-! ## Date and time -/

theorem readDate_render (d : Date) {rest : List Char} (ends : EndsNumeral rest) :
    readDate (renderYear d.year ++ '-' :: (padded 2 d.month ++ '-' :: (padded 2 d.day ++ rest))) =
      some (d, rest) := by
  have month : d.month < 10 ^ 2 := Nat.lt_of_le_of_lt d.month_range.2 (by decide)
  have day : d.day < 10 ^ 2 :=
    Nat.lt_of_le_of_lt (Nat.le_trans d.day_range.2 (monthLength_le _ _)) (by decide)
  have dash (r : List Char) : EndsNumeral ('-' :: r) := endsNumeral_cons rfl r
  have mark (r : List Char) : readMark '-' ('-' :: r) = some r := readMark_cons (by decide)
  simp only [readDate, readYear_renderYear d.year (dash _), mark,
    readPart_padded (by decide : 0 < 2) month (dash _),
    readPart_padded (by decide : 0 < 2) day ends, Date.of?_fields, Option.bind_eq_bind,
    Option.bind_some, Option.pure_def]

/-- The parts of a time of day are read one by one. -/
theorem readTime_padded {hour minute second nano : Nat} {rest : List Char} (hours : hour < 24)
    (minutes : minute < 60) (seconds : second ≤ 60) (nanos : nano < 1000000000)
    (ends : EndsNumeral rest) (point : rest.head? ≠ some '.') :
    readTime (padded 2 hour ++ ':' :: (padded 2 minute ++ ':' :: (padded 2 second ++
      (renderFraction nano ++ rest)))) =
      some (if second = 60 then (hour * 3600 + minute * 60 + 59, nano + 1000000000)
        else (hour * 3600 + minute * 60 + second, nano), rest) := by
  have colon (r : List Char) : EndsNumeral (':' :: r) := endsNumeral_cons rfl r
  have mark (r : List Char) : readMark ':' (':' :: r) = some r := readMark_cons (by decide)
  have fraction : EndsNumeral (renderFraction nano ++ rest) := by
    unfold renderFraction
    split
    · exact ends
    split
    · exact endsNumeral_cons rfl _
    split <;> exact endsNumeral_cons rfl _
  simp only [readTime, mark,
    readPart_padded (by decide : 0 < 2) (by omega : hour < 10 ^ 2) (colon _),
    readPart_padded (by decide : 0 < 2) (by omega : minute < 10 ^ 2) (colon _),
    readPart_padded (by decide : 0 < 2) (by omega : second < 10 ^ 2) fraction,
    readNano_renderFraction nanos ends point, Option.bind_eq_bind, Option.bind_some,
    if_pos (And.intro hours (And.intro minutes seconds)), Option.pure_def]

/-- The time of day of an instant, the sixtieth second of a minute included. -/
theorem readTime_render (i : Instant) {rest : List Char} (ends : EndsNumeral rest)
    (point : rest.head? ≠ some '.') :
    readTime (padded 2 (i.second / 3600) ++ ':' :: (padded 2 (i.second / 60 % 60) ++
      ':' :: (padded 2 (if 1000000000 ≤ i.nano then 60 else i.second % 60) ++
        (renderFraction (if 1000000000 ≤ i.nano then i.nano - 1000000000 else i.nano) ++ rest)))) =
      some ((i.second, i.nano), rest) := by
  have day := i.second_lt
  have range := i.nano_lt
  have parts : i.second / 3600 * 3600 + i.second / 60 % 60 * 60 + i.second % 60 = i.second := by
    omega
  by_cases long : 1000000000 ≤ i.nano
  · rw [if_pos long, if_pos long, readTime_padded (by omega) (by omega) (by omega) (by omega) ends
      point, if_pos rfl, Nat.sub_add_cancel long]
    have last : i.second / 3600 * 3600 + i.second / 60 % 60 * 60 + 59 = i.second := by omega
    rw [last]
  · rw [if_neg long, if_neg long, readTime_padded (by omega) (by omega) (by omega) (by omega) ends
      point, if_neg (by omega), parts]

/-! ## Clocks -/

section Clocks
variable {date : Date} {second nano : Nat} {offset : Int} {i : Instant}

/-- The instant of a day and a time, if the time may have so many nanoseconds. -/
theorem bind_moment_eq_some_iff {day : Option Date} (lt : second < 86400) :
    (day.bind fun date =>
      if h : nano < 1000000000 ∨ second % 60 = 59 ∧ nano < 2000000000 then
        some (⟨date, second, nano, lt, h⟩ : Instant) else none) = some i ↔
      day = some i.date ∧ i.second = second ∧ i.nano = nano := by
  rw [Option.bind_eq_some_iff]
  constructor
  · rintro ⟨date, rfl, moment⟩
    split at moment
    · cases moment
      exact ⟨rfl, rfl, rfl⟩
    · cases moment
  · rintro ⟨rfl, rfl, rfl⟩
    exact ⟨i.date, rfl, dif_pos i.nano_lt⟩

/-- A clock that is ahead of universal time may show the next day, one behind it the day before. -/
theorem ofLocal?_eq_some_iff : ofLocal? date second nano offset = some i ↔
    (if (second : Int) - offset < 0 then date.previous?
      else if 86400 ≤ (second : Int) - offset then date.next? else some date) = some i.date ∧
    i.second = (((second : Int) - offset) % 86400).toNat ∧ i.nano = nano := by
  unfold ofLocal?
  simp only [Option.bind_eq_bind, Option.pure_def]
  split
  · exact bind_moment_eq_some_iff _
  split
  · exact bind_moment_eq_some_iff _
  · exact bind_moment_eq_some_iff _

/-- What a clock shows, so many seconds ahead of universal time, and the instant itself: each is
found from the other. -/
theorem ofLocal?_neg {clock : Instant} (day : -86400 < offset ∧ offset < 86400)
    (shown : ofLocal? i.date i.second i.nano (-offset) = some clock) :
    ofLocal? clock.date clock.second clock.nano offset = some i := by
  have start := i.second_lt
  rw [ofLocal?_eq_some_iff, Int.sub_neg] at shown
  obtain ⟨date, second, nano⟩ := shown
  rw [ofLocal?_eq_some_iff]
  refine ⟨?_, by omega, nano.symm⟩
  split at date
  · next before =>
    rw [if_neg (by omega), if_pos (by omega)]
    exact Date.next?_eq_some_iff_previous?.2 date
  split at date
  · next after =>
    rw [if_pos (by omega)]
    exact Date.next?_eq_some_iff_previous?.1 date
  · rw [if_neg (by omega), if_neg (by omega), date]

/-- A clock without an offset shows the instant itself. -/
theorem ofLocal?_zero (i : Instant) : ofLocal? i.date i.second i.nano 0 = some i := by
  have start := i.second_lt
  rw [ofLocal?_eq_some_iff, Int.sub_zero, if_neg (by omega), if_neg (by omega)]
  exact ⟨rfl, by omega, rfl⟩

end Clocks

/-! ## Zones -/

/-- How far a clock is ahead of universal time or behind it. -/
structure Offset where
  ahead : Bool
  hours : Nat
  minutes : Nat
  hours_lt : hours < 24
  minutes_lt : minutes < 60

namespace Offset

def seconds (o : Offset) : Int :=
  if o.ahead then ((o.hours * 3600 + o.minutes * 60 : Nat) : Int)
  else -((o.hours * 3600 + o.minutes * 60 : Nat) : Int)

def render (o : Offset) : List Char :=
  (if o.ahead then '+' else '-') :: (padded 2 o.hours ++ ':' :: padded 2 o.minutes)

theorem seconds_range (o : Offset) : -86400 < o.seconds ∧ o.seconds < 86400 := by
  have hours := o.hours_lt
  have minutes := o.minutes_lt
  unfold seconds
  split <;> omega

end Offset

theorem readPair_padded {n : Nat} (fits : n < 100) (rest : List Char) :
    readPair (padded 2 n ++ rest) = some (n, rest) := by
  have length := length_padded (by decide : 0 < 2) fits
  have digits (c : Char) (hc : c ∈ padded 2 n) := isDigit_of_mem_padded hc
  have value := numberOf_padded 2 n
  obtain ⟨c, d, split⟩ := List.length_eq_two.1 length
  rw [split] at digits value ⊢
  have both : (c.isDigit && d.isDigit) = true := by
    rw [digits c (by simp), digits d (by simp)]
    rfl
  show (if c.isDigit && d.isDigit then some (numberOf [c, d], rest) else none) = _
  rw [if_pos both, value]

theorem dropWhile_padded (n : Nat) :
    (':' :: padded 2 n).dropWhile (fun c => c = ':' || isBlank c) = padded 2 n := by
  obtain ⟨d, ds, split, digit⟩ := exists_padded 2 n
  have colon : d ≠ ':' := by
    rintro rfl
    cases digit
  rw [List.dropWhile_cons_of_pos (by decide), split,
    List.dropWhile_cons_of_neg (by simp [colon, isBlank_of_isDigit digit])]

/-- What the reader of offsets does after the sign. -/
theorem readOffset_sign {c : Char} (o : Offset) (sign : c = '+' ∨ c = '-') :
    readOffset (c :: (padded 2 o.hours ++ ':' :: padded 2 o.minutes)) =
      some (if c = '+' then ((o.hours * 3600 + o.minutes * 60 : Nat) : Int)
        else -((o.hours * 3600 + o.minutes * 60 : Nat) : Int), []) := by
  have hours := o.hours_lt
  have minutes := o.minutes_lt
  have first := readPair_padded (by omega : o.hours < 100) (':' :: padded 2 o.minutes)
  have last := readPair_padded (by omega : o.minutes < 100) []
  rw [List.append_nil] at last
  have letters (r : List Char) : ¬((c :: r).take 3).map Char.toUpper = ['U', 'T', 'C'] := by
    intro letters
    have head := (List.cons.inj letters).1
    rcases sign with rfl | rfl <;> cases head
  have zone : ¬(c = 'Z' ∨ c = 'z') := by rcases sign with rfl | rfl <;> decide
  unfold readOffset
  dsimp only
  rw [if_neg zone, if_neg (letters _), if_pos (sign.imp_right .inl), first]
  dsimp only [Option.bind_eq_bind, Option.bind_some]
  rw [dropWhile_padded, last]
  dsimp only [Option.bind_some]
  rw [if_pos ⟨minutes, by omega⟩]
  rfl

theorem readOffset_render (o : Offset) : readOffset o.render = some (o.seconds, []) := by
  unfold Offset.render Offset.seconds
  split
  · exact readOffset_sign o (.inl rfl)
  · exact readOffset_sign o (.inr rfl)

/-- What a clock shows, with a zone in place of the `Z`. -/
def renderAt (clock : Instant) (zone : List Char) : List Char := clock.render.dropLast ++ zone

/-- A time is read with the zone that stands after it. -/
theorem parse_renderAt {clock : Instant} {c : Char} {zone : List Char} {offset : Int}
    (digit : c.isDigit = false) (point : c ≠ '.') (visible : isBlank c = false)
    (read : readOffset (c :: zone) = some (offset, [])) :
    parse (String.ofList (clock.renderAt (c :: zone))) =
      ofLocal? clock.date clock.second clock.nano offset := by
  have ends : EndsNumeral (c :: zone) := endsNumeral_cons digit zone
  have other : (c :: zone).head? ≠ some '.' := by simpa using point
  unfold parse renderAt
  rw [String.toList_ofList, render, List.dropLast_concat]
  simp only [List.append_assoc, List.cons_append]
  rw [readDate_render clock.date (endsNumeral_cons rfl _)]
  show (readTime _ >>= _) = _
  rw [readTime_render clock ends other]
  show (readOffset (trimLeft (c :: zone)) >>= _) = _
  rw [trimLeft_cons visible, read]
  rfl

theorem parse_zoned (clock : Instant) (o : Offset) :
    parse (String.ofList (clock.renderAt o.render)) =
      ofLocal? clock.date clock.second clock.nano o.seconds := by
  refine parse_renderAt (c := if o.ahead then '+' else '-') ?_ ?_ ?_ (readOffset_render o) <;>
    split <;> decide

/-- A long second at midnight, as a clock shows it that is three and a half hours behind. -/
example : (parse "1999-12-31T20:29:60.5-03:30").map print = some "1999-12-31T23:59:60.500Z" := by
  rfl

/-- The written form of an instant is read as that instant. -/
theorem parse_print (i : Instant) : parse i.print = some i := by
  have written : i.renderAt ['Z'] = i.render := by
    rw [renderAt, render, List.dropLast_concat]
  have read : parse (String.ofList (i.renderAt ['Z'])) = ofLocal? i.date i.second i.nano 0 :=
    parse_renderAt rfl (by decide) (by decide) rfl
  rw [written, ofLocal?_zero] at read
  exact read

end Instant
end SharedStream
