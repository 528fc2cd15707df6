import Mathlib.Algebra.Order.Ring.Nat
import Mathlib.Data.List.Forall2
import Mathlib.Data.List.TakeWhile
import SharedStream.Config.Layers

/-! # How numbers and modes are spelled

The environment gives its values as texts. A number is spelled by decimal digits, with or without
a plus sign, as long as it fits into 64 bits; a mode by one of its words, in letters of any case
and with blanks around it. Main statements: a text is read as a number or a mode exactly if it
spells it, and the fault of any other text is known.
-/
namespace SharedStream

/-! ## Letters -/

namespace Text

/-- The character is a form of the small letter `l`: the letter itself, its capital, or the sign of
the kelvin in the place of a K. -/
def SameLetter (c l : Char) : Prop :=
  c = l ∨ c.toNat + 32 = l.toNat ∨ c = '\u212a' ∧ l = 'k'

variable {c l : Char}

theorem isLower_iff : c.isLower = true ↔ 97 ≤ c.toNat ∧ c.toNat ≤ 122 := by
  show (decide (c.val ≥ 'a'.val) && decide (c.val ≤ 'z'.val)) = true ↔ _
  simp only [Bool.and_eq_true, decide_eq_true_eq, ge_iff_le, UInt32.le_iff_toNat_le]
  rfl

theorem toNat_toLower : c.toLower.toNat =
    if 65 ≤ c.toNat ∧ c.toNat ≤ 90 then c.toNat + 32 else c.toNat := by
  unfold Char.toLower
  have ends : (c.val ≥ 'A'.val ∧ c.val ≤ 'Z'.val) ↔ 65 ≤ c.toNat ∧ c.toNat ≤ 90 := by
    simp only [ge_iff_le, UInt32.le_iff_toNat_le]
    rfl
  split
  · next capital =>
    rw [if_pos (ends.1 capital)]
    have := (ends.1 capital).2
    show (c.val + 32).toNat = c.val.toNat + 32
    rw [UInt32.toNat_add, Nat.mod_eq_of_lt]
    · rfl
    · show c.toNat + 32 < 2 ^ 32
      omega
  · next other => rw [if_neg (mt ends.2 other)]

/-- A number that is no code point stands for the character zero. -/
theorem toNat_ofNat_cases (n : Nat) : (Char.ofNat n).toNat = n ∨ (Char.ofNat n).toNat = 0 := by
  by_cases valid : n.isValidChar
  · rw [Char.ofNat, dif_pos valid]
    exact .inl rfl
  · rw [Char.ofNat, dif_neg valid]
    exact .inr rfl

/-- Outside ASCII only the sign of the kelvin has a small letter in ASCII. -/
theorem offset_lowerRuns : ∀ r ∈ lowerRuns,
    r.first = 0x212a ∧ r.last = 0x212a ∨ (0x80 : Int) ≤ r.first + r.offset := by
  decide +kernel

theorem isBlank_of_sameLetter (letter : l.isLower = true) (same : SameLetter c l) :
    isBlank c = false := by
  rw [isLower_iff] at letter
  have place : c.toNat = l.toNat ∨ c.toNat + 32 = l.toNat ∨ c.toNat = 0x212a := by
    rcases same with rfl | capital | ⟨rfl, -⟩
    · exact .inl rfl
    · exact .inr (.inl capital)
    · exact .inr (.inr rfl)
  rw [Bool.eq_false_iff, isBlank, Ne, Ranges.covers_iff]
  simp only [blankRanges, List.mem_cons, List.not_mem_nil, or_false, exists_eq_or_imp,
    exists_eq_left]
  omega

theorem not_blank_of_sameLetter {cs w : List Char} (letters : ∀ l ∈ w, l.isLower = true)
    (same : List.Forall₂ SameLetter cs w) : ∀ c ∈ cs, isBlank c = false := by
  induction same with
  | nil => simp
  | cons first rest ih =>
    rw [List.forall_mem_cons] at letters ⊢
    exact ⟨isBlank_of_sameLetter letters.1 first, ih letters.2⟩

theorem lowerOne_kelvin : lowerOne '\u212a' = ['k'] := by
  decide +kernel

theorem lowerOne_of_sameLetter (letter : l.isLower = true) (same : SameLetter c l) :
    lowerOne c = [l] := by
  have range := isLower_iff.1 letter
  rcases same with rfl | capital | ⟨rfl, rfl⟩
  · rw [lowerOne, if_pos (by omega)]
    congr 1
    apply Char.toNat_inj.1
    rw [toNat_toLower, if_neg (by omega)]
  · rw [lowerOne, if_pos (by omega)]
    congr 1
    apply Char.toNat_inj.1
    rw [toNat_toLower, if_pos (by omega), capital]
  · exact lowerOne_kelvin

theorem sameLetter_of_lowerOne (letters : ∀ x ∈ lowerOne c, x.isLower = true) :
    ∃ l, lowerOne c = [l] ∧ SameLetter c l := by
  by_cases kelvin : c = '\u212a'
  · exact ⟨'k', kelvin ▸ lowerOne_kelvin, .inr (.inr ⟨kelvin, rfl⟩)⟩
  unfold lowerOne at letters ⊢
  split at letters
  · next ascii =>
    rw [if_pos ascii]
    have range := isLower_iff.1 (letters _ List.mem_cons_self)
    refine ⟨_, rfl, ?_⟩
    rw [toNat_toLower] at range
    by_cases capital : 65 ≤ c.toNat ∧ c.toNat ≤ 90
    · exact .inr (.inl (by rw [toNat_toLower, if_pos capital]))
    · refine .inl (Char.toNat_inj.1 ?_)
      rw [toNat_toLower, if_neg capital]
  split at letters
  · cases letters (Char.ofNat 0x307) (by simp)
  split at letters
  · next r found =>
    obtain ⟨member, inside⟩ := And.intro (List.mem_of_find?_eq_some found) (List.find?_some found)
    simp only [Bool.and_eq_true, decide_eq_true_eq] at inside
    have range := isLower_iff.1 (letters _ List.mem_cons_self)
    rcases offset_lowerRuns r member with ⟨first, last⟩ | above
    · exact absurd (Char.toNat_inj.1 (show c.toNat = 0x212a by omega)) kelvin
    · rcases toNat_ofNat_cases (c.toNat + r.offset).toNat with value | value
      · omega
      · omega
  · next ascii _ _ _ =>
    have range := isLower_iff.1 (letters c List.mem_cons_self)
    omega

/-- The lower case of a text is a word of small letters just if it is that word letter by letter. -/
theorem lowerAfter_eq_iff {before cs w : List Char} (letters : ∀ l ∈ w, l.isLower = true) :
    lowerAfter before cs = w ↔ List.Forall₂ SameLetter cs w := by
  induction cs generalizing before w with
  | nil =>
    rw [lowerAfter, List.forall₂_nil_left_iff]
    exact eq_comm
  | cons c cs ih =>
    rw [lowerAfter, List.forall₂_cons_left_iff]
    constructor
    · intro whole
      by_cases sigma : c = 'Σ'
      · rw [if_pos sigma] at whole
        subst whole
        have small := letters _ List.mem_cons_self
        split at small <;> cases small
      · rw [if_neg sigma] at whole
        obtain ⟨l, single, same⟩ := sameLetter_of_lowerOne (c := c)
          fun x hx => letters x (whole ▸ List.mem_append_left _ hx)
        rw [single, List.singleton_append] at whole
        subst whole
        exact ⟨l, _, same, (ih fun x hx => letters x (by simp [hx])).1 rfl, rfl⟩
    · rintro ⟨l, ls, same, rest, rfl⟩
      have letter := letters l List.mem_cons_self
      have sigma : c ≠ 'Σ' := by
        rintro rfl
        have := (isLower_iff.1 letter).2
        rcases same with rfl | capital | ⟨kelvin, -⟩
        · cases letter
        · have : 'Σ'.toNat = 0x3a3 := rfl
          omega
        · cases kelvin
      rw [if_neg sigma, lowerOne_of_sameLetter letter same,
        (ih fun x hx => letters x (by simp [hx])).2 rest]
      rfl

/-! ## Blanks at the ends -/

theorem trimLeft_append {before cs : List Char} (blank : ∀ c ∈ before, isBlank c = true)
    (stop : ∀ c ∈ cs.head?, isBlank c = false) : trimLeft (before ++ cs) = cs := by
  rw [trimLeft, List.dropWhile_append_of_pos blank]
  cases cs with
  | nil => rfl
  | cons c cs => exact List.dropWhile_cons_of_neg (by simp [stop c rfl])

/-- A text is what is left of it between its blanks. -/
theorem exists_trim (cs : List Char) : ∃ before after, cs = before ++ trim cs ++ after ∧
    ∀ c ∈ before ++ after, isBlank c = true := by
  have parts (cs : List Char) : ∃ before, cs = before ++ trimLeft cs ∧
      ∀ c ∈ before, isBlank c = true :=
    ⟨cs.takeWhile isBlank, List.takeWhile_append_dropWhile.symm,
      fun c hc => List.mem_takeWhile_imp hc⟩
  obtain ⟨before, split, blank⟩ := parts cs
  obtain ⟨after, split', blank'⟩ := parts (trimLeft cs).reverse
  refine ⟨before, after.reverse, ?_, ?_⟩
  · rw [trim, List.append_assoc, ← List.reverse_append, ← split', List.reverse_reverse, ← split]
  · intro c hc
    rcases List.mem_append.1 hc with hc | hc
    · exact blank c hc
    · exact blank' c (List.mem_reverse.1 hc)

theorem trim_append {before core after : List Char}
    (blank : ∀ c ∈ before ++ after, isBlank c = true)
    (nonempty : core ≠ []) (visible : ∀ c ∈ core, isBlank c = false) :
    trim (before ++ core ++ after) = core := by
  have left : trimLeft (before ++ core ++ after) = core ++ after := by
    rw [List.append_assoc]
    apply trimLeft_append fun c hc => blank c (by simp [hc])
    intro c hc
    obtain ⟨d, ds, rfl⟩ := List.exists_cons_of_ne_nil nonempty
    exact visible c (List.mem_of_mem_head? (by simpa using hc))
  have right : trimLeft (core ++ after).reverse = core.reverse := by
    rw [List.reverse_append]
    apply trimLeft_append fun c hc => blank c (by simpa using .inr (List.mem_reverse.1 hc))
    intro c hc
    exact visible c (List.mem_reverse.1 (List.mem_of_mem_head? hc))
  rw [trim, left, right, List.reverse_reverse]

end Text

open Text

/-! ## Modes -/

namespace LoadMode

/-- What people write for a mode. -/
def words : LoadMode → List String
  | .sync => ["sync", "blocking"]
  | .async => ["async", "background"]

/-- The text is a word for the mode, with blanks around it and in letters of any case. -/
def Spelled (m : LoadMode) (s : String) : Prop :=
  ∃ before core after, s.toList = before ++ core ++ after ∧
    (∀ c ∈ before ++ after, isBlank c = true) ∧
    ∃ w ∈ m.words, List.Forall₂ SameLetter core w.toList

variable {m : LoadMode} {s : String}

theorem letters_of_mem_words {w : String} (hw : w ∈ m.words) :
    w.toList ≠ [] ∧ ∀ l ∈ w.toList, l.isLower = true := by
  have words : m.words.all (fun w => w.toList ≠ [] && w.toList.all Char.isLower) = true := by
    cases m <;> decide
  have word := List.all_eq_true.1 words w hw
  rw [Bool.and_eq_true, decide_eq_true_eq, List.all_eq_true] at word
  exact word

theorem spelled_iff : m.Spelled s ↔ String.ofList (lower (trim s.toList)) ∈ m.words := by
  constructor
  · rintro ⟨before, core, after, split, blank, w, hw, same⟩
    obtain ⟨nonempty, letters⟩ := letters_of_mem_words hw
    have trimmed : trim s.toList = core := by
      rw [split]
      apply trim_append blank
      · rintro rfl
        exact nonempty (List.forall₂_nil_left_iff.1 same)
      · exact not_blank_of_sameLetter letters same
    rw [trimmed, lower, (lowerAfter_eq_iff letters).2 same, String.ofList_toList]
    exact hw
  · intro hw
    obtain ⟨-, letters⟩ := letters_of_mem_words hw
    obtain ⟨before, after, split, blank⟩ := exists_trim s.toList
    refine ⟨before, _, after, split, blank, _, hw, ?_⟩
    apply (lowerAfter_eq_iff letters).1
    rw [String.toList_ofList, lower]

theorem parse_eq_ok_iff : parse s = .ok m ↔ m.Spelled s := by
  rw [spelled_iff]
  unfold parse
  dsimp only
  generalize String.ofList (lower (trim s.toList)) = word
  cases m <;> simp only [words, List.mem_cons, List.not_mem_nil, or_false]
  · split
    · simp [*]
    · split <;> simp [*]
  · split
    · next sync => rcases sync with rfl | rfl <;> simp
    · split <;> simp [*]

theorem parse_eq_error_iff {word : String} : parse s = .error word ↔
    (∀ m : LoadMode, ¬m.Spelled s) ∧ word = String.ofList (lower (trim s.toList)) := by
  constructor
  · intro failed
    refine ⟨fun m spelled => ?_, ?_⟩
    · cases (parse_eq_ok_iff.2 spelled).symm.trans failed
    · unfold parse at failed
      dsimp only at failed
      split at failed
      · cases failed
      split at failed
      · cases failed
      · exact (Except.error.inj failed).symm
  · rintro ⟨none, rfl⟩
    unfold parse
    have sync := mt spelled_iff.2 (none .sync)
    have async := mt spelled_iff.2 (none .async)
    dsimp only
    rw [if_neg (by simpa [words] using sync), if_neg (by simpa [words] using async)]

end LoadMode

/-! ## Numbers -/

/-- The text is the number in decimal digits, with or without a plus sign, and 64 bits hold it. -/
def Spells (s : String) (n : Nat) : Prop :=
  ∃ ds, (s.toList = ds ∨ s.toList = '+' :: ds) ∧ ds ≠ [] ∧ (∀ d ∈ ds, d.isDigit = true) ∧
    numberOf ds = n ∧ n < wordLimit

/-- The text without a plus sign before it. -/
def unsigned (s : String) : List Char :=
  match s.toList with
  | '+' :: cs => cs
  | cs => cs

/-- What is wrong with a text that spells no number: the digits at its head are already too large,
or they do not go on to its end. -/
inductive Misspells (s : String) : NumeralError → Prop where
  | empty (none : s = "") : Misspells s .empty
  | tooLarge (large : wordLimit ≤ numberOf (digitRun (unsigned s))) : Misspells s .tooLarge
  | invalidDigit (some : s ≠ "") (other : unsigned s = [] ∨ afterDigits (unsigned s) ≠ [])
      (small : numberOf (digitRun (unsigned s)) < wordLimit) : Misspells s .invalidDigit

theorem le_ofDigitChars (n : Nat) (ds : List Char) : n ≤ Nat.ofDigitChars 10 ds n := by
  rw [Nat.ofDigitChars_eq_ofDigitChars_zero]
  exact Nat.le_add_right_of_le (Nat.le_mul_of_pos_left n (Nat.pow_pos (by decide)))

/-- What a text is read as depends on the digits at its head and on whether more follows. -/
theorem readSizeDigits_eq {n : Nat} (cs : List Char) (small : n < wordLimit) :
    readSizeDigits n cs =
      if wordLimit ≤ Nat.ofDigitChars 10 (digitRun cs) n then .error .tooLarge
      else if afterDigits cs = [] then .ok (Nat.ofDigitChars 10 (digitRun cs) n)
      else .error .invalidDigit := by
  unfold digitRun afterDigits
  induction cs generalizing n with
  | nil => simpa [readSizeDigits, Nat.ofDigitChars] using small
  | cons c cs ih =>
    unfold readSizeDigits
    by_cases digit : c.isDigit = true
    · rw [if_pos digit, List.takeWhile_cons_of_pos digit, List.dropWhile_cons_of_pos digit,
        Nat.ofDigitChars_cons]
      dsimp only
      split
      · next fits => exact ih fits
      · next large =>
        rw [if_pos (Nat.le_trans (by omega) (le_ofDigitChars _ _))]
    · rw [if_neg digit, List.takeWhile_cons_of_neg digit, List.dropWhile_cons_of_neg digit]
      simp [Nat.ofDigitChars, small]

theorem readSizeDigits_zero (cs : List Char) : readSizeDigits 0 cs =
    if wordLimit ≤ numberOf (digitRun cs) then .error .tooLarge
    else if afterDigits cs = [] then .ok (numberOf (digitRun cs))
    else .error .invalidDigit :=
  readSizeDigits_eq cs (by decide)

theorem parseSize_eq (s : String) : parseSize s =
    if s = "" then .error .empty
    else if unsigned s = [] then .error .invalidDigit
    else readSizeDigits 0 (unsigned s) := by
  unfold parseSize unsigned
  by_cases none : s = ""
  · rw [if_pos none, none]
    rfl
  · have some : s.toList ≠ [] := by simpa using none
    rw [if_neg none]
    split <;> split <;> simp_all

theorem parseSize_eq_error_iff {s : String} {e : NumeralError} :
    parseSize s = .error e ↔ Misspells s e := by
  rw [parseSize_eq]
  constructor
  · intro failed
    split at failed
    · next none =>
      cases failed
      exact .empty none
    split at failed
    · next some none =>
      cases failed
      exact .invalidDigit some (.inl none) (by rw [none]; decide)
    rw [readSizeDigits_zero] at failed
    split at failed
    · next large =>
      cases failed
      exact .tooLarge large
    split at failed
    · cases failed
    · next some _ small more =>
      cases failed
      exact .invalidDigit some (.inr more) (Nat.lt_of_not_le small)
  · intro wrong
    cases wrong with
    | empty none => rw [if_pos none]
    | tooLarge large =>
      have nonempty : unsigned s ≠ [] := by
        intro none
        rw [none] at large
        revert large
        decide
      rw [if_neg (by rintro rfl; exact nonempty rfl), if_neg nonempty,
        readSizeDigits_zero, if_pos large]
    | invalidDigit some other small =>
      rw [if_neg some]
      split
      · rfl
      · next nonempty =>
        rw [readSizeDigits_zero, if_neg (Nat.not_le_of_lt small),
          if_neg (other.resolve_left nonempty)]

theorem parseSize_eq_ok_iff {s : String} {n : Nat} : parseSize s = .ok n ↔ Spells s n := by
  rw [parseSize_eq]
  constructor
  · intro done
    split at done
    · cases done
    split at done
    · cases done
    rw [readSizeDigits_zero] at done
    split at done
    · cases done
    split at done
    · next _ nonempty small ends =>
      cases done
      have all : digitRun (unsigned s) = unsigned s := by
        have split := digitRun_append_afterDigits (unsigned s)
        rwa [ends, List.append_nil] at split
      refine ⟨unsigned s, ?_, nonempty, ?_, ?_, Nat.lt_of_not_le small⟩
      · unfold unsigned
        split
        · exact .inr ‹_›
        · exact .inl rfl
      · intro d hd
        rw [← all] at hd
        exact List.mem_takeWhile_imp hd
      · rw [all]
    · cases done
  · rintro ⟨ds, form, nonempty, digits, rfl, small⟩
    have some : s ≠ "" := by
      rintro rfl
      rcases form with none | none
      · exact nonempty none.symm
      · cases none
    have bare : unsigned s = ds := by
      unfold unsigned
      rcases form with plain | plus
      · rw [plain]
        split
        · cases digits '+' List.mem_cons_self
        · rfl
      · rw [plus]
        rfl
    have stop : EndsNumeral [] := by simp [EndsNumeral]
    have whole := digitRun_append digits stop
    have ends := afterDigits_append digits stop
    rw [List.append_nil] at whole ends
    rw [if_neg some, bare, if_neg nonempty, readSizeDigits_zero, whole, ends,
      if_neg (Nat.not_le_of_lt small), if_pos rfl]

theorem Spells.unique {s : String} {n m : Nat} (h : Spells s n) (h' : Spells s m) : n = m :=
  Except.ok.inj ((parseSize_eq_ok_iff.2 h).symm.trans (parseSize_eq_ok_iff.2 h'))

theorem Misspells.unique {s : String} {e e' : NumeralError} (h : Misspells s e)
    (h' : Misspells s e') : e = e' :=
  Except.error.inj ((parseSize_eq_error_iff.2 h).symm.trans (parseSize_eq_error_iff.2 h'))

end SharedStream
