/-! # Digits

Decimal numerals and hexadecimal digits. Main statement: a numeral that is followed by no further
digit is read back whole.
-/
namespace SharedStream.Text

def numeral (n : Nat) : List Char := Nat.toDigits 10 n

def numberOf (ds : List Char) : Nat := Nat.ofDigitChars 10 ds 0

/-- The numeral of `n`, filled up with zeros to `width` digits. -/
def padded (width n : Nat) : List Char :=
  List.replicate (width - (numeral n).length) '0' ++ numeral n

def digitRun (cs : List Char) : List Char := cs.takeWhile Char.isDigit

def afterDigits (cs : List Char) : List Char := cs.dropWhile Char.isDigit

theorem digitRun_append_afterDigits (cs : List Char) : digitRun cs ++ afterDigits cs = cs :=
  List.takeWhile_append_dropWhile

theorem isDigit_of_mem_numeral {n : Nat} {c : Char} (h : c ∈ numeral n) : c.isDigit = true :=
  Nat.isDigit_of_mem_toDigits (by decide) (by decide) h

@[simp] theorem numeral_ne_nil (n : Nat) : numeral n ≠ [] := Nat.toDigits_ne_nil

@[simp] theorem numberOf_numeral (n : Nat) : numberOf (numeral n) = n :=
  Nat.ofDigitChars_ten_toDigits

/-- The text does not go on with a digit. -/
def EndsNumeral (rest : List Char) : Prop := ∀ c ∈ rest.head?, c.isDigit = false

theorem digitRun_append {ds rest : List Char} (hd : ∀ c ∈ ds, c.isDigit = true)
    (hr : EndsNumeral rest) : digitRun (ds ++ rest) = ds := by
  induction ds with
  | nil => cases rest with
    | nil => rfl
    | cons c rest => simp [digitRun, hr c (by simp)]
  | cons d ds ih =>
    have h := ih (fun c hc => hd c (by simp [hc]))
    simp only [digitRun] at h
    simp [digitRun, hd d (by simp), h]

theorem afterDigits_append {ds rest : List Char} (hd : ∀ c ∈ ds, c.isDigit = true)
    (hr : EndsNumeral rest) : afterDigits (ds ++ rest) = rest := by
  have h := digitRun_append_afterDigits (ds ++ rest)
  rw [digitRun_append hd hr] at h
  exact List.append_cancel_left h

def hexValue (c : Char) : Option Nat :=
  if '0' ≤ c ∧ c ≤ '9' then some (c.toNat - '0'.toNat)
  else if 'a' ≤ c ∧ c ≤ 'f' then some (c.toNat - 'a'.toNat + 10)
  else if 'A' ≤ c ∧ c ≤ 'F' then some (c.toNat - 'A'.toNat + 10)
  else none

theorem hexValue_digitChar {d : Nat} (h : d < 16) : hexValue d.digitChar = some d := by
  revert d
  decide

/-- The number that hexadecimal digits spell, if all of them are such digits. -/
def hexNumber (cs : List Char) : Option Nat :=
  cs.foldl (fun acc c => do return 16 * (← acc) + (← hexValue c)) (some 0)

end SharedStream.Text
