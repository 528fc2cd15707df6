import Mathlib.Tactic.ByContra
import SharedStream.Json.Printer
import SharedStream.Json.Reader
import SharedStream.Json.Record

/-! # What is written as JSON is read back

A value whose strings are texts and whose numbers are whole is read back from its written form,
whatever comes after it. Main statements: `parse_print`, and for records `parts_record`.
-/
namespace SharedStream.Json
open Text

/-! ## Strings -/

theorem hexNumber_escapeUnit {n : Nat} (h : n < 65536) :
    hexNumber [(n / 4096 % 16).digitChar, (n / 256 % 16).digitChar, (n / 16 % 16).digitChar,
      (n % 16).digitChar] = some n := by
  have digit (m : Nat) : hexValue (m % 16).digitChar = some (m % 16) :=
    hexValue_digitChar (Nat.mod_lt _ (by decide))
  simp only [hexNumber, List.foldl_cons, List.foldl_nil, digit, Option.bind_eq_bind,
    Option.bind_some, Option.pure_def, Option.some.injEq]
  omega

section Pieces
variable {c : Char} {r : List Char}

theorem readPieces_quote : readPieces ('"' :: r) = some ([], r) := by
  rw [readPieces.eq_def]
  rfl

theorem readPieces_escape {e : Char} (short : e ≠ 'u') (h : unescape e = some c) :
    readPieces ('\\' :: e :: r) = (readPieces r).map fun (ps, r) => (.char c :: ps, r) := by
  rw [readPieces.eq_def]
  simp only [Char.reduceEq, ↓reduceIte]
  split
  · next eq => exact absurd (List.cons.inj eq).1 short
  · next eq =>
    cases eq
    rw [h]
    cases readPieces r <;> rfl
  · next eq => cases eq

theorem readPieces_unit {n : Nat} (h : n < 65536) :
    readPieces (escapeUnit n ++ r) = (readPieces r).map fun (ps, r) => (.unit n :: ps, r) := by
  rw [readPieces.eq_def]
  show (hexNumber _ >>= fun n => readPieces r >>= fun (ps, r) => pure (Piece.unit n :: ps, r)) = _
  rw [hexNumber_escapeUnit h]
  cases readPieces r <;> rfl

theorem readPieces_char (quote : c ≠ '"') (backslash : c ≠ '\\') (visible : ¬c.toNat < 0x20) :
    readPieces (c :: r) = (readPieces r).map fun (ps, r) => (.char c :: ps, r) := by
  rw [readPieces.eq_def]
  dsimp only
  rw [if_neg quote, if_neg backslash, if_neg visible]
  cases readPieces r <;> rfl

end Pieces

/-- How the printer spells a character: by itself or by its letter, or by its number. -/
def pieceOf (c : Char) : Piece :=
  if c = '\x08' ∨ c = '\x0c' ∨ c = '\n' ∨ c = '\r' ∨ c = '\t' ∨ 0x20 ≤ c.toNat then .char c
  else .unit c.toNat

/-- The characters that have a letter, or a sign, to be escaped by. -/
def HasEscape (c : Char) : Prop :=
  c = '"' ∨ c = '\\' ∨ c = '\x08' ∨ c = '\x0c' ∨ c = '\n' ∨ c = '\r' ∨ c = '\t'

theorem HasEscape.exists_letter {c : Char} (h : HasEscape c) :
    ∃ e, renderChar c = ['\\', e] ∧ e ≠ 'u' ∧ unescape e = some c ∧ pieceOf c = .char c := by
  rcases h with rfl | rfl | rfl | rfl | rfl | rfl | rfl <;> exact ⟨_, rfl, by decide, rfl, rfl⟩

theorem readPieces_renderChar (c : Char) (r : List Char) :
    readPieces (renderChar c ++ r) =
      (readPieces r).map fun (ps, r) => (pieceOf c :: ps, r) := by
  by_cases special : HasEscape c
  · obtain ⟨e, written, short, read, piece⟩ := special.exists_letter
    rw [written, piece]
    exact readPieces_escape short read
  · simp only [HasEscape, not_or] at special
    obtain ⟨quote, backslash, backspace, feed, newline, carriage, tab⟩ := special
    unfold renderChar
    rw [if_neg quote, if_neg backslash, if_neg backspace, if_neg feed, if_neg newline,
      if_neg carriage, if_neg tab]
    split
    · next control =>
      have number : pieceOf c = .unit c.toNat := by
        rw [pieceOf, if_neg]
        simp [*]
      rw [number]
      exact readPieces_unit (by omega)
    · next visible =>
      have itself : pieceOf c = .char c := by
        rw [pieceOf, if_pos]
        omega
      rw [itself]
      exact readPieces_char quote backslash visible

theorem consPiece_pieceOf (c : Char) (ms : List Mark) :
    consPiece (pieceOf c) ms = .char c :: ms := by
  unfold pieceOf
  split
  · rfl
  · next control =>
    have high : isHighHalf c.toNat = false := by
      simp only [isHighHalf, Bool.and_eq_false_iff, decide_eq_false_iff_not]
      omega
    have low : isLowHalf c.toNat = false := by
      simp only [isLowHalf, Bool.and_eq_false_iff, decide_eq_false_iff_not]
      omega
    simp [consPiece, consUnit, high, low]

theorem joinHalves_pieces (cs : List Char) : joinHalves (cs.map pieceOf) = cs.map .char := by
  induction cs with
  | nil => rfl
  | cons c cs ih =>
    rw [List.map_cons, List.map_cons, ← consPiece_pieceOf, ← ih]
    rfl

theorem readString_renderMarks (cs r : List Char) :
    readString ((cs.map Mark.char).flatMap renderMark ++ '"' :: r) = some (cs.map .char, r) := by
  have pieces : readPieces ((cs.map Mark.char).flatMap renderMark ++ '"' :: r) =
      some (cs.map pieceOf, r) := by
    induction cs with
    | nil => exact readPieces_quote
    | cons c cs ih =>
      rw [List.map_cons, List.flatMap_cons, List.append_assoc, renderMark, readPieces_renderChar,
        ih]
      rfl
  rw [readString, pieces, ← joinHalves_pieces]
  rfl

/-! ## Numbers -/

/-- The text does not go on with a part of a number. -/
def EndsNumber (rest : List Char) : Prop :=
  ∀ c ∈ rest.head?, c.isDigit = false ∧ c ≠ '.' ∧ c ≠ 'e' ∧ c ≠ 'E'

theorem numeral_eq (n : Nat) : numeral n =
    if n < 10 then [n.digitChar] else numeral (n / 10) ++ [(n % 10).digitChar] :=
  Nat.toDigits_eq_if (by decide)

/-- Only the numeral of zero begins with a zero. -/
theorem head?_numeral {n : Nat} (positive : n ≠ 0) : (numeral n).head? ≠ some '0' := by
  induction n using Nat.strongRecOn with
  | ind n ih =>
    rw [numeral_eq]
    split
    · simpa using positive
    · next large =>
      have earlier := ih (n / 10) (by omega) (by omega)
      obtain ⟨d, ds, split⟩ := List.exists_cons_of_ne_nil (numeral_ne_nil (n / 10))
      rw [split] at earlier ⊢
      exact earlier

section Numbers
variable {rest : List Char}

theorem EndsNumber.endsNumeral (h : EndsNumber rest) : EndsNumeral rest :=
  fun c hc => (h c hc).1

theorem readWhole_numeral (n : Nat) (h : EndsNumeral rest) :
    readWhole (numeral n ++ rest) = some (numeral n, rest) := by
  by_cases zero : n = 0
  · subst zero
    rfl
  · have first := head?_numeral zero
    have digits : ∀ c ∈ numeral n, c.isDigit = true := fun c => isDigit_of_mem_numeral
    have run := digitRun_append digits h
    have after := afterDigits_append digits h
    obtain ⟨d, ds, split⟩ := List.exists_cons_of_ne_nil (numeral_ne_nil n)
    rw [split] at first digits run after ⊢
    have digit : d.isDigit = true := digits d List.mem_cons_self
    unfold readWhole
    split
    · next eq => exact absurd (congrArg List.head? eq) first
    · next eq =>
      cases eq
      rw [if_pos digit, run, after]
    · next eq => cases eq

theorem readFraction_of_endsNumber (h : EndsNumber rest) : readFraction rest = some ([], rest) := by
  unfold readFraction
  split
  · exact absurd rfl (h '.' rfl).2.1
  · rfl

theorem readExponent_of_endsNumber (h : EndsNumber rest) : readExponent rest = some ([], rest) := by
  unfold readExponent
  split
  · next e r =>
    obtain ⟨-, -, small, large⟩ := h e rfl
    rw [if_neg (by simp [small, large])]
  · rfl

/-- What the reader of numbers does after the sign. -/
theorem readUnsigned_numeral (n : Int) (h : EndsNumber rest) {negative : Bool}
    (sign : negative = true ↔ n < 0) :
    (do
      let (whole, r) ← readWhole (numeral n.natAbs ++ rest)
      let (fraction, r) ← readFraction r
      let (exponent, r) ← readExponent r
      return (numberValue negative whole fraction exponent, r)) = some (Json.int n, rest) := by
  have value : numberValue negative (numeral n.natAbs) [] [] = .int n := by
    unfold numberValue
    rw [numberOf_numeral, if_pos ⟨rfl, rfl, by rw [sign]; omega⟩]
    congr 1
    cases negative with
    | true =>
      have below : n < 0 := sign.1 rfl
      rw [if_pos rfl, Int.ofNat_natAbs_of_nonpos (Int.le_of_lt below), Int.neg_neg]
    | false =>
      have above : ¬n < 0 := fun below => Bool.noConfusion (sign.2 below)
      rw [if_neg Bool.false_ne_true, Int.natAbs_of_nonneg (Int.not_lt.1 above)]
  simp only [readWhole_numeral n.natAbs h.endsNumeral, readFraction_of_endsNumber h,
    readExponent_of_endsNumber h, Option.bind_eq_bind, Option.bind_some, Option.pure_def, value]

theorem readNumber_renderInt (n : Int) (h : EndsNumber rest) :
    readNumber (renderInt n ++ rest) = some (.int n, rest) := by
  unfold renderInt
  split
  · next below => exact readUnsigned_numeral n h (by simpa using below)
  · next above =>
    have sign : false = true ↔ n < 0 := by simpa using above
    have unsigned := readUnsigned_numeral n h sign
    obtain ⟨d, ds, split⟩ := List.exists_cons_of_ne_nil (numeral_ne_nil n.natAbs)
    have minus : d ≠ '-' := by
      rintro rfl
      have digit : '-' ∈ numeral n.natAbs := by simp [split]
      cases isDigit_of_mem_numeral digit
    rw [split, List.cons_append] at unsigned ⊢
    unfold readNumber
    split
    next sign =>
      split at sign
      · next eq => exact absurd (List.cons.inj eq).1 minus
      · cases sign
        exact unsigned

end Numbers

/-! ## Values -/

mutual

/-- All strings of the value are texts and all its numbers are whole. -/
def Plain : Json → Prop
  | .null | .bool _ | .int _ => True
  | .real _ => False
  | .str ms => ∃ cs : List Char, ms = cs.map .char
  | .arr xs => PlainItems xs
  | .obj fs => PlainFields fs

def PlainItems : List Json → Prop
  | [] => True
  | x :: xs => Plain x ∧ PlainItems xs

def PlainFields : List (List Mark × Json) → Prop
  | [] => True
  | (name, x) :: fs => (∃ cs : List Char, name = cs.map .char) ∧ Plain x ∧ PlainFields fs

end

theorem endsNumber_cons {c : Char} {r : List Char} (h : c.isDigit = false) (point : c ≠ '.')
    (small : c ≠ 'e') (large : c ≠ 'E') : EndsNumber (c :: r) := by
  rintro d hd
  cases hd
  exact ⟨h, point, small, large⟩

theorem exists_renderInt (n : Int) :
    ∃ c cs, renderInt n = c :: cs ∧ (c = '-' ∨ c.isDigit = true) := by
  unfold renderInt
  split
  · exact ⟨'-', _, rfl, .inl rfl⟩
  · obtain ⟨d, ds, split⟩ := List.exists_cons_of_ne_nil (numeral_ne_nil n.natAbs)
    have digit : d ∈ numeral n.natAbs := by simp [split]
    exact ⟨d, ds, split, .inr (isDigit_of_mem_numeral digit)⟩

theorem opens_of_number {c : Char} (first : c = '-' ∨ c.isDigit = true) :
    isGap c = false ∧ c ≠ ']' := by
  rcases first with rfl | digit
  · decide
  · constructor
    · simp only [isGap, Bool.or_eq_false_iff, decide_eq_false_iff_not]
      refine ⟨⟨⟨?_, ?_⟩, ?_⟩, ?_⟩ <;> rintro rfl <;> cases digit
    · rintro rfl
      cases digit

/-- A written value begins with a character that is no gap and closes nothing. -/
theorem exists_render {j : Json} (plain : Plain j) :
    ∃ c cs, render j = c :: cs ∧ isGap c = false ∧ c ≠ ']' := by
  cases j with
  | null => exact ⟨'n', _, rfl, by decide⟩
  | bool b =>
    cases b with
    | false => exact ⟨'f', _, rfl, by decide⟩
    | true => exact ⟨'t', _, rfl, by decide⟩
  | int n =>
    obtain ⟨c, cs, split, first⟩ := exists_renderInt n
    exact ⟨c, cs, split, opens_of_number first⟩
  | real spelling => cases plain
  | str ms => exact ⟨'"', _, rfl, by decide⟩
  | arr xs =>
    cases xs with
    | nil => exact ⟨'[', _, rfl, by decide⟩
    | cons x xs => exact ⟨'[', _, rfl, by decide⟩
  | obj fs =>
    cases fs with
    | nil => exact ⟨'\x7b', _, rfl, by decide⟩
    | cons f fs => exact ⟨'\x7b', _, rfl, by decide⟩

theorem skipGaps_render {j : Json} (plain : Plain j) (r : List Char) :
    skipGaps (render j ++ r) = render j ++ r := by
  obtain ⟨c, cs, split, gap, -⟩ := exists_render plain
  rw [split, List.cons_append]
  exact List.dropWhile_cons_of_neg (by simp [gap])

section Values
variable {fuel : Nat} {x : Json} {r : List Char}

theorem readValue_number {c : Char} {cs : List Char} (first : c = '-' ∨ c.isDigit = true) :
    readValue (fuel + 1) (c :: cs) = readNumber (c :: cs) := by
  unfold readValue
  split <;> first | rfl | (next eq => cases eq; exact absurd first (by decide))

theorem readValue_items (plain : Plain x) :
    readValue (fuel + 1) ('[' :: (render x ++ r)) =
      (readItems fuel (render x ++ r)).map fun (xs, r) => (.arr xs, r) := by
  have gaps := skipGaps_render plain r
  obtain ⟨c, cs, split, -, close⟩ := exists_render plain
  rw [split, List.cons_append] at gaps ⊢
  rw [readValue, gaps]
  split
  · next eq => exact absurd (List.cons.inj eq).1 close
  · cases readItems fuel (c :: (cs ++ r)) <;> rfl

theorem readValue_fields : readValue (fuel + 1) ('\x7b' :: '"' :: r) =
    (readFields fuel ('"' :: r)).map fun (fs, r) => (.obj fs, r) := by
  show (readFields fuel ('"' :: r) >>= fun (fs, r) => pure (Json.obj fs, r)) = _
  cases readFields fuel ('"' :: r) <;> rfl

/-- With so much fuel the readers give back what was written. -/
structure ReadsBack (fuel : Nat) : Prop where
  value : ∀ j rest, Plain j → 2 * (render j).length ≤ fuel → EndsNumber rest →
    readValue fuel (render j ++ rest) = some (j, rest)
  items : ∀ x xs rest, Plain x → PlainItems xs →
    2 * ((render x).length + (renderItems xs).length) ≤ fuel →
    readItems fuel (render x ++ (renderItems xs ++ rest)) = some (x :: xs, rest)
  fields : ∀ name x fs rest, PlainFields ((name, x) :: fs) →
    2 * ((renderString name).length + 1 + (render x).length + (renderFields fs).length) ≤ fuel →
    readFields fuel (renderString name ++ ':' :: (render x ++ (renderFields fs ++ rest))) =
      some ((name, x) :: fs, rest)

theorem ReadsBack.readValue_succ (h : ReadsBack fuel) (j : Json) (rest : List Char)
    (plain : Plain j) (enough : 2 * (render j).length ≤ fuel + 1) (ends : EndsNumber rest) :
    readValue (fuel + 1) (render j ++ rest) = some (j, rest) := by
  cases j with
  | null => rfl
  | bool b => cases b <;> rfl
  | int n =>
    obtain ⟨c, cs, split, first⟩ := exists_renderInt n
    have number := readNumber_renderInt n ends
    rw [split] at number
    rw [render, split, List.cons_append, readValue_number first]
    exact number
  | real spelling => cases plain
  | str ms =>
    obtain ⟨cs, rfl⟩ := plain
    rw [render, renderString, List.cons_append, List.cons_append, List.append_assoc]
    show (readString ((cs.map Mark.char).flatMap renderMark ++ '"' :: rest) >>= _) = _
    rw [readString_renderMarks]
    rfl
  | arr xs =>
    cases xs with
    | nil => rfl
    | cons x xs =>
      rw [render, List.length_append, List.length_cons] at enough
      rw [render, List.cons_append, List.cons_append, List.append_assoc, readValue_items plain.1,
        h.items x xs rest plain.1 plain.2 (by omega)]
      rfl
  | obj fs =>
    cases fs with
    | nil => rfl
    | cons f fs =>
      obtain ⟨name, x⟩ := f
      have fields := h.fields name x fs rest plain (by
        simp only [render, List.length_append, List.length_cons] at enough
        omega)
      rw [renderString, List.cons_append, List.cons_append] at fields
      rw [render, renderString]
      simp only [List.cons_append, List.append_assoc] at fields ⊢
      rw [readValue_fields, fields]
      rfl

theorem endsNumber_renderItems (xs : List Json) (rest : List Char) :
    EndsNumber (renderItems xs ++ rest) := by
  cases xs with
  | nil => exact endsNumber_cons rfl (by decide) (by decide) (by decide)
  | cons x xs => exact endsNumber_cons rfl (by decide) (by decide) (by decide)

theorem endsNumber_renderFields (fs : List (List Mark × Json)) (rest : List Char) :
    EndsNumber (renderFields fs ++ rest) := by
  cases fs with
  | nil => exact endsNumber_cons rfl (by decide) (by decide) (by decide)
  | cons f fs => exact endsNumber_cons rfl (by decide) (by decide) (by decide)

theorem ReadsBack.readItems_succ (h : ReadsBack fuel) (x : Json) (xs : List Json)
    (rest : List Char) (plain : Plain x) (others : PlainItems xs)
    (enough : 2 * ((render x).length + (renderItems xs).length) ≤ fuel + 1) :
    readItems (fuel + 1) (render x ++ (renderItems xs ++ rest)) = some (x :: xs, rest) := by
  have closed : 1 ≤ (renderItems xs).length := by cases xs <;> simp [renderItems]
  rw [readItems, h.value x _ plain (by omega) (endsNumber_renderItems xs rest)]
  cases xs with
  | nil => rfl
  | cons y ys =>
    rw [renderItems] at enough ⊢
    simp only [List.cons_append, List.append_assoc, List.length_cons, List.length_append]
      at enough ⊢
    show (readItems fuel (skipGaps (render y ++ (renderItems ys ++ rest))) >>=
      fun (xs, r) => pure (x :: xs, r)) = _
    rw [skipGaps_render others.1, h.items y ys rest others.1 others.2 (by omega)]
    rfl

theorem ReadsBack.readFields_succ (h : ReadsBack fuel) (name : List Mark) (x : Json)
    (fs : List (List Mark × Json)) (rest : List Char) (plain : PlainFields ((name, x) :: fs))
    (enough : 2 * ((renderString name).length + 1 + (render x).length + (renderFields fs).length) ≤
      fuel + 1) :
    readFields (fuel + 1) (renderString name ++ ':' :: (render x ++ (renderFields fs ++ rest))) =
      some ((name, x) :: fs, rest) := by
  obtain ⟨⟨cs, rfl⟩, plain, others⟩ := plain
  have value := h.value x (renderFields fs ++ rest) plain (by omega)
    (endsNumber_renderFields fs rest)
  rw [renderString, List.cons_append, List.cons_append, List.append_assoc]
  show (readString ((cs.map Mark.char).flatMap renderMark ++ '"' :: _) >>= _) = _
  rw [readString_renderMarks]
  show (readValue fuel (skipGaps (render x ++ (renderFields fs ++ rest))) >>= _) = _
  rw [skipGaps_render plain, value]
  cases fs with
  | nil => rfl
  | cons f fs =>
    obtain ⟨name, y⟩ := f
    rw [renderFields] at enough ⊢
    have fields := h.fields name y fs rest others (by
      simp only [List.length_cons, List.length_append] at enough
      omega)
    rw [renderString] at fields ⊢
    simp only [List.cons_append, List.append_assoc] at fields ⊢
    show (readFields fuel ('"' :: _) >>= _) = _
    rw [fields]
    rfl

theorem readsBack (fuel : Nat) : ReadsBack fuel := by
  induction fuel with
  | zero =>
    constructor
    · intro j rest plain enough
      obtain ⟨c, cs, split, -⟩ := exists_render plain
      rw [split, List.length_cons] at enough
      omega
    · intro x xs rest plain _ enough
      obtain ⟨c, cs, split, -⟩ := exists_render plain
      rw [split, List.length_cons] at enough
      omega
    · intro name x fs rest _ enough
      omega
  | succ fuel ih => exact ⟨ih.readValue_succ, ih.readItems_succ, ih.readFields_succ⟩

/-- The written form of a value is read as that value. -/
theorem parse_print {j : Json} (plain : Plain j) : parse j.print = some j := by
  have gaps := skipGaps_render plain []
  have value := (readsBack (2 * (render j).length + 2)).value j [] plain (by omega) (by
    intro c hc
    cases hc)
  rw [List.append_nil] at gaps value
  unfold parse print
  rw [String.toList_ofList]
  dsimp only
  rw [gaps, value]
  rfl

end Values

/-! ## Records -/

theorem plainFields_marks {fs : List (String × Json)} (plain : ∀ f ∈ fs, Plain f.2) :
    PlainFields (fs.map fun (name, x) => (marks name, x)) := by
  induction fs with
  | nil => trivial
  | cons f fs ih =>
    exact ⟨⟨f.1.toList, rfl⟩, plain f List.mem_cons_self, ih fun g hg => plain g (by simp [hg])⟩

theorem plain_record {fs : List (String × Json)} (plain : ∀ f ∈ fs, Plain f.2) :
    Plain (record fs) :=
  plainFields_marks plain

theorem namedFields_marks (fs : List (String × Json)) :
    namedFields (fs.map fun (name, x) => (marks name, x)) = some fs := by
  induction fs with
  | nil => rfl
  | cons f fs ih =>
    obtain ⟨name, x⟩ := f
    unfold namedFields at ih ⊢
    rw [List.map_cons, List.mapM_cons, ih]
    dsimp only
    rw [text?_marks]
    rfl

theorem uniqueField_eq_lookup {fs : List (String × Json)} {name : String}
    (once : (fs.map Prod.fst).count name ≤ 1) : uniqueField fs name = some (fs.lookup name) := by
  induction fs with
  | nil => rfl
  | cons f fs ih =>
    obtain ⟨first, x⟩ := f
    rw [List.map_cons] at once
    unfold uniqueField at ih ⊢
    by_cases same : first = name
    · subst same
      rw [List.count_cons_self] at once
      have others : fs.filter (·.1 = first) = [] := by
        rw [List.filter_eq_nil_iff]
        rintro g hg
        have absent : first ∉ fs.map Prod.fst := List.count_eq_zero.1 (by omega)
        rw [decide_eq_true_eq]
        rintro rfl
        exact absent (List.mem_map_of_mem hg)
      rw [List.filter_cons_of_pos (by simp), others, List.lookup_cons_self]
    · have other : (name == first) = false := beq_eq_false_iff_ne.2 (Ne.symm same)
      rw [List.count_cons_of_ne same] at once
      rw [List.filter_cons_of_neg (by simpa using same), ih once, List.lookup_cons, other]

/-- The parts of a record that gives each of them at most once. -/
theorem parts_record {names : List String} {fs : List (String × Json)}
    (once : ∀ name ∈ names, (fs.map Prod.fst).count name ≤ 1) :
    parts names (record fs) = some (names.map fun name => fs.lookup name) := by
  show (namedFields _ >>= fun fs => names.mapM (uniqueField fs)) = _
  rw [namedFields_marks]
  show names.mapM (uniqueField fs) = _
  induction names with
  | nil => rfl
  | cons name names ih =>
    rw [List.mapM_cons, ih fun name' hname => once name' (List.mem_cons_of_mem _ hname),
      uniqueField_eq_lookup (once name List.mem_cons_self)]
    rfl

/-- A record that gives all its parts gives them in order. -/
theorem parts_record_all {names : List String} {fs : List (String × Json)}
    (all : fs.map Prod.fst = names) (nodup : names.Nodup) :
    parts names (record fs) = some (fs.map fun f => some f.2) := by
  subst all
  rw [parts_record fun name _ => List.nodup_iff_count.1 nodup name, List.map_map]
  congr 1
  rw [List.map_inj_left]
  induction fs with
  | nil => simp
  | cons f fs ih =>
    rw [List.map_cons, List.nodup_cons] at nodup
    intro g hg
    rcases List.mem_cons.1 hg with rfl | hg
    · exact List.lookup_cons_self
    · have other : (g.1 == f.1) = false := by
        rw [beq_eq_false_iff_ne]
        intro same
        exact nodup.1 (same ▸ List.mem_map_of_mem hg)
      have found := ih nodup.2 g hg
      rw [Function.comp_apply] at found ⊢
      rw [List.lookup_cons, other]
      exact found

end SharedStream.Json
