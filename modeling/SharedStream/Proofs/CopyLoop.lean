import SharedStream.Proofs.StoreReads

/-! # The copy of a read

A read searches for the chunk at its position and copies from there on, chunk by chunk, until it
has what it wants. The search finds the one chunk with the position in it, and in every turn of the
loop all indices stay inside the chunk and the buffer, all numbers are words, and at least one byte
is copied.
-/
namespace SharedStream

/-- Whether the chunk has a byte between the places `first` and `limit`. -/
def Chunk.meets (first limit : Nat) (c : Chunk) : Bool := max c.start first < min c.stop limit

namespace Store

/-! ## Turns of the loop -/

variable {position want offset size start stop : Nat} {f : Filling} {c : Chunk}

theorem Filling.copied_take : (f.take position want offset c).copied =
    f.copied + f.portion position want c := rfl

theorem Filling.size_take (source : f.skipped position c + f.portion position want c ≤ c.data.size)
    (dest : offset + f.copied + f.portion position want c ≤ f.buf.size) :
    (f.take position want offset c).buf.size = f.buf.size := by
  have whole : octets (f.take position want offset c).buf =
      (octets f.buf).take (offset + f.copied) ++
      ((octets c.data).drop (f.skipped position c)).take (f.portion position want c) ++
      (octets f.buf).drop (offset + f.copied + f.portion position want c) :=
    octets_copySlice _ _ _ _ _ source
  rw [← length_octets, whole]
  simp only [List.length_append, List.length_take, List.length_drop, length_octets]
  omega

/-- A turn of the loop does all its arithmetic in words, reads inside the chunk, writes inside the
buffer and gets on. -/
structure Filling.Safe (position want offset : Nat) (f : Filling) (c : Chunk) : Prop where
  /-- The differences are not below zero. -/
  start_le : c.start ≤ position + f.copied
  skipped_le : f.skipped position c ≤ c.data.size
  copied_le : f.copied ≤ want
  source : f.skipped position c + f.portion position want c ≤ c.data.size
  dest : offset + f.copied + f.portion position want c ≤ f.buf.size
  /-- The sums are words. -/
  next_lt : position + f.copied < wordLimit
  source_lt : f.skipped position c + f.portion position want c < wordLimit
  dest_lt : offset + f.copied + f.portion position want c < wordLimit
  copied_lt : f.copied + f.portion position want c < wordLimit
  progress : 1 ≤ f.portion position want c

/-- The loop has copied all bytes before `start`, into a buffer of a fixed size. -/
structure Filling.Reaches (size position start : Nat) (f : Filling) : Prop where
  copied : f.copied = start - position
  size : f.buf.size = size

/-- The arithmetic of a turn that starts with the chunk `c`. -/
theorem Filling.Reaches.bounds (h : f.Reaches size position c.start) (some : c.data.size ≠ 0)
    (inside : position < c.stop) (asked : want ≠ 0) (wanted : c.start < position + want) :
    c.start ≤ position + f.copied ∧ f.skipped position c < c.data.size ∧ f.copied < want ∧
      f.copied + f.portion position want c = min (c.stop - position) want := by
  have copied := h.copied
  unfold Filling.portion Filling.skipped
  unfold Chunk.stop at inside ⊢
  omega

theorem Filling.Reaches.safe (h : f.Reaches size position c.start) (some : c.data.size ≠ 0)
    (inside : position < c.stop) (asked : want ≠ 0) (wanted : c.start < position + want)
    (room : offset + want ≤ size) (words : size < wordLimit) (total : c.stop < wordLimit)
    (range : position + want < wordLimit) : f.Safe position want offset c := by
  obtain ⟨start_le, skipped_lt, copied_lt, sum⟩ := h.bounds some inside asked wanted
  have portion : f.portion position want c =
    min (c.data.size - f.skipped position c) (want - f.copied) := rfl
  have size_eq := h.size
  unfold Chunk.stop at total
  exact ⟨start_le, by omega, by omega, by omega, by omega, by omega, by omega, by omega, by omega,
    by omega⟩

/-- A turn that is not the last one copies up to the end of its chunk. -/
theorem Filling.Reaches.take (h : f.Reaches size position c.start) (some : c.data.size ≠ 0)
    (inside : position < c.stop) (more : c.stop < position + want) (room : offset + want ≤ size) :
    (f.take position want offset c).Reaches size position c.stop := by
  have order : c.start ≤ c.stop := Nat.le_add_right ..
  have wanted : c.start < position + want := by omega
  obtain ⟨-, skipped_lt, copied_lt, sum⟩ := h.bounds some inside (by omega) wanted
  have portion : f.portion position want c =
    min (c.data.size - f.skipped position c) (want - f.copied) := rfl
  have size_eq := h.size
  constructor
  · rw [Filling.copied_take]
    omega
  · rw [Filling.size_take (by omega) (by omega), h.size]

/-- Before each of the chunks that the loop goes through, it has copied all bytes up to there. -/
theorem Filling.Reaches.foldl {before after cs : List Chunk} (laid : Laid start cs stop)
    (h : f.Reaches size position start) (inside : ∀ d ∈ cs, position < d.stop)
    (room : offset + want ≤ size)
    (split : cs.takeWhile (·.start < position + want) = before ++ c :: after) :
    (before.foldl (Filling.take position want offset) f).Reaches size position c.start := by
  induction before generalizing start f cs with
  | nil =>
    cases cs with
    | nil => cases split
    | cons d cs =>
      obtain ⟨rfl, -, -⟩ := laid
      by_cases wanted : d.start < position + want
      · rw [List.takeWhile_cons_of_pos (by simpa using wanted)] at split
        cases split
        exact h
      · rw [List.takeWhile_cons_of_neg (by simpa using wanted)] at split
        cases split
  | cons b before ih =>
    cases cs with
    | nil => cases split
    | cons d cs =>
      obtain ⟨rfl, some, rest⟩ := laid
      by_cases wanted : d.start < position + want
      · rw [List.takeWhile_cons_of_pos (by simpa using wanted), List.cons_append] at split
        obtain ⟨rfl, tail⟩ := List.cons.inj split
        refine ih rest (h.take some (inside d (by simp)) ?_ room)
          (fun e he => inside e (by simp [he])) tail
        -- A chunk follows that is still wanted, and it starts where this one stops.
        cases cs with
        | nil => cases before <;> cases tail
        | cons e cs =>
          by_contra last
          rw [List.takeWhile_cons_of_neg (by simpa [rest.1] using last)] at tail
          cases before <;> cases tail
      · rw [List.takeWhile_cons_of_neg (by simpa using wanted)] at split
        cases split

/-! ## The lookup -/

variable {s : Store} {r : Request} {i : Nat}

theorem Gapless.stop_mono (h : s.Gapless) {j : Nat} {d : Chunk} (hc : s.chunks[i]? = some c)
    (hd : s.chunks[j]? = some d) (le : i ≤ j) : c.stop ≤ d.stop :=
  Laid.stop_mono h (by simpa using hc) (by simpa using hd) le

/-- The search ends inside the list, at the chunk with the position in it. -/
theorem Gapless.exists_first (h : s.Gapless) (loaded : position < s.loadedLen) :
    ∃ c, s.chunks[firstAfter s.chunks position]? = some c ∧ c.start ≤ position ∧
      position < c.stop := by
  have parts := h.parts position
  generalize firstAfter s.chunks position = i at parts ⊢
  obtain ⟨middle, before, rest⟩ := Laid.split h i
  have reached : middle ≤ position := by
    apply before.stop_le_of_forall (Nat.zero_le _)
    intro c hc
    obtain ⟨j, hj, hc⟩ := List.mem_take_iff_getElem.1 hc
    exact (parts j c (by rw [← hc]; simp)).2 (by omega)
  cases hcs : s.chunks.toList.drop i with
  | nil =>
    rw [hcs] at rest
    have all : middle = s.loadedLen := rest
    omega
  | cons c cs =>
    rw [hcs] at rest
    have found : s.chunks[i]? = some c := by
      rw [← Array.getElem?_toList, ← List.head?_drop, hcs, List.head?_cons]
    have after : ¬c.stop ≤ position := fun small => Nat.lt_irrefl i ((parts i c found).1 small)
    exact ⟨c, found, rest.1 ▸ reached, by omega⟩

/-- No other chunk has the position in it. -/
theorem Gapless.contains_iff (h : s.Gapless) (loaded : position < s.loadedLen)
    (hc : s.chunks[i]? = some c) :
    c.start ≤ position ∧ position < c.stop ↔ i = firstAfter s.chunks position := by
  obtain ⟨d, hd, start_le, lt_stop⟩ := h.exists_first loaded
  constructor
  · rintro ⟨starts, stops⟩
    have later : ¬i < firstAfter s.chunks position := by
      intro before
      have := (h.parts position i c hc).2 before
      omega
    have earlier : ¬firstAfter s.chunks position < i := by
      intro after
      have := Laid.stop_le_start h (by simpa using hd) (by simpa using hc) after
      omega
    omega
  · rintro rfl
    cases hd.symm.trans hc
    exact ⟨start_le, lt_stop⟩

/-- Of chunks side by side, those that start before a place are a beginning of the list. -/
theorem filter_start_lt {cs : List Chunk} (laid : Laid start cs stop) (limit : Nat) :
    cs.filter (·.start < limit) = cs.takeWhile (·.start < limit) := by
  induction cs generalizing start with
  | nil => rfl
  | cons c cs ih =>
    by_cases before : c.start < limit
    · rw [List.filter_cons_of_pos (by simpa using before),
        List.takeWhile_cons_of_pos (by simpa using before), ih laid.2.2]
    · rw [List.filter_cons_of_neg (by simpa using before),
        List.takeWhile_cons_of_neg (by simpa using before), List.filter_eq_nil_iff]
      intro d hd
      have := laid.2.2.start_le hd
      unfold Chunk.stop at this
      simp only [decide_eq_true_eq]
      omega

theorem Gapless.selected_eq (h : s.Gapless) (wanted : want ≠ 0) :
    startingBefore s.chunks (position + want) (firstAfter s.chunks position) =
      s.chunks.toList.filter (Chunk.meets position (position + want)) := by
  have parts := h.parts position
  rw [startingBefore_eq]
  generalize firstAfter s.chunks position = i at parts ⊢
  obtain ⟨middle, before, rest⟩ := Laid.split h i
  have none : (s.chunks.toList.take i).filter (Chunk.meets position (position + want)) = [] := by
    rw [List.filter_eq_nil_iff]
    intro c hc
    obtain ⟨j, hj, hc⟩ := List.mem_take_iff_getElem.1 hc
    have stops := (parts j c (by rw [← hc]; simp)).2 (by omega)
    simp only [Chunk.meets, decide_eq_true_eq]
    omega
  have some : (s.chunks.toList.drop i).filter (Chunk.meets position (position + want)) =
      (s.chunks.toList.drop i).filter (·.start < position + want) := by
    apply List.filter_congr
    intro c hc
    have nonempty := rest.nonempty hc
    obtain ⟨j, hj⟩ := List.mem_iff_getElem?.1 hc
    have stops := parts (i + j) c (by simpa using hj)
    simp only [Chunk.meets, decide_eq_decide]
    unfold Chunk.stop at stops ⊢
    omega
  rw [← filter_start_lt rest, ← some]
  conv_rhs => rw [← List.take_append_drop i s.chunks.toList]
  rw [List.filter_append, none, List.nil_append]

/-! ## The whole copy -/

/-- How many bytes a read gets from what is loaded. -/
def Request.wanted (r : Request) (s : Store) : Nat := min r.len (s.loadedLen - r.position)

theorem Request.wanted_le (r : Request) (s : Store) : r.wanted s ≤ r.len := Nat.min_le_left ..

theorem Request.wanted_loaded (loaded : r.position < s.loadedLen) :
    r.position + r.wanted s ≤ s.loadedLen := by
  unfold Request.wanted
  omega

theorem Request.wanted_ne_zero (loaded : r.position < s.loadedLen) (some : r.len ≠ 0) :
    r.wanted s ≠ 0 := by
  unfold Request.wanted
  omega

/-- The chunks that a read copies from. -/
def selected (s : Store) (r : Request) : List Chunk :=
  startingBefore s.chunks (r.position + r.wanted s) (firstAfter s.chunks r.position)

/-- What the loop has done after some of its chunks. -/
def copying (s : Store) (r : Request) (cs : List Chunk) : Filling :=
  cs.foldl (Filling.take r.position (r.wanted s) r.offset) ⟨r.buf, 0⟩

/-- A read of loaded bytes copies all it wants, without a step that could fail. -/
structure CopiesSafely (s : Store) (r : Request) : Prop where
  /-- The condition of the search, once false, stays false. -/
  monotone : ∀ (i j : Nat) (c d : Chunk), s.chunks[i]? = some c → s.chunks[j]? = some d → i ≤ j →
    d.stop ≤ r.position → c.stop ≤ r.position
  parts : Parts s.chunks r.position (firstAfter s.chunks r.position)
  /-- The search finds the one chunk with the position in it. -/
  first_lt : firstAfter s.chunks r.position < s.chunks.size
  first : ∀ i c, s.chunks[i]? = some c →
    (c.start ≤ r.position ∧ r.position < c.stop ↔ i = firstAfter s.chunks r.position)
  stop_lt : ∀ c ∈ s.chunks, c.stop < wordLimit
  limit_lt : r.position + r.wanted s < wordLimit
  /-- A read of no bytes is answered before it comes to the loop. -/
  empty : r.len = 0 → s.read r = .done (.bytes 0) r.buf
  selected : r.len ≠ 0 → s.selected r =
    s.chunks.toList.filter (Chunk.meets r.position (r.position + r.wanted s))
  turn : r.len ≠ 0 → ∀ before c after, s.selected r = before ++ c :: after →
    (s.copying r before).Safe r.position (r.wanted s) r.offset c
  /-- After the first turn the next byte to copy is the first one of its chunk. -/
  next : r.len ≠ 0 → ∀ before c after, s.selected r = before ++ c :: after → before ≠ [] →
    r.position + (s.copying r before).copied = c.start
  /-- The loop stops when all that is wanted is copied, and the read says so. -/
  copied : r.len ≠ 0 → (s.copying r (s.selected r)).copied = r.wanted s
  done : r.len ≠ 0 → s.read r = .done (.bytes (r.wanted s)) (s.copying r (s.selected r)).buf

theorem Gapless.stop_le (h : s.Gapless) (hc : c ∈ s.chunks.toList) : c.stop ≤ s.loadedLen := by
  have within := (h.carries.2 c hc).1
  rwa [h.carries.1] at within

/-- The list that the loop goes through: chunks that lie side by side from before the position on,
as far as they are wanted. -/
theorem Gapless.exists_selected (h : s.Gapless) (loaded : r.position < s.loadedLen) :
    ∃ start cs, Laid start cs s.loadedLen ∧ start ≤ r.position ∧
      (∀ c ∈ cs, c ∈ s.chunks.toList ∧ r.position < c.stop) ∧
      s.selected r = cs.takeWhile (·.start < r.position + r.wanted s) := by
  obtain ⟨c, hc, start_le, -⟩ := h.exists_first loaded
  have parts := h.parts r.position
  have selected := startingBefore_eq s.chunks (r.position + r.wanted s)
    (firstAfter s.chunks r.position)
  unfold Store.selected
  generalize firstAfter s.chunks r.position = i at parts selected hc ⊢
  obtain ⟨middle, -, rest⟩ := Laid.split h i
  refine ⟨middle, s.chunks.toList.drop i, rest, ?_, ?_, selected⟩
  · rw [← rest.first (by simpa using hc)]
    exact start_le
  · intro d hd
    refine ⟨List.mem_of_mem_drop hd, ?_⟩
    obtain ⟨j, hj⟩ := List.mem_iff_getElem?.1 hd
    have stops := parts (i + j) d (by simpa using hj)
    omega

/-- The filling before a turn. -/
theorem Gapless.reaches (h : s.Gapless) (room : r.offset + r.len ≤ r.buf.size)
    (loaded : r.position < s.loadedLen) {before after : List Chunk}
    (split : s.selected r = before ++ c :: after) :
    (s.copying r before).Reaches r.buf.size r.position c.start := by
  obtain ⟨start, cs, laid, reached, inside, selected⟩ := h.exists_selected loaded
  have want_le := r.wanted_le s
  refine Filling.Reaches.foldl laid ⟨?_, rfl⟩ (fun d hd => (inside d hd).2) (by omega)
    (selected ▸ split)
  show 0 = start - r.position
  omega

/-- The chunk of a turn is stored, starts where bytes are wanted and reaches beyond the position. -/
theorem Gapless.of_selected (h : s.Gapless) (loaded : r.position < s.loadedLen)
    (member : c ∈ s.selected r) :
    c ∈ s.chunks.toList ∧ c.start < r.position + r.wanted s ∧ r.position < c.stop := by
  obtain ⟨start, cs, -, -, inside, selected⟩ := h.exists_selected loaded
  rw [selected] at member
  obtain ⟨stored, stops⟩ := inside c ((List.takeWhile_sublist _).mem member)
  exact ⟨stored, by simpa using List.mem_takeWhile_imp member, stops⟩

theorem Gapless.turn (h : s.Gapless) (total : s.loadedLen < wordLimit)
    (size : r.buf.size < wordLimit) (room : r.offset + r.len ≤ r.buf.size)
    (loaded : r.position < s.loadedLen) (some : r.len ≠ 0) {before after : List Chunk}
    (split : s.selected r = before ++ c :: after) :
    (s.copying r before).Safe r.position (r.wanted s) r.offset c := by
  have member : c ∈ s.selected r := by simp [split]
  obtain ⟨stored, wanted, stops⟩ := h.of_selected loaded member
  have stop_le := h.stop_le stored
  have want_le := r.wanted_le s
  have want_loaded := Request.wanted_loaded loaded
  exact (h.reaches room loaded split).safe (Laid.nonempty h stored) stops
    (Request.wanted_ne_zero loaded some) wanted (by omega) size (by omega) (by omega)

/-- The next byte of a later turn is the first of its chunk. -/
theorem Gapless.next (h : s.Gapless) (room : r.offset + r.len ≤ r.buf.size)
    (loaded : r.position < s.loadedLen) {before after : List Chunk}
    (split : s.selected r = before ++ c :: after) (later : before ≠ []) :
    r.position + (s.copying r before).copied = c.start := by
  obtain ⟨b, before, rfl⟩ := List.exists_cons_of_ne_nil later
  obtain ⟨start, cs, laid, -, inside, selected⟩ := h.exists_selected loaded
  obtain ⟨rest, rest_eq⟩ := List.takeWhile_prefix (l := cs) (·.start < r.position + r.wanted s)
  rw [← selected, split] at rest_eq
  have order : b.stop ≤ c.start :=
    laid.stop_le_start (i := 0) (j := before.length + 1) (by simp [← rest_eq])
      (by simp [← rest_eq]) (by omega)
  have stops := (inside b (by simp [← rest_eq])).2
  have copied := (h.reaches room loaded split).copied
  omega

theorem Gapless.copies (h : s.Gapless) (total : s.loadedLen < wordLimit)
    (size : r.buf.size < wordLimit) (room : r.offset + r.len ≤ r.buf.size)
    (loaded : r.position < s.loadedLen) : s.CopiesSafely r := by
  have want_le := r.wanted_le s
  have want_loaded := Request.wanted_loaded loaded
  have copied : (s.copying r (s.selected r)).copied = r.wanted s :=
    (copy_holds h r.buf r.offset (r.wanted s) r.position (by omega) want_loaded).1
  refine
    { monotone := ?_, parts := h.parts r.position, first_lt := ?_
      first := fun i c hc => h.contains_iff loaded hc, stop_lt := ?_, limit_lt := by omega
      empty := ?_, selected := fun some => h.selected_eq (Request.wanted_ne_zero loaded some)
      turn := fun some _ _ _ => h.turn total size room loaded some
      next := fun _ _ _ _ => h.next room loaded, copied := fun _ => copied, done := ?_ }
  · intro i j c d hc hd le stops
    exact Nat.le_trans (h.stop_mono hc hd le) stops
  · obtain ⟨c, hc, -⟩ := h.exists_first loaded
    exact (Array.getElem?_eq_some_iff.1 hc).1
  · intro c hc
    have := h.stop_le (Array.mem_def.1 hc)
    omega
  · intro none
    rw [read, if_neg (by omega), if_pos none]
  · intro some
    rw [read, if_neg (by omega), if_neg some, if_neg (by omega)]
    show Answer.done (.bytes (s.copying r (s.selected r)).copied) _ = _
    rw [copied]
    rfl

/-- Whatever was appended, and whatever part of it is asked for. -/
theorem copiesSafely (acts : List StoreAct) (r : Request)
    (total : (({} : Store).following acts).loadedLen < wordLimit) (size : r.buf.size < wordLimit)
    (room : r.offset + r.len ≤ r.buf.size)
    (loaded : r.position < (({} : Store).following acts).loadedLen) :
    (({} : Store).following acts).CopiesSafely r :=
  (gapless_following acts).copies total size room loaded

/-- Three chunks, and a read of five bytes from the second byte on, to the middle of its buffer. -/
theorem copiesSafely_threeChunks :
    let acts := [.append ⟨#[1, 2, 3]⟩, .append ⟨#[4]⟩, .append ⟨#[5, 6, 7, 8]⟩, .finish]
    let s := ({} : Store).following acts
    let r : Request := ⟨⟨#[0, 0, 0, 0, 0, 0, 0, 0]⟩, 2, 5, 1, true⟩
    s.loadedLen < wordLimit ∧ r.buf.size < wordLimit ∧ r.offset + r.len ≤ r.buf.size ∧
      r.position < s.loadedLen ∧ s.CopiesSafely r ∧ (s.selected r).length = 3 := by
  refine ⟨by decide, by decide, by decide, by decide, ?_, by decide +kernel⟩
  exact copiesSafely _ _ (by decide) (by decide) (by decide) (by decide)

end Store
end SharedStream
