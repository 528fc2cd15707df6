import Mathlib.Tactic.ByContra
import SharedStream.Store

/-! # What a read of a store copies

In a store without gaps the search finds the chunk that holds a position, and the bytes copied from
there on are those of the stream at that position, whatever the chunks are.
-/
namespace SharedStream

def octets (b : ByteArray) : List UInt8 := b.data.toList

theorem octets_injective {a b : ByteArray} (h : octets a = octets b) : a = b :=
  ByteArray.ext (Array.toList_inj.1 h)

@[simp] theorem octets_append (a b : ByteArray) : octets (a ++ b) = octets a ++ octets b := by
  simp [octets]

@[simp] theorem length_octets (b : ByteArray) : (octets b).length = b.size := rfl

theorem octets_extract (b : ByteArray) (i j : Nat) :
    octets (b.extract i j) = ((octets b).take j).drop i := by
  simp [octets, List.extract, List.drop_take]

theorem octets_copySlice (src dest : ByteArray) (i j n : Nat) (h : i + n ≤ src.size) :
    octets (src.copySlice i dest j n) =
      (octets dest).take j ++ ((octets src).drop i).take n ++ (octets dest).drop (j + n) := by
  have size : min n (src.data.size - i) = n := by
    have : src.size = src.data.size := rfl
    omega
  simp only [octets, ByteArray.copySlice, size, Array.toList_append, Array.toList_extract,
    List.extract, Nat.add_sub_cancel_left, List.drop_zero, Nat.sub_zero]
  congr 1
  exact List.take_of_length_le (by simp)

/-- The chunks lie side by side from one place to another, and none is empty. -/
def Laid (start : Nat) : List Chunk → Nat → Prop
  | [], stop => start = stop
  | c :: cs, stop => c.start = start ∧ c.data.size ≠ 0 ∧ Laid c.stop cs stop

theorem Laid.append {start stop : Nat} {cs : List Chunk} (h : Laid start cs stop) {c : Chunk}
    (hc : c.start = stop) (some : c.data.size ≠ 0) : Laid start (cs ++ [c]) c.stop := by
  induction cs generalizing start with
  | nil => exact ⟨hc.trans h.symm, some, rfl⟩
  | cons d cs ih => exact ⟨h.1, h.2.1, ih h.2.2⟩

theorem Laid.le {start stop : Nat} {cs : List Chunk} (h : Laid start cs stop) : start ≤ stop := by
  induction cs generalizing start with
  | nil => exact Nat.le_of_eq h
  | cons d cs ih =>
    obtain ⟨rfl, -, rest⟩ := h
    have := ih rest
    unfold Chunk.stop at this
    omega

/-- The chunks from an index on lie from the place where those before it end. -/
theorem Laid.split {start stop : Nat} {cs : List Chunk} (h : Laid start cs stop) (i : Nat) :
    ∃ middle, Laid start (cs.take i) middle ∧ Laid middle (cs.drop i) stop := by
  induction i generalizing start cs with
  | zero => exact ⟨start, rfl, h⟩
  | succ i ih =>
    cases cs with
    | nil => exact ⟨start, rfl, h⟩
    | cons c cs =>
      obtain ⟨middle, before, rest⟩ := ih h.2.2
      exact ⟨middle, ⟨h.1, h.2.1, before⟩, rest⟩

theorem Laid.nonempty {start stop : Nat} {cs : List Chunk} (h : Laid start cs stop) {c : Chunk}
    (hc : c ∈ cs) : c.data.size ≠ 0 := by
  induction cs generalizing start with
  | nil => cases hc
  | cons d cs ih =>
    rcases List.mem_cons.1 hc with rfl | hc
    · exact h.2.1
    · exact ih h.2.2 hc

theorem Laid.first {start stop : Nat} {cs : List Chunk} (h : Laid start cs stop) {c : Chunk}
    (hc : cs[0]? = some c) : c.start = start := by
  cases cs with
  | nil => cases hc
  | cons d cs =>
    cases hc
    exact h.1

theorem Laid.start_le {start stop : Nat} {cs : List Chunk} (h : Laid start cs stop) {c : Chunk}
    (hc : c ∈ cs) : start ≤ c.start := by
  induction cs generalizing start with
  | nil => cases hc
  | cons d cs ih =>
    obtain ⟨rfl, -, rest⟩ := h
    rcases List.mem_cons.1 hc with rfl | hc
    · exact Nat.le_refl _
    · have := ih rest hc
      unfold Chunk.stop at this
      omega

/-- Of two chunks the later one ends later. -/
theorem Laid.stop_mono {start stop : Nat} {cs : List Chunk} (h : Laid start cs stop) {i j : Nat}
    {c d : Chunk} (hi : cs[i]? = some c) (hj : cs[j]? = some d) (le : i ≤ j) : c.stop ≤ d.stop := by
  induction cs generalizing start i j with
  | nil => simp at hi
  | cons e cs ih =>
    cases i with
    | zero =>
      cases hi
      cases j with
      | zero =>
        cases hj
        exact Nat.le_refl _
      | succ j =>
        have mem : d ∈ cs := List.mem_of_getElem? hj
        have := h.2.2.start_le mem
        unfold Chunk.stop at this ⊢
        omega
    | succ i =>
      cases j with
      | zero => omega
      | succ j => exact ih h.2.2 hi hj (by omega)

/-- Of two chunks the later one starts after the other one. -/
theorem Laid.stop_le_start {start stop : Nat} {cs : List Chunk} (h : Laid start cs stop) {i j : Nat}
    {c d : Chunk} (hi : cs[i]? = some c) (hj : cs[j]? = some d) (lt : i < j) :
    c.stop ≤ d.start := by
  induction cs generalizing start i j with
  | nil => simp at hi
  | cons e cs ih =>
    obtain ⟨j, rfl⟩ : ∃ k, j = k + 1 := ⟨j - 1, by omega⟩
    cases i with
    | zero =>
      cases hi
      exact h.2.2.start_le (List.mem_of_getElem? hj)
    | succ i => exact ih h.2.2 hi hj (by omega)

theorem Laid.stop_le_of_forall {start stop : Nat} {cs : List Chunk} (h : Laid start cs stop)
    {position : Nat} (hs : start ≤ position) (all : ∀ c ∈ cs, c.stop ≤ position) :
    stop ≤ position := by
  induction cs generalizing start with
  | nil => exact (show start = stop from h) ▸ hs
  | cons c cs ih => exact ih h.2.2 (all c (by simp)) fun d hd => all d (by simp [hd])

/-! ## The search -/

namespace Store

/-- An index before which all chunks end at or before the position, and from which on all end
after it. -/
def Parts (chunks : Array Chunk) (position i : Nat) : Prop :=
  ∀ j c, chunks[j]? = some c → (c.stop ≤ position ↔ j < i)

theorem search_parts {chunks : Array Chunk} {position lo hi : Nat}
    (mono : ∀ {i j : Nat} {c d : Chunk}, chunks[i]? = some c → chunks[j]? = some d → i ≤ j →
      c.stop ≤ d.stop)
    (before : ∀ j c, chunks[j]? = some c → j < lo → c.stop ≤ position)
    (after : ∀ j c, chunks[j]? = some c → hi ≤ j → position < c.stop) (le : lo ≤ hi) :
    Parts chunks position (search chunks position lo hi) := by
  fun_induction search chunks position lo hi with
  | case1 lo hi lt mid c hc stop ih =>
    refine ih ?_ after (by omega)
    intro j d hd hj
    exact Nat.le_trans (mono hd hc (by omega)) stop
  | case2 lo hi lt mid c hc stop ih =>
    refine ih before ?_ (by omega)
    intro j d hd hj
    have := mono hc hd hj
    omega
  | case3 lo hi lt mid none ih =>
    refine ih before ?_ (by omega)
    intro j d hd hj
    rw [Array.getElem?_eq_none_iff] at none
    have := (Array.getElem?_eq_some_iff.1 hd).1
    omega
  | case4 lo hi nlt =>
    intro j c hc
    constructor
    · intro stop
      by_contra hj
      have := after j c hc (by omega)
      omega
    · exact before j c hc

theorem startingBefore_eq (chunks : Array Chunk) (limit i : Nat) :
    startingBefore chunks limit i = (chunks.toList.drop i).takeWhile (·.start < limit) := by
  fun_induction startingBefore chunks limit i with
  | case1 i h lt ih =>
    rw [List.drop_eq_getElem_cons (by simpa using h),
      List.takeWhile_cons_of_pos (by simpa using lt), ih]
    rfl
  | case2 i h lt =>
    rw [List.drop_eq_getElem_cons (by simpa using h),
      List.takeWhile_cons_of_neg (by simpa using lt)]
  | case3 i h =>
    rw [List.drop_eq_nil_of_le (by simpa using h)]
    rfl

/-! ## Copies -/

/-- The chunk has the bytes of the stream at its place. -/
def Carries (stream : List UInt8) (c : Chunk) : Prop :=
  c.stop ≤ stream.length ∧ octets c.data = (stream.drop c.start).take c.data.size

variable {stream base : List UInt8} {offset position want : Nat}

/-- The buffer was `base`, and has got the first `copied` bytes of the stream from `position` on. -/
def Filling.Holds (stream base : List UInt8) (offset position : Nat) (f : Filling) : Prop :=
  octets f.buf = base.take offset ++ (stream.drop position).take f.copied ++
    base.drop (offset + f.copied)

theorem Filling.Holds.take {f : Filling} {c : Chunk} (want : Nat)
    (h : f.Holds stream base offset position)
    (carries : Carries stream c) (from_ : c.start ≤ position + f.copied)
    (inside : position + f.copied < c.stop) (room : offset + f.copied ≤ base.length) :
    (f.take position want offset c).Holds stream base offset position := by
  obtain ⟨within, bytes⟩ := carries
  unfold Chunk.stop at within inside
  unfold Filling.Holds Filling.take Filling.portion Filling.skipped
  dsimp only
  generalize hs : position + f.copied - c.start = skipped
  generalize hn : min (c.data.size - skipped) (want - f.copied) = n
  rw [octets_copySlice _ _ _ _ _ (by omega), h, bytes]
  have filled : (base.take offset ++ (stream.drop position).take f.copied).length =
      offset + f.copied := by
    simp only [List.length_append, List.length_take, List.length_drop]
    omega
  have copied : (((stream.drop c.start).take c.data.size).drop skipped).take n =
      (stream.drop (position + f.copied)).take n := by
    rw [List.drop_take, List.take_take, List.drop_drop]
    congr 2 <;> omega
  have rest : (base.take offset ++ (stream.drop position).take f.copied ++
      base.drop (offset + f.copied)).drop (offset + f.copied + n) =
        base.drop (offset + (f.copied + n)) := by
    rw [← List.drop_drop, List.drop_left' filled, List.drop_drop, Nat.add_assoc]
  have slice : (stream.drop position).take (f.copied + n) =
      (stream.drop position).take f.copied ++ (stream.drop (position + f.copied)).take n := by
    rw [List.take_add, List.drop_drop]
  rw [List.take_left' filled, copied, rest, slice, ← List.append_assoc (base.take offset)]

/-- Copying from chunks that lie side by side gives all that is wanted. -/
theorem foldl_take_holds {cs : List Chunk} {start stop : Nat} {f : Filling}
    (laid : Laid start cs stop) (carries : ∀ c ∈ cs, Carries stream c)
    (h : f.Holds stream base offset position) (le : f.copied ≤ want)
    (enough : position + want ≤ stop) (room : offset + want ≤ base.length)
    (near : position + want ≤ start ∧ f.copied = want ∨
      start ≤ position + f.copied ∧ ∀ c ∈ cs.head?, position + f.copied < c.stop) :
    let g := (cs.takeWhile (·.start < position + want)).foldl (Filling.take position want offset) f
    g.copied = want ∧ g.Holds stream base offset position := by
  induction cs generalizing start f with
  | nil =>
    have : start = stop := laid
    refine ⟨?_, h⟩
    show f.copied = want
    omega
  | cons c cs ih =>
    obtain ⟨rfl, -, rest⟩ := laid
    by_cases hc : c.start < position + want
    · rw [List.takeWhile_cons_of_pos (by simpa using hc), List.foldl_cons]
      have inside : position + f.copied < c.stop := by
        rcases near with near | near
        · omega
        · exact near.2 c (by simp)
      have from_ : c.start ≤ position + f.copied := by omega
      have step := h.take want (carries c (by simp)) from_ inside (by omega)
      have copied : (f.take position want offset c).copied =
          f.copied + min (c.data.size - (position + f.copied - c.start)) (want - f.copied) := rfl
      have stop_eq : c.stop = c.start + c.data.size := rfl
      -- Either this chunk had all that was wanted, or it is used up and the next one follows on it.
      refine ih rest (fun d hd => carries d (by simp [hd])) step (by omega) ?_
      by_cases full : f.copied + (c.data.size - (position + f.copied - c.start)) < want
      · refine .inr ⟨by omega, ?_⟩
        intro d hd
        obtain ⟨tail, rfl⟩ : ∃ tail, cs = d :: tail := by
          cases cs with
          | nil => simp at hd
          | cons e tail => exact ⟨tail, by simpa using hd⟩
        obtain ⟨next, some, -⟩ := rest
        unfold Chunk.stop at next ⊢
        omega
      · exact .inl ⟨by omega, by omega⟩
    · rw [List.takeWhile_cons_of_neg (by simpa using hc)]
      refine ⟨?_, h⟩
      show f.copied = want
      omega

/-! ## Reads -/

/-- The chunks of the store lie side by side, and it knows how much they hold. -/
def Gapless (s : Store) : Prop := Laid 0 s.chunks.toList s.loadedLen

theorem octets_bytes (s : Store) :
    octets s.bytes = s.chunks.toList.flatMap fun c => octets c.data := by
  have fold : ∀ (cs : List Chunk) (acc : ByteArray),
      octets (cs.foldl (fun acc c => acc ++ c.data) acc) =
        octets acc ++ cs.flatMap fun c => octets c.data := by
    intro cs
    induction cs with
    | nil => simp
    | cons c cs ih =>
      intro acc
      simp [ih]
  rw [bytes, ← Array.foldl_toList, fold]
  rfl

theorem carries_of_laid {start stop : Nat} {cs : List Chunk} (laid : Laid start cs stop)
    (pre : List UInt8) (hpre : pre.length = start) :
    (pre ++ cs.flatMap fun c => octets c.data).length = stop ∧
      ∀ c ∈ cs, Carries (pre ++ cs.flatMap fun c => octets c.data) c := by
  induction cs generalizing start pre with
  | nil =>
    have : start = stop := laid
    simp [hpre, this]
  | cons c cs ih =>
    obtain ⟨rfl, -, rest⟩ := laid
    obtain ⟨length, carries⟩ := ih rest (pre ++ octets c.data) (by
      rw [List.length_append, hpre, length_octets]
      rfl)
    rw [List.append_assoc] at length
    have within := rest.le
    refine ⟨length, ?_⟩
    intro d hd
    rcases List.mem_cons.1 hd with rfl | hd
    · refine ⟨by rw [List.flatMap_cons, length]; exact within, ?_⟩
      rw [← hpre, List.drop_left, List.flatMap_cons, ← length_octets, List.take_left]
    · have := carries d hd
      rwa [List.append_assoc] at this

theorem Gapless.carries {s : Store} (h : s.Gapless) :
    (octets s.bytes).length = s.loadedLen ∧ ∀ c ∈ s.chunks.toList, Carries (octets s.bytes) c := by
  rw [octets_bytes]
  exact carries_of_laid h [] rfl

/-- The search finds the first chunk that ends after the position. -/
theorem Gapless.parts {s : Store} (h : s.Gapless) (position : Nat) :
    Parts s.chunks position (firstAfter s.chunks position) := by
  refine search_parts ?_ (by omega) ?_ (Nat.zero_le _)
  · intro i j c d hc hd le
    exact Laid.stop_mono h (by simpa using hc) (by simpa using hd) le
  · intro j c hc hj
    have := (Array.getElem?_eq_some_iff.1 hc).1
    omega

theorem Gapless.append {s : Store} (h : s.Gapless) (data : ByteArray) :
    (s.append data).Gapless := by
  unfold Store.append
  split
  · next some =>
    have laid := Laid.append h (c := ⟨s.loadedLen, data⟩) rfl some.1
    unfold Gapless
    rw [Array.toList_push]
    exact laid
  · exact h

/-- The bytes that are copied are those of the stream at the position. -/
theorem copy_holds {s : Store} (h : s.Gapless) (buf : ByteArray) (offset want position : Nat)
    (room : offset + want ≤ buf.size) (loaded : position + want ≤ s.loadedLen) :
    (s.copy buf offset want position).copied = want ∧
      (s.copy buf offset want position).Holds (octets s.bytes) (octets buf) offset position := by
  obtain ⟨length, carries⟩ := h.carries
  have parts := h.parts position
  generalize hi : firstAfter s.chunks position = i at parts
  obtain ⟨middle, before, rest⟩ := Laid.split h i
  unfold copy
  rw [startingBefore_eq, hi]
  refine foldl_take_holds rest (fun c hc => carries c (List.mem_of_mem_drop hc)) ?_ (Nat.zero_le _)
    loaded (by simpa using room) (.inr ⟨?_, ?_⟩)
  · simp [Filling.Holds]
  · refine before.stop_le_of_forall (Nat.zero_le _) fun c hc => ?_
    obtain ⟨j, hj, hc⟩ := List.mem_take_iff_getElem.1 hc
    exact (parts j c (by rw [← hc]; simp)).2 (by omega)
  · intro c hc
    have hi := parts i c (by simpa [List.head?_drop] using hc)
    show position + 0 < c.stop
    omega

/-- The answer to a read: it has copied the bytes of the stream from its position on, and has left
the rest of its buffer as it was. -/
structure Copied (s : Store) (r : Request) (o : ReadOutcome) (buf : ByteArray) : Prop where
  loaded : o.count ≤ (octets s.bytes).length - r.position
  room : r.offset + o.count ≤ r.buf.size
  octets_eq : octets buf = (octets r.buf).take r.offset ++
    ((octets s.bytes).drop r.position).take o.count ++ (octets r.buf).drop (r.offset + o.count)
  ended : o = .endOfStream → s.finished = true ∧ (octets s.bytes).length ≤ r.position

theorem Copied.of_nothing {s : Store} {r : Request} {o : ReadOutcome} (h : o.count = 0)
    (room : r.offset ≤ r.buf.size)
    (ended : o = .endOfStream → s.finished = true ∧ (octets s.bytes).length ≤ r.position) :
    s.Copied r o r.buf := by
  refine ⟨by omega, by omega, ?_, ended⟩
  rw [h, List.take_zero, List.append_nil, Nat.add_zero, List.take_append_drop]

theorem read_done {s : Store} (h : s.Gapless) {r : Request} {o : ReadOutcome} {buf : ByteArray}
    (done : s.read r = .done o buf) : s.Copied r o buf := by
  have length := h.carries.1
  unfold read at done
  split at done
  · cases done
  next room =>
  split at done
  · cases done
    exact .of_nothing rfl (by omega) (by simp)
  split at done
  · next past =>
    split at done
    · next finished =>
      cases done
      exact .of_nothing rfl (by omega) fun _ => ⟨finished, by omega⟩
    split at done
    · cases done
    · cases done
      exact .of_nothing rfl (by omega) (by simp)
  · next some =>
    obtain ⟨copied, holds⟩ := copy_holds h r.buf r.offset
      (min r.len (s.loadedLen - r.position)) r.position (by omega) (by omega)
    cases done
    refine ⟨?_, ?_, holds, by simp⟩
    · show (s.copy ..).copied ≤ _
      rw [copied]
      omega
    · show r.offset + (s.copy ..).copied ≤ _
      rw [copied]
      omega

/-- What a read has put into its buffer. -/
theorem Copied.extract_eq {s : Store} {r : Request} {o : ReadOutcome} {buf : ByteArray}
    (h : s.Copied r o buf) :
    octets (buf.extract r.offset (r.offset + o.count)) =
      ((octets s.bytes).drop r.position).take o.count := by
  obtain ⟨loaded, room, octets_eq, -⟩ := h
  have before : ((octets r.buf).take r.offset).length = r.offset := by
    rw [List.length_take, length_octets]
    omega
  have copied : (((octets s.bytes).drop r.position).take o.count).length = o.count := by
    rw [List.length_take, List.length_drop]
    omega
  rw [octets_extract, octets_eq, List.append_assoc, List.drop_take, Nat.add_sub_cancel_left,
    List.drop_left' before, List.take_left' copied]

theorem Copied.length_extract {s : Store} {r : Request} {o : ReadOutcome} {buf : ByteArray}
    (h : s.Copied r o buf) :
    (octets (buf.extract r.offset (r.offset + o.count))).length = o.count := by
  have loaded := h.loaded
  rw [h.extract_eq, List.length_take, List.length_drop]
  omega

end Store
end SharedStream
