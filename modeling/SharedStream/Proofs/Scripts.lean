import Mathlib.Algebra.Order.Ring.Nat
import SharedStream.Proofs.Content

/-! # Scripts

What a script has to give before the first thing that ends the stream, and how the answer to a read
takes the script on. What the reads of a source give in all does not depend on how much each of them
asks for, nor on how often they are interrupted.
-/
namespace SharedStream

open SourceAnswer (goesOn)

namespace SourceItem

/-- Nothing is read after the item. -/
def stops : SourceItem → Bool
  | .data bytes _ => bytes.size = 0
  | .interrupted _ => false
  | .error e => e.kind ≠ .interrupted
  | .eof | .panic _ => true

def bytes : SourceItem → List UInt8
  | .data bytes _ => octets bytes
  | .interrupted _ | .error _ | .eof | .panic _ => []

/-- The item without the pauses and the cuts that only slow the reads down. -/
def essence : SourceItem → Option SourceItem
  | .data bytes _ => some (.data bytes none)
  | .interrupted _ => none
  | .error e => if e.kind = .interrupted then none else some (.error e)
  | .eof => some .eof
  | .panic text => some (.panic text)

/-- Reads of the item give something, and none of them panics. -/
def Calm : SourceItem → Prop
  | .data _ step => step ≠ some 0
  | .panic _ => False
  | .interrupted _ | .error _ | .eof => True

end SourceItem

/-- The bytes of all data before the first item that ends the stream. -/
def scriptBytes (items : List SourceItem) : List UInt8 :=
  (items.takeWhile (!·.stops)).flatMap SourceItem.bytes

variable {items : List SourceItem} {item : SourceItem} {request : Nat}

@[simp] theorem scriptBytes_nil : scriptBytes [] = [] := rfl

theorem scriptBytes_cons_of_stops (item : SourceItem) (h : item.stops = true)
    (items : List SourceItem) :
    scriptBytes (item :: items) = [] := by
  simp [scriptBytes, h]

theorem scriptBytes_cons (item : SourceItem) (h : item.stops = false) (items : List SourceItem) :
    scriptBytes (item :: items) = item.bytes ++ scriptBytes items := by
  simp [scriptBytes, h]

theorem scriptBytes_data {bytes : ByteArray} (some : bytes.size ≠ 0) (step : Option Nat)
    (items : List SourceItem) :
    scriptBytes (.data bytes step :: items) = octets bytes ++ scriptBytes items :=
  scriptBytes_cons (.data bytes step) (decide_eq_false some) items

theorem scriptBytes_empty {bytes : ByteArray} (none : bytes.size = 0) (step : Option Nat)
    (items : List SourceItem) : scriptBytes (.data bytes step :: items) = [] :=
  scriptBytes_cons_of_stops (.data bytes step) (decide_eq_true none) items

@[simp] theorem scriptBytes_interrupted (times : Nat) (items : List SourceItem) :
    scriptBytes (.interrupted times :: items) = scriptBytes items :=
  scriptBytes_cons (.interrupted times) rfl items

theorem scriptBytes_retried {e : IoFailure} (h : e.kind = .interrupted) (items : List SourceItem) :
    scriptBytes (.error e :: items) = scriptBytes items :=
  scriptBytes_cons (.error e) (by simp [SourceItem.stops, h]) items

theorem scriptBytes_error {e : IoFailure} (h : e.kind ≠ .interrupted) (items : List SourceItem) :
    scriptBytes (.error e :: items) = [] :=
  scriptBytes_cons_of_stops (.error e) (decide_eq_true h) items

/-- Neither interruptions nor the steps of the reads count. -/
theorem scriptBytes_essence (items : List SourceItem) :
    scriptBytes (items.filterMap SourceItem.essence) = scriptBytes items := by
  induction items with
  | nil => rfl
  | cons item items ih =>
    cases item with
    | data bytes step =>
      have kept : (SourceItem.data bytes step).essence = some (.data bytes none) := rfl
      rw [List.filterMap_cons_some kept]
      by_cases empty : bytes.size = 0
      · rw [scriptBytes_empty empty, scriptBytes_empty empty]
      · rw [scriptBytes_data empty, scriptBytes_data empty, ih]
    | interrupted times => rw [List.filterMap_cons_none rfl, ih, scriptBytes_interrupted]
    | error e =>
      by_cases interrupted : e.kind = .interrupted
      · have left : (SourceItem.error e).essence = none := if_pos interrupted
        rw [List.filterMap_cons_none left, ih, scriptBytes_retried interrupted]
      · have kept : (SourceItem.error e).essence = some (.error e) := if_neg interrupted
        rw [List.filterMap_cons_some kept, scriptBytes_error interrupted,
          scriptBytes_error interrupted]
    | eof => rfl
    | panic text => rfl

/-! ## One read -/

/-- What a read is answered by a script, and what is left of the script. -/
def serve (request : Nat) : List SourceItem → SourceAnswer × List SourceItem
  | [] => (.bytes .empty, [])
  | .data bytes step :: items =>
    let n := Source.portion request step bytes.size
    (.bytes (bytes.extract 0 n),
      if bytes.size ≤ n then items else .data (bytes.extract n bytes.size) step :: items)
  | .interrupted times :: items =>
    (.failed ⟨.interrupted, "interrupted"⟩,
      if times ≤ 1 then items else .interrupted (times - 1) :: items)
  | .error e :: items => (.failed e, items)
  | .eof :: items => (.bytes .empty, items)
  | .panic text :: items => (.panicked text, items)

/-- What is left of the script of a source. -/
def Source.rest (s : Source) : List SourceItem :=
  match s.script.drop s.place with
  | .data bytes step :: items => .data (bytes.extract s.used bytes.size) step :: items
  | .interrupted times :: items => .interrupted (times - s.used) :: items
  | items => items

theorem Source.rest_of_unused (s : Source) (h : s.used = 0) :
    s.rest = s.script.drop s.place := by
  unfold rest
  split
  · next bytes step items left =>
    rw [left, h, ByteArray.extract_zero_size]
  · next times items left => rw [left, h, Nat.sub_zero]
  · rfl

theorem Source.drop_place {s : Source} (h : s.next? = some item) :
    s.script.drop s.place = item :: s.script.drop (s.place + 1) := by
  obtain ⟨lt, item⟩ := List.getElem?_eq_some_iff.1 h
  rw [List.drop_eq_getElem_cons lt, item]

theorem Source.rest_pass (s : Source) : s.pass.rest = s.script.drop (s.place + 1) :=
  s.pass.rest_of_unused rfl

theorem Source.rest_eq_nil_iff (s : Source) : s.rest = [] ↔ s.next? = none := by
  rw [next?, List.getElem?_eq_none_iff, ← List.drop_eq_nil_iff, rest]
  split
  · next left => simp [left]
  · next left => simp [left]
  · rfl

/-- A source answers as what is left of its script does. -/
theorem Source.serve_rest (s : Source) :
    serve s.request s.rest = (s.answer.1, s.answer.2.rest) := by
  unfold answer
  cases next : s.next? with
  | none =>
    have left : s.script.drop s.place = [] := by
      rw [next?, List.getElem?_eq_none_iff] at next
      exact List.drop_eq_nil_of_le next
    have rest : s.rest = [] := by rw [Source.rest, left]
    rw [rest]
    rfl
  | some item =>
    have left := drop_place next
    cases item with
    | data bytes step =>
      have rest : s.rest = .data (bytes.extract s.used bytes.size) step ::
          s.script.drop (s.place + 1) := by rw [Source.rest, left]
      have size : (bytes.extract s.used bytes.size).size = bytes.size - s.used := by
        simp [ByteArray.size_extract]
      rw [rest, serve, size]
      dsimp only
      generalize hn : portion s.request step (bytes.size - s.used) = n
      have le : n ≤ bytes.size - s.used := hn ▸ Nat.min_le_right _ _
      have given : (bytes.extract s.used bytes.size).extract 0 n =
          bytes.extract s.used (s.used + n) := by
        by_cases none : n = 0
        · rw [none, ByteArray.extract_same, Nat.add_zero, ByteArray.extract_same]
        · rw [ByteArray.extract_extract, Nat.min_eq_left (by omega), Nat.add_zero]
      rw [given]
      congr 1
      by_cases last : bytes.size ≤ s.used + n
      · rw [if_pos last, if_pos (by omega), s.rest_pass]
      · rw [if_neg last, if_neg (by omega), Source.rest]
        dsimp only
        rw [left]
        dsimp only
        rw [ByteArray.extract_extract, Nat.min_eq_right (by omega)]
    | interrupted times =>
      have rest : s.rest = .interrupted (times - s.used) :: s.script.drop (s.place + 1) := by
        rw [Source.rest, left]
      rw [rest, serve]
      dsimp only
      congr 1
      by_cases last : times ≤ s.used + 1
      · rw [if_pos last, if_pos (by omega), s.rest_pass]
      · rw [if_neg last, if_neg (by omega), Source.rest]
        dsimp only
        rw [left]
        rfl
    | error e =>
      have rest : s.rest = .error e :: s.script.drop (s.place + 1) := by rw [Source.rest, left]
      rw [rest, serve, s.rest_pass]
    | eof =>
      have rest : s.rest = .eof :: s.script.drop (s.place + 1) := by rw [Source.rest, left]
      rw [rest, serve, s.rest_pass]
    | panic text =>
      have rest : s.rest = .panic text :: s.script.drop (s.place + 1) := by rw [Source.rest, left]
      rw [rest, serve, s.rest_pass]

/-! ## All reads -/

/-- A bound on the reads that a script answers before it is used up. -/
def readsOf (items : List SourceItem) : Nat := (items.map Source.itemReads).sum

theorem calm_serve (calm : ∀ i ∈ items, i.Calm) (request : Nat) :
    ∀ i ∈ (serve request items).2, i.Calm := by
  cases items with
  | nil => exact calm
  | cons item items =>
    obtain ⟨first, others⟩ := List.forall_mem_cons.1 calm
    cases item with
    | data bytes step =>
      simp only [serve]
      split
      · exact others
      · exact List.forall_mem_cons.2 ⟨first, others⟩
    | interrupted times =>
      simp only [serve]
      split
      · exact others
      · exact List.forall_mem_cons.2 ⟨trivial, others⟩
    | error e => exact others
    | eof => exact others
    | panic text => exact others

theorem size_serve {data : ByteArray} (h : (serve request items).1 = .bytes data) :
    data.size ≤ request := by
  cases items with
  | nil =>
    cases h
    exact Nat.zero_le _
  | cons item items =>
    cases item with
    | data bytes step =>
      cases h
      have : Source.portion request step bytes.size ≤ request :=
        Nat.le_trans (Nat.min_le_left _ _) (Nat.min_le_left _ _)
      rw [ByteArray.size_extract]
      omega
    | interrupted times => cases h
    | error e => cases h
    | eof =>
      cases h
      exact Nat.zero_le _
    | panic text => cases h

/-- A read of data that asks for something is given something. -/
theorem portion_pos {step : Option Nat} {left : Nat} (asks : 1 ≤ request) (calm : step ≠ some 0)
    (some : left ≠ 0) : 1 ≤ Source.portion request step left := by
  have pace : 1 ≤ step.getD request := by
    cases step with
    | none => exact asks
    | some n =>
      have : n ≠ 0 := fun h => calm (by rw [h])
      exact Nat.one_le_iff_ne_zero.2 this
  unfold Source.portion
  omega

/-- An answer that is not the last one is a part of what the script has to give. -/
theorem scriptBytes_of_goesOn (goes : (serve request items).1.goesOn = true) :
    scriptBytes items = (serve request items).1.given ++ scriptBytes (serve request items).2 := by
  cases items with
  | nil => simp [serve, goesOn] at goes
  | cons item items =>
    cases item with
    | data bytes step =>
      have some : bytes.size ≠ 0 := by
        intro empty
        simp [serve, goesOn, empty] at goes
      rw [scriptBytes_data some]
      simp only [serve, SourceAnswer.given]
      generalize hn : Source.portion request step bytes.size = n
      have le : n ≤ bytes.size := hn ▸ Nat.min_le_right _ _
      split
      · have all : n = bytes.size := by omega
        rw [all, ByteArray.extract_zero_size]
      · have more : (bytes.extract n bytes.size).size ≠ 0 := by
          rw [ByteArray.size_extract]
          omega
        rw [scriptBytes_data more, ← List.append_assoc, ← octets_append,
          ← ByteArray.extract_eq_extract_append_extract n (Nat.zero_le _) le,
          ByteArray.extract_zero_size]
    | interrupted times =>
      simp only [serve, SourceAnswer.given, scriptBytes_interrupted, List.nil_append]
      split
      · rfl
      · rw [scriptBytes_interrupted]
    | error e =>
      have interrupted : e.kind = .interrupted := by simpa [serve, goesOn] using goes
      rw [scriptBytes_retried interrupted]
      rfl
    | eof => simp [serve, goesOn] at goes
    | panic text => simp [serve, goesOn] at goes

/-- After the last answer the script has nothing to give. -/
theorem scriptBytes_of_ends (asks : 1 ≤ request) (calm : ∀ i ∈ items, i.Calm)
    (ends : (serve request items).1.goesOn = false) : scriptBytes items = [] := by
  cases items with
  | nil => rfl
  | cons item items =>
    have first : item.Calm := calm item (by simp)
    cases item with
    | data bytes step =>
      refine scriptBytes_empty ?_ _ _
      by_contra some
      have := portion_pos asks first some
      have le : Source.portion request step bytes.size ≤ bytes.size := Nat.min_le_right _ _
      simp only [serve, goesOn, ByteArray.size_extract, decide_eq_false_iff_not] at ends
      omega
    | interrupted times => simp [serve, goesOn] at ends
    | error e =>
      refine scriptBytes_error ?_ _
      simpa [serve, goesOn] using ends
    | eof => exact scriptBytes_cons_of_stops _ rfl _
    | panic text => exact scriptBytes_cons_of_stops _ rfl _

/-- What ends the stream is still to come after an answer that does not end it. -/
theorem stops_serve (goes : (serve request items).1.goesOn = true)
    (h : ∃ i ∈ items, i.stops = true) : ∃ i ∈ (serve request items).2, i.stops = true := by
  obtain ⟨i, mem, stops⟩ := h
  cases items with
  | nil => cases mem
  | cons item items =>
    have later : item.stops = false → i ∈ items := by
      intro going
      rcases List.mem_cons.1 mem with rfl | later
      · rw [going] at stops
        cases stops
      · exact later
    cases item with
    | data bytes step =>
      have some : bytes.size ≠ 0 := by
        intro empty
        simp [serve, goesOn, empty] at goes
      have later := later (decide_eq_false some)
      refine ⟨i, ?_, stops⟩
      simp only [serve]
      split
      · exact later
      · exact List.mem_cons_of_mem _ later
    | interrupted times =>
      refine ⟨i, ?_, stops⟩
      simp only [serve]
      split
      · exact later rfl
      · exact List.mem_cons_of_mem _ (later rfl)
    | error e =>
      have interrupted : e.kind = .interrupted := by simpa [serve, goesOn] using goes
      exact ⟨i, later (by simp [SourceItem.stops, interrupted]), stops⟩
    | eof => simp [serve, goesOn] at goes
    | panic text => simp [serve, goesOn] at goes

theorem readsOf_serve (goes : (serve request items).1.goesOn = true) :
    readsOf (serve request items).2 < readsOf items := by
  cases items with
  | nil => simp [serve, goesOn] at goes
  | cons item items =>
    cases item with
    | data bytes step =>
      simp only [serve, goesOn, ByteArray.size_extract, decide_eq_true_eq] at goes
      simp only [serve]
      split
      · simp [readsOf, Source.itemReads]
      · simp only [readsOf, List.map_cons, List.sum_cons, Source.itemReads, ByteArray.size_extract]
        omega
    | interrupted times =>
      simp only [serve]
      split
      · simp [readsOf, Source.itemReads]
      · simp only [readsOf, List.map_cons, List.sum_cons, Source.itemReads]
        omega
    | error e => simp [serve, readsOf, Source.itemReads]
    | eof => simp [serve, goesOn] at goes
    | panic text => simp [serve, goesOn] at goes

theorem not_panicked_serve (request : Nat) (calm : ∀ i ∈ items, i.Calm) (text : String) :
    (serve request items).1 ≠ .panicked text := by
  intro panics
  cases items with
  | nil => cases panics
  | cons item items =>
    cases item with
    | panic text' => exact calm (.panic text') (by simp)
    | data bytes step => cases panics
    | interrupted times => cases panics
    | error e => cases panics
    | eof => cases panics

end SharedStream
