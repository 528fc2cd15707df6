import SharedStream.Proofs.Answers

/-! # The protocol of the cache is never broken

A call that gives a handle up finds the handle, its count and its lease as they should be, so no
operation ever reports a violation.
-/
namespace SharedStream

namespace Session
open Keys

variable {s u : Session} {id c w x : CallId} {k : Key} {a b : Task} {e : Event} {op : Op}

/-- Every call that gives a handle up still has it. -/
structure Holds (s : Session) : Prop where
  leave : ∀ {i x p}, s.task? i = some (.leave x p) → s.readers.contains x = true
  closeSink : ∀ {i x p}, s.task? i = some (.closeSink x p) → s.writers.contains x = true
  giveBack : ∀ {i x f p}, s.task? i = some (.giveBack x f p) → s.writers.contains x = true

theorem Entry.holds (h : s.Entry id op u) (hu : u.task? id = some b) :
    (∀ {x p}, b = .leave x p → u.readers.contains x = true) ∧
      (∀ {x p}, b = .closeSink x p → u.writers.contains x = true) ∧
      ∀ {x f p}, b ≠ .giveBack x f p := by
  have answered : ∀ {t : Session} {r : Result}, u ≠ t.answer id r := by
    rintro t r rfl
    simp [task?_answer] at hu
  cases h with
  | leave reads =>
    rw [task?_call, if_pos rfl] at hu
    cases hu
    obtain ⟨h, hr⟩ := Option.isSome_iff_exists.1 reads
    refine ⟨?_, by simp, by simp⟩
    rintro x p ⟨⟩
    exact Option.isSome_of_eq_some (reader?_eq_some hr).2
  | @closeSink writer parting h other hw =>
    rw [task?_call, if_pos rfl] at hu
    cases hu
    refine ⟨by simp, ?_, by simp⟩
    rintro x p ⟨⟩
    have present : s.writers.get? writer = some h := get?_of_writer? hw
    exact Option.isSome_of_eq_some present
  | openReader | openWriter | read | readStore | awaitStore | load | assist =>
    rw [task?_call, if_pos rfl] at hu
    cases hu
    simp
  | _ => exact absurd rfl answered

/-! ## Handles are given up once -/

theorem task_of_depart {y : ClosedHandle} {r : Result} {p : Parting} (ht : s.task? id = some a)
    (hb : (s.depart id y r p).task? id = some b) : b = .expire y r := by
  cases p with
  | close =>
    rw [depart, task?_goOn (by simp [ht]), if_pos rfl, Option.some.injEq] at hb
    exact hb.symm
  | drop => simp [depart, task?_answer] at hb

theorem handle_of_moveLeave {p : Parting} (ht : s.task? id = some (.leave x p))
    (hb : (s.moveLeave id x p).task? id = some b) : b.handle? = none := by
  unfold moveLeave at hb
  split at hb
  · simp [task?_answer] at hb
  next h _ =>
  have erased : task? { s with readers := s.readers.erase x } id = some (.leave x p) := ht
  have counted : task? (addRefs { s with readers := s.readers.erase x } h.cache (-1)) id =
      some (.leave x p) := ht
  dsimp only at hb
  split at hb
  · cases task_of_depart erased hb
    rfl
  split at hb
  · rw [task?_goOn (by simp [counted]), if_pos rfl, Option.some.injEq] at hb
    exact hb ▸ rfl
  · cases task_of_depart counted hb
    rfl

theorem task_of_moveCloseSink {p : Parting} (ht : s.task? id = some (.closeSink x p))
    (hb : (s.moveCloseSink id x p).task? id = some b) : ∃ f, b = .giveBack x f p := by
  have taken : (s.takeSink x).2.task? id = some (.closeSink x p) := ht
  rw [moveCloseSink, task?_goOn (by simp [taken]), if_pos rfl, Option.some.injEq] at hb
  exact ⟨_, hb.symm⟩

theorem handle_of_moveGiveBack {f : Option IoFailure} {p : Parting}
    (ht : s.task? id = some (.giveBack x f p))
    (hb : (s.moveGiveBack id x f p).task? id = some b) : b.handle? = none := by
  unfold moveGiveBack at hb
  split at hb
  · simp [task?_answer] at hb
  next w _ =>
  have erased : task? { s with writers := s.writers.erase x } id = some (.giveBack x f p) := ht
  have told : task? (freeSlot { s with writers := s.writers.erase x } w.key).notifyKeys id =
      some (.giveBack x f p) := (task?_wake ..).trans ht
  dsimp only at hb
  split at hb
  · cases task_of_depart told hb
    rfl
  · cases task_of_depart erased hb
    rfl

/-- Nobody else uses the handle of a call. -/
theorem Attentive.not_hands (ha : s.Attentive) (ht : s.task? id = some a)
    (hx : a.handle? = some x) (other : e.caller ≠ some id) : ¬ s.Hands x e := by
  intro hands
  cases e with
  | begin i op => exact hands
  | move actor =>
    cases actor with
    | call i =>
      obtain ⟨b, hb, hbx⟩ := hands
      exact other (congrArg some (ha.sole hb ht hbx hx))
    | _ => exact hands

namespace Holds
variable (h : s.Holds) (hs : s.Sound) (ha : s.Attentive) (admitted : s.admits e)
include h hs ha admitted

theorem after : (s.after e).Holds where
  leave {i x p} hi := by
    rcases task_after hs ha admitted hi with ⟨op, rfl⟩ | ⟨a, before, rfl | leads⟩
    · exact ((entry { s with clock := i + 1 } i op).holds hi).1 rfl
    · have other : e.caller ≠ some i := by
        intro own
        rw [ha.after_of_caller admitted own before] at hi
        cases handle_of_moveLeave before hi
      exact (spares_after hs admitted).reader (ha.not_hands before rfl other) (h.leave before)
    · cases leads
  closeSink {i x p} hi := by
    rcases task_after hs ha admitted hi with ⟨op, rfl⟩ | ⟨a, before, rfl | leads⟩
    · exact ((entry { s with clock := i + 1 } i op).holds hi).2.1 rfl
    · have other : e.caller ≠ some i := by
        intro own
        rw [ha.after_of_caller admitted own before] at hi
        obtain ⟨f, hf⟩ := task_of_moveCloseSink before hi
        cases hf
      exact (spares_after hs admitted).writer (ha.not_hands before rfl other) (h.closeSink before)
    · cases leads
  giveBack {i x f p} hi := by
    rcases task_after hs ha admitted hi with ⟨op, rfl⟩ | ⟨a, before, rfl | leads⟩
    · exact absurd rfl ((entry { s with clock := i + 1 } i op).holds hi).2.2
    · have other : e.caller ≠ some i := by
        intro own
        rw [ha.after_of_caller admitted own before] at hi
        cases handle_of_moveGiveBack before hi
      exact (spares_after hs admitted).writer (ha.not_hands before rfl other) (h.giveBack before)
    · cases leads with
      | giveBack =>
        have own : e.caller = some i := by
          by_contra other
          rw [(passes_after hs ha admitted).task other, before] at hi
          cases hi
        rw [ha.after_of_caller admitted own before]
        exact h.closeSink before

end Holds

theorem holds_start (config : CacheConfig) (workers : Nat) : (start config workers).Holds where
  leave hi := by simp [start, task?] at hi
  closeSink hi := by simp [start, task?] at hi
  giveBack hi := by simp [start, task?] at hi

theorem Reach.holds {config : CacheConfig} {workers : Nat} (h : Reach (start config workers) s) :
    s.Holds :=
  h.invariant (holds_start config workers) fun reach held admitted =>
    held.after reach.sound reach.attentive admitted

/-! ## No operation reports a violation -/

/-- The protocol of the cache is kept wherever an operation relies on it. -/
structure Consistent (s : Session) : Prop where
  /-- No operation has reported a violation. -/
  results : ∀ {id r}, s.results.get? id = some r → r.violation? = none
  /-- A reader handle that is given up is there and counted, -/
  leave : ∀ {id x p}, s.task? id = some (.leave x p) →
    ∃ h, s.readers.get? x = some h ∧ 0 < s.refs h.cache
  /-- a lease that is given back is in the slot of its key, -/
  giveBack : ∀ {id w f p}, s.task? id = some (.giveBack w f p) →
    ∃ h, s.writers.get? w = some h ∧ s.registry.slots.get? h.key = some (.writer w)
  /-- no call that opens a writer sees a negative count, -/
  seekWriter : ∀ {id k c}, s.task? id = some (.seekWriter k) →
    s.registry.slots.get? k = some (.reader c) → 0 ≤ s.refs c
  /-- and the slot is still `closing` when a cache has been torn down. -/
  lease : ∀ {id k}, s.task? id = some (.lease k) → s.registry.slots.get? k = some .closing

theorem results_after (hs : s.Sound) (admitted : s.admits e)
    (kept : ∀ {id r}, s.results.get? id = some r → r.violation? = none) {r : Result}
    (hr : (s.after e).results.get? id = some r) : r.violation? = none := by
  rcases (spares_after hs admitted).results with same | ⟨i, r', -, hr', set⟩
  · exact kept (same ▸ hr)
  · rw [set, Table.get?_set] at hr
    split at hr
    · cases hr
      exact hr'
    · exact kept hr

theorem Reach.results {config : CacheConfig} {workers : Nat} (h : Reach (start config workers) s) :
    ∀ {id r}, s.results.get? id = some r → r.violation? = none :=
  h.invariant (P := fun s => ∀ {id r}, s.results.get? id = some r → r.violation? = none)
    (by simp [start]) fun reach kept admitted => results_after reach.sound admitted kept

end Session

/-- Whatever is asked for and in whatever order, no operation ever reports a violation. -/
theorem Run.consistent {config : CacheConfig} {workers : Nat}
    (r : Run (Session.start config workers)) (n : Nat) : (r.state n).Consistent where
  results := (r.reach n).results
  leave {id x p} ht := by
    obtain ⟨h, hr⟩ := Option.isSome_iff_exists.1 ((r.reach n).holds.leave ht)
    obtain ⟨k, m, -, refs, pos⟩ := Session.refs_pos (r.sound n).keys hr
    exact ⟨h, hr, by omega⟩
  giveBack {id w f p} ht := by
    obtain ⟨h, hw⟩ := Option.isSome_iff_exists.1 ((r.reach n).holds.giveBack ht)
    exact ⟨h, hw, (r.sound n).slot_of_writes ⟨h, hw, rfl⟩⟩
  seekWriter _ slot := (r.sound n).refs_nonneg slot
  lease := (r.sound n).closing_of_lease

end SharedStream
