import SharedStream.Session.Report

/-! # Reachable sessions

The sessions that come about when callers ask for operations at any time and moves are made in any
order. Settling is one such order: it makes only moves that can be made, and when it finds no next
move, nobody can move.
-/
namespace SharedStream.Session

/-- The sessions that can come about from `start`. -/
inductive Reach (start : Session) : Session → Prop where
  | refl : Reach start start
  | begin {s : Session} (id : CallId) (op : Op) :
      Reach start s → s.clock ≤ id → Reach start (s.begin id op)
  | move {s : Session} {a : Actor} : Reach start s → s.canMove a = true → Reach start (s.move a)

theorem mem_actors_of_canMove {s : Session} {a : Actor} (h : s.canMove a = true) :
    a ∈ s.actors := by
  cases a with
  | registry => simp [actors]
  | pool n => cases n <;> simp [actors]
  | call id =>
    have : id ∈ s.calls.keys := by
      rw [Table.mem_keys_iff]
      cases hc : s.calls.get? id with
      | none => simp [canMove, hc] at h
      | some c => exact ⟨c, rfl⟩
    simp [actors, this]
  | worker n i =>
    have : i < (s.pool n).staff.length := by
      by_cases hi : i < (s.pool n).staff.length
      · exact hi
      · simp [canMove, workerCanMove, List.getElem?_eq_none (Nat.le_of_not_lt hi)] at h
    cases n <;> simp_all [actors, pool]

theorem foldl_earlier_none {s : Session} {as : List Actor} {best : Option Actor}
    (h : as.foldl s.earlier best = none) : best = none ∧ as = [] := by
  induction as generalizing best with
  | nil => exact ⟨h, rfl⟩
  | cons a as ih =>
    have := (ih h).1
    simp only [earlier] at this
    split at this <;> (try split at this) <;> cases this

theorem foldl_earlier_mem {s : Session} {as : List Actor} {best : Option Actor} {a : Actor}
    (h : as.foldl s.earlier best = some a) : best = some a ∨ a ∈ as := by
  induction as generalizing best with
  | nil => exact .inl h
  | cons b as ih =>
    rcases ih h with h | h
    · simp only [earlier] at h
      split at h <;> (try split at h) <;> simp_all
    · exact .inr (List.mem_cons_of_mem _ h)

theorem canMove_of_next? {s : Session} {a : Actor} (h : s.next? = some a) :
    s.canMove a = true := by
  have : a ∈ s.actors.filter s.canMove := by
    simp only [next?] at h
    split at h
    · next b hb => cases h; exact List.mem_of_find?_eq_some hb
    · exact (foldl_earlier_mem h).resolve_left (by simp)
  exact (List.mem_filter.1 this).2

theorem settled_iff {s : Session} : s.Settled ↔ s.next? = none := by
  constructor
  · intro h
    cases hn : s.next? with
    | none => rfl
    | some a => exact absurd (canMove_of_next? hn) (by simp [h a])
  · intro h a
    have none_ready : s.actors.filter s.canMove = [] := by
      simp only [next?] at h
      split at h
      · cases h
      · exact (foldl_earlier_none h).2
    cases ha : s.canMove a with
    | false => rfl
    | true =>
      have := List.mem_filter.2 ⟨mem_actors_of_canMove ha, ha⟩
      simp [none_ready] at this

theorem Reach.settleWithin {start s : Session} (fuel : Nat) (h : Reach start s) :
    Reach start (s.settleWithin fuel) := by
  induction fuel generalizing s with
  | zero => exact h
  | succ fuel ih =>
    simp only [Session.settleWithin]
    split
    · next a ha => exact ih (h.move (canMove_of_next? ha))
    · exact h

/-- What a step leads to is reached by its operation and moves. -/
theorem Reach.step {start s : Session} {id : CallId} (op : Op) (h : Reach start s)
    (later : s.clock ≤ id) : Reach start (s.step id op) :=
  (h.begin id op later).settleWithin _

end SharedStream.Session
