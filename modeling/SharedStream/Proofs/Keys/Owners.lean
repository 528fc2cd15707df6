import SharedStream.Proofs.Keys.Shut

/-! # Who answers for a slot in transition

A call comes to answer for a slot when it finds its key free, or a cache that nobody reads. Only its
own steps change the slot then, and the one that does so is its last.
-/
namespace SharedStream

/-- The slot is in transition: a call builds a cache or tears one down. -/
def Slot.isPassing : Slot → Bool
  | .opening | .closing => true
  | .reader _ | .writer _ => false

namespace Keys
open Function

variable {v v' : Keys} {who : Option CallId} {id : CallId} {k : Key} {x : Slot}

/-- Whoever answers for a slot in transition is a call in progress. -/
theorem role_of_passing (own : v.stake id = some (k, x)) (passing : x.isPassing = true) :
    ∃ r, v.role id = some r := by
  cases role : v.role id with
  | some r => exact ⟨r, rfl⟩
  | none =>
    rw [stake, role] at own
    obtain ⟨k', -, same⟩ := Option.map_eq_some_iff.1 own
    cases same
    cases passing

theorem exists_stake (hv : v.Valid) (slot : v.slot k = some x) (passing : x.isPassing = true) :
    ∃ id, v.stake id = some (k, x) := by
  obtain ⟨c, rfl⟩ | owned := hv.agree.staked slot
  · cases passing
  · exact owned

namespace Step

/-- A call comes to open a key that it finds free, -/
theorem opening_of_after (hs : v.Step who v') (own : v'.stake id = some (k, .opening)) :
    v.stake id = some (k, .opening) ∨
      who = some id ∧ v.role id = some (.seeks k) ∧ v.slot k = none := by
  rw [stake_eq_opening_iff] at own ⊢
  cases hs <;> grind [update_apply]

/-- and to free one whose cache nobody reads. -/
theorem closing_of_after (hs : v.Step who v') (own : v'.stake id = some (k, .closing)) :
    v.stake id = some (k, .closing) ∨ who = some id ∧ v.role id = some (.seeks k) ∧
      ∃ c, v.slot k = some (.reader c) ∧ v.cache c = some (k, 0) := by
  rw [stake_eq_closing_iff] at own ⊢
  cases hs <;> grind [update_apply]

/-- A slot in transition is changed by nobody but its owner. -/
theorem stake_of_ne (hs : v.Step who v') (own : v.stake id = some (k, x))
    (passing : x.isPassing = true) (ne : who ≠ some id) : v'.stake id = some (k, x) := by
  obtain ⟨r, role⟩ := role_of_passing own passing
  have role' : v'.role id = some r := (hs.role_of_ne ne).trans role
  rw [stake, role] at own
  rw [stake, role']
  cases r with
  | seeks =>
    obtain ⟨k', -, same⟩ := Option.map_eq_some_iff.1 own
    cases same
    cases passing
  | _ => exact own

end Step
end Keys
end SharedStream
