import SharedStream.Load

/-! # The moves of one load

What a move of a load does to its source, case by case of its phase.
-/
namespace SharedStream

/-- The answer to a read only goes on in the script. -/
theorem Source.answer_snd (s : Source) :
    ∃ place used, s.answer.2 = { s with place := place, used := used } := by
  unfold Source.answer
  cases s.next? with
  | none => exact ⟨s.place, s.used, rfl⟩
  | some item =>
    cases item with
    | data bytes step =>
      dsimp only
      split
      · exact ⟨s.place + 1, 0, rfl⟩
      · exact ⟨s.place, _, rfl⟩
    | interrupted times =>
      dsimp only
      split
      · exact ⟨s.place + 1, 0, rfl⟩
      · exact ⟨s.place, _, rfl⟩
    | error e => exact ⟨s.place + 1, 0, rfl⟩
    | eof => exact ⟨s.place + 1, 0, rfl⟩
    | panic text => exact ⟨s.place + 1, 0, rfl⟩

/-- A source is closed when its load goes to its end, and the store is finished by the end only. -/
def LoadStep.Fits (m : LoadStep) : Prop :=
  match m.move with
  | .goesOn p => (m.source.closed = true ↔ p = .finishing) ∧ m.change ≠ .finish
  | .ends | .panics _ => m.source.closed = true

theorem unfinished_change {y : Store} {c : StoreChange} (h : y.finished = false)
    (hc : c ≠ .finish) : (y.change c).finished = false := by
  cases c with
  | none => exact h
  | append data =>
    simp only [Store.change, Store.append]
    split <;> exact h
  | finish => exact absurd rfl hc

theorem canceled_change (y : Store) (c : StoreChange) : (y.change c).canceled = y.canceled := by
  cases c with
  | none => rfl
  | append data =>
    simp only [Store.change, Store.append]
    split <;> rfl
  | finish => rfl

namespace LoadPhase

theorem afterRead_source (store : Store) (a : SourceAnswer × Source) :
    (afterRead store a).source = a.2 ∨ (afterRead store a).source = a.2.close := by
  obtain ⟨answer, source⟩ := a
  cases answer with
  | bytes data =>
    left
    simp only [afterRead]
    split <;> rfl
  | failed e => exact .inl rfl
  | panicked text => exact .inr rfl

theorem step_built (p : LoadPhase) (chunkSize : Nat) (source : Source) (store : Store) :
    (p.step chunkSize source store).source.built = source.built := by
  cases p with
  | allocating =>
    simp only [step]
    split <;> rfl
  | checking =>
    simp only [step]
    split <;> rfl
  | beginning => rfl
  | closing => rfl
  | finishing => rfl
  | reading =>
    obtain ⟨place, used, answered⟩ := source.answer_snd
    rcases afterRead_source store source.answer with h | h <;> rw [step, h, answered]
    rfl

/-- Only the last move of a load ends it, and that finishes its store. -/
theorem change_of_ends {p : LoadPhase} {n : Nat} {x : Source} {y : Store}
    (ends : (p.step n x y).move = .ends) : (p.step n x y).change = .finish := by
  cases p with
  | finishing => rfl
  | allocating | checking =>
    simp only [step] at ends
    split at ends <;> cases ends
  | beginning | closing => cases ends
  | reading =>
    rcases hx : x.answer with ⟨answer, x'⟩
    rw [step, hx] at ends
    cases answer with
    | bytes data =>
      simp only [afterRead] at ends
      split at ends <;> cases ends
    | failed e => cases ends
    | panicked text => cases ends

/-- A load that panics drops its source. -/
theorem closed_of_panics {p : LoadPhase} {n : Nat} {x : Source} {y : Store} {text : String}
    (panics : (p.step n x y).move = .panics text) : (p.step n x y).source.closed = true := by
  cases p with
  | allocating =>
    simp only [step] at panics ⊢
    split at panics
    · cases panics
    · next large => rw [if_neg large, Source.close]
  | checking =>
    simp only [step] at panics
    split at panics <;> cases panics
  | beginning | closing | finishing => cases panics
  | reading =>
    rcases hx : x.answer with ⟨answer, x'⟩
    rw [step, hx] at panics ⊢
    cases answer with
    | bytes data =>
      simp only [afterRead] at panics
      split at panics <;> cases panics
    | failed e => cases panics
    | panicked text => rfl

theorem step_fits {p : LoadPhase} {x : Source} {y : Store} (n : Nat) (hp : p ≠ .reading)
    (closed : x.closed = true ↔ p = .finishing) : (p.step n x y).Fits := by
  cases p with
  | allocating =>
    simp only [step]
    split
    · exact ⟨by simpa using closed, by simp⟩
    · rfl
  | checking =>
    simp only [step]
    split
    · exact ⟨by simpa using closed, by simp⟩
    · exact ⟨by simpa using closed, by simp⟩
  | beginning => exact ⟨by simpa [step, Source.beginRead] using closed, by simp [step]⟩
  | reading => exact absurd rfl hp
  | closing => exact ⟨by simp [step, Source.close], by simp [step]⟩
  | finishing => exact closed.2 rfl

theorem afterRead_fits {x : Source} (y : Store) (closed : x.closed = false) :
    (afterRead y x.answer).Fits := by
  obtain ⟨place, used, rest⟩ := x.answer_snd
  have open_ : x.answer.2.closed = false := by rw [rest, closed]
  rcases hx : x.answer with ⟨answer, x'⟩
  rw [hx] at open_
  cases answer with
  | bytes data =>
    simp only [afterRead]
    split
    · exact ⟨by simpa using open_, by simp⟩
    · exact ⟨by simpa using open_, by simp⟩
  | failed e =>
    simp only [afterRead]
    split
    · exact ⟨by simpa using open_, by simp⟩
    · exact ⟨by simpa using open_, by simp⟩
  | panicked text => rfl

end LoadPhase
end SharedStream
