import SharedStream.Session.Reach

/-! # Runs

A history of a session without end: at each moment somebody asks for something or somebody moves.
Something can be asked for at any time, so that every finite history goes on as a run.
-/
namespace SharedStream

inductive Event where
  | begin (id : CallId) (op : Op)
  | move (a : Actor)

namespace Session

def admits (s : Session) : Event → Prop
  | .begin id _ => s.clock ≤ id
  | .move a => s.canMove a = true

def after (s : Session) : Event → Session
  | .begin id op => s.begin id op
  | .move a => s.move a

instance (s : Session) : (e : Event) → Decidable (s.admits e)
  | .begin id _ => inferInstanceAs (Decidable (s.clock ≤ id))
  | .move a => inferInstanceAs (Decidable (s.canMove a = true))

theorem Reach.after {start s : Session} (h : Reach start s) {e : Event} (admitted : s.admits e) :
    Reach start (s.after e) := by
  cases e with
  | begin id op => exact h.begin id op admitted
  | move a => exact h.move admitted

/-- What is kept by every event is kept for good. -/
theorem Reach.invariant {start s : Session} {P : Session → Prop} (h : Reach start s)
    (init : P start)
    (step : ∀ {s : Session} {e : Event}, Reach start s → P s → s.admits e → P (s.after e)) :
    P s := by
  induction h with
  | refl => exact init
  | begin id op reached later ih => exact step (e := .begin id op) reached ih later
  | @move s a reached can ih => exact step (e := .move a) reached ih can

end Session

structure Run (start : Session) where
  event : Nat → Event
  state : Nat → Session
  state_zero : state 0 = start
  admitted : ∀ n, (state n).admits (event n)
  state_succ : ∀ n, state (n + 1) = (state n).after (event n)

namespace Run
variable {start : Session}

theorem reach (r : Run start) (n : Nat) : Session.Reach start (r.state n) := by
  induction n with
  | zero =>
    rw [r.state_zero]
    exact .refl
  | succ n ih =>
    rw [r.state_succ]
    exact ih.after (r.admitted n)

/-- What is kept by every event of a run from some moment on is kept for good. -/
theorem kept (r : Run start) {P : Session → Prop} {n : Nat} (init : P (r.state n))
    (step : ∀ m, n ≤ m → P (r.state m) → P ((r.state m).after (r.event m))) {m : Nat}
    (later : n ≤ m) : P (r.state m) := by
  induction later with
  | refl => exact init
  | @step m hm ih =>
    rw [r.state_succ]
    exact step m hm ih

end Run

namespace Session

/-- The session after `n` moments: first come the events of a list, then stores are asked for. -/
def play (s : Session) (es : List Event) : Nat → Session
  | 0 => s
  | n + 1 =>
    (s.play es n).after (es[n]?.getD (.begin (s.play es n).clock .newStore))

/-- All events of the list are admitted in turn. -/
def Plays (s : Session) (es : List Event) : Prop :=
  ∀ n (h : n < es.length), (s.play es n).admits es[n]

end Session

/-- A finite history goes on as a run. -/
def Run.ofList {start : Session} {es : List Event} (h : start.Plays es) : Run start where
  event n := es[n]?.getD (.begin (start.play es n).clock .newStore)
  state := start.play es
  state_zero := rfl
  admitted n := by
    by_cases hn : n < es.length
    · simpa [List.getElem?_eq_getElem hn] using h n hn
    · rw [List.getElem?_eq_none (Nat.le_of_not_lt hn)]
      exact Nat.le_refl _
  state_succ _ := rfl

namespace Session

theorem play_append (s : Session) (es fs : List Event) {n : Nat} (h : n ≤ es.length) :
    s.play (es ++ fs) n = s.play es n := by
  induction n with
  | zero => rfl
  | succ n ih => rw [play, play, ih (by omega), List.getElem?_append_left (by omega)]

theorem Plays.snoc {s : Session} {es : List Event} (h : s.Plays es) {e : Event}
    (admitted : (s.play es es.length).admits e) : s.Plays (es ++ [e]) := by
  intro n hn
  rw [play_append s es [e] (by simpa using Nat.le_of_lt_succ (by simpa using hn))]
  by_cases hlast : n < es.length
  · rw [List.getElem_append_left hlast]
    exact h n hlast
  · have : n = es.length := by
      simp only [List.length_append, List.length_singleton] at hn
      omega
    subst this
    simpa using admitted

theorem Reach.exists_plays {start s : Session} (h : Reach start s) :
    ∃ es, start.Plays es ∧ start.play es es.length = s := by
  refine h.invariant (P := fun s => ∃ es, start.Plays es ∧ start.play es es.length = s)
    ⟨[], by intro n hn; simp at hn, rfl⟩ ?_
  rintro s e - ⟨es, plays, rfl⟩ admitted
  refine ⟨es ++ [e], plays.snoc admitted, ?_⟩
  rw [List.length_append, List.length_singleton, play, play_append _ _ _ (Nat.le_refl _)]
  simp

/-- Every reachable session is a moment of a run. -/
theorem Reach.exists_run {start s : Session} (h : Reach start s) :
    ∃ (r : Run start) (n : Nat), r.state n = s := by
  obtain ⟨es, plays, rfl⟩ := h.exists_plays
  exact ⟨.ofList plays, es.length, rfl⟩

end Session
end SharedStream
