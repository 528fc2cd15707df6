import SharedStream.Proofs.Loads

/-! # Loads that are asked to stop

A load that is asked to stop begins at most one more read, and that only if it has looked at its
store before. What its last read gives does not come to its store. It ends of itself once that read
has returned.
-/
namespace SharedStream

/-- The read has returned, be it with a failure. -/
def SourceAnswer.returns : SourceAnswer → Bool
  | .bytes _ | .failed _ => true
  | .panicked _ => false

variable {x : Source} {y : Store}

/-- Nothing comes to a store whose load was asked to stop. -/
theorem change_of_canceled (canceled : y.canceled = true) (c : StoreChange) :
    (y.change c).chunks = y.chunks ∧ (y.change c).loadedLen = y.loadedLen := by
  cases c with
  | none => exact ⟨rfl, rfl⟩
  | append data => simp [Store.change, Store.append, Store.isOpen, canceled]
  | finish => exact ⟨rfl, rfl⟩

/-- The reads that a load begins without another look at its store. -/
def LoadPhase.due : LoadPhase → Nat
  | .beginning => 1
  | .allocating | .checking | .reading | .closing | .finishing => 0

def Stage.due : Stage → Nat
  | .queued => 0
  | .running p => p.due

/-- What a load does next, with the reads it is bound to begin. -/
def LoadMove.due (m : LoadMove) : Nat := (m.stage?.map Stage.due).getD 0

theorem LoadPhase.due_afterRead (a : SourceAnswer × Source) :
    (LoadPhase.afterRead y a).move.due = 0 := by
  obtain ⟨answer, source⟩ := a
  cases answer with
  | bytes data =>
    simp only [LoadPhase.afterRead]
    split <;> rfl
  | failed e =>
    simp only [LoadPhase.afterRead]
    split <;> rfl
  | panicked text => rfl

theorem LoadPhase.reads_eq (p : LoadPhase) (n : Nat) :
    (p.step n x y).source.reads = x.reads + if p = .beginning then 1 else 0 := by
  cases p with
  | allocating | checking =>
    simp only [LoadPhase.step]
    split <;> rfl
  | reading =>
    obtain ⟨place, used, rest⟩ := x.answer_snd
    rw [LoadPhase.step]
    rcases LoadPhase.afterRead_source y x.answer with same | closed
    · rw [same, rest]
      rfl
    · rw [closed, rest]
      rfl
  | beginning | closing | finishing => rfl

/-- A load that was asked to stop begins the reads that are due, and no others. -/
theorem LoadPhase.reads_step (p : LoadPhase) (n : Nat) (canceled : y.canceled = true) :
    (p.step n x y).source.reads + (p.step n x y).move.due = x.reads + p.due := by
  cases p with
  | allocating =>
    simp only [LoadPhase.step]
    split <;> rfl
  | checking =>
    simp only [LoadPhase.step, canceled, if_true]
    rfl
  | reading =>
    rw [LoadPhase.reads_eq, LoadPhase.step, LoadPhase.due_afterRead]
    rfl
  | beginning | closing | finishing => rfl

/-- No move takes a load back to its beginning. -/
theorem LoadPhase.stage_step (p : LoadPhase) (n : Nat) :
    (p.step n x y).move.stage? ≠ some .queued ∧
      (p.step n x y).move.stage? ≠ some (.running .allocating) := by
  cases p with
  | allocating | checking =>
    simp only [LoadPhase.step]
    split <;> simp [LoadMove.stage?]
  | beginning => simp [LoadPhase.step, LoadMove.stage?]
  | reading =>
    rcases hx : x.answer with ⟨answer, x'⟩
    cases answer with
    | bytes data =>
      simp only [LoadPhase.step, hx, LoadPhase.afterRead]
      split <;> simp [LoadMove.stage?]
    | failed e =>
      simp only [LoadPhase.step, hx, LoadPhase.afterRead]
      split <;> simp [LoadMove.stage?]
    | panicked text => simp [LoadPhase.step, hx, LoadPhase.afterRead, LoadMove.stage?]
  | closing | finishing => simp [LoadPhase.step, LoadMove.stage?]

namespace Track
variable {t t' : Track} {a : Option SourceAnswer}

def due (t : Track) : Nat := t.stages.foldr (fun s n => s.due + n) 0

theorem due_le_one (h : t.Valid) : t.due ≤ 1 := by
  have one := h.one
  unfold due
  generalize t.stages = stages at one ⊢
  rcases stages with _ | ⟨s, _ | ⟨s', rest⟩⟩
  · exact Nat.zero_le 1
  · cases s with
    | queued => exact Nat.zero_le 1
    | running p => cases p <;> decide
  · simp at one

theorem due_eq_zero (h : .running .beginning ∉ t.stages) : t.due = 0 := by
  unfold due
  generalize t.stages = stages at h ⊢
  induction stages with
  | nil => rfl
  | cons s stages ih =>
    rw [List.foldr_cons, ih fun later => h (List.mem_cons_of_mem s later)]
    cases s with
    | queued => rfl
    | running p =>
      cases p with
      | beginning => exact absurd List.mem_cons_self h
      | allocating | checking | reading | closing | finishing => rfl

theorem due_advance (m : LoadStep) : (t.advance m).due = m.move.due := by
  unfold due Track.advance LoadMove.due
  cases m.move.stage? <;> simp

/-- The load of the cache was asked to stop; its store has what `y` has, and with those that are due
`n` reads of its source were begun. -/
structure Asked (y : Store) (n : Nat) (t : Track) : Prop where
  cached : t.cached = true
  store : ∃ y', t.store = some y' ∧ y'.canceled = true ∧ y'.chunks = y.chunks ∧
    y'.loadedLen = y.loadedLen
  source : ∃ x, t.source = some x ∧ x.reads + t.due = n

namespace Asked
variable {n : Nat} (h : Asked y n t)
include h

theorem advance {x' : Source} {y' : Store} {p : LoadPhase} (size : Nat)
    (running : t.stages = [.running p]) (hx : t.source = some x') (hy : t.store = some y') :
    Asked y n (t.advance (p.step size x' y')) := by
  obtain ⟨cached, ⟨y'', store, canceled, chunks, len⟩, x'', source, reads⟩ := h
  cases hx.symm.trans source
  cases hy.symm.trans store
  obtain ⟨chunks', len'⟩ := change_of_canceled canceled (p.step size x' y').change
  have due : t.due = p.due := by simp [Track.due, running, Stage.due]
  refine ⟨cached, ⟨_, by simp [Track.advance, hy]; rfl, ?_, ?_, ?_⟩, _, by
    simp [Track.advance, hx]; rfl, ?_⟩
  · rwa [canceled_change]
  · exact chunks'.trans chunks
  · exact len'.trans len
  · rw [due_advance, p.reads_step size canceled, ← due, reads]

theorem silent (step : Silent t t') : Asked y n t' := by
  obtain ⟨cached, ⟨y', hy, canceled, chunks, len⟩, x', hx, reads⟩ := id h
  cases step with
  | supply f hf =>
    refine ⟨cached, ⟨y', hy, canceled, chunks, len⟩, f x', by simp [hx], ?_⟩
    rw [(hf x').2]
    exact reads
  | enter _ uncached | start uncached =>
    rw [cached] at uncached
    cases uncached
  | take queued =>
    rw [show t.due = 0 by simp [due, queued, Stage.due]] at reads
    exact ⟨cached, ⟨y', hy, canceled, chunks, len⟩, x', hx, reads⟩
  | load size running _ source store => exact h.advance size running source store
  | cancel => exact ⟨cached, ⟨y'.cancel, by simp [hy], rfl, chunks, len⟩, x', hx, reads⟩
  | drop queued store =>
    cases hy.symm.trans store
    rw [show t.due = 0 by simp [due, queued, Stage.due]] at reads
    exact ⟨cached, ⟨y'.finish, rfl, canceled, chunks, len⟩, x'.close, by simp [hx], reads⟩
  | lose queued =>
    rw [show t.due = 0 by simp [due, queued, Stage.due]] at reads
    exact ⟨cached, ⟨y', hy, canceled, chunks, len⟩, x'.close, by simp [hx], reads⟩

theorem step (step : Step a t t') : Asked y n t' :=
  step.keep (P := fun t _ => Asked y n t) [] h (fun h s => h.silent s)
    fun reading source store => h.advance 0 reading source store

end Asked

/-! ## How the load ends -/

end Track

/-- The next move of a load that was asked to stop is not to begin a read or to get its answer, and
there is no buffer to be made. -/
def LoadPhase.winds : LoadPhase → Bool
  | .checking | .closing | .finishing => true
  | .allocating | .beginning | .reading => false

namespace Track
variable {t t' : Track} {a : Option SourceAnswer} {n : Nat}

/-- The load has stopped, or it will without another read. -/
def Winding (t : Track) : Prop :=
  (t.stages = [] ∧ ∃ y, t.store = some y ∧ y.finished = true) ∨
    ∃ p, t.stages = [.running p] ∧ p.winds = true

theorem Asked.winding_silent (h : Asked y n t) (winding : t.Winding) (step : Silent t t') :
    t'.Winding := by
  obtain ⟨cached, ⟨y', hy, canceled, -⟩, -⟩ := h
  cases step with
  | supply => exact winding
  | enter _ uncached | start uncached =>
    rw [cached] at uncached
    cases uncached
  | take queued | drop queued | lose queued =>
    rcases winding with ⟨idle, -⟩ | ⟨p, running, -⟩
    · cases queued.symm.trans idle
    · cases queued.symm.trans running
  | @load p x' y'' size running other source store =>
    cases hy.symm.trans store
    rcases winding with ⟨idle, -⟩ | ⟨p', same, winds⟩
    · cases running.symm.trans idle
    cases running.symm.trans same
    cases p with
    | allocating | beginning | reading => cases winds
    | checking =>
      refine .inr ⟨.closing, ?_, rfl⟩
      simp [Track.advance, LoadPhase.step, canceled, LoadMove.stage?]
    | closing => exact .inr ⟨.finishing, rfl, rfl⟩
    | finishing => exact .inl ⟨rfl, y'.finish, by simp [Track.advance, hy]; rfl, rfl⟩
  | cancel =>
    refine winding.imp_left ?_
    rintro ⟨idle, y'', store, finished⟩
    exact ⟨idle, y''.cancel, by simp [store], finished⟩

theorem Asked.winding_step (h : Asked y n t) (winding : t.Winding) (step : Step a t t') :
    a = none ∧ t'.Winding := by
  cases step with
  | read reading =>
    rcases winding with ⟨idle, -⟩ | ⟨p, running, winds⟩
    · cases reading.symm.trans idle
    · cases reading.symm.trans running
      cases winds
  | silent steps =>
    refine ⟨rfl, ?_⟩
    suffices h : Asked y n t' ∧ t'.Winding from h.2
    induction steps with
    | refl => exact ⟨h, winding⟩
    | tail _ last ih => exact ⟨ih.1.silent last, ih.1.winding_silent ih.2 last⟩

/-- The load waits in a read, or begins one whatever becomes of its store. -/
def Awaits (t : Track) : Prop :=
  t.stages = [.running .beginning] ∨ t.stages = [.running .reading]

/-- A load that waits in a read waits on until it gets the answer, and then it ends if it was asked
to stop. -/
theorem Asked.awaits_step (h : Asked y n t) (awaits : t.Awaits) (step : Step a t t') :
    (a = none ∧ t'.Awaits) ∨ ∃ b, a = some b ∧ (b.returns = true → t'.Winding) := by
  cases step with
  | silent steps =>
    refine .inl ⟨rfl, ?_⟩
    suffices h : t'.cached = true ∧ t'.Awaits from h.2
    induction steps with
    | refl => exact ⟨h.cached, awaits⟩
    | tail _ last ih =>
      obtain ⟨cached, awaits⟩ := ih
      cases last with
      | supply | cancel => exact ⟨cached, awaits⟩
      | enter _ uncached | start uncached => cases cached.symm.trans uncached
      | take queued | drop queued | lose queued =>
        rcases awaits with waits | waits <;> cases waits.symm.trans queued
      | load size running other =>
        rcases awaits with waits | waits <;> cases waits.symm.trans running
        · exact ⟨cached, .inr rfl⟩
        · exact absurd rfl other
  | @read _ x' y' _ source store =>
    obtain ⟨-, ⟨y'', hy, canceled, -⟩, -⟩ := h
    cases hy.symm.trans store
    refine .inr ⟨_, rfl, fun returns => .inr ?_⟩
    rcases answer : x'.answer with ⟨b, x''⟩
    rw [answer] at returns
    cases b with
    | bytes data =>
      refine ⟨.closing, ?_, rfl⟩
      simp [Track.advance, LoadPhase.afterRead, Store.isOpen, canceled, LoadMove.stage?]
    | failed e =>
      by_cases interrupted : e.kind = .interrupted
      · exact ⟨.checking, by simp [Track.advance, LoadPhase.afterRead, interrupted,
          LoadMove.stage?], rfl⟩
      · exact ⟨.closing, by simp [Track.advance, LoadPhase.afterRead, interrupted,
          LoadMove.stage?], rfl⟩
    | panicked text => cases returns

/-! ## Loads that wait -/

/-- The load waits in a read. Its store has what `y` has, and `n` reads of its source were begun. -/
structure Waits (y : Store) (n : Nat) (t : Track) : Prop where
  cached : t.cached = true
  reading : t.stages = [.running .reading]
  store : ∃ y', t.store = some y' ∧ y'.chunks = y.chunks ∧ y'.loadedLen = y.loadedLen
  source : ∃ x, t.source = some x ∧ x.reads = n

theorem Waits.silent (h : Waits y n t) (step : Silent t t') : Waits y n t' := by
  obtain ⟨cached, reading, ⟨y', hy, same⟩, x', hx, reads⟩ := h
  cases step with
  | supply f hf =>
    exact ⟨cached, reading, ⟨y', hy, same⟩, f x', by simp [hx], (hf x').2.trans reads⟩
  | cancel => exact ⟨cached, reading, ⟨y'.cancel, by simp [hy], same⟩, x', hx, reads⟩
  | enter _ uncached | start uncached => cases cached.symm.trans uncached
  | take queued | drop queued | lose queued => cases reading.symm.trans queued
  | load _ running other =>
    cases reading.symm.trans running
    exact absurd rfl other

/-- As long as the read does not return, nothing comes to the store and no other read begins. -/
theorem Waits.step (h : Waits y n t) (step : Step none t t') : Waits y n t' := by
  cases step with
  | silent steps =>
    induction steps with
    | refl => exact h
    | tail _ last ih => exact ih.silent last

/-! ## Loads that have not begun -/

/-- No read of the source has begun before its load is taken up. -/
def Unread (t : Track) : Prop :=
  t.cached = false ∨ t.stages = [.queued] ∨ t.stages = [.running .allocating] →
    ∀ x, t.source = some x → x.reads = 0

theorem Unread.silent (h : t.Unread) (ht : t.Valid) (step : Silent t t') : t'.Unread := by
  cases step with
  | supply f hf =>
    intro early x hx
    obtain ⟨x', hx', rfl⟩ := Option.map_eq_some_iff.1 hx
    exact (hf x').2.trans (h early x' hx')
  | enter x' _ _ unread =>
    intro _ x hx
    cases hx
    exact unread
  | start uncached => exact fun _ x hx => h (.inl uncached) x hx
  | take queued => exact fun _ x hx => h (.inr (.inl queued)) x hx
  | @load p x' y' n running other =>
    have cached : t.cached = true := ht.cached (show .running p ∈ t.stages by simp [running])
    rintro (uncached | queued | allocating)
    · cases cached.symm.trans uncached
    · exact absurd (Option.toList_eq_singleton_iff.1 queued) (by simp [p.stage_step n])
    · exact absurd (Option.toList_eq_singleton_iff.1 allocating) (by simp [p.stage_step n])
  | cancel => exact h
  | drop queued | lose queued =>
    have cached : t.cached = true := ht.cached (show .queued ∈ t.stages by simp [queued])
    rintro (uncached | queued | allocating)
    · cases cached.symm.trans uncached
    · cases queued
    · cases allocating

theorem Unread.step (h : t.Unread) (ht : t.Valid) (step : Step a t t') : t'.Unread := by
  cases step with
  | silent steps =>
    suffices h : t'.Valid ∧ t'.Unread from h.2
    induction steps with
    | refl => exact ⟨ht, h⟩
    | tail _ last ih => exact ⟨ih.1.silent last, ih.2.silent ih.1 last⟩
  | @read _ x' y' reading =>
    have cached : t.cached = true := ht.cached (show .running .reading ∈ t.stages by simp [reading])
    have stage := LoadPhase.stage_step (x := x') (y := y') .reading 0
    rintro (uncached | queued | allocating)
    · cases cached.symm.trans uncached
    · exact absurd (Option.toList_eq_singleton_iff.1 queued) stage.1
    · exact absurd (Option.toList_eq_singleton_iff.1 allocating) stage.2

end Track
end SharedStream
