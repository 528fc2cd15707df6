import Mathlib.Logic.Relation
import SharedStream.Proofs.Loads.Phases

/-! # What becomes of a source

The part of a session that is about one source: whether it has a cache, how far the load of it has
come, the store of the cache and the source itself. At every step of this part there is at most one
load, and without a load the source of a cache is closed.
-/
namespace SharedStream

/-- How far a load has come. -/
inductive Stage where
  | queued
  | running (p : LoadPhase)
  deriving DecidableEq

def LoadMove.stage? : LoadMove → Option Stage
  | .goesOn p => some (.running p)
  | .ends | .panics _ => none

structure Track where
  cached : Bool
  stages : List Stage
  store : Option Store
  source : Option Source

namespace Track

/-- The track after a move of its load. -/
def advance (t : Track) (m : LoadStep) : Track where
  cached := t.cached
  stages := m.move.stage?.toList
  store := t.store.map (·.change m.change)
  source := t.source.map fun _ => m.source

/-- A source that has changed only in what it will give. -/
def Supplied (f : Source → Source) : Prop := ∀ x, (f x).closed = x.closed ∧ (f x).reads = x.reads

/-- The steps without an answer to a read. -/
inductive Silent : Track → Track → Prop
  | supply {t : Track} (f : Source → Source) :
    Supplied f → Silent t { t with source := t.source.map f }
  /-- A source is asked for. -/
  | enter {t : Track} (x : Source) : t.cached = false → x.closed = false → x.reads = 0 →
      Silent t { t with source := some x }
  /-- A factory has given the source. -/
  | start {t : Track} {st : Stage} {x : Source} : t.cached = false → t.source = some x →
      st = .queued ∨ st = .running .allocating →
      Silent t { t with cached := true, stages := [st], store := some {} }
  /-- A worker takes the load from the queue. -/
  | take {t : Track} : t.stages = [.queued] →
      Silent t { t with stages := [.running .allocating] }
  | load {t : Track} {p : LoadPhase} {x : Source} {y : Store} (n : Nat) :
      t.stages = [.running p] → p ≠ .reading → t.source = some x → t.store = some y →
      Silent t (t.advance (p.step n x y))
  | cancel {t : Track} : Silent t { t with store := t.store.map Store.cancel }
  /-- A queued load is removed, and its store is finished. -/
  | drop {t : Track} {y : Store} : t.stages = [.queued] → t.store = some y → y.canceled = true →
      Silent t { t with
        stages := []
        store := some y.finish
        source := t.source.map Source.close }
  /-- A queued load goes with its queue. -/
  | lose {t : Track} : t.stages = [.queued] →
      Silent t { t with stages := [], source := t.source.map Source.close }

/-- The steps, with the answer if a read is answered. -/
inductive Step : Option SourceAnswer → Track → Track → Prop
  | silent {t t' : Track} : Relation.ReflTransGen Silent t t' → Step none t t'
  | read {t : Track} {x : Source} {y : Store} : t.stages = [.running .reading] →
      t.source = some x → t.store = some y →
      Step (some x.answer.1) t (t.advance (LoadPhase.afterRead y x.answer))

structure Valid (t : Track) : Prop where
  idle : t.cached = false → t.stages = []
  fresh : ∀ {x}, t.cached = false → t.source = some x → x.closed = false
  present : t.cached = true → (∃ y, t.store = some y) ∧ ∃ x, t.source = some x
  one : t.stages.length ≤ 1
  gone : ∀ {x}, t.cached = true → t.stages = [] → t.source = some x → x.closed = true
  unfinished : ∀ {y st}, st ∈ t.stages → t.store = some y → y.finished = false
  closed_iff : ∀ {x st}, st ∈ t.stages → t.source = some x →
    (x.closed = true ↔ st = .running .finishing)

/-- The load of a cache has stopped for good. -/
def Gone (t : Track) : Prop := t.cached = true ∧ t.stages = []

/-! ## What the steps keep -/

theorem Step.refl {t : Track} : Step none t t := .silent .refl

theorem Silent.step {t t' : Track} (h : Silent t t') : Step none t t' := .silent (.single h)

theorem Silent.source {t t' : Track} (h : Silent t t') (hx : ∃ x, t.source = some x) :
    ∃ x, t'.source = some x := by
  obtain ⟨x, hx⟩ := hx
  cases h with
  | enter x => exact ⟨x, rfl⟩
  | _ => simp [advance, hx]

theorem Silent.canceled {t t' : Track} {y : Store} (h : Silent t t') (cached : t.cached = true)
    (hy : t.store = some y) (canceled : y.canceled = true) :
    t'.cached = true ∧ ∃ y, t'.store = some y ∧ y.canceled = true := by
  cases h with
  | start uncached => simp [cached] at uncached
  | load => exact ⟨cached, _, by simp [advance, hy]; rfl, by rwa [canceled_change]⟩
  | cancel => exact ⟨cached, y.cancel, by simp [hy], rfl⟩
  | drop _ hy' =>
    rw [hy] at hy'
    cases hy'
    exact ⟨cached, y.finish, rfl, canceled⟩
  | _ => exact ⟨cached, y, hy, canceled⟩

/-- What is kept by the silent steps and by answers is kept by every step. -/
theorem Step.keep {P : Track → List SourceAnswer → Prop} {t t' : Track} {a : Option SourceAnswer}
    (h : Step a t t') (as : List SourceAnswer) (ht : P t as)
    (silent : ∀ {t t'}, P t as → Silent t t' → P t' as)
    (read : ∀ {x y}, t.stages = [.running .reading] → t.source = some x → t.store = some y →
      P (t.advance (LoadPhase.afterRead y x.answer)) (as ++ [x.answer.1])) :
    P t' (as ++ a.toList) := by
  cases h with
  | silent steps =>
    rw [Option.toList_none, List.append_nil]
    induction steps with
    | refl => exact ht
    | tail _ last ih => exact silent ih last
  | read reading source store => exact read reading source store

/-- A source does not go, and a store that is cancelled stays so. -/
theorem Step.lasting {t t' : Track} {a : Option SourceAnswer} (h : Step a t t') :
    (∀ x, t.source = some x → ∃ x', t'.source = some x') ∧
      ∀ y, t.cached = true → t.store = some y → y.canceled = true →
        ∃ y', t'.store = some y' ∧ y'.canceled = true := by
  cases h with
  | read _ source store =>
    refine ⟨fun x hx => ⟨_, by simp [advance, hx]; rfl⟩, ?_⟩
    intro y _ hy canceled
    exact ⟨_, by simp [advance, hy]; rfl, by rwa [canceled_change]⟩
  | silent steps =>
    suffices h : (∀ x, t.source = some x → ∃ x', t'.source = some x') ∧
        ∀ y, t.cached = true → t.store = some y → y.canceled = true →
          t'.cached = true ∧ ∃ y', t'.store = some y' ∧ y'.canceled = true from
      ⟨h.1, fun y cached hy canceled => (h.2 y cached hy canceled).2⟩
    induction steps with
    | refl => exact ⟨fun x hx => ⟨x, hx⟩, fun y cached hy canceled => ⟨cached, y, hy, canceled⟩⟩
    | tail _ last ih =>
      obtain ⟨source, store⟩ := ih
      refine ⟨fun x hx => last.source (source x hx), ?_⟩
      intro y cached hy canceled
      obtain ⟨cached', y', hy', canceled'⟩ := store y cached hy canceled
      exact last.canceled cached' hy' canceled'

namespace Valid
variable {t t' : Track} {x : Source} {y : Store} {st : Stage}

theorem cached (h : t.Valid) (running : st ∈ t.stages) : t.cached = true := by
  cases hc : t.cached with
  | true => rfl
  | false =>
    rw [h.idle hc] at running
    cases running

theorem of_running (unfinished : y.finished = false)
    (closed_iff : x.closed = true ↔ st = .running .finishing) :
    Valid ⟨true, [st], some y, some x⟩ where
  idle hc := by cases hc
  fresh hc := by cases hc
  present _ := ⟨⟨y, rfl⟩, x, rfl⟩
  one := Nat.le_refl 1
  gone _ none := by cases none
  unfinished _ hy := by
    cases hy
    exact unfinished
  closed_iff hst hx := by
    cases hx
    cases List.mem_singleton.1 hst
    exact closed_iff

theorem of_gone (closed : x.closed = true) : Valid ⟨true, [], some y, some x⟩ where
  idle _ := rfl
  fresh hc := by cases hc
  present _ := ⟨⟨y, rfl⟩, x, rfl⟩
  one := Nat.zero_le 1
  gone _ _ hx := by
    cases hx
    exact closed
  unfinished hst := by cases hst
  closed_iff hst := by cases hst

/-- Everything there is to a track with a load. -/
theorem eq_of_stages (h : t.Valid) (only : t.stages = [st]) :
    ∃ y x, t = ⟨true, [st], some y, some x⟩ ∧ y.finished = false ∧
      (x.closed = true ↔ st = .running .finishing) := by
  have running : st ∈ t.stages := by simp [only]
  have cached := h.cached running
  obtain ⟨⟨y, hy⟩, x, hx⟩ := h.present cached
  refine ⟨y, x, ?_, h.unfinished running hy, h.closed_iff running hx⟩
  cases t
  simp_all

/-- A move of a load keeps the track valid if what it does to the source fits the next stage. -/
theorem advance (h : t.Valid) {m : LoadStep} (only : t.stages = [st]) (fits : m.Fits) :
    (t.advance m).Valid := by
  obtain ⟨y, x, rfl, unfinished, -⟩ := h.eq_of_stages only
  obtain ⟨move, source, change⟩ := m
  cases move with
  | goesOn p => exact of_running (unfinished_change unfinished fits.2) (by simpa using fits.1)
  | ends => exact of_gone fits
  | panics text => exact of_gone fits

theorem silent (h : t.Valid) (step : Silent t t') : t'.Valid := by
  cases step with
  | supply f hf =>
    have of_map : ∀ {x}, t.source.map f = some x →
        ∃ x', t.source = some x' ∧ x.closed = x'.closed := by
      intro x hx
      obtain ⟨x', hx', rfl⟩ := Option.map_eq_some_iff.1 hx
      exact ⟨x', hx', (hf x').1⟩
    refine { h with fresh := ?_, present := ?_, gone := ?_, closed_iff := ?_ }
    · intro x hc hx
      obtain ⟨x', hx', same⟩ := of_map hx
      rw [same, h.fresh hc hx']
    · intro hc
      obtain ⟨hy, x, hx⟩ := h.present hc
      exact ⟨hy, f x, by simp [hx]⟩
    · intro x hc none hx
      obtain ⟨x', hx', same⟩ := of_map hx
      rw [same, h.gone hc none hx']
    · intro x st hst hx
      obtain ⟨x', hx', same⟩ := of_map hx
      rw [same]
      exact h.closed_iff hst hx'
  | enter x hc open_ =>
    have none := h.idle hc
    refine ⟨h.idle, ?_, ?_, h.one, ?_, h.unfinished, ?_⟩
    · intro x' _ hx'
      cases hx'
      exact open_
    · intro hc'
      simp [hc] at hc'
    · intro x' hc'
      simp [hc] at hc'
    · intro x' st hst
      simp [none] at hst
  | @start st x hc hx hst =>
    have open_ := h.fresh hc hx
    rw [hx]
    refine of_running rfl ?_
    rcases hst with rfl | rfl <;> simp [open_]
  | take queued =>
    obtain ⟨y, x, rfl, unfinished, closed⟩ := h.eq_of_stages queued
    exact of_running unfinished (by simpa using closed)
  | @load p x y n running hp hx hy =>
    have mem : .running p ∈ t.stages := by simp [running]
    exact h.advance running (LoadPhase.step_fits n hp (by simpa using h.closed_iff mem hx))
  | cancel =>
    refine { h with present := ?_, unfinished := ?_ }
    · intro hc
      obtain ⟨⟨y, hy⟩, hx⟩ := h.present hc
      exact ⟨⟨y.cancel, by simp [hy]⟩, hx⟩
    · intro y st hst hy
      obtain ⟨y', hy', rfl⟩ := Option.map_eq_some_iff.1 hy
      exact h.unfinished (y := y') hst hy'
  | drop queued hy canceled =>
    obtain ⟨y, x, rfl, -⟩ := h.eq_of_stages queued
    exact of_gone rfl
  | lose queued =>
    obtain ⟨y, x, rfl, -⟩ := h.eq_of_stages queued
    exact of_gone rfl

theorem step (h : t.Valid) {a : Option SourceAnswer} (step : Step a t t') : t'.Valid := by
  refine step.keep (P := fun t _ => t.Valid) [] h (fun h s => h.silent s) ?_
  intro x y reading hx hy
  have mem : .running .reading ∈ t.stages := by simp [reading]
  exact h.advance reading (LoadPhase.afterRead_fits y (by simpa using h.closed_iff mem hx))

end Valid

/-- After the load of a cache has stopped, no read of its source is answered or begun, and nothing
comes to its store any more. -/
theorem Gone.step {t t' : Track} (h : t.Gone) {a : Option SourceAnswer} (step : Step a t t') :
    a = none ∧ t'.Gone ∧ (∀ y, t.store = some y → ∃ y', t'.store = some y' ∧
      y'.chunks = y.chunks ∧ y'.finished = y.finished) ∧
      (∀ x, t.source = some x → ∃ x', t'.source = some x' ∧ x'.closed = x.closed ∧
        x'.reads = x.reads) := by
  obtain ⟨cached, none⟩ := h
  cases step with
  | read reading => simp [none] at reading
  | silent steps =>
    refine ⟨rfl, ?_⟩
    induction steps with
    | refl => exact ⟨⟨cached, none⟩, fun y hy => ⟨y, hy, rfl, rfl⟩, fun x hx => ⟨x, hx, rfl, rfl⟩⟩
    | tail _ last ih =>
      obtain ⟨⟨cached, none⟩, store, source⟩ := ih
      cases last with
      | supply f hf =>
        refine ⟨⟨cached, none⟩, store, ?_⟩
        intro x hx
        obtain ⟨x', hx', closed, reads⟩ := source x hx
        exact ⟨f x', by simp [hx'], (hf x').1.trans closed, (hf x').2.trans reads⟩
      | cancel =>
        refine ⟨⟨cached, none⟩, ?_, source⟩
        intro y hy
        obtain ⟨y', hy', chunks, finished⟩ := store y hy
        exact ⟨y'.cancel, by simp [hy'], chunks, finished⟩
      | enter x hc => simp [cached] at hc
      | start hc => simp [cached] at hc
      | take queued => simp [none] at queued
      | load n running => simp [none] at running
      | drop queued => simp [none] at queued
      | lose queued => simp [none] at queued

end Track
end SharedStream
