import Mathlib.Data.List.TakeWhile
import SharedStream.Proofs.Loads
import SharedStream.Proofs.Stores

/-! # The content of a source

What a source gives before the first answer that ends it, and how much of it the store of its cache
holds at each stage of the load.
-/
namespace SharedStream

namespace SourceAnswer

/-- More can come after the answer. -/
def goesOn : SourceAnswer → Bool
  | .bytes data => data.size ≠ 0
  | .failed e => e.kind = .interrupted
  | .panicked _ => false

def given : SourceAnswer → List UInt8
  | .bytes data => octets data
  | .failed _ | .panicked _ => []

end SourceAnswer

open SourceAnswer (goesOn)

/-- The bytes of all answers before the first one after which nothing comes. -/
def content (as : List SourceAnswer) : List UInt8 :=
  (as.takeWhile goesOn).flatMap SourceAnswer.given

variable {as bs : List SourceAnswer} {a : SourceAnswer}

theorem content_concat (h : ∀ a ∈ as, a.goesOn = true) (a : SourceAnswer) :
    content (as ++ [a]) = content as ++ if a.goesOn then a.given else [] := by
  have all : as.takeWhile goesOn = as := List.takeWhile_eq_self_iff.2 h
  rw [content, content, List.takeWhile_append, all, if_pos rfl, List.flatMap_append]
  cases hg : a.goesOn <;> simp [hg]

/-- After the end nothing is added. -/
theorem content_append_of_ended (h : ∃ a ∈ as, a.goesOn = false) (bs : List SourceAnswer) :
    content (as ++ bs) = content as := by
  have less : (as.takeWhile goesOn).length ≠ as.length := by
    intro same
    obtain ⟨a, ha, ends⟩ := h
    have part : as.takeWhile goesOn <+: as := List.takeWhile_prefix goesOn
    have going := List.takeWhile_eq_self_iff.1 (part.eq_of_length same) a ha
    simp [ends] at going
  rw [content, List.takeWhile_append, if_neg less, content]

theorem content_within (as bs : List SourceAnswer) : content as <+: content (as ++ bs) := by
  by_cases h : ∃ a ∈ as, a.goesOn = false
  · exact content_append_of_ended h bs ▸ List.prefix_rfl
  · have all : as.takeWhile goesOn = as := by
      refine List.takeWhile_eq_self_iff.2 fun a ha => ?_
      rw [← Bool.not_eq_false]
      exact fun ends => h ⟨a, ha, ends⟩
    rw [content, content, List.takeWhile_append, all, if_pos rfl, List.flatMap_append]
    exact List.prefix_append _ _

/-! ## Stores and the answers of their sources -/

/-- The load has not seen the end of its source, nor does it know that it is to stop. -/
def Stage.early : Stage → Bool
  | .queued | .running .allocating | .running .checking | .running .beginning
  | .running .reading => true
  | .running .closing | .running .finishing => false

/-- How much of the content a store holds at a stage of its load. -/
structure Keeps (stages : List Stage) (y : Store) (as : List SourceAnswer) : Prop where
  gapless : y.Gapless
  within : octets y.bytes <+: content as
  early : ∀ st ∈ stages, st.early = true →
    octets y.bytes = content as ∧ ∀ a ∈ as, a.goesOn = true
  ended : y.canceled = false → (∃ st ∈ stages, st.early = false) ∨ y.finished = true →
    octets y.bytes = content as ∧ ∃ a ∈ as, a.goesOn = false

theorem Store.bytes_congr {y y' : Store} (h : y'.chunks = y.chunks) : y'.bytes = y.bytes := by
  rw [Store.bytes, h, Store.bytes]

theorem Store.Gapless.congr {y y' : Store} (h : y.Gapless) (chunks : y'.chunks = y.chunks)
    (len : y'.loadedLen = y.loadedLen) : y'.Gapless := by
  rw [Gapless, chunks, len]
  exact h

namespace Keeps
variable {stages stages' : List Stage} {y y' : Store}

/-- Nothing is added, and the load goes on no less than before. -/
theorem congr (h : Keeps stages y as) (chunks : y'.chunks = y.chunks)
    (len : y'.loadedLen = y.loadedLen)
    (early : ∀ st ∈ stages', st.early = true → ∃ st' ∈ stages, st'.early = true)
    (ended : y'.canceled = false → (∃ st ∈ stages', st.early = false) ∨ y'.finished = true →
      y.canceled = false ∧ ((∃ st ∈ stages, st.early = false) ∨ y.finished = true)) :
    Keeps stages' y' as where
  gapless := h.gapless.congr chunks len
  within := Store.bytes_congr chunks ▸ h.within
  early st hst he := by
    obtain ⟨st', hst', he'⟩ := early st hst he
    exact Store.bytes_congr chunks ▸ h.early st' hst' he'
  ended canceled late := by
    obtain ⟨canceled, late⟩ := ended canceled late
    exact Store.bytes_congr chunks ▸ h.ended canceled late

theorem fresh {st : Stage} (early : st.early = true) : Keeps [st] {} [] where
  gapless := rfl
  within := List.prefix_rfl
  early _ _ _ := ⟨rfl, by simp⟩
  ended _ late := by simp [early] at late

/-- The answer ends the load, or the store takes nothing any more. -/
theorem stop (h : Keeps [.running .reading] y as)
    (late : ∀ st ∈ stages, st.early = false) (why : a.goesOn = false ∨ y.canceled = true) :
    Keeps stages y (as ++ [a]) := by
  obtain ⟨bytes, going⟩ := h.early (.running .reading) (by simp) rfl
  refine ⟨h.gapless, h.within.trans (content_within as [a]), fun st hst early => ?_,
    fun canceled _ => ?_⟩
  · rw [late st hst] at early
    cases early
  · have stops : a.goesOn = false := why.resolve_right (by simp [canceled])
    refine ⟨?_, a, by simp, stops⟩
    rw [content_concat going, stops, bytes]
    simp

/-- The store takes what the answer gives. -/
theorem goOn (h : Keeps [.running .reading] y as) (unfinished : y.finished = false)
    (same : y'.finished = y.finished) (gapless : y'.Gapless) (goes : a.goesOn = true)
    (taken : octets y'.bytes = octets y.bytes ++ a.given) :
    Keeps [.running .checking] y' (as ++ [a]) := by
  obtain ⟨bytes, going⟩ := h.early (.running .reading) (by simp) rfl
  have all : octets y'.bytes = content (as ++ [a]) := by
    rw [taken, bytes, content_concat going, if_pos goes]
  refine ⟨gapless, all ▸ List.prefix_rfl, fun _ _ _ => ⟨all, ?_⟩, fun _ ended => ?_⟩
  · simpa [or_imp, forall_and, goes] using going
  · simp [Stage.early, same, unfinished] at ended

end Keeps

/-- The cache of a source holds a part of its content, and nothing is lost. -/
structure Track.Faithful (t : Track) (as : List SourceAnswer) : Prop where
  unread : t.cached = false → as = []
  keeps : ∀ {y}, t.cached = true → t.store = some y → Keeps t.stages y as

namespace Track.Faithful
variable {t t' : Track} {x : Source} {y : Store} {p : LoadPhase}

theorem of_keeps {stages : List Stage} (h : Keeps stages y as) {x : Option Source} :
    Faithful ⟨true, stages, some y, x⟩ as where
  unread hc := by cases hc
  keeps _ hy := by
    cases hy
    exact h

theorem load (h : Keeps [.running p] y as) (unfinished : y.finished = false) (n : Nat)
    (other : p ≠ .reading) :
    Keeps (p.step n x y).move.stage?.toList (y.change (p.step n x y).change) as := by
  cases p with
  | reading => exact absurd rfl other
  | allocating =>
    simp only [LoadPhase.step]
    split
    · exact h.congr rfl rfl (by simp [LoadMove.stage?, Stage.early])
        (by simp [LoadMove.stage?, Stage.early, Store.change, unfinished])
    · exact h.congr rfl rfl (by simp [LoadMove.stage?])
        (by simp [LoadMove.stage?, Store.change, unfinished])
  | checking =>
    simp only [LoadPhase.step]
    split
    · next canceled =>
      exact h.congr rfl rfl (by simp [LoadMove.stage?, Stage.early])
        (by simp [Store.change, canceled])
    · exact h.congr rfl rfl (by simp [LoadMove.stage?, Stage.early])
        (by simp [LoadMove.stage?, Stage.early, Store.change, unfinished])
  | beginning =>
    exact h.congr rfl rfl (by simp [LoadPhase.step, LoadMove.stage?, Stage.early])
      (by simp [LoadPhase.step, LoadMove.stage?, Stage.early, Store.change, unfinished])
  | closing =>
    exact h.congr rfl rfl (by simp [LoadPhase.step, LoadMove.stage?, Stage.early])
      (by simp [LoadPhase.step, LoadMove.stage?, Stage.early, Store.change])
  | finishing =>
    exact h.congr rfl rfl (by simp [LoadPhase.step, LoadMove.stage?])
      (by simp [LoadPhase.step, LoadMove.stage?, Stage.early, Store.change, Store.finish])

theorem afterRead (h : Keeps [.running .reading] y as) (unfinished : y.finished = false)
    (answer : SourceAnswer × Source) :
    Keeps (LoadPhase.afterRead y answer).move.stage?.toList
      (y.change (LoadPhase.afterRead y answer).change) (as ++ [answer.1]) := by
  obtain ⟨a, x⟩ := answer
  cases a with
  | panicked text =>
    exact h.stop (by simp [LoadPhase.afterRead, LoadMove.stage?]) (.inl rfl)
  | failed e =>
    by_cases interrupted : e.kind = .interrupted
    · simp only [LoadPhase.afterRead, interrupted, if_true]
      have same : Keeps [.running .checking] y (as ++ [.failed e]) :=
        h.goOn unfinished rfl h.gapless (by simp [goesOn, interrupted])
          (by simp [SourceAnswer.given])
      exact same
    · simp only [LoadPhase.afterRead, interrupted, if_false]
      exact h.stop (by simp [LoadMove.stage?, Stage.early])
        (.inl (by simp [goesOn, interrupted]))
  | bytes data =>
    by_cases some : data.size ≠ 0 ∧ y.isOpen = true
    · simp only [LoadPhase.afterRead, if_pos some]
      refine h.goOn unfinished ?_ (h.gapless.append data) (by simp [goesOn, some.1]) ?_
      · simp [Store.change, Store.append, some]
      · simp [Store.octets_bytes, Store.change, Store.append, some, SourceAnswer.given]
    · simp only [LoadPhase.afterRead, if_neg some]
      refine h.stop (by simp [LoadMove.stage?, Stage.early]) ?_
      by_cases empty : data.size = 0
      · exact .inl (by simp [goesOn, empty])
      · have closed : y.isOpen = false := by simpa [empty] using some
        simp only [Store.isOpen, unfinished, Bool.false_or, Bool.not_eq_false'] at closed
        exact .inr closed

/-- What happens to a source without an answer to a read leaves the content where it is. -/
theorem silent (h : t.Faithful as) (ht : t.Valid) (step : Silent t t') : t'.Faithful as := by
  cases step with
  | supply f hf => exact ⟨h.unread, h.keeps⟩
  | enter x hc open_ => exact ⟨h.unread, h.keeps⟩
  | @start st x hc hx hst =>
    have unread := h.unread hc
    subst unread
    refine of_keeps (.fresh ?_)
    rcases hst with rfl | rfl <;> rfl
  | take queued =>
    obtain ⟨y, x, rfl, unfinished, -⟩ := ht.eq_of_stages queued
    exact of_keeps ((h.keeps rfl rfl).congr rfl rfl (by simp [Stage.early])
      (by simp [Stage.early, unfinished]))
  | @load p x y n running hp hx hy =>
    obtain ⟨y', x', rfl, unfinished, -⟩ := ht.eq_of_stages running
    cases hx
    cases hy
    exact of_keeps (load (h.keeps rfl rfl) unfinished n hp)
  | cancel =>
    refine ⟨h.unread, fun hc hy => ?_⟩
    obtain ⟨y, hy', rfl⟩ := Option.map_eq_some_iff.1 hy
    exact (h.keeps hc hy').congr rfl rfl (fun st hst he => ⟨st, hst, he⟩) (by simp [Store.cancel])
  | @drop y queued hy canceled =>
    obtain ⟨y', x, rfl, -⟩ := ht.eq_of_stages queued
    cases hy
    have after : Keeps [] y.finish as :=
      (h.keeps rfl rfl).congr rfl rfl (by simp) (by simp [Store.finish, canceled])
    exact of_keeps after
  | lose queued =>
    obtain ⟨y, x, rfl, unfinished, -⟩ := ht.eq_of_stages queued
    have after : Keeps [] y as := (h.keeps rfl rfl).congr rfl rfl (by simp) (by simp [unfinished])
    exact of_keeps after

theorem read (h : t.Faithful as) (ht : t.Valid) (reading : t.stages = [.running .reading])
    (hx : t.source = some x) (hy : t.store = some y) :
    (t.advance (LoadPhase.afterRead y x.answer)).Faithful (as ++ [x.answer.1]) := by
  obtain ⟨y', x', rfl, unfinished, -⟩ := ht.eq_of_stages reading
  cases hx
  cases hy
  exact of_keeps (afterRead (h.keeps rfl rfl) unfinished x.answer)

theorem step (h : t.Faithful as) (ht : t.Valid) {a : Option SourceAnswer} (step : Step a t t') :
    t'.Faithful (as ++ a.toList) := by
  refine (step.keep (P := fun t as => t.Valid ∧ t.Faithful as) as ⟨ht, h⟩ ?_ ?_).2
  · rintro t t' ⟨ht, h⟩ s
    exact ⟨ht.silent s, h.silent ht s⟩
  · intro x y reading hx hy
    exact ⟨ht.step (.read reading hx hy), h.read ht reading hx hy⟩

end Track.Faithful
end SharedStream
