import Mathlib.Data.List.Basic
import SharedStream.Proofs.Reads.Histories

/-! # Nobody notices a read

Reads and skips through a handle that do not block can be put into a history or left out of it, and
nobody finds a difference but whoever goes by the position of the handle.
-/
namespace SharedStream
open Session

/-- What is known of a cache, but for the time of its last access. -/
def ResourceStats.undated (r : ResourceStats Nat) : ResourceStats Nat := { r with lastAccess := 0 }

namespace Session

variable {config : CacheConfig} {workers : Nat}
variable {v : View} {s s' t u u' : Session} {A x : CallId} {op : Op} {ds : List Deed}

/-- Whoever looks at the sessions in that way finds the same. -/
structure Unaffected (v : View) (s t : Session) : Prop where
  results : ∀ id, ¬ v.hides id → ¬ v.blurs id → t.results.get? id = s.results.get? id
  blurred : ∀ id, ¬ v.hides id →
    (t.results.get? id).map Result.placeless = (s.results.get? id).map Result.placeless
  /-- The same calls are in progress, and the same ones of them can go on. -/
  calls : t.calls = s.calls
  moves : ∀ a, t.canMove a = s.canMove a
  stores : t.stores = s.stores
  sources : t.sources = s.sources
  sinks : t.sinks = s.sinks
  /-- The slots are the same, the pool of the registry, and how far its shutdown has come. -/
  registry : t.registry = s.registry
  separate : t.separate = s.separate
  held : t.held = s.held
  refs : ∀ c, t.refs c = s.refs c
  caches : ∀ c, (t.caches.get? c).map Cache.plain = (s.caches.get? c).map Cache.plain
  writers : t.writers = s.writers
  readers : ∀ r, v.reader ≠ some r → t.reader? r = s.reader? r
  /-- Also the handle that does not show can be used in both, or in none, for the same cache. -/
  reader : ∀ r, (t.reader? r).map Reader.cache = (s.reader? r).map Reader.cache
  shares : ∀ r r', t.shares? r r' = s.shares? r r'
  stats : t.stats = s.stats
  /-- Only the times of the accesses can differ, and with them the order. -/
  snapshot : (t.snapshot.map ResourceStats.undated).Perm (s.snapshot.map ResourceStats.undated)

namespace Twin

theorem undated (h : s.Twin v t) (c : CallId) :
    ((t.caches.get? c).map (t.describeCache c)).map ResourceStats.undated =
      ((s.caches.get? c).map (s.describeCache c)).map ResourceStats.undated := by
  have plain : ∀ w : Session,
      ((w.caches.get? c).map (w.describeCache c)).map ResourceStats.undated =
      ((w.caches.get? c).map Cache.plain).map (w.describeCache c) := by
    intro w
    rw [Option.map_map, Option.map_map]
    rfl
  have describe : t.describeCache c = s.describeCache c := by
    funext y
    rw [describeCache, h.store, describeCache]
  rw [plain, plain, h.cache, describe]

theorem snapshot (h : s.Twin v t) :
    (t.snapshot.map ResourceStats.undated).Perm (s.snapshot.map ResourceStats.undated) := by
  have listed : (t.registry.caches.filterMap fun c =>
        (t.caches.get? c).map (t.describeCache c)).map ResourceStats.undated =
      (s.registry.caches.filterMap fun c =>
        (s.caches.get? c).map (s.describeCache c)).map ResourceStats.undated := by
    rw [List.map_filterMap, List.map_filterMap, h.registry]
    exact List.filterMap_congr fun c _ => h.undated c
  have left := (List.mergeSort_perm (t.registry.caches.filterMap fun c =>
    (t.caches.get? c).map (t.describeCache c)) fun a b => b.lastAccess ≤ a.lastAccess).map
      ResourceStats.undated
  have right := (List.mergeSort_perm (s.registry.caches.filterMap fun c =>
    (s.caches.get? c).map (s.describeCache c)) fun a b => b.lastAccess ≤ a.lastAccess).map
      ResourceStats.undated
  rw [listed] at left
  exact left.trans right.symm

theorem shares? (h : s.Twin v t) (r r' : CallId) : t.shares? r r' = s.shares? r r' := by
  have plain : ∀ w : Session, w.shares? r r' = ((w.reader? r).map Reader.cache).bind fun c =>
      ((w.reader? r').map Reader.cache).map fun c' => decide (c = c') := by
    intro w
    unfold Session.shares?
    cases w.reader? r <;> cases w.reader? r' <;> rfl
  rw [plain, plain, h.reader?, h.reader?]

theorem unaffected (h : s.Twin v t) : s.Unaffected v t where
  results _ shows sharp := h.result shows sharp
  blurred _ shows := h.blurred shows
  calls := h.calls
  moves := h.canMove
  stores := h.stores
  sources := h.sources
  sinks := h.sinks
  registry := h.registry
  separate := h.separate
  held := h.held
  refs := h.refs
  caches := h.cache
  writers := h.writers
  readers _ shows := h.reader?_eq shows
  reader := h.reader?
  shares := h.shares?
  stats := by rw [stats, h.registry, stats]
  snapshot := h.snapshot

end Twin

/-! ## Putting a read in -/

/-- A read at a position of its own leaves all as it was, and so does a read through a handle that
cannot be used. -/
theorem twin_but_of_step (ha : s.Attentive) (later : s.clock ≤ x) (reads : op.Reads A)
    (strict : op.ReadsAt A ∨ s.reader? A = none) (settled : s.Settled)
    (ended : (s.step x op).task? x = none) : s.Twin (.but x) (s.step x op) := by
  rcases strict with own | missing
  · exact twin_of_step ha later reads rfl (fun goes => absurd goes own.reads.2) settled ended
  · have begun := twin_of_missing ha later reads missing
    unfold step settle
    rw [settleWithin_of_settled (begun.settled.2 settled)]
    exact begun

theorem Does.twin_but (h : s.Does x op u) (ha : s.Attentive) (later : s.clock ≤ x)
    (reads : op.Reads A) (strict : op.ReadsAt A ∨ s.reader? A = none) : s.Twin (.but x) u := by
  rcases strict with own | missing
  · exact h.twin ha later reads rfl fun goes => absurd goes own.reads.2
  · have begun := twin_of_missing ha later reads missing
    have ended : (s.begin x op).task? x = none := by
      rw [begun.task, task?, get?_calls_of_later ha later, Option.map_none]
    rw [Finishes.eq_of_ended h ended]
    exact begun

/-- What is the same for whoever sees all but the call is the same for whoever sees less. -/
theorem Twin.past (h : s.Twin (.but x) t) (asked : List (CallId × Op)) :
    s.Twin (.past A x asked) t :=
  h.of_covers (View.past_covers A x asked)

/-- The call `x` can be put into any history that goes on from the session, or left out of it, if
neither it nor a later call that goes by the position of the handle blocks. -/
structure Inconspicuous (s : Session) (A x : CallId) (op : Op) : Prop where
  /-- It is a step of a scenario. -/
  scenario : ∀ ds, s.Settled → (s.step x op).task? x = none → s.Smooth A ds →
    (s.step x op).Smooth A ds → (s.steps ds).Unaffected (.past A x ds) ((s.step x op).steps ds)
  /-- If it reads at a position of its own, nothing changes for other calls that read through the
  handle, and they may block. -/
  scenarioOwn : op.ReadsAt A → ∀ ds, s.Settled → (s.step x op).task? x = none → s.InOrder ds →
    (s.steps ds).Unaffected (.but x) ((s.step x op).steps ds)
  /-- What happens in whatever order without it happens after it as well, -/
  inserted : ∀ ds u s', s.Does x op u → (∀ d ∈ ds, d.Spares A) → s.Undergoes ds s' →
    u.Unblocked ds → ∃ u', u.Undergoes ds u' ∧
      s'.Unaffected (.past A x (ds.filterMap Deed.asked?)) u'
  /-- and what happens after it happens without it as well. -/
  deleted : ∀ ds u u', s.Does x op u → (∀ d ∈ ds, d.Spares A) → u.Undergoes ds u' →
    s.Unblocked ds → ∃ s', s.Undergoes ds s' ∧
      s'.Unaffected (.past A x (ds.filterMap Deed.asked?)) u'
  insertedOwn : op.ReadsAt A → ∀ ds u s', s.Does x op u → s.Undergoes ds s' → u.Unblocked ds →
    ∃ u', u.Undergoes ds u' ∧ s'.Unaffected (.but x) u'
  deletedOwn : op.ReadsAt A → ∀ ds u u', s.Does x op u → u.Undergoes ds u' → s.Unblocked ds →
    ∃ s', s.Undergoes ds s' ∧ s'.Unaffected (.but x) u'

section
variable (reach : Reach (start config workers) s) (later : s.clock ≤ x) (reads : op.Reads A)
include reach later reads

theorem Twin.steps_of_step {ds : List (CallId × Op)} (settled : s.Settled)
    (ended : (s.step x op).task? x = none) (smooth : s.Smooth A ds)
    (smooth' : (s.step x op).Smooth A ds) :
    (s.steps ds).Twin (.past A x ds) ((s.step x op).steps ds) := by
  cases usable : s.reader? A with
  | none =>
    have strict := twin_but_of_step reach.attentive later reads (.inr usable) settled ended
    exact (strict.steps_of_none reach rfl smooth.inOrder).past ds
  | some y =>
    have next : s.Twin (.past A x ds) (s.step x op) :=
      twin_of_step reach.attentive later reads (.inl rfl) (fun _ => rfl) settled ended
    have fits : (View.past A x ds).Fits s := View.fits_of_usable rfl (by rw [usable]; rfl)
    exact next.steps reach (reach.step op later) fits settled (View.past_meets A x ds) smooth
      smooth'

/-- What is done at one go leaves a twin that goes through the same deeds. -/
theorem Does.twin_and_fits (h : s.Does x op u) (spares : ∀ d ∈ ds, d.Spares A) :
    ∃ v : View, (View.past A x (ds.filterMap Deed.asked?)).Covers v ∧ s.Twin v u ∧ v.Fits s ∧
      ∀ d ∈ ds, v.Takes d := by
  -- Another call may be reading through a handle that cannot be used, so its position must show.
  cases usable : s.reader? A with
  | none =>
    exact ⟨.but x, View.past_covers .., h.twin_but reach.attentive later reads (.inr usable),
      .of_none rfl s, fun d _ => View.takes_of_none rfl d⟩
  | some y =>
    refine ⟨_, ⟨.inr rfl, id, id⟩, h.twin reach.attentive later reads (.inl rfl) fun _ => rfl,
      View.fits_of_usable rfl (by rw [usable]; rfl), fun d mem => ?_⟩
    exact (View.past_meets A x _).takes (spares d mem) fun _ same =>
      List.mem_filterMap.2 ⟨d, mem, same⟩

theorem Does.inserted (h : s.Does x op u) (spares : ∀ d ∈ ds, d.Spares A)
    (undergoes : s.Undergoes ds s') (free : u.Unblocked ds) : ∃ u', u.Undergoes ds u' ∧
      s'.Twin (.past A x (ds.filterMap Deed.asked?)) u' := by
  obtain ⟨v, covers, next, fits, takes⟩ := h.twin_and_fits reach later reads spares
  obtain ⟨u', undergoes, twin⟩ :=
    next.undergoes reach (h.reach reach later) fits takes undergoes free
  exact ⟨u', undergoes, twin.of_covers covers⟩

theorem Does.deleted (h : s.Does x op u) (spares : ∀ d ∈ ds, d.Spares A)
    (undergoes : u.Undergoes ds u') (free : s.Unblocked ds) : ∃ s', s.Undergoes ds s' ∧
      s'.Twin (.past A x (ds.filterMap Deed.asked?)) u' := by
  obtain ⟨v, covers, next, fits, takes⟩ := h.twin_and_fits reach later reads spares
  obtain ⟨s', undergoes, twin⟩ :=
    next.symm.undergoes (h.reach reach later) reach (fits.of_twin next) takes undergoes free
  exact ⟨s', undergoes, twin.symm.of_covers covers⟩

/-- Reads and skips through a handle that do not block are noticed only by whoever goes by the
position of the handle, and a read at a position of its own is noticed by nobody. -/
theorem Reach.inconspicuous : s.Inconspicuous A x op where
  scenario _ settled ended smooth smooth' :=
    (Twin.steps_of_step reach later reads settled ended smooth smooth').unaffected
  scenarioOwn own ds settled ended order := by
    have strict := twin_but_of_step reach.attentive later reads (.inl own) settled ended
    exact (strict.steps_of_none reach rfl order).unaffected
  inserted ds u s' does spares undergoes free := by
    obtain ⟨u', undergoes', twin⟩ := does.inserted reach later reads spares undergoes free
    exact ⟨u', undergoes', twin.unaffected⟩
  deleted ds u u' does spares undergoes free := by
    obtain ⟨s', undergoes', twin⟩ := does.deleted reach later reads spares undergoes free
    exact ⟨s', undergoes', twin.unaffected⟩
  insertedOwn own ds u s' does undergoes free := by
    have strict := does.twin_but reach.attentive later reads (.inl own)
    obtain ⟨u', undergoes', twin⟩ := strict.undergoes reach (does.reach reach later)
      (.of_none rfl s) (fun d _ => View.takes_of_none rfl d) undergoes free
    exact ⟨u', undergoes', twin.unaffected⟩
  deletedOwn own ds u u' does undergoes free := by
    have strict := does.twin_but reach.attentive later reads (.inl own)
    obtain ⟨s', undergoes', twin⟩ := strict.symm.undergoes (does.reach reach later) reach
      (.of_none rfl u) (fun d _ => View.takes_of_none rfl d) undergoes free
    exact ⟨s', undergoes', twin.symm.unaffected⟩

end

/-- A reader of two bytes. -/
def twoBytes : Session :=
  (start {} 1).step 0 (.openReader ⟨"a"⟩ (some .sync) { script := [.data ⟨#[1, 2]⟩ none] })

/-- The reader reads on, somebody waits for the key, and the reader is dropped. -/
def readWaitDrop : List (CallId × Op) :=
  [(2, .read 0 .once ⟨#[0, 0]⟩), (3, .openWriter ⟨"a"⟩ {}), (4, .part 0 .drop)]

/-- Whether a byte was read before or not, the writer gets its lease. -/
theorem inconspicuous_twoBytes : twoBytes.clock ≤ 1 ∧ (Op.read 0 .byte ⟨#[]⟩).Reads 0 ∧
    twoBytes.Inconspicuous 0 1 (.read 0 .byte ⟨#[]⟩) ∧
    twoBytes.Settled ∧ twoBytes.Smooth 0 readWaitDrop ∧
    (twoBytes.step 1 (.read 0 .byte ⟨#[]⟩)).task? 1 = none ∧
    (twoBytes.step 1 (.read 0 .byte ⟨#[]⟩)).Smooth 0 readWaitDrop ∧
    (twoBytes.steps readWaitDrop).results.get? 3 = some .done ∧
    ((twoBytes.step 1 (.read 0 .byte ⟨#[]⟩)).steps readWaitDrop).results.get? 3 = some .done ∧
    ∃ u, twoBytes.Does 1 (.read 0 .byte ⟨#[]⟩) u := by
  have reach : Reach (start {} 1) twoBytes := Reach.refl.step _ (by decide +kernel)
  have later : twoBytes.clock ≤ 1 := by decide +kernel
  have same : twoBytes.Inconspicuous 0 1 (.read 0 .byte ⟨#[]⟩) := reach.inconspicuous later rfl
  have settled : twoBytes.Settled := settled_iff.2 (by decide +kernel)
  have ended : (twoBytes.step 1 (.read 0 .byte ⟨#[]⟩)).task? 1 = none := by decide +kernel
  have without : twoBytes.Smooth 0 readWaitDrop :=
    ⟨by decide +kernel, settled_iff.2 (by decide +kernel), fun _ => by decide +kernel,
      by decide +kernel, settled_iff.2 (by decide +kernel), False.elim,
      by decide +kernel, settled_iff.2 (by decide +kernel), False.elim, trivial⟩
  have smooth : (twoBytes.step 1 (.read 0 .byte ⟨#[]⟩)).Smooth 0 readWaitDrop :=
    ⟨by decide +kernel, settled_iff.2 (by decide +kernel), fun _ => by decide +kernel,
      by decide +kernel, settled_iff.2 (by decide +kernel), False.elim,
      by decide +kernel, settled_iff.2 (by decide +kernel), False.elim, trivial⟩
  have granted : (twoBytes.steps readWaitDrop).results.get? 3 = some .done := by rfl
  have shows : ∀ {op}, (3, op) ∈ readWaitDrop → ¬ op.Reads 0 := by
    intro op mem
    simp only [readWaitDrop, List.mem_cons, Prod.mk.injEq, List.not_mem_nil] at mem
    rcases mem with ⟨other, -⟩ | ⟨-, rfl⟩ | ⟨other, -⟩ | none
    · cases other
    · exact id
    · cases other
    · exact none.elim
  have does : twoBytes.Does 1 (.read 0 .byte ⟨#[]⟩) _ :=
    .move (by decide +kernel) (.ended (by decide +kernel))
  refine ⟨later, rfl, same, settled, without, ended, smooth, granted, ?_, _, does⟩
  refine Eq.trans ((same.scenario _ settled ended without smooth).results 3 ?_ ?_) granted
  · rintro (own | ⟨op, mem, goes⟩)
    · cases own
    · exact shows mem goes.reads
  · rintro ⟨op, mem, reads⟩
    exact shows mem reads
end Session
end SharedStream
