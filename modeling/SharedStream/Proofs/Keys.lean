import Mathlib.Logic.Function.Basic
import SharedStream.Session.Reach

/-! # Keys and who has to do with them

The part of a session that decides who may use a key: slots, counts of readers, handles, and what
each call in progress does to the slot of its key. Whatever happens to a session is one of a few
steps of this part, and the steps keep slots, counts, handles and calls in agreement.
-/
namespace SharedStream

/-- What a call in progress has to do with the slot of its key. -/
inductive Role where
  /-- It looks for its turn. -/
  | seeks (key : Key)
  /-- It runs a factory; the slot is `opening`. -/
  | makes (key : Key)
  /-- It has made the cache that goes by its name; the slot is `opening`. -/
  | builds (key : Key)
  /-- It tears a cache down; the slot is `closing`. -/
  | retires (key : Key) (cache : CallId)
  /-- It has torn a cache down; the slot is `closing`. -/
  | leases (key : Key)
  deriving DecidableEq

def Task.role? : Task → Option Role
  | .seekReader key _ | .seekWriter key => some (.seeks key)
  | .makeSource key _ => some (.makes key)
  | .fill key _ | .standIn key _ | .register key => some (.builds key)
  | .cancelCache key cache | .dequeueCache key cache | .awaitCache key cache =>
    some (.retires key cache)
  | .lease key => some (.leases key)
  | .read _ | .leave .. | .announce .. | .closeSink .. | .giveBack .. | .expire .. | .readStore ..
  | .awaitStore _ | .makeLoad _ | .load _ | .assist _ => none

@[simp] theorem Task.role?_submitted (k : Key) (d : Option Nat) :
    (Task.submitted k d).role? = some (.builds k) := by
  cases d <;> rfl

/-- The call whose move it is. -/
def Actor.caller : Actor → Option CallId
  | .call id => some id
  | .worker .. | .pool _ | .registry => none

@[ext] structure Keys where
  clock : Nat
  slot : Key → Option Slot
  /-- The key of a cache and its count of readers. -/
  cache : CallId → Option (Key × Int)
  reader : Table CallId CallId
  writer : CallId → Option Key
  role : CallId → Option Role
  /-- Whether the factory of a source was called. -/
  built : CallId → Bool
  /-- The registry was not let go. -/
  held : Bool

namespace Session

def task? (s : Session) (id : CallId) : Option Task := (s.calls.get? id).map Call.task

def keys (s : Session) : Keys where
  clock := s.clock
  slot := s.registry.slots.get?
  cache id := (s.caches.get? id).map fun c => (c.key, c.refs)
  reader := s.readers.map fun _ h => h.cache
  writer id := (s.writers.get? id).map Writer.key
  role id := (s.task? id).bind Task.role?
  built id := (s.source id).built
  held := s.held

end Session

namespace Keys
open Function

/-- The steps of a session as far as keys are concerned, with the call whose step it is. -/
inductive Step (v : Keys) : Option CallId → Keys → Prop where
  | quiet {who : Option CallId} : Step v who v
  /-- Something is asked for: a source may come along, and a call that seeks a key as long as the
  registry is held. -/
  | enter (id : CallId) (role : Option Role) (built kept : Bool) :
      v.clock ≤ id → (∀ r, role = some r → (∃ k, r = .seeks k) ∧ built = false ∧ v.held = true) →
      Step v (some id) { v with
        clock := id + 1
        role := update v.role id role
        built := update v.built id built
        held := v.held && kept }
  /-- A call that seeks a key gives up. -/
  | refuse {id : CallId} {k : Key} : v.role id = some (.seeks k) →
      Step v (some id) { v with role := update v.role id none }
  /-- A call finds its key free and calls its factory. -/
  | claim {id : CallId} {k : Key} : v.role id = some (.seeks k) → v.slot k = none →
      Step v (some id) { v with
        slot := update v.slot k (some .opening)
        role := update v.role id (some (.makes k))
        built := update v.built id true }
  /-- A call finds a cache and reads from it. -/
  | attach {id c : CallId} {k : Key} {n : Int} : v.role id = some (.seeks k) →
      v.slot k = some (.reader c) → v.cache c = some (k, n) →
      Step v (some id) { v with
        cache := update v.cache c (some (k, n + 1))
        reader := v.reader.set id c
        role := update v.role id none }
  /-- A factory has given a source, which becomes the source of a new cache. -/
  | build {id : CallId} {k : Key} : v.role id = some (.makes k) →
      Step v (some id) { v with
        cache := update v.cache id (some (k, 0))
        role := update v.role id (some (.builds k)) }
  /-- A factory or a load of a new cache has failed. -/
  | abandon {id : CallId} {k : Key} :
      v.role id = some (.makes k) ∨ v.role id = some (.builds k) →
      Step v (some id) { v with slot := update v.slot k none, role := update v.role id none }
  /-- A new cache is open to readers, and whoever made it is the first. -/
  | register {id : CallId} {k : Key} : v.role id = some (.builds k) →
      Step v (some id) { v with
        slot := update v.slot k (some (.reader id))
        cache := update v.cache id (some (k, 1))
        reader := v.reader.set id id
        role := update v.role id none }
  /-- A call finds a cache that nobody reads and begins to tear it down. -/
  | retire {id c : CallId} {k : Key} : v.role id = some (.seeks k) →
      v.slot k = some (.reader c) → v.cache c = some (k, 0) →
      Step v (some id) { v with
        slot := update v.slot k (some .closing)
        role := update v.role id (some (.retires k c)) }
  /-- The load of a cache that is torn down has stopped. -/
  | retired {id c : CallId} {k : Key} : v.role id = some (.retires k c) →
      Step v (some id) { v with role := update v.role id (some (.leases k)) }
  /-- A call takes the lease of a key that is free or was made free for it. -/
  | grant {id : CallId} {k : Key} :
      v.role id = some (.seeks k) ∧ v.slot k = none ∨ v.role id = some (.leases k) →
      Step v (some id) { v with
        slot := update v.slot k (some (.writer id))
        writer := update v.writer id (some k)
        role := update v.role id none }
  /-- A reader handle is subtracted from its cache. -/
  | leave {who : Option CallId} {r c : CallId} {k : Key} {n : Int} :
      v.reader.get? r = some c → v.cache c = some (k, n) →
      Step v who { v with
        cache := update v.cache c (some (k, n - 1))
        reader := v.reader.erase r }
  /-- A lease is given back. -/
  | giveBack {who : Option CallId} {w : CallId} {k : Key} : v.writer w = some k →
      Step v who { v with slot := update v.slot k none, writer := update v.writer w none }
  /-- Nobody holds the registry any more, and all keys are free. -/
  | finish : v.held = false → (∀ id, v.reader.get? id = none) → (∀ id, v.writer id = none) →
      (∀ id, v.role id = none) → Step v none { v with slot := fun _ => none }

theorem Step.of_eq {v v' : Keys} (h : v' = v) : v.Step none v' := h ▸ .quiet

/-- The entry of the table of slots that a call or a writer handle answers for. -/
def stakeOf (id : CallId) : Option Role → Option Key → Option (Key × Slot)
  | some (.makes k), _ | some (.builds k), _ => some (k, .opening)
  | some (.retires k _), _ | some (.leases k), _ => some (k, .closing)
  | some (.seeks _), w | none, w => w.map fun k => (k, .writer id)

def stake (v : Keys) (id : CallId) : Option (Key × Slot) := stakeOf id (v.role id) (v.writer id)

/-- Every slot but that of a cache has exactly one who answers for it. -/
structure Agree (slot : Key → Option Slot) (stake : CallId → Option (Key × Slot)) : Prop where
  staked : ∀ {k x}, slot k = some x → (∃ c, x = .reader c) ∨ ∃ id, stake id = some (k, x)
  slot_eq : ∀ {id k x}, stake id = some (k, x) → slot k = some x
  unique : ∀ {id id' k x}, stake id = some (k, x) → stake id' = some (k, x) → id = id'
  not_reader : ∀ {id k c}, stake id ≠ some (k, .reader c)

/-- Slots, counts, handles and calls in agreement. -/
structure Valid (v : Keys) : Prop where
  agree : Agree v.slot v.stake
  cache_of_slot : ∀ {k c}, v.slot k = some (.reader c) → ∃ n, v.cache c = some (k, n)
  cache_of_builds : ∀ {id k}, v.role id = some (.builds k) → ∃ n, v.cache id = some (k, n)
  cache_of_retires : ∀ {id k c}, v.role id = some (.retires k c) → ∃ n, v.cache c = some (k, n)
  slot_of_reader : ∀ {r c}, v.reader.get? r = some c → ∃ k, v.slot k = some (.reader c)
  refs_eq : ∀ {c k n}, v.cache c = some (k, n) → n = v.reader.countP (· = c)
  /-- A call has no handle before it ends, -/
  no_handle : ∀ {id r}, v.role id = some r → v.reader.get? id = none ∧ v.writer id = none
  /-- nor a cache before its factory has given a source, -/
  no_cache : ∀ {id k}, v.role id = some (.seeks k) ∨ v.role id = some (.makes k) → v.cache id = none
  /-- nor a source that is built before it has its turn. -/
  not_built : ∀ {id k}, v.role id = some (.seeks k) → v.built id = false
  fresh : ∀ {id}, v.clock ≤ id → v.role id = none ∧ v.reader.get? id = none ∧
    v.writer id = none ∧ v.cache id = none ∧ v.built id = false

namespace Agree
variable {slot : Key → Option Slot} {stake : CallId → Option (Key × Slot)} {id : CallId} {k : Key}

theorem take (h : Agree slot stake) (free : slot k = none) (none : stake id = none) {x : Slot}
    (hx : ∀ c, x ≠ .reader c) :
    Agree (update slot k (some x)) (update stake id (some (k, x))) := by
  have other : ∀ {id' k' x'}, stake id' = some (k', x') → k' ≠ k := by
    rintro id' k' x' hs rfl
    rw [h.slot_eq hs] at free
    cases free
  constructor
  · intro k' x' hs
    by_cases hk : k' = k
    · subst hk
      have : x' = x := by simpa [eq_comm] using hs
      exact .inr ⟨id, by simp [this]⟩
    · rw [update_of_ne hk] at hs
      refine (h.staked hs).imp_right ?_
      rintro ⟨id', hi⟩
      have hne : id' ≠ id := by rintro rfl; simp [none] at hi
      exact ⟨id', by rw [update_of_ne hne, hi]⟩
  · intro id' k' x' hs
    by_cases hi : id' = id
    · subst hi
      simp only [update_self, Option.some.injEq, Prod.mk.injEq] at hs
      obtain ⟨rfl, rfl⟩ := hs
      simp
    · rw [update_of_ne hi] at hs
      rw [update_of_ne (other hs), h.slot_eq hs]
  · intro a b k' x' ha hb
    by_cases hia : a = id <;> by_cases hib : b = id
    · rw [hia, hib]
    · subst hia
      rw [update_of_ne hib] at hb
      simp only [update_self, Option.some.injEq, Prod.mk.injEq] at ha
      exact absurd ha.1.symm (other hb)
    · subst hib
      rw [update_of_ne hia] at ha
      simp only [update_self, Option.some.injEq, Prod.mk.injEq] at hb
      exact absurd hb.1.symm (other ha)
    · rw [update_of_ne hia] at ha
      rw [update_of_ne hib] at hb
      exact h.unique ha hb
  · intro id' k' c hs
    by_cases hi : id' = id
    · subst hi
      simp only [update_self, Option.some.injEq, Prod.mk.injEq] at hs
      exact hx c hs.2
    · rw [update_of_ne hi] at hs
      exact h.not_reader hs

theorem release (h : Agree slot stake) {y : Slot} (own : stake id = some (k, y)) :
    Agree (update slot k none) (update stake id none) := by
  have slotk := h.slot_eq own
  have other : ∀ {id' k' x'}, id' ≠ id → stake id' = some (k', x') → k' ≠ k := by
    rintro id' k' x' hne hs rfl
    have : x' = y := by simpa [slotk, eq_comm] using h.slot_eq hs
    subst this
    exact hne (h.unique hs own)
  constructor
  · intro k' x' hs
    by_cases hk : k' = k
    · simp [hk] at hs
    · rw [update_of_ne hk] at hs
      refine (h.staked hs).imp_right ?_
      rintro ⟨id', hi⟩
      have hne : id' ≠ id := by
        rintro rfl
        rw [own] at hi
        simp only [Option.some.injEq, Prod.mk.injEq] at hi
        exact hk hi.1.symm
      exact ⟨id', by rw [update_of_ne hne, hi]⟩
  · intro id' k' x' hs
    by_cases hi : id' = id
    · simp [hi] at hs
    · rw [update_of_ne hi] at hs
      rw [update_of_ne (other hi hs), h.slot_eq hs]
  · intro a b k' x' ha hb
    by_cases hia : a = id
    · simp [hia] at ha
    · by_cases hib : b = id
      · simp [hib] at hb
      · rw [update_of_ne hia] at ha
        rw [update_of_ne hib] at hb
        exact h.unique ha hb
  · intro id' k' c hs
    by_cases hi : id' = id
    · simp [hi] at hs
    · rw [update_of_ne hi] at hs
      exact h.not_reader hs

theorem replace (h : Agree slot stake) {x y : Slot} (own : stake id = some (k, y))
    (hx : ∀ c, x ≠ .reader c) :
    Agree (update slot k (some x)) (update stake id (some (k, x))) := by
  have freed : Agree (update (update slot k none) k (some x))
      (update (update stake id none) id (some (k, x))) :=
    (h.release own).take (by simp) (by simp) hx
  simpa using freed

/-- The slot of a cache has nobody who answers for it, -/
theorem not_staked (h : Agree slot stake) {c : CallId} (hs : slot k = some (.reader c)) {x : Slot} :
    stake id ≠ some (k, x) := by
  intro own
  have hx : x = .reader c := by simpa [hs, eq_comm] using h.slot_eq own
  subst hx
  exact h.not_reader own

/-- so that it can come, -/
theorem put (h : Agree slot stake) {y : Slot} (own : stake id = some (k, y)) (c : CallId) :
    Agree (update slot k (some (.reader c))) (update stake id none) := by
  have freed := h.release own
  have other : ∀ {id' k' x'}, update stake id none id' = some (k', x') → k' ≠ k := by
    rintro id' k' x' hs rfl
    simpa using freed.slot_eq hs
  refine ⟨?_, ?_, freed.unique, freed.not_reader⟩
  · intro k' x' hs
    by_cases hk : k' = k
    · subst hk
      exact .inl ⟨c, by simpa [eq_comm] using hs⟩
    · rw [update_of_ne hk] at hs
      exact freed.staked (by rw [update_of_ne hk, hs])
  · intro id' k' x' hs
    have := freed.slot_eq hs
    rw [update_of_ne (other hs)] at this ⊢
    exact this

/-- and go. -/
theorem remove (h : Agree slot stake) {c : CallId} (hs : slot k = some (.reader c)) :
    Agree (update slot k none) stake := by
  refine ⟨?_, ?_, h.unique, h.not_reader⟩
  · intro k' x' hs'
    by_cases hk : k' = k
    · simp [hk] at hs'
    · exact h.staked (by rwa [update_of_ne hk] at hs')
  · intro id' k' x' own
    have hk : k' ≠ k := by
      rintro rfl
      exact h.not_staked hs own
    rw [update_of_ne hk, h.slot_eq own]

end Agree

theorem writer_of_stake {v : Keys} {id w : CallId} {k : Key}
    (h : v.stake id = some (k, .writer w)) : v.writer w = some k := by
  unfold stake stakeOf at h
  split at h
  all_goals
    first
    | (simp at h; done)
    | (simp only [Option.map_eq_some_iff, Prod.mk.injEq, Slot.writer.injEq] at h
       obtain ⟨k', hk', rfl, rfl⟩ := h
       exact hk')

theorem stake_eq_update {v v' : Keys} (id : CallId) (hr : ∀ i, i ≠ id → v'.role i = v.role i)
    (hw : ∀ i, i ≠ id → v'.writer i = v.writer i) {x : Option (Key × Slot)}
    (hx : stakeOf id (v'.role id) (v'.writer id) = x) : v'.stake = update v.stake id x := by
  funext i
  by_cases hi : i = id
  · subst hi
    simp [stake, hx]
  · simp [stake, update_of_ne hi, hr i hi, hw i hi]

end Keys
end SharedStream
