import SharedStream.Proofs.Reachable

/-! # Readers and writers exclude each other

In every reachable session the slot of a key tells who has handles on it, and the count of a cache
is the number of its handles.
-/
namespace SharedStream.Session
open Keys

variable {s t : Session} {k : Key} {r w c : CallId}

/-- `r` is a reader handle on the cache `c` that is not released. -/
def Reads (s : Session) (r c : CallId) : Prop := ∃ h, s.readers.get? r = some h ∧ h.cache = c

/-- `w` is a writer handle of the key that is not released. -/
def Writes (s : Session) (w : CallId) (k : Key) : Prop := ∃ h, s.writers.get? w = some h ∧ h.key = k

theorem reads_iff : s.Reads r c ↔ s.keys.reader.get? r = some c := by
  simp [Reads, keys, Option.map_eq_some_iff]

theorem writes_iff : s.Writes w k ↔ s.keys.writer w = some k := by
  simp [Writes, keys, Option.map_eq_some_iff]

theorem keyOf_of_cache {n : Int} (h : s.keys.cache c = some (k, n)) : s.keyOf c = k := by
  obtain ⟨x, hx, hkn⟩ := Option.map_eq_some_iff.1 h
  cases hkn
  simp [keyOf, hx]

namespace Sound
variable (hs : s.Sound)
include hs

theorem slot_of_writes (hw : s.Writes w k) : s.registry.slots.get? k = some (.writer w) :=
  hs.keys.agree.slot_eq (hs.keys.stake_of_writer (writes_iff.1 hw))

theorem writes_of_slot (h : s.registry.slots.get? k = some (.writer w)) : s.Writes w k := by
  obtain ⟨c, hc⟩ | ⟨id, stake⟩ := hs.keys.agree.staked h
  · cases hc
  · exact writes_iff.2 (writer_of_stake stake)

theorem slot_of_reads (hr : s.Reads r c) :
    s.registry.slots.get? (s.keyOf c) = some (.reader c) := by
  obtain ⟨k, hk⟩ := hs.keys.slot_of_reader (reads_iff.1 hr)
  obtain ⟨n, hn⟩ := hs.keys.cache_of_slot hk
  rw [keyOf_of_cache hn]
  exact hk

theorem refs_of_slot (h : s.registry.slots.get? k = some (.reader c)) :
    s.keyOf c = k ∧ s.refs c = s.readers.countP (·.cache = c) := by
  obtain ⟨n, hn⟩ := hs.keys.cache_of_slot h
  refine ⟨keyOf_of_cache hn, ?_⟩
  rw [refs_eq_of_cache hn, hs.keys.refs_eq hn]
  have count : s.keys.reader.countP (· = c) = s.readers.countP (·.cache = c) :=
    s.readers.countP_map (fun _ h => h.cache) _ _ fun _ _ => rfl
  rw [count]

end Sound

/-! ## Handles are subtracted once -/

/-- What the move does that releases a reader handle on the cache `c`. -/
structure Subtracts (s : Session) (r c : CallId) (t : Session) : Prop where
  readers : t.readers = s.readers.erase r
  refs : t.refs c = s.refs c - 1
  other : ∀ c', c' ≠ c → t.refs c' = s.refs c'

theorem refs_addRefs (hc : ∃ x, s.caches.get? c = some x) (n : Int) (c' : CallId) :
    (s.addRefs c n).refs c' = if c' = c then s.refs c + n else s.refs c' := by
  obtain ⟨x, hx⟩ := hc
  by_cases h : c' = c <;> simp [refs, addRefs, Table.get?_modify, h, hx]

theorem subtracts_moveLeave {id : CallId} (p : Parting) (hs : s.Sound) (hr : s.Reads r c) :
    s.Subtracts r c (s.moveLeave id r p) := by
  obtain ⟨h, hr, rfl⟩ := hr
  obtain ⟨k, n, hn, refs, pos⟩ := refs_pos hs.keys hr
  obtain ⟨x, hx, -⟩ := Option.map_eq_some_iff.1 hn
  have less := refs_addRefs (s := { s with readers := s.readers.erase r }) ⟨x, hx⟩ (-1)
  have move : ∃ calls results, s.moveLeave id r p =
      { ({ s with readers := s.readers.erase r }).addRefs h.cache (-1) with
        calls := calls, results := results } := by
    unfold moveLeave
    rw [hr]
    dsimp only
    rw [if_neg (by omega)]
    split
    · exact ⟨_, _, rfl⟩
    · cases p <;> exact ⟨_, _, rfl⟩
  obtain ⟨calls, results, move⟩ := move
  rw [move]
  refine ⟨rfl, ?_, ?_⟩
  · exact (less h.cache).trans (if_pos rfl)
  · intro c' hc
    exact (less c').trans (if_neg hc)

/-- A call that has ended without a handle gets none any more. -/
theorem Reach.released (hs : s.Sound) (h : Reach s t) (later : r < s.clock)
    (role : s.keys.role r = none) (gone : s.keys.reader.get? r = none) :
    t.keys.reader.get? r = none := by
  have kept : t.Sound ∧ r < t.clock ∧ t.keys.role r = none ∧ t.keys.reader.get? r = none := by
    refine h.invariant (P := fun t => t.Sound ∧ r < t.clock ∧ t.keys.role r = none ∧
      t.keys.reader.get? r = none) ⟨hs, later, role, gone⟩ ?_
    rintro s e - ⟨hs, later, role, gone⟩ admitted
    have step := step_after hs admitted
    refine ⟨hs.after admitted, Nat.lt_of_lt_of_le later step.clock_le, step.ended later role, ?_⟩
    cases hr : (s.after e).keys.reader.get? r with
    | none => rfl
    | some c =>
      rw [step.reader_of_ended role hr] at gone
      cases gone
  exact kept.2.2.2

/-- What the slot of a key says about its handles. -/
structure Exclusive (s : Session) (k : Key) : Prop where
  /-- A lease is in the slot if and only if there is one writer handle, and it has the lease. -/
  writer_iff : ∀ w, s.registry.slots.get? k = some (.writer w) ↔
    s.Writes w k ∧ ∀ w', s.Writes w' k → w' = w
  /-- All reader handles are on the cache in the slot. -/
  reader : ∀ r c, s.Reads r c → s.keyOf c = k → s.registry.slots.get? k = some (.reader c)
  refs : ∀ c, s.registry.slots.get? k = some (.reader c) →
    s.keyOf c = k ∧ s.refs c = s.readers.countP (·.cache = c)
  /-- Closed or dropped, a reader handle is subtracted once, -/
  subtracts : ∀ id r p c, s.task? id = some (.leave r p) → s.Reads r c →
    s.Subtracts r c (s.move (.call id))
  /-- and it does not come back. -/
  released : ∀ id r p c t, s.task? id = some (.leave r p) → s.Reads r c →
    Reach (s.move (.call id)) t → t.readers.get? r = none
  alone : ∀ w, s.Writes w k →
    (∀ r c, s.Reads r c → s.keyOf c ≠ k) ∧ ∀ w', s.Writes w' k → w' = w

theorem Sound.unique_writer (hs : s.Sound) {w' : CallId} (hw : s.Writes w k)
    (hw' : s.Writes w' k) : w' = w := by
  have slot := hs.slot_of_writes hw
  rw [hs.slot_of_writes hw'] at slot
  exact Slot.writer.inj (Option.some.inj slot)

theorem Reach.exclusive {config : CacheConfig} {workers : Nat}
    (h : Reach (start config workers) s) (k : Key) : s.Exclusive k := by
  have hs := h.sound
  refine ⟨?_, ?_, fun c => hs.refs_of_slot, ?_, ?_, ?_⟩
  · intro w
    constructor
    · intro slot
      have hw := hs.writes_of_slot slot
      exact ⟨hw, fun w' hw' => hs.unique_writer hw hw'⟩
    · rintro ⟨hw, -⟩
      exact hs.slot_of_writes hw
  · rintro r c hr rfl
    exact hs.slot_of_reads hr
  · intro id r p c ht hr
    rw [move_of_task ht]
    exact subtracts_moveLeave p hs hr
  · intro id r p c t ht hr reach
    have sub : s.Subtracts r c (s.move (.call id)) := by
      rw [move_of_task ht]
      exact subtracts_moveLeave p hs hr
    have step : s.keys.Step (some id) (s.move (.call id)).keys := by
      rw [move_of_task ht]
      exact step_moveLeave ht hs.keys
    have next : (s.move (.call id)).Sound := by
      rw [move_of_task ht] at step ⊢
      exact hs.next step (onward_moveLeave hs ht)
    have gone : (s.move (.call id)).keys.reader.get? r = none := by
      simp [keys, sub.readers]
    have reads := reads_iff.1 hr
    have later := hs.keys.lt_clock_of_reader reads
    have released := reach.released next (Nat.lt_of_lt_of_le later step.clock_le)
      (step.ended later (hs.keys.role_of_reader reads)) gone
    simpa [keys] using released
  · intro w hw
    refine ⟨?_, fun w' hw' => hs.unique_writer hw hw'⟩
    rintro r c hr rfl
    have slot := hs.slot_of_writes hw
    rw [hs.slot_of_reads hr] at slot
    cases slot

/-- A call has opened a cache, and another one has found it. -/
def twoReaders : Session :=
  (((((((start {} 1).begin 0 (.openReader ⟨"a"⟩ none {})).move (.call 0)).move (.call 0)).move
    (.call 0)).begin 1 (.openReader ⟨"a"⟩ none {})).move (.call 1))

theorem Reach.exclusive_twoReaders : Reach (start {} 1) twoReaders ∧ twoReaders.Exclusive ⟨"a"⟩ ∧
    twoReaders.registry.slots.get? ⟨"a"⟩ = some (.reader 0) ∧ twoReaders.refs 0 = 2 := by
  have reach : Reach (start {} 1) twoReaders := by
    unfold twoReaders
    refine .move (.begin 1 _ (.move (.move (.move (.begin 0 _ .refl ?_) ?_) ?_) ?_) ?_) ?_
    all_goals decide
  exact ⟨reach, reach.exclusive ⟨"a"⟩, by decide, by decide⟩

end SharedStream.Session
