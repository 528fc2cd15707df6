import SharedStream.Proofs.Fidelity
import SharedStream.Proofs.Teardown

/-! # No stale cache survives a write

Readers that come after a writer have a source that was opened after the lease was given back.
-/
namespace SharedStream.Run
open Session

variable {config : CacheConfig} {workers : Nat} (r : Run (Session.start config workers))
variable {c w x : CallId} {k : Key} {h : Reader} {i j m n : Nat}

/-- What holds first and not at last holds on for some time and then ends. -/
theorem exists_first {P : Nat → Prop} (first : P n) (last : ¬ P j) (le : n ≤ j) :
    ∃ m, n ≤ m ∧ m < j ∧ (∀ i, n ≤ i → i ≤ m → P i) ∧ ¬ P (m + 1) := by
  obtain ⟨d, rfl⟩ := Nat.exists_eq_add_of_le le
  clear le
  induction d generalizing n with
  | zero => exact absurd first last
  | succ d ih =>
    by_cases next : P (n + 1)
    · obtain ⟨m, le, lt, all, ends⟩ := ih next (by rwa [Nat.add_right_comm])
      refine ⟨m, by omega, by omega, fun i le_i i_le => ?_, ends⟩
      rcases Nat.eq_or_lt_of_le le_i with rfl | lt_i
      · exact first
      · exact all i lt_i i_le
    · exact ⟨n, Nat.le_refl n, by omega, fun i le_i i_le => Nat.le_antisymm le_i i_le ▸ first, next⟩

/-- What holds first and not at last ends at some moment in between. -/
theorem exists_end {P : Nat → Prop} (first : P n) (last : ¬ P j) (le : n ≤ j) :
    ∃ m, n ≤ m ∧ m < j ∧ P m ∧ ¬ P (m + 1) := by
  obtain ⟨m, le, lt, all, ends⟩ := exists_first first last le
  exact ⟨m, le, lt, all m le (Nat.le_refl m), ends⟩

theorem called (n : Nat) : (r.state n).keys.Called := by
  have init : (r.state 0).keys.Called := by
    rw [r.state_zero]
    refine ⟨?_, ?_, ?_⟩ <;> simp [Session.start, keys, task?]
  exact r.kept_keys (P := Keys.Called) init (Nat.zero_le n) fun hv hs h => hs.called hv h

theorem built_mono (built : ((r.state m).source c).built = true) (le : m ≤ n) :
    ((r.state n).source c).built = true :=
  r.kept_keys (P := fun v => v.built c = true) built le fun hv hs h => hs.built hv h

/-- A source that is opened while a writer has the key is not that of a later reader. -/
theorem not_built (writes : (r.state m).Writes w k) (le : m ≤ j)
    (slot : (r.state j).keys.slot k = some (.reader c)) :
    ((r.state m).source c).built = false := by
  rw [← Bool.not_eq_true]
  intro built
  have barred : (r.state m).keys.Barred k c :=
    (r.sound m).keys.barred_of_built ((r.sound m).slot_of_writes writes) built
  have barred : (r.state j).keys.Barred k c :=
    r.kept_keys (P := fun v => v.Barred k c) barred le fun hv hs h => hs.barred hv h
  exact barred.not_slot (r.sound j).keys slot

theorem not_built_of_released (writes : (r.state m).Writes w k)
    (released : ¬ (r.state (m + 1)).Writes w k) (le : m ≤ j)
    (slot : (r.state j).keys.slot k = some (.reader c)) :
    ((r.state (m + 1)).source c).built = false := by
  have same := (r.step m).built_of_released (r.sound m).keys (writes_iff.1 writes)
    fun hw => released (writes_iff.2 hw)
  exact (congrFun same c).trans (r.not_built writes le slot)

/-- A source that is not opened was never read. -/
theorem answers_of_not_built (own : ¬ (r.state n).keys.Apart c)
    (unbuilt : ((r.state n).source c).built = false) : r.answers c n = [] := by
  refine (r.faithful c n own).unread ?_
  rw [← Bool.not_eq_true]
  intro cached
  obtain ⟨k, x, hx⟩ := cached_iff.1 cached
  have built : ((r.state n).source c).built = true := (r.called n).cached hx
  rw [unbuilt] at built
  cases built

/-- What a reader of the key has to do with a writer before it. -/
structure Follows (r : Run (Session.start config workers)) (n j : Nat) (w x c : CallId) (k : Key) :
    Prop where
  /-- The lease is given back, the factory is called later, and no read is answered before that. -/
  order : ∃ m f, n ≤ m ∧ m < f ∧ f < j ∧
    (r.state m).Writes w k ∧ ¬ (r.state (m + 1)).Writes w k ∧
    (∀ i, i ≤ f → ((r.state i).source c).built = false) ∧
    ((r.state (f + 1)).source c).built = true ∧ r.answers c f = []
  /-- All that the reader is given comes from these answers. -/
  given : ∀ id d, (r.state j).delivery? (.move (.call id)) = some d → d.reading.reader = x →
    d.given = ((r.content c j).drop d.request.position).take d.outcome.count ∧
      d.given.length = d.outcome.count

/-- The source of a reader that comes after a writer of the key was opened after the lease of the
writer was given back. -/
theorem follows (writes : (r.state n).Writes w k) (le : n ≤ j)
    (reads : (r.state j).Reads x c) (same : (r.state j).keyOf c = k) :
    r.Follows n j w x c k := by
  have hs := r.sound j
  have slot : (r.state j).keys.slot k = some (.reader c) := same ▸ hs.slot_of_reads reads
  refine ⟨?_, fun id d hd hx => ?_⟩
  · have gone : ¬ (r.state j).Writes w k := by
      intro writes
      have lease : (r.state j).keys.slot k = some (.writer w) := hs.slot_of_writes writes
      rw [slot] at lease
      cases lease
    -- The lease ends between the two moments, and the factory is called after that.
    obtain ⟨m, le_m, lt_m, held, released⟩ :=
      exists_end (P := fun i => (r.state i).Writes w k) writes gone le
    have before := r.not_built_of_released held released (Nat.le_of_lt lt_m) slot
    obtain ⟨y, hy⟩ := hs.keys.cache_of_slot slot
    have built : ((r.state j).source c).built = true := (r.called j).cached hy
    obtain ⟨f, lt_f, f_lt, unbuilt, called⟩ :=
      exists_end (P := fun i => ((r.state i).source c).built = false) before
        (by simp [built]) (Nat.succ_le_of_lt lt_m)
    have own : ¬ (r.state f).keys.Apart c := by
      intro apart
      have apart : (r.state j).keys.Apart c :=
        r.kept_keys (P := fun v => v.Apart c) apart (Nat.le_of_lt f_lt) fun hv hs h => hs.apart hv h
      have none := apart.2.2
      rw [hy] at none
      cases none
    refine ⟨m, f, le_m, lt_f, f_lt, held, released, fun i hi => ?_, by simpa using called,
      r.answers_of_not_built own unbuilt⟩
    rw [← Bool.not_eq_true]
    intro early
    have late := r.built_mono early hi
    rw [unbuilt] at late
    cases late
  · obtain ⟨id', event, delivers⟩ := delivers_of_delivery? hd
    obtain ⟨h, hr, rfl⟩ := reads
    have handle := delivers.handle
    rw [hx, hr] at handle
    cases handle
    exact r.given_eq delivers (Nat.le_refl j)

end SharedStream.Run

namespace SharedStream.Session

/-- The writer gives the key back, and a reader opens it again. -/
def handBack : List Event :=
  handOver ++ [.begin 3 (.part 2 .close), .move (.call 3), .move (.call 3), .move (.call 3)] ++
    .begin 4 (.openReader ⟨"a"⟩ none {}) :: List.replicate 3 (.move (.call 4))

theorem follows_handBack : ∃ plays : (start {} 1).Plays handBack,
    (Run.ofList plays).Follows 20 28 2 4 4 ⟨"a"⟩ := by
  have plays : (start {} 1).Plays handBack := by
    unfold Plays
    decide
  have writes : ((start {} 1).play handBack 20).Writes 2 ⟨"a"⟩ :=
    ⟨{ key := ⟨"a"⟩ }, by decide, rfl⟩
  have reads : ((start {} 1).play handBack 28).Reads 4 4 := ⟨{ cache := 4 }, by decide, rfl⟩
  have same : ((start {} 1).play handBack 28).keyOf 4 = ⟨"a"⟩ := by decide
  exact ⟨plays, (Run.ofList plays).follows writes (by decide) reads same⟩

end SharedStream.Session
