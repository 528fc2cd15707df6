import Mathlib.Data.Set.Card
import SharedStream.Proofs.Owners
import SharedStream.Proofs.Pools.Places

/-! # What the statistics of a registry count

The counts of a registry come from its slots and its pool. In a settled session they agree with what
is there to be counted: keys, handles, calls in progress, and caches whose load is not done.
-/
namespace SharedStream

/-! ## Counting -/

theorem encard_eq_length {α : Type} [DecidableEq α] {A : Set α} {l : List α} (h : l.Nodup)
    (mem : ∀ a, a ∈ l ↔ a ∈ A) : A.encard = l.length := by
  have same : A = (l.toFinset : Set α) := by
    ext a
    simp [mem]
  rw [same, Set.encard_coe_eq_coe_finsetCard, List.toFinset_card_of_nodup h]

theorem Table.encard_eq_countP {κ α : Type} [DecidableEq κ] (t : Table κ α) (p : α → Bool) :
    {k | ∃ a, t.get? k = some a ∧ p a = true}.encard = t.countP p := by
  rw [countP, List.countP_eq_length_filter, ← List.length_map (f := Prod.fst)]
  refine encard_eq_length ((List.filter_sublist.map _).nodup t.nodup) fun k => ?_
  simp [← mem_entries_iff]

/-- If each element on one side belongs to one on the other side, there are as many. -/
theorem encard_eq_of_pairs {α β : Type} {R : α → β → Prop}
    (left : ∀ {a a' b}, R a b → R a' b → a = a') (right : ∀ {a b b'}, R a b → R a b' → b = b') :
    {a | ∃ b, R a b}.encard = {b | ∃ a, R a b}.encard := by
  have le : ∀ {γ δ : Type} {Q : γ → δ → Prop}, (∀ {c c' d}, Q c d → Q c' d → c = c') →
      {c | ∃ d, Q c d}.encard ≤ {d | ∃ c, Q c d}.encard := by
    intro γ δ Q unique
    choose f hf using fun c : {c | ∃ d, Q c d} => c.2
    refine Function.Embedding.encard_le ⟨fun c => ⟨f c, c, hf c⟩, fun c c' same => ?_⟩
    have same : f c = f c' := congrArg Subtype.val same
    exact Subtype.ext (unique (hf c) (same ▸ hf c'))
  exact le_antisymm (le left) (le fun h h' => right h h')

namespace Session
open Keys

variable {s : Session} {id c w : CallId} {k : Key}

/-! ## What there is to be counted -/

/-- The call opens a reader and runs its factory or fills the cache itself. -/
def Fills (s : Session) (id : CallId) : Prop :=
  ∃ k, (∃ mode, s.task? id = some (.makeSource k mode)) ∨ ∃ l, s.task? id = some (.fill k l)

/-- The call opens a reader and runs loads in the place of a worker that was denied a thread. -/
def StandsIn (s : Session) (id : CallId) : Prop := ∃ k i, s.task? id = some (.standIn k i)

/-- The call opens a writer and waits until a cache is torn down. -/
def Clears (s : Session) (id : CallId) : Prop :=
  ∃ k c, s.task? id = some (.awaitCache k c)

/-- The statistics of the registry agree with the keys, the handles, the calls and the caches. -/
structure Accounted (s : Session) : Prop where
  cached : (s.stats.readers : ℕ∞) = {k | (s.registry.cache? k).isSome}.encard
  snapshot : s.stats.readers = s.snapshot.length
  writerCount : s.stats.writers = s.registry.writerCount
  writers : (s.stats.writers : ℕ∞) = {w | ∃ k, s.Writes w k}.encard
  opening : (s.stats.opening : ℕ∞) = {id | s.Fills id ∨ s.StandsIn id}.encard
  closing : (s.stats.closing : ℕ∞) = {id | s.Clears id}.encard

/-! ## Slots -/

theorem length_caches : (s.registry.caches.length : ℕ∞) =
    {k | (s.registry.cache? k).isSome}.encard := by
  have length : s.registry.caches.length = s.registry.slots.countP (!·.isTaken) := by
    rw [Registry.caches, List.length_filterMap_eq_countP, Table.values, List.countP_map,
      Table.countP]
    refine List.countP_congr fun e _ => ?_
    cases h : e.2 <;> simp [h, Slot.isTaken]
  rw [length, ← Table.encard_eq_countP]
  congr 1
  ext k
  show (∃ x, _) ↔ (Registry.cache? _ k).isSome = true
  unfold Registry.cache?
  cases s.registry.slots.get? k with
  | none => simp
  | some x => cases x <;> simp [Slot.isTaken]

theorem Sound.length_snapshot (hs : s.Sound) :
    s.snapshot.length = s.registry.caches.length := by
  rw [snapshot, List.length_mergeSort, List.length_filterMap_eq_countP, List.countP_eq_length]
  intro c hc
  obtain ⟨k, slot⟩ := mem_caches_iff.1 hc
  have cached := cached_iff.2 ⟨k, hs.keys.cache_of_slot slot⟩
  obtain ⟨x, hx⟩ := Option.isSome_iff_exists.1 cached
  simp [hx]

theorem Sound.writerCount_eq (hs : s.Sound) :
    (s.registry.writerCount : ℕ∞) = {w | ∃ k, s.Writes w k}.encard := by
  have pairs : {k | ∃ w, s.Writes w k}.encard = {w | ∃ k, s.Writes w k}.encard := by
    refine encard_eq_of_pairs (R := fun k w => s.Writes w k) ?_ ?_
    · rintro k k' w ⟨h, hw, rfl⟩ ⟨h', hw', rfl⟩
      cases hw.symm.trans hw'
      rfl
    · intro k w w' writes writes'
      cases (hs.slot_of_writes writes).symm.trans (hs.slot_of_writes writes')
      rfl
  rw [← pairs, Registry.writerCount, ← Table.encard_eq_countP]
  congr 1
  ext k
  constructor
  · rintro ⟨x, slot, leased⟩
    cases x with
    | writer w => exact ⟨w, hs.writes_of_slot slot⟩
    | _ => cases leased
  · rintro ⟨w, writes⟩
    exact ⟨_, hs.slot_of_writes writes, rfl⟩

/-- A slot in transition has one call that answers for it. -/
theorem Sound.count_passing (hs : s.Sound) {x : Slot} (passing : x.isPassing = true) :
    (s.registry.slots.countP (· = x) : ℕ∞) =
      {id | ∃ k, s.keys.stake id = some (k, x)}.encard := by
  have pairs : {k | ∃ id, s.keys.stake id = some (k, x)}.encard =
      {id | ∃ k, s.keys.stake id = some (k, x)}.encard := by
    refine encard_eq_of_pairs (R := fun k id => s.keys.stake id = some (k, x)) ?_ ?_
    · intro k k' id own own'
      cases own.symm.trans own'
      rfl
    · intro k id id' own own'
      exact hs.keys.agree.unique own own'
  rw [← pairs, ← Table.encard_eq_countP]
  congr 1
  ext k
  constructor
  · rintro ⟨y, slot, same⟩
    obtain rfl : y = x := by simpa using same
    exact exists_stake hs.keys slot passing
  · rintro ⟨id, own⟩
    exact ⟨x, hs.keys.agree.slot_eq own, by simp⟩

theorem Attentive.fills_iff (ha : s.Attentive) (settled : s.Settled) :
    (∃ k, s.keys.stake id = some (k, .opening)) ↔ s.Fills id ∨ s.StandsIn id := by
  constructor
  · rintro ⟨k, own⟩
    rcases stake_eq_opening_iff.1 own with makes | builds
    · exact .inl ⟨k, .inl (task_of_makes makes)⟩
    · rcases task_of_builds builds with filling | ⟨i, ht⟩ | ht
      · exact .inl ⟨k, .inr filling⟩
      · exact .inr ⟨k, i, ht⟩
      · exact absurd ht (ha.not_passing settled id id k).1
  · rintro (⟨k, ⟨mode, ht⟩ | ⟨l, ht⟩⟩ | ⟨k, i, ht⟩)
    · exact ⟨k, Valid.stake_of_opens (.inl (role_of_task ht))⟩
    · exact ⟨k, Valid.stake_of_opens (.inr (role_of_task ht))⟩
    · exact ⟨k, Valid.stake_of_opens (.inr (role_of_task ht))⟩

theorem Attentive.clears_iff (ha : s.Attentive) (settled : s.Settled) :
    (∃ k, s.keys.stake id = some (k, .closing)) ↔ s.Clears id := by
  constructor
  · rintro ⟨k, own⟩
    rcases stake_eq_closing_iff.1 own with ⟨c, retires⟩ | leases
    · exact ⟨k, c, ha.awaits_of_retires settled retires⟩
    · obtain ⟨a, ht, role⟩ := Option.bind_eq_some_iff.1 leases
      cases a <;> cases role
      exact absurd ht (ha.not_passing settled id id k).2.2.2
  · rintro ⟨k, c, ht⟩
    exact ⟨k, stake_eq_closing_iff.2 (.inl ⟨c, role_of_task ht⟩)⟩

/-- In a settled session the slots of the registry agree with the handles and the calls. -/
theorem Reach.accounted {config : CacheConfig} {workers : Nat} (h : Reach (start config workers) s)
    (settled : s.Settled) : s.Accounted where
  cached := length_caches
  snapshot := h.sound.length_snapshot.symm
  writerCount := rfl
  writers := h.sound.writerCount_eq
  opening := by
    have count := h.sound.count_passing (x := .opening) rfl
    simp only [h.attentive.fills_iff settled] at count
    exact count
  closing := by
    have count := h.sound.count_passing (x := .closing) rfl
    simp only [h.attentive.clears_iff settled] at count
    exact count

end Session

namespace Run
open Session

variable {config : CacheConfig} {workers : Nat} (r : Run (start config workers)) {m : Nat}

/-- The caches whose load is not done are as many as the pool counts, but for those whose load was
taken over by a call that stands in for a worker. -/
theorem unloaded (settled : (r.state m).Settled) (going : (r.state m).registry.ended = false) :
    (((r.state m).stats.loadsActive + (r.state m).stats.loadsQueued : ℕ) : ℕ∞) =
      {c | (r.state m).Unloaded c ∧ ¬ r.TakenOver .registry c m}.encard := by
  have count := encard_eq_length
    (A := {c | (r.state m).Unloaded c ∧ ¬ r.TakenOver .registry c m}) (r.nodup_undone m)
    fun c => r.mem_undone_iff settled going
  rw [count, List.length_map, r.length_undone settled]
  rfl

/-- What the statistics of the registry count. -/
structure Accounts (r : Run (start config workers)) (m : Nat) : Prop
    extends (r.state m).Accounted where
  /-- A registry that has ended has nobody to ask for its statistics. -/
  loads : (r.state m).registry.ended = false →
    (((r.state m).stats.loadsActive + (r.state m).stats.loadsQueued : ℕ) : ℕ∞) =
      {c | (r.state m).Unloaded c ∧ ¬ r.TakenOver .registry c m}.encard
  /-- If every worker has got a thread, nobody stands in for one and no load was taken over. -/
  threaded : (r.state m).registry.pool.Threaded →
    ((r.state m).stats.opening : ℕ∞) = {id | (r.state m).Fills id}.encard ∧
      ((r.state m).registry.ended = false →
        (((r.state m).stats.loadsActive + (r.state m).stats.loadsQueued : ℕ) : ℕ∞) =
          {c | (r.state m).Unloaded c}.encard)

end Run

namespace Session

/-- A cache is torn down while its load waits in a read, the load of another one is queued, a third
one is filled by its call, and a fourth key is leased. -/
def engaged : List Event :=
  [.begin 0 (.openReader ⟨"a"⟩ (some .async) { gated := true }), .move (.call 0), .move (.call 0),
    .move (.call 0), .move (.worker .registry 0), .move (.worker .registry 0),
    .move (.worker .registry 0), .move (.worker .registry 0),
    .begin 1 (.openReader ⟨"b"⟩ (some .async) {}), .move (.call 1),
    .move (.call 1), .move (.call 1), .begin 2 (.openReader ⟨"c"⟩ (some .sync) { gated := true }),
    .move (.call 2), .move (.call 2), .move (.call 2), .move (.call 2), .move (.call 2),
    .begin 3 (.openWriter ⟨"d"⟩ {}), .move (.call 3), .begin 4 (.part 0 .close), .move (.call 4),
    .move (.call 4), .move (.call 4), .begin 5 (.openWriter ⟨"a"⟩ {}), .move (.call 5),
    .move (.call 5), .move (.call 5), .move (.call 5)]

end Session
end SharedStream
