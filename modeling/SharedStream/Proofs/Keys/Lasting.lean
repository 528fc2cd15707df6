import SharedStream.Proofs.Keys.Steps

/-! # What lasts

Facts of the keys that no step takes back.
-/
namespace SharedStream.Keys
open Function

variable {v v' : Keys} {who : Option CallId} {id c : CallId} {k : Key}

/-- The call has ended, or never was one that opens anything, and there is no cache by its name. -/
def Apart (v : Keys) (c : CallId) : Prop := c < v.clock ∧ v.role c = none ∧ v.cache c = none

namespace Step

theorem clock_le (hs : v.Step who v') : v.clock ≤ v'.clock := by
  cases hs with
  | enter id role built kept later => exact Nat.le_succ_of_le later
  | _ => exact Nat.le_refl _

/-- A cache keeps its key. -/
theorem cached (h : v.Valid) (hs : v.Step who v') (hc : ∃ n, v.cache c = some (k, n)) :
    ∃ n, v'.cache c = some (k, n) := by
  cases hs with
  | attach _ _ own => exact Valid.cache_update own _ hc
  | register builds => exact Valid.cache_update (h.count_of_builds builds).1 _ hc
  | leave _ own => exact Valid.cache_update own _ hc
  | @build id k' makes =>
    obtain ⟨n, hn⟩ := hc
    have hne : c ≠ id := by
      rintro rfl
      simp [h.no_cache (.inr makes)] at hn
    exact ⟨n, by rw [← hn]; exact update_of_ne hne _ _⟩
  | _ => exact hc

/-- Only new calls open anything. -/
theorem ended (hs : v.Step who v') (later : id < v.clock) (role : v.role id = none) :
    v'.role id = none := by
  cases hs <;> grind [update_apply]

theorem apart (h : v.Valid) (hs : v.Step who v') (hc : v.Apart c) : v'.Apart c := by
  obtain ⟨later, role, cache⟩ := hc
  refine ⟨Nat.lt_of_lt_of_le later hs.clock_le, hs.ended later role, ?_⟩
  cases hs with
  | attach _ _ own => exact Valid.cache_update_none own _ cache
  | register builds => exact Valid.cache_update_none (h.count_of_builds builds).1 _ cache
  | leave _ own => exact Valid.cache_update_none own _ cache
  | @build id k' makes =>
    have hne : c ≠ id := by
      rintro rfl
      simp [role] at makes
    rw [← cache]
    exact update_of_ne hne _ _
  | _ => exact cache

/-- A call that has ended gets no handle any more. -/
theorem reader_of_ended (hs : v.Step who v') (role : v.role id = none)
    (hr : v'.reader.get? id = some c) : v.reader.get? id = some c := by
  cases hs <;> grind [Table.get?_set, Table.get?_erase]

theorem writer_of_ended (hs : v.Step who v') (role : v.role id = none)
    (hw : v'.writer id = some k) : v.writer id = some k := by
  cases hs <;> grind [update_apply]

/-- No call has both a handle for reading and one for writing. -/
theorem single (hv : v.Valid) (hs : v.Step who v')
    (h : v.reader.get? id = none ∨ v.writer id = none) :
    v'.reader.get? id = none ∨ v'.writer id = none := by
  cases role : v.role id with
  | some x =>
    obtain ⟨reader, writer⟩ := hv.no_handle role
    cases hs <;> grind [update_apply, Table.get?_set, Table.get?_erase]
  | none =>
    rcases h with reader | writer
    · left
      cases after : v'.reader.get? id with
      | none => rfl
      | some c => cases reader.symm.trans (hs.reader_of_ended role after)
    · right
      cases after : v'.writer id with
      | none => rfl
      | some k => cases writer.symm.trans (hs.writer_of_ended role after)

/-- A call tears a cache down that it has found in the slot of its key, and that nobody reads. -/
theorem of_retires (hs : v.Step who v') (before : v.role id = some (.seeks k))
    (after : v'.role id = some (.retires k c)) :
    v.slot k = some (.reader c) ∧ v.cache c = some (k, 0) := by
  cases hs <;> grind [update_apply]

/-- A cache comes into the slot of its key when its call is through with it, which is its first
reader. -/
theorem reader_of_after (hs : v.Step who v') (slot : v'.slot k = some (.reader c)) :
    v.slot k = some (.reader c) ∨
      who = some c ∧ v.role c = some (.builds k) ∧ v'.reader.get? c = some c := by
  cases hs <;> grind [update_apply, Table.get?_set]

end Step

/-! ## Caches that nobody finds any more -/

/-- The call does not open any cache any more. -/
structure Past (v : Keys) (c : CallId) : Prop where
  later : c < v.clock
  role : ∀ k, v.role c ≠ some (.seeks k) ∧ v.role c ≠ some (.makes k) ∧ v.role c ≠ some (.builds k)

/-- Nobody finds the cache, and nobody will. -/
structure Spent (v : Keys) (c : CallId) : Prop extends v.Past c where
  slot : ∀ k, v.slot k ≠ some (.reader c)

theorem Step.past (hs : v.Step who v') (h : v.Past c) : v'.Past c := by
  obtain ⟨later, role⟩ := h
  refine ⟨Nat.lt_of_lt_of_le later hs.clock_le, ?_⟩
  cases hs <;> grind [update_apply]

theorem Step.spent (hs : v.Step who v') (h : v.Spent c) : v'.Spent c := by
  refine ⟨hs.past h.toPast, ?_⟩
  obtain ⟨⟨later, role⟩, slot⟩ := h
  cases hs <;> grind [update_apply]

namespace Valid

theorem slot_of_retires (h : v.Valid) (retires : v.role id = some (.retires k c)) :
    v.slot k = some .closing := by
  have stake : v.stake id = some (k, .closing) := by simp [stake, stakeOf, retires]
  exact h.agree.slot_eq stake

/-- Whoever has a cache that is not being built has opened it. -/
theorem past_of_cache (h : v.Valid) {n : Int} (hc : v.cache c = some (k, n))
    (built : v.slot k ≠ some .opening) : v.Past c := by
  refine ⟨h.lt_clock_of_cache hc, fun k' => ⟨?_, ?_, ?_⟩⟩
  · intro seeks
    simp [h.no_cache (.inl seeks)] at hc
  · intro makes
    simp [h.no_cache (.inr makes)] at hc
  · intro builds
    obtain ⟨n', hn'⟩ := h.cache_of_builds builds
    have opening := h.agree.slot_eq (stake_of_opens (.inr builds))
    rw [hc] at hn'
    cases hn'
    exact built opening

/-- A cache that is not in the slot of its key cannot be found. -/
theorem spent_of_cache (h : v.Valid) {n : Int} (hc : v.cache c = some (k, n))
    (built : v.slot k ≠ some .opening) (absent : v.slot k ≠ some (.reader c)) : v.Spent c := by
  refine ⟨h.past_of_cache hc built, fun k' slot => ?_⟩
  obtain ⟨n', hn'⟩ := h.cache_of_slot slot
  rw [hc] at hn'
  cases hn'
  exact absent slot

end Valid

/-! ## Who takes part in a step -/

theorem Step.role_of_ne (hs : v.Step who v') (ne : who ≠ some id) : v'.role id = v.role id := by
  cases hs <;> grind [update_apply]

/-- A call that runs its factory has nothing else to do but to build a cache. -/
theorem Step.of_makes (hv : v.Valid) (hs : v.Step who v') (makes : v.role c = some (.makes k)) :
    v'.role c = some (.makes k) ∨ v'.role c = some (.builds k) ∨ v'.role c = none := by
  have later := hv.lt_clock_of_role makes
  by_cases ne : who = some c
  · subst ne
    cases hs with
    | enter _ _ _ _ fresh => exact absurd later (Nat.not_lt_of_le fresh)
    | _ => grind [update_apply]
  · exact .inl (by rw [hs.role_of_ne ne, makes])

/-- The registry has ended, and nobody opens anything. -/
structure Over (v : Keys) : Prop where
  held : v.held = false
  role : ∀ id, v.role id = none
  slot : ∀ k, v.slot k = none

theorem Step.idle (hs : v.Step who v') (h : v.Over) : v'.Over := by
  obtain ⟨held, role, slot⟩ := h
  cases hs with
  | quiet => exact ⟨held, role, slot⟩
  | enter id r built kept later hr =>
    have none : r = none := by
      cases r with
      | none => rfl
      | some x => simp [held] at hr
    subst none
    refine ⟨by simp [held], fun i => ?_, slot⟩
    simp [update_apply, role]
  | leave => exact ⟨held, role, slot⟩
  | giveBack => exact ⟨held, role, fun k => by simp [update_apply, slot]⟩
  | finish => exact ⟨held, role, fun _ => rfl⟩
  | refuse own | claim own | attach own | build own | abandon own | register own | retire own
  | retired own | grant own => simp [role] at own

/-- The cache is built, found by readers or torn down. -/
def Current (v : Keys) (k : Key) (c : CallId) : Prop :=
  v.role c = some (.builds k) ∨ v.slot k = some (.reader c) ∨
    ∃ id, v.role id = some (.retires k c)

/-- A cache leaves its slot when it is torn down or the registry ends. -/
theorem Step.current_of_slot (hv : v.Valid) (hs : v.Step who v') (h : v.slot k = some (.reader c)) :
    v'.Current k c ∨ who = none ∧ v'.Over := by
  have kept : ∀ {k' : Key} {x : Option Slot}, v.slot k' ≠ some (.reader c) →
      update v.slot k' x k = some (.reader c) := by
    intro k' x other
    have ne : k ≠ k' := by
      rintro rfl
      exact other h
    rw [update_of_ne ne, h]
  have opening : ∀ {id k'}, v.role id = some (.makes k') ∨ v.role id = some (.builds k') →
      v.slot k' ≠ some (.reader c) := by
    intro id k' own
    simp [hv.agree.slot_eq (Valid.stake_of_opens own)]
  cases hs with
  | claim _ free => exact .inl (.inr (.inl (kept (by simp [free]))))
  | abandon own => exact .inl (.inr (.inl (kept (opening own))))
  | register builds => exact .inl (.inr (.inl (kept (opening (.inr builds)))))
  | @retire id c' k' seeks open_ =>
    by_cases hc : c' = c
    · subst hc
      have same := hv.key_unique h open_
      subst same
      exact .inl (.inr (.inr ⟨id, by simp⟩))
    · exact .inl (.inr (.inl (kept (by simp [open_, hc]))))
  | @grant id k' own =>
    refine .inl (.inr (.inl (kept ?_)))
    rcases own with ⟨-, free⟩ | leases
    · simp [free]
    · have stake : v.stake id = some (k', .closing) := by simp [stake, stakeOf, leases]
      simp [hv.agree.slot_eq stake]
  | giveBack writes =>
    refine .inl (.inr (.inl (kept ?_)))
    simp [hv.agree.slot_eq (hv.stake_of_writer writes)]
  | finish held _ _ roles => exact .inr ⟨rfl, held, roles, fun _ => rfl⟩
  | _ => exact .inl (.inr (.inl h))

/-- The ways in which a cache is no longer current. -/
theorem Step.current (hv : v.Valid) (hs : v.Step who v') (h : v.Current k c) :
    v'.Current k c ∨ (who = none ∧ v'.Over) ∨
      (who = some c ∧ v.role c = some (.builds k) ∧ v'.role c = none) ∨
      ∃ id, who = some id ∧ v.role id = some (.retires k c) ∧ v'.role id = some (.leases k) := by
  rcases h with builds | slot | ⟨id, retires⟩
  · by_cases ne : who = some c
    · subst ne
      cases hs <;> grind [update_apply, Current, Valid]
    · exact .inl (.inl (by rw [hs.role_of_ne ne, builds]))
  · exact (hs.current_of_slot hv slot).imp_right .inl
  · by_cases ne : who = some id
    · subst ne
      cases hs <;> grind [update_apply, Current, Valid]
    · exact .inl (.inr (.inr ⟨id, by rw [hs.role_of_ne ne, retires]⟩))

/-- A cache is made by the call whose factory has given its source, and begins as one that is
built. -/
theorem Step.build_of_new (hv : v.Valid) (hs : v.Step who v') (before : v.cache c = none) {n : Int}
    (after : v'.cache c = some (k, n)) :
    who = some c ∧ v.role c = some (.makes k) ∧ v'.role c = some (.builds k) := by
  cases hs with
  | attach _ _ own => simp [Valid.cache_update_none own _ before] at after
  | leave _ own => simp [Valid.cache_update_none own _ before] at after
  | register builds =>
    simp [Valid.cache_update_none (hv.count_of_builds builds).1 _ before] at after
  | @build id k' makes =>
    have after : update v.cache id (some (k', 0)) c = some (k, n) := after
    by_cases hid : c = id
    · subst hid
      simp only [update_self, Option.some.injEq, Prod.mk.injEq] at after
      obtain ⟨rfl, -⟩ := after
      exact ⟨rfl, makes, update_self ..⟩
    · simp [update_of_ne hid, before] at after
  | _ =>
    have after : v.cache c = some (k, n) := after
    simp [before] at after

theorem Step.builds_of_new (hv : v.Valid) (hs : v.Step who v') (before : v.cache c = none) {n : Int}
    (after : v'.cache c = some (k, n)) : v'.role c = some (.builds k) :=
  (hs.build_of_new hv before after).2.2

/-! ## Factories -/

/-- A call of a factory is not taken back. -/
theorem Step.built (hv : v.Valid) (hs : v.Step who v') (h : v.built c = true) :
    v'.built c = true := by
  cases hs <;> grind [update_apply, Valid]

/-- Whoever runs or has run a factory has called it. -/
structure Called (v : Keys) : Prop where
  makes : ∀ {c k}, v.role c = some (.makes k) → v.built c = true
  builds : ∀ {c k}, v.role c = some (.builds k) → v.built c = true
  cached : ∀ {c x}, v.cache c = some x → v.built c = true

theorem Step.called (hv : v.Valid) (hs : v.Step who v') (h : v.Called) : v'.Called := by
  have builds : ∀ {c k}, v'.role c = some (.builds k) → v'.built c = true := by
    intro c k hc
    cases hs <;> grind [update_apply, Called, Valid]
  refine ⟨?_, builds, fun {c x} hc => ?_⟩
  · intro c k hc
    cases hs <;> grind [update_apply, Called, Valid]
  · cases before : v.cache c with
    | some y => exact hs.built hv (h.cached before)
    | none => exact builds (hs.builds_of_new hv before hc)

/-- The call has called its factory only once it has had its turn. -/
theorem Valid.past_of_built (hv : v.Valid) (built : v.built c = true) :
    (∃ k, v.role c = some (.makes k) ∨ v.role c = some (.builds k)) ∨ v.Past c := by
  have later : c < v.clock := by
    by_contra later
    simp [(hv.fresh (Nat.le_of_not_lt later)).2.2.2.2] at built
  by_cases opens : ∃ k, v.role c = some (.makes k) ∨ v.role c = some (.builds k)
  · exact .inl opens
  · refine .inr ⟨later, fun k => ⟨?_, fun h => opens ⟨k, .inl h⟩, fun h => opens ⟨k, .inr h⟩⟩⟩
    intro seeks
    simp [hv.not_built seeks] at built

/-- No call gets to the source in the slot of the key: the cache cannot be found, or it is one of
another key. -/
def Barred (v : Keys) (k : Key) (c : CallId) : Prop :=
  v.Spent c ∨ ∃ k', k' ≠ k ∧ (v.role c = some (.makes k') ∨ ∃ n, v.cache c = some (k', n))

theorem Valid.spent_of_uncached (hv : v.Valid) (past : v.Past c) (none : v.cache c = none) :
    v.Spent c := by
  refine ⟨past, fun k slot => ?_⟩
  obtain ⟨n, hn⟩ := hv.cache_of_slot slot
  simp [none] at hn

/-- While a writer has the key, a source that was opened before does not get to its slot, -/
theorem Valid.barred_of_built (hv : v.Valid) {w : CallId} (slot : v.slot k = some (.writer w))
    (built : v.built c = true) : v.Barred k c := by
  have opening : ∀ {k'}, v.role c = some (.makes k') ∨ v.role c = some (.builds k') → k' ≠ k := by
    rintro k' own rfl
    have opening := hv.agree.slot_eq (stake_of_opens own)
    rw [slot] at opening
    cases opening
  rcases hv.past_of_built built with ⟨k', makes | builds⟩ | past
  · exact .inr ⟨k', opening (.inl makes), .inl makes⟩
  · exact .inr ⟨k', opening (.inr builds), .inr (hv.cache_of_builds builds)⟩
  · cases hc : v.cache c with
    | none => exact .inl (hv.spent_of_uncached past hc)
    | some x =>
      obtain ⟨k', n⟩ := x
      by_cases hk : k' = k
      · subst hk
        exact .inl (hv.spent_of_cache hc (by simp [slot]) (by simp [slot]))
      · exact .inr ⟨k', hk, .inr ⟨n, hc⟩⟩

/-- nor does it afterwards. -/
theorem Step.barred (hv : v.Valid) (hs : v.Step who v') (h : v.Barred k c) : v'.Barred k c := by
  rcases h with spent | ⟨k', hk, makes | cached⟩
  · exact .inl (hs.spent spent)
  · rcases hs.of_makes hv makes with makes' | builds | ended
    · exact .inr ⟨k', hk, .inl makes'⟩
    · exact .inr ⟨k', hk, .inr ((hv.step hs).cache_of_builds builds)⟩
    · -- The factory has failed, and without a role the call never makes a cache.
      have later := Nat.lt_of_lt_of_le (hv.lt_clock_of_role makes) hs.clock_le
      refine .inl ((hv.step hs).spent_of_uncached ⟨later, by simp [ended]⟩ ?_)
      cases hc : v'.cache c with
      | none => rfl
      | some x =>
        have builds := hs.builds_of_new hv (hv.no_cache (.inr makes)) hc
        rw [ended] at builds
        cases builds
  · exact .inr ⟨k', hk, .inr (hs.cached hv cached)⟩

theorem Barred.not_slot (hv : v.Valid) (h : v.Barred k c) : v.slot k ≠ some (.reader c) := by
  intro slot
  obtain ⟨n, hn⟩ := hv.cache_of_slot slot
  rcases h with spent | ⟨k', hk, makes | ⟨n', hn'⟩⟩
  · exact spent.slot k slot
  · simp [hv.no_cache (.inr makes)] at hn
  · rw [hn] at hn'
    cases hn'
    exact hk rfl

/-- No factory is called when a lease is given back. -/
theorem Step.built_of_released (hv : v.Valid) (hs : v.Step who v') {w : CallId}
    (hw : v.writer w = some k) (released : v'.writer w ≠ some k) : v'.built = v.built := by
  have role := hv.role_of_writer hw
  cases hs with
  | giveBack => rfl
  | @grant id k' own =>
    have ne : w ≠ id := by
      rintro rfl
      simp [role] at own
    exact absurd ((update_of_ne ne _ _).trans hw) released
  | _ => exact absurd hw released

end SharedStream.Keys
