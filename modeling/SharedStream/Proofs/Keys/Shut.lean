import SharedStream.Proofs.Keys.Lasting

/-! # Keys that nobody takes any more

When every call that seeks a key gives up, the slots change only by what was under way before, and
handles come only from there.
-/
namespace SharedStream.Keys
open Function

variable {v v' v₀ : Keys} {who : Option CallId} {id c w : CallId} {k : Key}

/-- A call that seeks a key gives up when it looks. -/
def Declines (v : Keys) (who : Option CallId) (v' : Keys) : Prop :=
  ∀ {id k}, who = some id → v.role id = some (.seeks k) →
    v' = { v with role := update v.role id none }

theorem Declines.cases (hd : v.Declines who v') :
    (∃ id k, who = some id ∧ v.role id = some (.seeks k) ∧
      v' = { v with role := update v.role id none }) ∨
    ∀ id k, who = some id → v.role id ≠ some (.seeks k) := by
  by_cases seeking : ∃ id k, who = some id ∧ v.role id = some (.seeks k)
  · obtain ⟨id, k, own, seeks⟩ := seeking
    exact .inl ⟨id, k, own, seeks, hd own seeks⟩
  · exact .inr fun id k own seeks => seeking ⟨id, k, own, seeks⟩

theorem stake_eq_opening_iff : v.stake id = some (k, .opening) ↔
    v.role id = some (.makes k) ∨ v.role id = some (.builds k) := by
  unfold stake stakeOf
  split <;> simp_all

theorem stake_eq_closing_iff : v.stake id = some (k, .closing) ↔
    (∃ c, v.role id = some (.retires k c)) ∨ v.role id = some (.leases k) := by
  unfold stake stakeOf
  split <;> simp_all

/-- What can still become of a slot. -/
inductive Ends (v v' : Keys) (who : Option CallId) (k : Key) : Prop
  /-- A cache is built, or its source has failed. -/
  | opening {id : CallId} : who = some id → v.stake id = some (k, .opening) →
      v'.slot k = none ∨ v'.slot k = some (.reader id) → Ends v v' who k
  /-- A cache is torn down for a writer. -/
  | closing {id : CallId} : who = some id → v.stake id = some (k, .closing) →
      v'.slot k = some (.writer id) → v'.writer id = some k → Ends v v' who k
  /-- A lease is given back. -/
  | release {w : CallId} : v.writer w = some k → v'.writer w = none → v'.slot k = none →
      Ends v v' who k
  /-- The registry has ended. -/
  | finish : who = none → v'.slot k = none → Ends v v' who k

theorem Step.ends_of_declines (hs : v.Step who v') (hd : v.Declines who v')
    (changed : v'.slot k ≠ v.slot k) : v.Ends v' who k := by
  have declined : ∀ {id k'}, who = some id → v.role id = some (.seeks k') → v'.slot k = v.slot k :=
    fun own seeks => by rw [hd own seeks]
  cases hs with
  | claim seeks | attach seeks | retire seeks => exact absurd (declined rfl seeks) changed
  | @abandon id k' own =>
    by_cases hk : k = k'
    · subst hk
      exact .opening rfl (stake_eq_opening_iff.2 own) (.inl (update_self ..))
    · exact absurd (update_of_ne hk _ _) changed
  | @register id k' own =>
    by_cases hk : k = k'
    · subst hk
      exact .opening rfl (stake_eq_opening_iff.2 (.inr own)) (.inr (update_self ..))
    · exact absurd (update_of_ne hk _ _) changed
  | @grant id k' own =>
    rcases own with ⟨seeks, -⟩ | leases
    · exact absurd (declined rfl seeks) changed
    by_cases hk : k = k'
    · subst hk
      exact .closing rfl (stake_eq_closing_iff.2 (.inr leases)) (update_self ..) (update_self ..)
    · exact absurd (update_of_ne hk _ _) changed
  | @giveBack _ w k' own =>
    by_cases hk : k = k'
    · subst hk
      exact .release own (update_self ..) (update_self ..)
    · exact absurd (update_of_ne hk _ _) changed
  | finish => exact .finish rfl rfl
  | _ => exact absurd rfl changed

/-- Whoever has a part in a key in `v` had one in `v₀`. -/
structure Closes (v₀ v : Keys) : Prop where
  opening : ∀ {id k}, v.stake id = some (k, .opening) → v₀.stake id = some (k, .opening)
  closing : ∀ {id k}, v.stake id = some (k, .closing) → v₀.stake id = some (k, .closing)
  reader : ∀ {id c}, v.reader.get? id = some c → v₀.reader.get? id = some c ∨
    ∃ k, (∃ n, v.cache c = some (k, n)) ∧ v₀.stake id = some (k, .opening)
  writer : ∀ {id k}, v.writer id = some k → v₀.writer id = some k ∨
    v₀.stake id = some (k, .closing)

theorem Closes.refl (v : Keys) : v.Closes v := ⟨id, id, .inl, .inl⟩

theorem Step.opening_of_declines (hs : v.Step who v') (hd : v.Declines who v')
    (h : v'.stake id = some (k, .opening)) : v.stake id = some (k, .opening) := by
  rw [stake_eq_opening_iff] at h ⊢
  rcases hd.cases with ⟨i, k', rfl, seeks, rfl⟩ | idle
  · grind [update_apply]
  · cases hs <;> grind [update_apply]

theorem Step.closing_of_declines (hs : v.Step who v') (hd : v.Declines who v')
    (h : v'.stake id = some (k, .closing)) : v.stake id = some (k, .closing) := by
  rw [stake_eq_closing_iff] at h ⊢
  rcases hd.cases with ⟨i, k', rfl, seeks, rfl⟩ | idle
  · grind [update_apply]
  · cases hs <;> grind [update_apply]

theorem Step.reader_of_declines (hs : v.Step who v') (hd : v.Declines who v')
    (h : v'.reader.get? id = some c) : v.reader.get? id = some c ∨
      ∃ k, (∃ n, v'.cache c = some (k, n)) ∧ v.stake id = some (k, .opening) := by
  simp only [stake_eq_opening_iff]
  rcases hd.cases with ⟨i, k', rfl, seeks, rfl⟩ | idle
  · exact .inl h
  cases hs with
  | attach seeks => exact absurd seeks (idle _ _ rfl)
  | @register i k' builds =>
    rw [Table.get?_set] at h
    split at h
    · next same =>
      cases h
      exact .inr ⟨k', ⟨1, update_self ..⟩, .inr (same ▸ builds)⟩
    · exact .inl h
  | leave =>
    rw [Table.get?_erase] at h
    split at h
    · cases h
    · exact .inl h
  | _ => exact .inl h

theorem Step.writer_of_declines (hs : v.Step who v') (hd : v.Declines who v')
    (h : v'.writer id = some k) : v.writer id = some k ∨ v.stake id = some (k, .closing) := by
  simp only [stake_eq_closing_iff]
  rcases hd.cases with ⟨i, k', rfl, seeks, rfl⟩ | idle
  · exact .inl h
  · cases hs <;> grind [update_apply]

theorem Closes.step (h : v₀.Closes v) (hv : v.Valid) (hs : v.Step who v')
    (hd : v.Declines who v') : v₀.Closes v' where
  opening own := h.opening (hs.opening_of_declines hd own)
  closing own := h.closing (hs.closing_of_declines hd own)
  reader reads := by
    rcases hs.reader_of_declines hd reads with before | ⟨k, cached, own⟩
    · refine (h.reader before).imp_right ?_
      rintro ⟨k, cached, own⟩
      exact ⟨k, hs.cached hv cached, own⟩
    · exact .inr ⟨k, cached, h.opening own⟩
  writer writes := (hs.writer_of_declines hd writes).elim h.writer fun own => .inr (h.closing own)

/-! ## Calls that take no part -/

/-- The call has called no factory and has no handle. -/
structure Bare (v : Keys) (id : CallId) : Prop where
  later : id < v.clock
  reader : v.reader.get? id = none
  writer : v.writer id = none
  built : v.built id = false

theorem Valid.bare_of_seeks (hv : v.Valid) (seeks : v.role id = some (.seeks k)) : v.Bare id :=
  ⟨hv.lt_clock_of_role seeks, (hv.no_handle seeks).1, (hv.no_handle seeks).2, hv.not_built seeks⟩

/-- Without a turn a call gets nothing. -/
theorem Step.bare (hs : v.Step who v') (hd : v.Declines who v') (h : v.Bare id)
    (idle : v.role id = none ∨ v.role id = some (.seeks k)) : v'.Bare id := by
  obtain ⟨later, reader, writer, built⟩ := h
  rcases hd.cases with ⟨i, k', rfl, seeks, rfl⟩ | waiting
  · exact ⟨later, reader, writer, built⟩
  · refine ⟨Nat.lt_of_lt_of_le later hs.clock_le, ?_, ?_, ?_⟩ <;>
      cases hs <;> grind [update_apply, Table.get?_set, Table.get?_erase]

end SharedStream.Keys
