import SharedStream.Proofs.Keys.Lasting

/-! # Who opens a key

A free key is taken by a call that seeks it, and a factory is called only by a call that has taken
its key so.
-/
namespace SharedStream

/-- The key that the call opens. -/
def Role.key : Role → Key
  | .seeks k | .makes k | .builds k | .retires k _ | .leases k => k

namespace Keys
open Function

variable {v v' : Keys} {who : Option CallId} {id c : CallId} {k : Key}

/-- What a call has after it has taken the key for itself: it opens a cache, or it has the lease. -/
def Taken (v : Keys) (id : CallId) (k : Key) : Prop :=
  v.slot k = some .opening ∧ v.role id = some (.makes k) ∧ v.built id = true ∨
    v.slot k = some (.writer id) ∧ v.writer id = some k

/-- A free key is taken by a call that seeks it. -/
theorem Step.taken (hv : v.Valid) (hs : v.Step who v') (free : v.slot k = none)
    (taken : v'.slot k ≠ none) : ∃ id, who = some id ∧ v.role id = some (.seeks k) ∧
      v'.Taken id k := by
  have changed : ∀ {k' : Key} {x : Option Slot}, update v.slot k' x k ≠ none → k = k' := by
    intro k' x taken
    by_contra ne
    exact taken (by rw [update_of_ne ne, free])
  cases hs with
  | @claim id k' seeks free' =>
    obtain rfl := changed taken
    exact ⟨id, rfl, seeks, .inl ⟨update_self .., update_self .., update_self ..⟩⟩
  | @grant id k' own =>
    obtain rfl := changed taken
    rcases own with ⟨seeks, -⟩ | leases
    · exact ⟨id, rfl, seeks, .inr ⟨update_self .., update_self ..⟩⟩
    · have stake : v.stake id = some (k, .closing) := by simp [stake, stakeOf, leases]
      cases free.symm.trans (hv.agree.slot_eq stake)
  | @register id k' own =>
    obtain rfl := changed taken
    cases free.symm.trans (hv.agree.slot_eq (Valid.stake_of_opens (.inr own)))
  | @retire id c k' seeks slot =>
    obtain rfl := changed taken
    cases free.symm.trans slot
  | @abandon id k' own =>
    obtain rfl := changed taken
    exact absurd (update_self ..) taken
  | @giveBack _ w k' own =>
    obtain rfl := changed taken
    exact absurd (update_self ..) taken
  | finish => exact absurd rfl taken
  | _ => exact absurd free taken

/-- A factory is called by a call that finds its key free, unless the source comes with a call that
opens nothing. -/
theorem Step.claim_of_built (hs : v.Step who v') (later : id < v.clock)
    (before : v.built id = false) (after : v'.built id = true) : who = some id ∧
      ∃ k, v.role id = some (.seeks k) ∧ v.slot k = none ∧
        v'.slot k = some .opening ∧ v'.role id = some (.makes k) := by
  cases hs with
  | @claim i k seeks free =>
    have same : id = i := by
      by_contra ne
      cases before.symm.trans ((update_of_ne ne _ _).symm.trans after)
    subst same
    exact ⟨rfl, k, seeks, free, update_self .., update_self ..⟩
  | @enter i role built kept fresh =>
    have ne : id ≠ i := by
      rintro rfl
      exact absurd later (Nat.not_lt_of_le fresh)
    cases before.symm.trans ((update_of_ne ne _ _).symm.trans after)
  | _ => cases before.symm.trans after

/-- Nobody but a call that seeks a key calls a factory. -/
theorem Step.unbuilt (hs : v.Step who v') (later : id < v.clock) (role : v.role id = none)
    (before : v.built id = false) : v'.built id = false := by
  rw [← Bool.not_eq_true]
  intro after
  obtain ⟨-, k, seeks, -⟩ := hs.claim_of_built later before after
  cases role.symm.trans seeks

/-! ## Who gets a reader handle -/

/-- A call gets its reader handle from a cache of the key that it has sought or opened. -/
theorem Step.key_of_new_reader (hs : v.Step who v') (before : v.reader.get? id = none)
    (reads : v'.reader.get? id = some c) : ∃ k, (∃ n, v'.cache c = some (k, n)) ∧
      (v.role id = some (.seeks k) ∧ v'.built = v.built ∨
        v.role id = some (.builds k) ∧ c = id) := by
  cases hs with
  | @attach i c' k n seeks =>
    rw [Table.get?_set] at reads
    split at reads
    · next same =>
      cases reads
      exact ⟨k, ⟨_, update_self ..⟩, .inl ⟨same ▸ seeks, rfl⟩⟩
    · cases before.symm.trans reads
  | @register i k builds =>
    rw [Table.get?_set] at reads
    split at reads
    · next same =>
      cases reads
      exact ⟨k, ⟨_, update_self ..⟩, .inr ⟨same ▸ builds, same.symm⟩⟩
    · cases before.symm.trans reads
  | leave =>
    rw [Table.get?_erase] at reads
    split at reads
    · cases reads
    · cases before.symm.trans reads
  | _ => cases before.symm.trans reads

/-- The call opens the key and no other, and its handle is on a cache of the key. -/
structure Opens (v : Keys) (id : CallId) (k : Key) : Prop where
  later : id < v.clock
  role : ∀ {r}, v.role id = some r → r.key = k
  reader : ∀ {c}, v.reader.get? id = some c → ∃ n, v.cache c = some (k, n)

theorem Step.opens (hv : v.Valid) (hs : v.Step who v') (h : v.Opens id k) : v'.Opens id k := by
  obtain ⟨later, role, reader⟩ := h
  refine ⟨Nat.lt_of_lt_of_le later hs.clock_le, ?_, fun {c} reads => ?_⟩
  · intro r after
    cases hs <;> grind [update_apply, Role.key]
  · cases before : v.reader.get? id with
    | some c' => exact hs.cached hv (reader (hs.reader_of_ended (hv.role_of_reader before) reads))
    | none =>
      obtain ⟨k', cached, ⟨seeks, -⟩ | ⟨builds, -⟩⟩ := hs.key_of_new_reader before reads
      · exact (role seeks : k' = k) ▸ cached
      · exact (role builds : k' = k) ▸ cached

/-- Who reads from a cache of somebody else has not called a factory. -/
def Lent (v : Keys) : Prop :=
  ∀ id c, v.reader.get? id = some c → c ≠ id → v.built id = false

theorem Step.lent (hv : v.Valid) (hs : v.Step who v') (h : v.Lent) : v'.Lent := by
  intro id c reads other
  cases before : v.reader.get? id with
  | some c' =>
    have role := hv.role_of_reader before
    have same := hs.reader_of_ended role reads
    exact hs.unbuilt (hv.lt_clock_of_reader before) role (h id c same other)
  | none =>
    obtain ⟨k, -, ⟨seeks, built⟩ | ⟨-, same⟩⟩ := hs.key_of_new_reader before reads
    · rw [built, hv.not_built seeks]
    · exact absurd same other

end Keys
end SharedStream
