import SharedStream.Proofs.Keys

/-! # What the steps of keys keep

Slots, counts, handles and calls stay in agreement at every step.
-/
namespace SharedStream.Keys
open Function

namespace Valid
variable {v : Keys} {id c : CallId} {k : Key} {n : Int}

theorem stake_of_seeks (h : v.Valid) (seeks : v.role id = some (.seeks k)) : v.stake id = none := by
  simp [stake, stakeOf, seeks, (h.no_handle seeks).2]

theorem stake_of_opens (own : v.role id = some (.makes k) ∨ v.role id = some (.builds k)) :
    v.stake id = some (k, .opening) := by
  rcases own with own | own <;> simp [stake, stakeOf, own]

theorem role_of_writer (h : v.Valid) (hw : v.writer id = some k) : v.role id = none := by
  cases hr : v.role id with
  | none => rfl
  | some r => simp [(h.no_handle hr).2] at hw

theorem stake_of_writer (h : v.Valid) (hw : v.writer id = some k) :
    v.stake id = some (k, .writer id) := by
  simp [stake, stakeOf, h.role_of_writer hw, hw]

theorem lt_clock_of_role (h : v.Valid) {r : Role} (hr : v.role id = some r) : id < v.clock := by
  by_contra hge
  simp [(h.fresh (Nat.le_of_not_lt hge)).1] at hr

theorem role_of_reader (h : v.Valid) (hr : v.reader.get? id = some c) : v.role id = none := by
  cases role : v.role id with
  | none => rfl
  | some r => simp [(h.no_handle role).1] at hr

theorem lt_clock_of_reader (h : v.Valid) (hr : v.reader.get? id = some c) : id < v.clock := by
  by_contra hge
  simp [(h.fresh (Nat.le_of_not_lt hge)).2.1] at hr

theorem lt_clock_of_writer (h : v.Valid) {k : Key} (hw : v.writer id = some k) : id < v.clock := by
  by_contra hge
  simp [(h.fresh (Nat.le_of_not_lt hge)).2.2.1] at hw

theorem lt_clock_of_cache (h : v.Valid) {x : Key × Int} (hc : v.cache id = some x) :
    id < v.clock := by
  by_contra hge
  simp [(h.fresh (Nat.le_of_not_lt hge)).2.2.2.1] at hc

/-- A cache is in the slot of its own key only. -/
theorem key_unique (h : v.Valid) {k' : Key} (hs : v.slot k = some (.reader c))
    (hs' : v.slot k' = some (.reader c)) : k = k' := by
  obtain ⟨n, hn⟩ := h.cache_of_slot hs
  obtain ⟨n', hn'⟩ := h.cache_of_slot hs'
  rw [hn] at hn'
  cases hn'
  rfl

/-- Nobody reads a cache that is not in the slot of its key. -/
theorem no_reader (h : v.Valid) (hc : v.cache c = some (k, n)) (hs : v.slot k ≠ some (.reader c)) :
    n = 0 ∧ ∀ r, v.reader.get? r ≠ some c := by
  have none : ∀ r, v.reader.get? r ≠ some c := by
    intro r hr
    obtain ⟨k', hk'⟩ := h.slot_of_reader hr
    obtain ⟨n', hn'⟩ := h.cache_of_slot hk'
    rw [hc] at hn'
    cases hn'
    exact hs hk'
  have count : v.reader.countP (· = c) = 0 := by
    by_contra hne
    obtain ⟨r, c', hr, hc'⟩ := Table.countP_pos_iff.1 (Nat.pos_of_ne_zero hne)
    exact none r (by rw [hr, of_decide_eq_true hc'])
  exact ⟨by rw [h.refs_eq hc, count]; rfl, none⟩

/-- A slot of which no cache is read can change. -/
theorem slot_of_reader_update (h : v.Valid) {x : Option Slot}
    (hk : ∀ c r, v.slot k = some (.reader c) → v.reader.get? r ≠ some c) {r : CallId}
    (hr : v.reader.get? r = some c) : ∃ k', update v.slot k x k' = some (.reader c) := by
  obtain ⟨k', hk'⟩ := h.slot_of_reader hr
  have hne : k' ≠ k := by
    rintro rfl
    exact hk c r hk' hr
  exact ⟨k', by rw [update_of_ne hne, hk']⟩

/-- A cache keeps its key when its count changes. -/
theorem cache_update (hc : v.cache c = some (k, n)) (m : Int) {c' : CallId} {k' : Key}
    (h : ∃ n', v.cache c' = some (k', n')) :
    ∃ n', update v.cache c (some (k, m)) c' = some (k', n') := by
  obtain ⟨n', hn'⟩ := h
  by_cases hcc : c' = c
  · subst hcc
    rw [hc] at hn'
    cases hn'
    exact ⟨m, update_self ..⟩
  · exact ⟨n', by rw [update_of_ne hcc, hn']⟩

theorem cache_update_none {x : Key × Int} (hc : v.cache c = some x) (y : Option (Key × Int))
    {c' : CallId} (absent : v.cache c' = none) : update v.cache c y c' = none := by
  have hcc : c' ≠ c := by
    rintro rfl
    simp [absent] at hc
  rw [update_of_ne hcc, absent]

/-- The counts stay right when the count of one cache changes with its readers. -/
theorem refs_update (h : v.Valid) {m : Int} {reader : Table CallId CallId}
    (same : ∀ c', c' ≠ c → reader.countP (· = c') = v.reader.countP (· = c'))
    (hm : m = reader.countP (· = c)) {c' : CallId} {k' : Key} {n' : Int}
    (hc' : update v.cache c (some (k, m)) c' = some (k', n')) : n' = reader.countP (· = c') := by
  by_cases hcc : c' = c
  · subst hcc
    rw [update_self] at hc'
    cases hc'
    exact hm
  · rw [update_of_ne hcc] at hc'
    rw [same c' hcc, h.refs_eq hc']

end Valid

/-! ## What the steps keep -/

namespace Valid
variable {v : Keys} {id c : CallId} {k : Key} {n : Int}

theorem enter (h : v.Valid) {r : Option Role} {b held : Bool} (later : v.clock ≤ id)
    (hr : ∀ x, r = some x → (∃ k, x = .seeks k) ∧ b = false ∧ v.held = true) :
    Valid { v with
      clock := id + 1, role := update v.role id r, built := update v.built id b
      held := held } := by
  obtain ⟨role, reader, writer, cache, -⟩ := h.fresh later
  have stakes : stake { v with
      clock := id + 1, role := update v.role id r, built := update v.built id b
      held := held } = v.stake := by
    rw [stake_eq_update (v := v) (x := none) id (by simp +contextual) (by simp)
      (by rcases r with _ | r <;> grind [stakeOf, update_self])]
    rw [update_eq_self_iff]
    simp [stake, stakeOf, role, writer]
  refine { h with
    agree := ?agree, cache_of_builds := ?_, cache_of_retires := ?_, no_handle := ?_
    no_cache := ?_, not_built := ?_, fresh := ?_ }
  case agree => exact stakes ▸ h.agree
  all_goals grind [update_apply, Valid]

theorem refuse (h : v.Valid) (seeks : v.role id = some (.seeks k)) :
    Valid { v with role := update v.role id none } := by
  have stakes : stake { v with role := update v.role id none } = v.stake := by
    rw [stake_eq_update (v := v) (x := none) id (by simp +contextual) (by simp)
      (by simp [stakeOf, (h.no_handle seeks).2])]
    rw [← h.stake_of_seeks seeks, update_eq_self]
  refine { h with
    agree := ?agree, cache_of_builds := ?_, cache_of_retires := ?_, no_handle := ?_
    no_cache := ?_, not_built := ?_, fresh := ?_ }
  case agree => exact stakes ▸ h.agree
  all_goals grind [update_apply, Valid]

theorem claim (h : v.Valid) (seeks : v.role id = some (.seeks k)) (free : v.slot k = none) :
    Valid { v with
      slot := update v.slot k (some .opening)
      role := update v.role id (some (.makes k))
      built := update v.built id true } := by
  have stakes : stake { v with
      slot := update v.slot k (some .opening)
      role := update v.role id (some (.makes k))
      built := update v.built id true } = update v.stake id (some (k, .opening)) :=
    stake_eq_update id (by simp +contextual) (by simp) (by simp [stakeOf])
  have later := h.lt_clock_of_role seeks
  refine { h with
    agree := ?agree, cache_of_slot := ?_, cache_of_builds := ?_, cache_of_retires := ?_
    slot_of_reader := ?slot, no_handle := ?_, no_cache := ?_, not_built := ?_, fresh := ?_ }
  case agree => exact stakes ▸ h.agree.take free (h.stake_of_seeks seeks) (by simp)
  case slot => exact h.slot_of_reader_update (by simp [free])
  all_goals grind [update_apply, Valid]

theorem attach (h : v.Valid) (seeks : v.role id = some (.seeks k))
    (open_ : v.slot k = some (.reader c)) (hc : v.cache c = some (k, n)) :
    Valid { v with
      cache := update v.cache c (some (k, n + 1))
      reader := v.reader.set id c
      role := update v.role id none } := by
  have stakes : stake { v with
      cache := update v.cache c (some (k, n + 1))
      reader := v.reader.set id c
      role := update v.role id none } = v.stake := by
    rw [stake_eq_update (v := v) (x := none) id (by simp +contextual) (by simp)
      (by simp [stakeOf, (h.no_handle seeks).2])]
    rw [← h.stake_of_seeks seeks, update_eq_self]
  have counts : ∀ c', (v.reader.set id c).countP (· = c') =
      v.reader.countP (· = c') + (decide (c = c')).toNat := by
    intro c'
    simpa [(h.no_handle seeks).1] using v.reader.countP_set id c (fun x => decide (x = c'))
  have later := h.lt_clock_of_role seeks
  have older := h.lt_clock_of_cache hc
  refine { h with
    agree := ?agree, cache_of_slot := ?_, cache_of_builds := ?_, cache_of_retires := ?_
    slot_of_reader := ?slot, refs_eq := ?refs, no_handle := ?_, no_cache := ?_, not_built := ?_
    fresh := ?_ }
  case agree => exact stakes ▸ h.agree
  case refs =>
    refine h.refs_update ?_ ?_
    · intro c' hne
      simp [counts c', Ne.symm hne]
    · simp [counts c, h.refs_eq hc]
  all_goals grind [update_apply, Valid, Table.get?_set]

theorem build (h : v.Valid) (makes : v.role id = some (.makes k)) :
    Valid { v with
      cache := update v.cache id (some (k, 0))
      role := update v.role id (some (.builds k)) } := by
  have stakes : stake { v with
      cache := update v.cache id (some (k, 0))
      role := update v.role id (some (.builds k)) } = v.stake := by
    rw [stake_eq_update (v := v) (x := some (k, .opening)) id (by simp +contextual)
      (by simp) (by simp [stakeOf])]
    rw [← stake_of_opens (.inl makes), update_eq_self]
  have unread : ∀ r, v.reader.get? r ≠ some id := by
    intro r hr
    obtain ⟨k', hk'⟩ := h.slot_of_reader hr
    obtain ⟨n, hn⟩ := h.cache_of_slot hk'
    simp [h.no_cache (.inr makes)] at hn
  have count : v.reader.countP (· = id) = 0 := by
    by_contra hne
    obtain ⟨r, c, hr, hc⟩ := Table.countP_pos_iff.1 (Nat.pos_of_ne_zero hne)
    exact unread r (by rw [hr, of_decide_eq_true hc])
  have later := h.lt_clock_of_role makes
  have new := h.no_cache (.inr makes)
  refine { h with
    agree := ?agree, cache_of_slot := ?_, cache_of_builds := ?_, cache_of_retires := ?_
    refs_eq := ?refs, no_handle := ?_, no_cache := ?_, not_built := ?_, fresh := ?_ }
  case agree => exact stakes ▸ h.agree
  all_goals grind [update_apply, Valid]

theorem abandon (h : v.Valid) (own : v.role id = some (.makes k) ∨ v.role id = some (.builds k)) :
    Valid { v with slot := update v.slot k none, role := update v.role id none } := by
  have nothing : v.writer id = none := by rcases own with own | own <;> exact (h.no_handle own).2
  have stakes : stake { v with slot := update v.slot k none, role := update v.role id none } =
      update v.stake id none :=
    stake_eq_update id (by simp +contextual) (by simp) (by simp [stakeOf, nothing])
  have opening := h.agree.slot_eq (stake_of_opens own)
  refine { h with
    agree := ?agree, cache_of_slot := ?_, cache_of_builds := ?_, cache_of_retires := ?_
    slot_of_reader := ?slot, no_handle := ?_, no_cache := ?_, not_built := ?_, fresh := ?_ }
  case agree => exact stakes ▸ h.agree.release (stake_of_opens own)
  case slot => exact h.slot_of_reader_update (by simp [opening])
  all_goals grind [update_apply, Valid]

theorem count_of_builds (h : v.Valid) (builds : v.role id = some (.builds k)) :
    v.cache id = some (k, 0) ∧ ∀ r, v.reader.get? r ≠ some id := by
  obtain ⟨n, hn⟩ := h.cache_of_builds builds
  have opening := h.agree.slot_eq (stake_of_opens (.inr builds))
  obtain ⟨rfl, unread⟩ := h.no_reader hn (by simp [opening])
  exact ⟨hn, unread⟩

theorem register (h : v.Valid) (builds : v.role id = some (.builds k)) :
    Valid { v with
      slot := update v.slot k (some (.reader id))
      cache := update v.cache id (some (k, 1))
      reader := v.reader.set id id
      role := update v.role id none } := by
  have stakes : stake { v with
      slot := update v.slot k (some (.reader id))
      cache := update v.cache id (some (k, 1))
      reader := v.reader.set id id
      role := update v.role id none } = update v.stake id none :=
    stake_eq_update id (by simp +contextual) (by simp) (by simp [stakeOf, (h.no_handle builds).2])
  obtain ⟨cache, unread⟩ := h.count_of_builds builds
  have opening := h.agree.slot_eq (stake_of_opens (.inr builds))
  have counts : ∀ c', (v.reader.set id id).countP (· = c') =
      v.reader.countP (· = c') + (decide (id = c')).toNat := by
    intro c'
    simpa [(h.no_handle builds).1] using v.reader.countP_set id id (fun x => decide (x = c'))
  have later := h.lt_clock_of_role builds
  refine { h with
    agree := ?agree, cache_of_slot := ?_, cache_of_builds := ?_, cache_of_retires := ?_
    slot_of_reader := ?slot, refs_eq := ?refs, no_handle := ?_, no_cache := ?_, not_built := ?_
    fresh := ?_ }
  case agree => exact stakes ▸ h.agree.put (stake_of_opens (.inr builds)) id
  case refs =>
    refine h.refs_update ?_ ?_
    · intro c' hne
      simp [counts c', Ne.symm hne]
    · have := h.refs_eq cache
      simp [counts id]
      omega
  case slot =>
    intro r c hr
    by_cases hc : c = id
    · exact ⟨k, by simp [hc]⟩
    · rw [Table.get?_set] at hr
      split at hr
      · cases hr
        exact absurd rfl hc
      · exact h.slot_of_reader_update (by simp [opening]) hr
  all_goals grind [update_apply, Valid, Table.get?_set]

theorem retire (h : v.Valid) (seeks : v.role id = some (.seeks k))
    (open_ : v.slot k = some (.reader c)) (hc : v.cache c = some (k, 0)) :
    Valid { v with
      slot := update v.slot k (some .closing)
      role := update v.role id (some (.retires k c)) } := by
  have stakes : stake { v with
      slot := update v.slot k (some .closing)
      role := update v.role id (some (.retires k c)) } = update v.stake id (some (k, .closing)) :=
    stake_eq_update id (by simp +contextual) (by simp) (by simp [stakeOf])
  have unread : ∀ r, v.reader.get? r ≠ some c := by
    intro r hr
    have := Table.countP_pos_iff (p := (· = c)).2 ⟨r, c, hr, by simp⟩
    have := h.refs_eq hc
    omega
  have later := h.lt_clock_of_role seeks
  refine { h with
    agree := ?agree, cache_of_slot := ?_, cache_of_builds := ?_, cache_of_retires := ?_
    slot_of_reader := ?slot, no_handle := ?_, no_cache := ?_, not_built := ?_, fresh := ?_ }
  case agree =>
    -- The cache makes room in the slot before the call answers for it.
    rw [stakes]
    have freed : Agree (update (update v.slot k none) k (some .closing))
        (update v.stake id (some (k, .closing))) :=
      (h.agree.remove open_).take (by simp) (h.stake_of_seeks seeks) (by simp)
    simpa using freed
  case slot =>
    refine h.slot_of_reader_update ?_
    intro c' r hc'
    rw [open_] at hc'
    cases hc'
    exact unread r
  all_goals grind [update_apply, Valid]

theorem retired (h : v.Valid) (retires : v.role id = some (.retires k c)) :
    Valid { v with role := update v.role id (some (.leases k)) } := by
  have stakes : stake { v with role := update v.role id (some (.leases k)) } = v.stake := by
    rw [stake_eq_update (v := v) (x := some (k, .closing)) id (by simp +contextual)
      (by simp) (by simp [stakeOf])]
    rw [update_eq_self_iff]
    simp [stake, stakeOf, retires]
  have later := h.lt_clock_of_role retires
  refine { h with
    agree := ?agree, cache_of_builds := ?_, cache_of_retires := ?_, no_handle := ?_
    no_cache := ?_, not_built := ?_, fresh := ?_ }
  case agree => exact stakes ▸ h.agree
  all_goals grind [update_apply, Valid]

theorem grant (h : v.Valid)
    (own : v.role id = some (.seeks k) ∧ v.slot k = none ∨ v.role id = some (.leases k)) :
    Valid { v with
      slot := update v.slot k (some (.writer id))
      writer := update v.writer id (some k)
      role := update v.role id none } := by
  have stakes : stake { v with
      slot := update v.slot k (some (.writer id))
      writer := update v.writer id (some k)
      role := update v.role id none } = update v.stake id (some (k, .writer id)) :=
    stake_eq_update id (by simp +contextual) (by simp +contextual) (by simp [stakeOf])
  have busy : ∃ r, v.role id = some r := by
    rcases own with own | own
    · exact ⟨_, own.1⟩
    · exact ⟨_, own⟩
  obtain ⟨r, hr⟩ := busy
  have later := h.lt_clock_of_role hr
  have nothing := h.no_handle hr
  have unread : ∀ c, v.slot k ≠ some (.reader c) := by
    intro c hc
    rcases own with own | own
    · simp [own.2] at hc
    · have stake : v.stake id = some (k, .closing) := by simp [stake, stakeOf, own]
      exact h.agree.not_staked hc stake
  refine { h with
    agree := ?agree, cache_of_slot := ?_, cache_of_builds := ?_, cache_of_retires := ?_
    slot_of_reader := ?slot, no_handle := ?_, no_cache := ?_, not_built := ?_, fresh := ?_ }
  case agree =>
    rw [stakes]
    rcases own with ⟨seeks, free⟩ | leases
    · exact h.agree.take free (h.stake_of_seeks seeks) (by simp)
    · exact h.agree.replace (y := .closing) (by simp [stake, stakeOf, leases]) (by simp)
  case slot => exact h.slot_of_reader_update fun c _ hc => absurd hc (unread c)
  all_goals grind [update_apply, Valid]

theorem leave (h : v.Valid) {r : CallId} (hr : v.reader.get? r = some c)
    (hc : v.cache c = some (k, n)) :
    Valid { v with
      cache := update v.cache c (some (k, n - 1))
      reader := v.reader.erase r } := by
  have counts : ∀ c', (v.reader.erase r).countP (· = c') + (decide (c = c')).toNat =
      v.reader.countP (· = c') := by
    intro c'
    simpa [hr] using v.reader.countP_erase r (fun x => decide (x = c'))
  refine { h with
    cache_of_slot := fun hs => cache_update hc _ (h.cache_of_slot hs)
    cache_of_builds := fun hb => cache_update hc _ (h.cache_of_builds hb)
    cache_of_retires := fun hb => cache_update hc _ (h.cache_of_retires hb)
    slot_of_reader := ?_, refs_eq := ?refs, no_handle := ?_
    no_cache := fun hr => cache_update_none hc _ (h.no_cache hr), fresh := ?fresh }
  case refs =>
    refine h.refs_update ?_ ?_
    · intro c' hne
      simpa [Ne.symm hne] using counts c'
    · have := h.refs_eq hc
      have := counts c
      simp only [decide_true, Bool.toNat_true] at this
      show n - 1 = ((v.reader.erase r).countP (· = c) : Int)
      omega
  case fresh =>
    intro id later
    obtain ⟨role, reader, writer, cache, built⟩ := h.fresh later
    exact ⟨role, by simp [Table.get?_erase, reader], writer, cache_update_none hc _ cache, built⟩
  all_goals grind [Valid, Table.get?_erase]

theorem giveBack (h : v.Valid) (hw : v.writer id = some k) :
    Valid { v with slot := update v.slot k none, writer := update v.writer id none } := by
  have role := h.role_of_writer hw
  have stakes : stake { v with slot := update v.slot k none, writer := update v.writer id none } =
      update v.stake id none :=
    stake_eq_update id (by simp) (by simp +contextual) (by simp [stakeOf, role])
  have held := h.agree.slot_eq (h.stake_of_writer hw)
  refine { h with
    agree := ?agree, cache_of_slot := ?_, slot_of_reader := ?slot, no_handle := ?_, fresh := ?_ }
  case agree => exact stakes ▸ h.agree.release (h.stake_of_writer hw)
  case slot => exact h.slot_of_reader_update (by simp [held])
  all_goals grind [update_apply, Valid]

theorem finish (h : v.Valid) (readers : ∀ id, v.reader.get? id = none)
    (writers : ∀ id, v.writer id = none) (roles : ∀ id, v.role id = none) :
    Valid { v with slot := fun _ => none } := by
  have stakes : ∀ id, stake { v with slot := fun _ => none } id = none := by
    intro id
    simp [stake, stakeOf, roles, writers]
  refine { h with
    agree := ?agree, cache_of_slot := ?_, slot_of_reader := ?slot }
  case agree => constructor <;> simp [stakes]
  · simp
  · simp [readers]

/-- Every step keeps slots, counts, handles and calls in agreement. -/
theorem step {v' : Keys} {who : Option CallId} (h : v.Valid) (hs : v.Step who v') : v'.Valid := by
  cases hs with
  | quiet => exact h
  | enter id role built kept later hr => exact h.enter later hr
  | refuse seeks => exact h.refuse seeks
  | claim seeks free => exact h.claim seeks free
  | attach seeks open_ hc => exact h.attach seeks open_ hc
  | build makes => exact h.build makes
  | abandon own => exact h.abandon own
  | register builds => exact h.register builds
  | retire seeks open_ hc => exact h.retire seeks open_ hc
  | retired retires => exact h.retired retires
  | grant own => exact h.grant own
  | leave hr hc => exact h.leave hr hc
  | giveBack hw => exact h.giveBack hw
  | finish held readers writers roles => exact h.finish readers writers roles

end Valid
end SharedStream.Keys
