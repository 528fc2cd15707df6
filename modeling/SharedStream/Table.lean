/-! # Tables

Finite maps as lists of entries with distinct keys, in the order in which the keys came. The view
of a table is `get?`: each operation has one equation that says what it does to it.
-/
namespace SharedStream

variable {κ α β : Type} [DecidableEq κ]

namespace Table

def find (k : κ) : List (κ × α) → Option α
  | [] => none
  | (k', a) :: rest => if k' = k then some a else find k rest

/-- The entries with `a` under `k`, in the place of an entry that is there. -/
def put (k : κ) (a : α) : List (κ × α) → List (κ × α)
  | [] => [(k, a)]
  | (k', b) :: rest => if k' = k then (k', a) :: rest else (k', b) :: put k a rest

theorem find_eq_none_iff {k : κ} {es : List (κ × α)} :
    find k es = none ↔ k ∉ es.map Prod.fst := by
  induction es with
  | nil => simp [find]
  | cons e es ih => by_cases h : e.1 = k <;> grind [find]

theorem find_eq_some_iff {k : κ} {a : α} {es : List (κ × α)} (h : (es.map Prod.fst).Nodup) :
    find k es = some a ↔ (k, a) ∈ es := by
  induction es with
  | nil => simp [find]
  | cons e es ih =>
    obtain ⟨hn, hes⟩ := List.nodup_cons.1 h
    have ih := ih hes
    by_cases hk : e.1 = k
    · subst hk
      have hm : (e.1, a) ∉ es := fun hm => hn (List.mem_map.2 ⟨_, hm, rfl⟩)
      simp [find, hm, Prod.ext_iff, eq_comm]
    · simp [find, hk, ih, Prod.ext_iff, eq_comm]

theorem mem_keys_put {k k' : κ} {a : α} {es : List (κ × α)} :
    k' ∈ (put k a es).map Prod.fst ↔ k' = k ∨ k' ∈ es.map Prod.fst := by
  induction es with
  | nil => simp [put]
  | cons e es ih => by_cases h : e.1 = k <;> grind [put]

theorem nodup_put {k : κ} {a : α} {es : List (κ × α)} (h : (es.map Prod.fst).Nodup) :
    ((put k a es).map Prod.fst).Nodup := by
  induction es with
  | nil => simp [put]
  | cons e es ih =>
    obtain ⟨hn, hes⟩ := List.nodup_cons.1 h
    by_cases hk : e.1 = k
    · simpa [put, hk] using ⟨by simpa [hk] using hn, hes⟩
    · simp only [put, hk, if_false, List.map_cons, List.nodup_cons]
      refine ⟨fun hm => ?_, ih hes⟩
      rcases mem_keys_put.1 hm with rfl | hm
      · exact hk rfl
      · exact hn hm

theorem find_put {k k' : κ} {a : α} {es : List (κ × α)} :
    find k' (put k a es) = if k' = k then some a else find k' es := by
  induction es with
  | nil => simp [put, find, eq_comm]
  | cons e es ih => by_cases h : e.1 = k <;> grind [put, find]

theorem find_filter {k k' : κ} {es : List (κ × α)} :
    find k' (es.filter (·.1 ≠ k)) = if k' = k then none else find k' es := by
  induction es with
  | nil => simp [find]
  | cons e es ih => by_cases h : e.1 = k <;> grind [find]

theorem find_map {k : κ} {f : κ → α → β} {es : List (κ × α)} :
    find k (es.map fun e => (e.1, f e.1 e.2)) = (find k es).map (f k) := by
  induction es with
  | nil => simp [find]
  | cons e es ih => by_cases h : e.1 = k <;> grind [find]

theorem put_eq_self {k : κ} {a : α} {es : List (κ × α)} (h : find k es = some a) :
    put k a es = es := by
  induction es with
  | nil => simp [find] at h
  | cons e es ih => by_cases hk : e.1 = k <;> grind [find, put]

theorem map_put {k : κ} {a : α} {f : κ → α → β} {es : List (κ × α)} :
    (put k a es).map (fun e => (e.1, f e.1 e.2)) =
      put k (f k a) (es.map fun e => (e.1, f e.1 e.2)) := by
  induction es with
  | nil => simp [put]
  | cons e es ih => by_cases hk : e.1 = k <;> grind [put]

theorem filter_eq_self_of_find {k : κ} {es : List (κ × α)} (h : find k es = none) :
    es.filter (·.1 ≠ k) = es := by
  apply List.filter_eq_self.2
  intro e he
  have : e.1 ∈ es.map Prod.fst := List.mem_map_of_mem he
  have hk := find_eq_none_iff.1 h
  simp only [decide_eq_true_eq]
  rintro rfl
  exact hk this

/-- What an entry put into a list adds to a count of its values, beside the value it replaces. -/
theorem countP_put {k : κ} {a : α} {p : α → Bool} {es : List (κ × α)} :
    (put k a es).countP (fun e => p e.2) + ((find k es).any p).toNat =
      es.countP (fun e => p e.2) + (p a).toNat := by
  induction es with
  | nil => cases hp : p a <;> simp [put, find, hp]
  | cons e es ih =>
    by_cases hk : e.1 = k
    · cases hp : p a <;> cases hq : p e.2 <;> simp [put, find, hk, hp, hq]
    · simp only [put, find, hk, if_false, List.countP_cons]
      omega

theorem countP_filter_ne {k : κ} {p : α → Bool} {es : List (κ × α)}
    (h : (es.map Prod.fst).Nodup) :
    (es.filter (·.1 ≠ k)).countP (fun e => p e.2) + ((find k es).any p).toNat =
      es.countP (fun e => p e.2) := by
  induction es with
  | nil => simp [find]
  | cons e es ih =>
    obtain ⟨hn, hes⟩ := List.nodup_cons.1 h
    by_cases hk : e.1 = k
    · have hrest : es.filter (·.1 ≠ k) = es := filter_eq_self_of_find (find_eq_none_iff.2 (hk ▸ hn))
      rw [List.filter_cons_of_neg (by simp [hk]), hrest]
      cases hp : p e.2 <;> simp [find, hk, hp]
    · rw [List.filter_cons_of_pos (by simp [hk])]
      have ih := ih hes
      simp only [find, hk, if_false, List.countP_cons]
      omega

end Table

structure Table (κ α : Type) where
  entries : List (κ × α)
  nodup : (entries.map Prod.fst).Nodup

namespace Table

def empty : Table κ α := ⟨[], List.nodup_nil⟩

instance : EmptyCollection (Table κ α) := ⟨empty⟩
instance : Inhabited (Table κ α) := ⟨empty⟩

def get? (t : Table κ α) (k : κ) : Option α := find k t.entries

def set (t : Table κ α) (k : κ) (a : α) : Table κ α := ⟨put k a t.entries, nodup_put t.nodup⟩

def erase (t : Table κ α) (k : κ) : Table κ α :=
  ⟨t.entries.filter (·.1 ≠ k), (List.filter_sublist.map _).nodup t.nodup⟩

/-- The table with all values changed by `f`, which also sees their keys. -/
def map (t : Table κ α) (f : κ → α → β) : Table κ β :=
  ⟨t.entries.map fun e => (e.1, f e.1 e.2), by simpa [Function.comp_def] using t.nodup⟩

def modify (t : Table κ α) (k : κ) (f : α → α) : Table κ α :=
  t.map fun k' a => if k' = k then f a else a

def keys (t : Table κ α) : List κ := t.entries.map Prod.fst

def values (t : Table κ α) : List α := t.entries.map Prod.snd

def contains (t : Table κ α) (k : κ) : Bool := (t.get? k).isSome

def any (t : Table κ α) (p : α → Bool) : Bool := t.entries.any fun e => p e.2

def countP (t : Table κ α) (p : α → Bool) : Nat := t.entries.countP fun e => p e.2

@[simp] theorem get?_empty (k : κ) : (∅ : Table κ α).get? k = none := rfl

theorem get?_set (t : Table κ α) (k k' : κ) (a : α) :
    (t.set k a).get? k' = if k' = k then some a else t.get? k' := find_put

@[simp] theorem get?_set_self (t : Table κ α) (k : κ) (a : α) : (t.set k a).get? k = some a := by
  simp [get?_set]

theorem get?_set_of_ne (t : Table κ α) {k k' : κ} (a : α) (h : k' ≠ k) :
    (t.set k a).get? k' = t.get? k' := by
  simp [get?_set, h]

theorem get?_erase (t : Table κ α) (k k' : κ) :
    (t.erase k).get? k' = if k' = k then none else t.get? k' := find_filter

@[simp] theorem get?_erase_self (t : Table κ α) (k : κ) : (t.erase k).get? k = none := by
  simp [get?_erase]

@[simp] theorem get?_map (t : Table κ α) (f : κ → α → β) (k : κ) :
    (t.map f).get? k = (t.get? k).map (f k) := find_map

theorem get?_modify (t : Table κ α) (k k' : κ) (f : α → α) :
    (t.modify k f).get? k' = if k' = k then (t.get? k').map f else t.get? k' := by
  by_cases h : k' = k <;> simp [modify, h]

theorem mem_entries_iff {t : Table κ α} {k : κ} {a : α} :
    (k, a) ∈ t.entries ↔ t.get? k = some a := (find_eq_some_iff t.nodup).symm

theorem mem_keys_iff {t : Table κ α} {k : κ} : k ∈ t.keys ↔ ∃ a, t.get? k = some a := by
  rw [← Option.isSome_iff_exists, ← Option.not_isNone, Bool.not_eq_true',
    Option.isNone_eq_false_iff,
    Option.isSome_iff_ne_none]
  simp [keys, get?, find_eq_none_iff]

theorem any_iff {t : Table κ α} {p : α → Bool} :
    t.any p = true ↔ ∃ k a, t.get? k = some a ∧ p a = true := by
  simp [any, ← mem_entries_iff]

theorem set_eq_self {t : Table κ α} {k : κ} {a : α} (h : t.get? k = some a) : t.set k a = t := by
  cases t
  simp only [set, mk.injEq]
  exact put_eq_self h

theorem map_set (t : Table κ α) (k : κ) (a : α) (f : κ → α → β) :
    (t.set k a).map f = (t.map f).set k (f k a) := by
  simp only [set, map, mk.injEq]
  exact map_put

theorem map_erase (t : Table κ α) (k : κ) (f : κ → α → β) :
    (t.erase k).map f = (t.map f).erase k := by
  simp [erase, map, List.filter_map, Function.comp_def]

omit [DecidableEq κ] in
theorem countP_map (t : Table κ α) (f : κ → α → β) (p : β → Bool) (q : α → Bool)
    (h : ∀ k a, p (f k a) = q a) : (t.map f).countP p = t.countP q := by
  simp [countP, map, List.countP_map, Function.comp_def, h]

theorem countP_set (t : Table κ α) (k : κ) (a : α) (p : α → Bool) :
    (t.set k a).countP p + ((t.get? k).any p).toNat = t.countP p + (p a).toNat := countP_put

theorem countP_erase (t : Table κ α) (k : κ) (p : α → Bool) :
    (t.erase k).countP p + ((t.get? k).any p).toNat = t.countP p := countP_filter_ne t.nodup

theorem countP_pos_iff {t : Table κ α} {p : α → Bool} :
    0 < t.countP p ↔ ∃ k a, t.get? k = some a ∧ p a = true := by
  simp [countP, List.countP_pos_iff, ← mem_entries_iff]

theorem isEmpty_iff {t : Table κ α} : t.entries.isEmpty = true ↔ ∀ k, t.get? k = none := by
  rw [List.isEmpty_iff]
  constructor
  · intro h k
    simp [get?, h, find]
  · intro h
    cases he : t.entries with
    | nil => rfl
    | cons e es =>
      have he' : (e.1, e.2) ∈ t.entries := by simp [he]
      rw [mem_entries_iff, h] at he'
      cases he'

end Table
end SharedStream
