import SharedStream.Proofs.Calls.Settled

/-! # Sessions without a call

What a session would be if a call that opens a key had never been asked for. The call has brought a
source, a sink, a cache and its store along, which nobody else knows of, and it may keep a key
`opening`. All else is the same without it.
-/
namespace SharedStream

namespace Table
variable {κ α : Type} [DecidableEq κ]

/-- The tables are the same for all keys but `x`. -/
def Agree (t t' : Table κ α) (x : κ) : Prop := ∀ k, k ≠ x → t'.get? k = t.get? k

namespace Agree
variable {t t' : Table κ α} {x k : κ} {f : α → α}

theorem set (h : t.Agree t' x) (k : κ) (a : α) : (t.set k a).Agree (t'.set k a) x := by
  intro j other
  rw [get?_set, get?_set, h j other]

theorem modify (h : t.Agree t' x) (k : κ) (f : α → α) :
    (t.modify k f).Agree (t'.modify k f) x := by
  intro j other
  rw [get?_modify, get?_modify, h j other]

/-- What changes at `x` does not matter. -/
theorem set_left (h : t.Agree t' x) (a : α) : (t.set x a).Agree t' x := by
  intro j other
  rw [get?_set_of_ne _ _ other, h j other]

theorem modify_left (h : t.Agree t' x) (f : α → α) : (t.modify x f).Agree t' x := by
  intro j other
  rw [get?_modify, if_neg other, h j other]

theorem modify_right (h : t.Agree t' x) (f : α → α) : t.Agree (t'.modify x f) x := by
  intro j other
  rw [get?_modify, if_neg other, h j other]

theorem contains (h : t.Agree t' x) (other : k ≠ x) : t'.contains k = t.contains k := by
  rw [Table.contains, h k other, Table.contains]

end Agree
end Table

/-- All that there is to a cache but the time of its last access. -/
def Cache.plain (c : Cache) : Cache := { c with lastAccess := 0 }

/-- The call, but that it may be awake though it was asleep. -/
def Call.rouse (awake : Bool) (c : Call) : Call := { c with awake := c.awake || awake }

namespace Session

/-- `u` is the session `s` without the call `id`, for which the key in `o` is `opening` in `s`. A
call may be awake in `u` that has looked at this key in `s`. -/
structure Without (s : Session) (id : CallId) (o : Option Key) (u : Session) : Prop where
  config : u.registry.config = s.registry.config
  shutDown : u.registry.shutDown = s.registry.shutDown
  slot : ∀ k, u.registry.slots.get? k = if o = some k then none else s.registry.slots.get? k
  pool : ∀ n, u.pool n = s.pool n
  held : u.held = s.held
  stores : s.stores.Agree u.stores (.cache id)
  sources : s.sources.Agree u.sources id
  sinks : s.sinks.Agree u.sinks id
  cache : ∀ c, (u.caches.get? c).map Cache.plain =
    if c = id then none else (s.caches.get? c).map Cache.plain
  readers : u.readers = s.readers
  writers : u.writers = s.writers
  call : ∀ i, i ≠ id → ∃ awake, u.calls.get? i = (s.calls.get? i).map (Call.rouse awake)
  absent : u.calls.get? id = none
  clock : u.clock ≤ s.clock

variable {s t u : Session} {id i c : CallId} {o : Option Key} {k : Key} {a b : Task}

namespace Without

/-- Before it begins, a session is the same without the call. -/
theorem refl (absent : s.calls.get? id = none) (uncached : s.caches.get? id = none) :
    s.Without id none s where
  config := rfl
  shutDown := rfl
  slot _ := rfl
  pool _ := rfl
  held := rfl
  stores _ _ := rfl
  sources _ _ := rfl
  sinks _ _ := rfl
  cache c := by
    split
    · next same => rw [same, uncached, Option.map_none]
    · rfl
  readers := rfl
  writers := rfl
  call i _ := ⟨false, by cases s.calls.get? i <;> simp [Call.rouse]⟩
  absent := absent
  clock := Nat.le_refl _

section
variable (h : s.Without id o u)
include h

/-! ## What is the same -/

theorem task (other : i ≠ id) : u.task? i = s.task? i := by
  obtain ⟨awake, call⟩ := h.call i other
  rw [task?, call, Option.map_map]
  rfl

theorem task?_self : u.task? id = none := by
  rw [task?, h.absent, Option.map_none]

theorem store {x : StoreId} (other : x ≠ .cache id) : u.store x = s.store x := by
  rw [Session.store, h.stores x other, Session.store]

theorem source (other : c ≠ id) : u.source c = s.source c := by
  rw [Session.source, h.sources c other, Session.source]

theorem sink (other : c ≠ id) : u.sink c = s.sink c := by
  rw [Session.sink, h.sinks c other, Session.sink]

theorem refs (other : c ≠ id) : u.refs c = s.refs c := by
  have same := congrArg (Option.map Cache.refs) (h.cache c)
  rw [if_neg other, Option.map_map, Option.map_map] at same
  rw [Session.refs, Session.refs]
  exact congrArg (·.getD 0) same

/-- No slot but `opening` is missing. -/
theorem slot_iff (opening : ∀ k, o = some k → s.registry.slots.get? k = some .opening) {x : Slot}
    (passed : x ≠ .opening) :
    u.registry.slots.get? k = some x ↔ s.registry.slots.get? k = some x := by
  rw [h.slot]
  split
  · next own =>
    rw [opening k own]
    simp [Ne.symm passed]
  · rfl

theorem slot_of_ne (other : o ≠ some k) :
    u.registry.slots.get? k = s.registry.slots.get? k := by
  rw [h.slot, if_neg other]

theorem isAway (handle : ∀ {a}, s.task? id = some a → a.handle? = none) (x : CallId) :
    u.isAway x = s.isAway x := by
  have iff : ∀ v : Session, v.isAway x = true ↔ ∃ i a, v.task? i = some a ∧ a.handle? = some x := by
    intro v
    rw [Session.isAway, Table.any_iff]
    constructor
    · rintro ⟨i, c, hc, handle⟩
      exact ⟨i, c.task, by rw [task?, hc]; rfl, by simpa using handle⟩
    · rintro ⟨i, a, ha, handle⟩
      obtain ⟨c, hc, rfl⟩ := Option.map_eq_some_iff.1 ha
      exact ⟨i, c, hc, by simpa using handle⟩
  rw [Bool.eq_iff_iff, iff, iff]
  constructor
  · rintro ⟨i, a, ha, hx⟩
    have other : i ≠ id := by
      rintro rfl
      cases h.task?_self.symm.trans ha
    exact ⟨i, a, (h.task other).symm.trans ha, hx⟩
  · rintro ⟨i, a, ha, hx⟩
    have other : i ≠ id := by
      rintro rfl
      cases (handle ha).symm.trans hx
    exact ⟨i, a, (h.task other).trans ha, hx⟩

/-! ## Calls -/

theorem answer (r r' : Result) : (s.answer i r).Without id o (u.answer i r') :=
  { h with
    call := fun j other => by
      obtain ⟨awake, call⟩ := h.call j other
      refine ⟨awake, ?_⟩
      rw [Session.answer, Session.answer, Table.get?_erase, Table.get?_erase, call]
      split <;> rfl
    absent := by rw [Session.answer, Table.get?_erase, h.absent, ite_self] }

theorem goOn (a : Task) : (s.goOn i a).Without id o (u.goOn i a) :=
  { h with
    call := fun j other => by
      obtain ⟨awake, call⟩ := h.call j other
      refine ⟨awake, ?_⟩
      rw [Session.goOn, Session.goOn, Table.get?_modify, Table.get?_modify, call]
      split
      · rw [Option.map_map, Option.map_map]
        rfl
      · rfl
    absent := by rw [Session.goOn, Table.get?_modify, h.absent, Option.map_none, ite_self] }

theorem begins (other : i ≠ id) (a : Task) : (s.call i a).Without id o (u.call i a) :=
  { h with
    call := fun j ne => by
      obtain ⟨awake, call⟩ := h.call j ne
      refine ⟨awake, ?_⟩
      rw [Session.call, Session.call, Table.get?_set, Table.get?_set, call]
      split
      · simp [Call.rouse]
      · rfl
    absent := by rw [Session.call, Table.get?_set_of_ne _ _ (Ne.symm other), h.absent] }

theorem sleep : (s.sleep i).Without id o (u.sleep i) :=
  { h with
    call := fun j other => by
      obtain ⟨awake, call⟩ := h.call j other
      by_cases own : j = i
      · refine ⟨false, ?_⟩
        rw [Session.sleep, Session.sleep, Table.get?_modify, Table.get?_modify, call, if_pos own,
          if_pos own, Option.map_map, Option.map_map]
        rfl
      · refine ⟨awake, ?_⟩
        rw [Session.sleep, Session.sleep, Table.get?_modify, Table.get?_modify, call, if_neg own,
          if_neg own]
    absent := by rw [Session.sleep, Table.get?_modify, h.absent, Option.map_none, ite_self] }

theorem wake (p : Task → Bool) : (s.wake p).Without id o (u.wake p) :=
  { h with
    call := fun j other => by
      obtain ⟨awake, call⟩ := h.call j other
      refine ⟨awake, ?_⟩
      rw [get?_wake, get?_wake, call]
      cases s.calls.get? j with
      | none => rfl
      | some c => cases hp : p c.task <;> simp [Call.rouse, hp]
    absent := by rw [get?_wake, h.absent, Option.map_none] }

/-- A call that falls asleep may be awake without the other one. -/
theorem sleep_left : (s.sleep i).Without id o u :=
  { h with
    call := fun j other => by
      obtain ⟨awake, call⟩ := h.call j other
      rw [Session.sleep, Table.get?_modify, call]
      by_cases own : j = i
      · rw [if_pos own]
        cases hc : s.calls.get? j with
        | none => exact ⟨false, rfl⟩
        | some c => exact ⟨c.awake || awake, by simp [Call.rouse]⟩
      · rw [if_neg own]
        exact ⟨awake, rfl⟩ }

/-! ## The registry -/

theorem setSlot (other : o ≠ some k) (x : Slot) :
    (s.setSlot k x).Without id o (u.setSlot k x) :=
  { h with
    slot := fun k' => by
      rw [Session.setSlot, Session.setSlot, Registry.setSlot, Registry.setSlot, Table.get?_set,
        Table.get?_set, h.slot]
      by_cases same : k' = k
      · subst same
        rw [if_pos rfl, if_pos rfl, if_neg other]
      · rw [if_neg same, if_neg same] }

theorem freeSlot (k : Key) : (s.freeSlot k).Without id o (u.freeSlot k) :=
  { h with
    slot := fun k' => by
      rw [Session.freeSlot, Session.freeSlot, Registry.freeSlot, Registry.freeSlot,
        Table.get?_erase, Table.get?_erase, h.slot]
      by_cases same : k' = k
      · rw [if_pos same, if_pos same, ite_self]
      · rw [if_neg same, if_neg same] }

theorem setPool (n : PoolName) (p : Pool) : (s.setPool n p).Without id o (u.setPool n p) := by
  cases n
  · exact { h with
      pool := fun m => by
        cases m
        · rfl
        · exact h.pool .separate }
  · exact { h with
      pool := fun m => by
        cases m
        · exact h.pool .registry
        · rfl }

/-! ## Stores, sources and caches -/

theorem modifyStore (x : StoreId) (f : Store → Store) :
    ({ s with stores := s.stores.modify x f }).Without id o
      { u with stores := u.stores.modify x f } :=
  { h with stores := h.stores.modify x f }

theorem modifySource (c : CallId) (f : Source → Source) :
    (s.modifySource c f).Without id o (u.modifySource c f) :=
  { h with sources := h.sources.modify c f }

theorem setSource (c : CallId) (x : Source) :
    ({ s with sources := s.sources.set c x }).Without id o
      { u with sources := u.sources.set c x } :=
  { h with sources := h.sources.set c x }

theorem modifySink (c : CallId) (f : Sink → Sink) :
    ({ s with sinks := s.sinks.modify c f }).Without id o
      { u with sinks := u.sinks.modify c f } :=
  { h with sinks := h.sinks.modify c f }

theorem setSinks (c : CallId) (x : Sink) :
    ({ s with sinks := s.sinks.set c x }).Without id o { u with sinks := u.sinks.set c x } :=
  { h with sinks := h.sinks.set c x }

theorem setReaders {t t' : Table CallId Reader} (same : t' = t) :
    ({ s with readers := t }).Without id o { u with readers := t' } :=
  { h with readers := same }

theorem setWriters {t t' : Table CallId Writer} (same : t' = t) :
    ({ s with writers := t }).Without id o { u with writers := t' } :=
  { h with writers := same }

theorem modifyCache (c : CallId) {f g : Cache → Cache}
    (same : ∀ x y, x.plain = y.plain → (f x).plain = (g y).plain) :
    ({ s with caches := s.caches.modify c f }).Without id o
      { u with caches := u.caches.modify c g } :=
  { h with
    cache := fun c' => by
      have before := h.cache c'
      rw [Table.get?_modify, Table.get?_modify]
      by_cases own : c' = c
      · rw [if_pos own, if_pos own]
        split at before
        · next gone => rw [if_pos gone, Option.map_eq_none_iff.1 before, Option.map_none,
            Option.map_none]
        · next other =>
          rw [if_neg other]
          cases hs : s.caches.get? c' with
          | none =>
            rw [hs, Option.map_none] at before
            rw [Option.map_eq_none_iff.1 before]
            rfl
          | some y =>
            rw [hs, Option.map_some] at before
            obtain ⟨x, hx, plain⟩ := Option.map_eq_some_iff.1 before
            rw [hx]
            exact congrArg some (same y x plain.symm).symm
      · rw [if_neg own, if_neg own, before] }

theorem touch (c : CallId) : (s.touch c).Without id o (u.touch c) :=
  h.modifyCache c fun _ _ plain => plain

theorem addRefs (c : CallId) (n : Int) : (s.addRefs c n).Without id o (u.addRefs c n) := by
  refine h.modifyCache c fun x y plain => ?_
  obtain ⟨key, mode, refs, access⟩ := x
  obtain ⟨key', mode', refs', access'⟩ := y
  cases plain
  rfl

theorem newCache (other : i ≠ id) (k : Key) (mode : LoadMode) :
    (s.newCache i k mode).Without id o (u.newCache i k mode) :=
  { h with
    stores := h.stores.set (.cache i) {}
    cache := fun c => by
      rw [Session.newCache, Session.newCache, Table.get?_set, Table.get?_set]
      by_cases own : c = i
      · rw [if_pos own, if_pos own, if_neg (own ▸ other)]
        rfl
      · rw [if_neg own, if_neg own, h.cache] }

end

/-! ## Loads -/

section
variable (h : s.Without id o u)
include h

theorem appendTo {x : StoreId} (other : x ≠ .cache id) (data : ByteArray) :
    (s.appendTo x data).Without id o (u.appendTo x data) := by
  unfold Session.appendTo
  rw [h.store other]
  split
  · exact (h.modifyStore x _).wake _
  · exact h

theorem finishStore (x : StoreId) : (s.finishStore x).Without id o (u.finishStore x) :=
  (h.modifyStore x _).wake _

theorem cancelStore (x : StoreId) : (s.cancelStore x).Without id o (u.cancelStore x) :=
  h.modifyStore x _

theorem changeStore {x : StoreId} (other : x ≠ .cache id) (change : StoreChange) :
    (s.changeStore x change).Without id o (u.changeStore x change) := by
  cases change with
  | none => exact h
  | append data => exact h.appendTo other data
  | finish => exact h.finishStore x

theorem advanceLoad {l : Load} (source : l.job.source ≠ id) (store : l.job.store ≠ .cache id) :
    (u.advanceLoad l).1 = (s.advanceLoad l).1 ∧
      (s.advanceLoad l).2.Without id o (u.advanceLoad l).2 := by
  unfold Session.advanceLoad
  rw [h.source source, h.store store]
  exact ⟨rfl, (h.modifySource _ _).changeStore store _⟩

theorem closeSources (jobs : List Job) :
    (jobs.foldl (fun s job => s.modifySource job.source Source.close) s).Without id o
      (jobs.foldl (fun s job => s.modifySource job.source Source.close) u) := by
  induction jobs generalizing s u with
  | nil => exact h
  | cons j jobs ih => exact ih (h.modifySource j.source _)

theorem dequeue (n : PoolName) (x : StoreId) : (s.dequeue n x).Without id o (u.dequeue n x) := by
  unfold Session.dequeue
  rw [h.pool]
  split
  · exact h
  · exact ((h.setPool n _).closeSources _).finishStore x

/-! ## Opening and leasing -/

theorem attach (i c : CallId) : (s.attach i c).Without id o (u.attach i c) := by
  have readers : u.readers.set i { cache := c } = s.readers.set i { cache := c } := by
    rw [h.readers]
  exact (((h.addRefs c 1).touch c).setReaders readers).answer ..

theorem abandon (i : CallId) (k : Key) (r : Result) :
    (s.abandon i k r).Without id o (u.abandon i k r) :=
  ((h.freeSlot k).wake _).answer ..

theorem refuse (i : CallId) (e e' : CacheError) :
    (s.refuse i e).Without id o (u.refuse i e') :=
  (h.modifySink i _).answer ..

theorem grant (i : CallId) (other : o ≠ some k) :
    (s.grant i k).Without id o (u.grant i k) := by
  have writers : u.writers.set i { key := k } = s.writers.set i { key := k } := by rw [h.writers]
  exact (((h.setSlot other (.writer i)).wake Task.seeks).setWriters writers).answer ..

end
end Without
end Session
end SharedStream
