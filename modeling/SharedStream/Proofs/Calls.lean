import SharedStream.Proofs.Reachable
import SharedStream.Proofs.Stores

/-! # Calls that sleep

A call falls asleep when it has looked at its key or its store and has found that it has to wait.
What it has found stays so until somebody wakes it: every event that could end its wait does so.
-/
namespace SharedStream

/-- The tasks that a task can lead to within its call. -/
inductive Task.Leads : Task → Task → Prop
  | claim (key : Key) (mode : LoadMode) : Leads (.seekReader key mode) (.makeSource key mode)
  | fill (key : Key) (mode : LoadMode) (l : Load) : Leads (.makeSource key mode) (.fill key l)
  | queue (key : Key) (mode : LoadMode) : Leads (.makeSource key mode) (.register key)
  | standIn (key : Key) (mode : LoadMode) (i : Nat) : Leads (.makeSource key mode) (.standIn key i)
  | stoodIn (key : Key) (i : Nat) : Leads (.standIn key i) (.register key)
  | filling (key : Key) (l l' : Load) : l'.job = l.job → Leads (.fill key l) (.fill key l')
  | filled (key : Key) (l : Load) : Leads (.fill key l) (.register key)
  | retire (key : Key) (cache : CallId) : Leads (.seekWriter key) (.cancelCache key cache)
  | dequeue (key : Key) (cache : CallId) :
      Leads (.cancelCache key cache) (.dequeueCache key cache)
  | await (key : Key) (cache : CallId) : Leads (.dequeueCache key cache) (.awaitCache key cache)
  | lease (key : Key) (cache : CallId) : Leads (.awaitCache key cache) (.lease key)
  | reading (r r' : Reading) : r'.reader = r.reader → r'.cache = r.cache → r'.goal = r.goal →
      Leads (.read r) (.read r')
  | announce (reader : CallId) (h : ClosedHandle) (p : Parting) :
      Leads (.leave reader p) (.announce h p)
  | giveBack (writer : CallId) (flush : Option IoFailure) (p : Parting) :
      Leads (.closeSink writer p) (.giveBack writer flush p)
  | leave (reader : CallId) (h : ClosedHandle) (r : Result) :
      Leads (.leave reader .close) (.expire h r)
  | tell (h : ClosedHandle) (r : Result) : Leads (.announce h .close) (.expire h r)
  | expire (writer : CallId) (flush : Option IoFailure) (h : ClosedHandle) (r : Result) :
      Leads (.giveBack writer flush .close) (.expire h r)
  | start (job : Job) : Leads (.makeLoad job) (.load job.start)
  | loading (l l' : Load) : l'.job = l.job → Leads (.load l) (.load l')

theorem Task.leads_submitted (key : Key) (mode : LoadMode) (denied : Option Nat) :
    Leads (.makeSource key mode) (.submitted key denied) := by
  cases denied with
  | none => exact .queue key mode
  | some i => exact .standIn key mode i

theorem Task.Leads.handle {t t' : Task} (h : t.Leads t') {x : CallId} (hx : t'.handle? = some x) :
    t.handle? = some x := by
  cases h with
  | reading r r' reader => exact (congrArg some reader).symm.trans hx
  | giveBack => exact hx
  | _ => cases hx

/-- The slot is in transition or leased. -/
def Slot.isTaken : Slot → Bool
  | .opening | .closing | .writer _ => true
  | .reader _ => false

namespace Store

/-- The read asks for bytes, has room for them, and may wait for them. -/
structure Request.Patient (q : Request) : Prop where
  blocking : q.blocking = true
  nonempty : q.len ≠ 0
  room : q.offset + q.len ≤ q.buf.size

/-- Nothing is loaded at the position, and more may come. -/
def Lacks (y : Store) (position : Nat) : Prop := y.loadedLen ≤ position ∧ y.finished = false

variable {y : Store} {q : Request}

theorem read_eq_waits_iff : y.read q = .waits ↔ q.Patient ∧ y.Lacks q.position := by
  suffices h : y.read q = .waits ↔ q.offset + q.len ≤ q.buf.size ∧ q.len ≠ 0 ∧ q.blocking = true ∧
      y.loadedLen ≤ q.position ∧ y.finished = false by
    rw [h]
    exact ⟨fun ⟨room, nonempty, blocking, lacks⟩ => ⟨⟨blocking, nonempty, room⟩, lacks⟩,
      fun ⟨⟨blocking, nonempty, room⟩, lacks⟩ => ⟨room, nonempty, blocking, lacks⟩⟩
  unfold read
  split
  · simp
    omega
  split
  · simp_all
  split
  · split
    · simp_all
    · split <;> simp_all
  · simp
    omega

end Store

/-- The store has all that it had, and it got nothing after it was finished. -/
structure Store.Grows (y y' : Store) : Prop where
  loaded : y.loadedLen ≤ y'.loadedLen
  finished : y.finished = true → y'.finished = true ∧ y'.loadedLen = y.loadedLen
  gapless : y.Gapless → y'.Gapless

namespace Store.Grows
variable {x y z : Store}

theorem refl (y : Store) : y.Grows y := ⟨Nat.le_refl _, fun h => ⟨h, rfl⟩, id⟩

theorem trans (h : x.Grows y) (h' : y.Grows z) : x.Grows z := by
  refine ⟨Nat.le_trans h.loaded h'.loaded, fun finished => ?_, fun hx => h'.gapless (h.gapless hx)⟩
  obtain ⟨finished, len⟩ := h.finished finished
  obtain ⟨finished, len'⟩ := h'.finished finished
  exact ⟨finished, len'.trans len⟩

theorem change (y : Store) (change : StoreChange) : y.Grows (y.change change) := by
  cases change with
  | none => exact .refl y
  | finish => exact ⟨Nat.le_refl _, fun _ => ⟨rfl, rfl⟩, id⟩
  | append data =>
    refine ⟨?_, fun finished => ?_, fun hy => hy.append data⟩
    · simp only [Store.change, Store.append]
      split
      · exact Nat.le_add_right ..
      · exact Nat.le_refl _
    · have closed : y.append data = y := by simp [Store.append, Store.isOpen, finished]
      show (y.append data).finished = true ∧ (y.append data).loadedLen = y.loadedLen
      rw [closed]
      exact ⟨finished, rfl⟩

theorem cancel (y : Store) : y.Grows y.cancel := ⟨Nat.le_refl _, fun h => ⟨h, rfl⟩, id⟩

end Store.Grows

namespace Session
variable {s t u : Session} {who : Option CallId} {id i x : CallId} {k : Key} {a b : Task}

/-- The call sleeps before the task. -/
def Sleeps (s : Session) (i : CallId) (a : Task) : Prop := s.calls.get? i = some ⟨a, false⟩

/-- A call has taken the last reader from a cache and has yet to tell the others. -/
def Announcing (s : Session) : Prop := ∃ i h p, s.task? i = some (.announce h p)

/-- The slot makes a call wait that is to write: it is taken, or its cache has readers. -/
def Blocks (s : Session) : Slot → Prop
  | .opening | .closing | .writer _ => True
  | .reader c => 0 < s.refs c

/-- A call with the task that looks now has to wait. -/
def Waits (s : Session) : Task → Prop
  | .seekReader k _ =>
    s.registry.shutDown = false ∧ ∃ x, s.registry.slots.get? k = some x ∧ x.isTaken = true
  | .seekWriter k =>
    s.registry.shutDown = false ∧ ∃ x, s.registry.slots.get? k = some x ∧ s.Blocks x
  | .awaitCache _ c => (s.store (.cache c)).finished = false
  | .awaitStore x => (s.store x).finished = false
  | .read r => ∃ h, s.readers.get? r.reader = some h ∧
      (s.store (.cache r.cache)).read (r.request h.cursor.position) = .waits
  | .readStore x r => (s.store x).read r = .waits
  | _ => False

/-- The call has to wait, or it will be told to look again. -/
def Attends (s : Session) (a : Task) : Prop := s.Waits a ∨ a.seeks = true ∧ s.Announcing

/-! ## What a wait depends on -/

/-- The registry is the same to all who seek a key. -/
structure SameKeys (s u : Session) : Prop where
  shutDown : u.registry.shutDown = s.registry.shutDown
  slots : u.registry.slots = s.registry.slots
  refs : ∀ c, u.refs c = s.refs c

/-- The store is the same to all who wait for it. -/
def SameStore (s u : Session) (x : StoreId) : Prop :=
  (u.store x).loadedLen = (s.store x).loadedLen ∧ (u.store x).finished = (s.store x).finished

theorem SameStore.of_eq (h : u.stores = s.stores) (x : StoreId) : s.SameStore u x := by
  simp [SameStore, store, h]

theorem SameStore.read_waits {x : StoreId} (h : s.SameStore u x) {r : Store.Request}
    (waits : (s.store x).read r = .waits) : (u.store x).read r = .waits := by
  rw [Store.read_eq_waits_iff, Store.Lacks] at waits ⊢
  rwa [h.1, h.2]

theorem blocks_congr (refs : ∀ c, u.refs c = s.refs c) (x : Slot) : u.Blocks x ↔ s.Blocks x := by
  cases x <;> simp [Blocks, refs]

theorem Waits.keys (h : s.Waits a) (seeks : a.seeks = true) (same : s.SameKeys u) : u.Waits a := by
  obtain ⟨shutDown, slots, refs⟩ := same
  cases a with
  | seekReader key mode =>
    obtain ⟨going, x, hx, taken⟩ := h
    exact ⟨shutDown.trans going, x, slots ▸ hx, taken⟩
  | seekWriter key =>
    obtain ⟨going, x, hx, blocks⟩ := h
    exact ⟨shutDown.trans going, x, slots ▸ hx, (blocks_congr refs x).2 blocks⟩
  | _ => cases seeks

theorem Waits.stores (h : s.Waits a) (other : a.seeks = false)
    (same : ∀ x, a.awaits x = true → s.SameStore u x)
    (reader : ∀ r, a = .read r → u.readers.get? r.reader = s.readers.get? r.reader) :
    u.Waits a := by
  cases a with
  | awaitCache key c => exact (same (.cache c) (by simp [Task.awaits])).2.trans h
  | awaitStore x => exact (same x (by simp [Task.awaits])).2.trans h
  | readStore x r => exact (same x (by simp [Task.awaits])).read_waits h
  | read r =>
    obtain ⟨handle, hr, waits⟩ := h
    refine ⟨handle, (reader r rfl).trans hr, ?_⟩
    exact (same (.cache r.cache) (by simp [Task.awaits])).read_waits waits
  | seekReader | seekWriter => cases other
  | _ => exact h.elim

theorem Announcing.congr (h : s.Announcing) (task : ∀ i, u.task? i = s.task? i) :
    u.Announcing := by
  obtain ⟨i, reader, p, hi⟩ := h
  exact ⟨i, reader, p, (task i).trans hi⟩

/-! ## Stores -/

/-- The caches and the calls so far are those that stores go by. -/
def Names (s : Session) : StoreId → Prop
  | .cache c => s.caches.contains c = true
  | .separate i => i < s.clock

/-- Every store goes by such a name, and has no gaps. -/
def Stocked (s : Session) : Prop := ∀ x y, s.stores.get? x = some y → s.Names x ∧ y.Gapless

/-- No store goes, and each has what it had. -/
structure Stocks (s u : Session) : Prop where
  grows : ∀ {x y}, s.stores.get? x = some y → ∃ y', u.stores.get? x = some y' ∧ y.Grows y'
  stocked : s.Stocked → u.Stocked

namespace Stocks

theorem refl (s : Session) : s.Stocks s := ⟨fun h => ⟨_, h, .refl _⟩, id⟩

theorem trans (h : s.Stocks t) (h' : t.Stocks u) : s.Stocks u where
  grows hy := by
    obtain ⟨y', hy', grows⟩ := h.grows hy
    obtain ⟨y'', hy'', grows'⟩ := h'.grows hy'
    exact ⟨y'', hy'', grows.trans grows'⟩
  stocked hs := h'.stocked (h.stocked hs)

/-- Each store is changed in its own way, if at all. -/
theorem of_map {f : StoreId → Store → Store} (grows : ∀ x (y : Store), y.Grows (f x y))
    (stores : ∀ x, u.stores.get? x = (s.stores.get? x).map (f x))
    (names : ∀ x, s.Names x → u.Names x) : s.Stocks u where
  grows {x y} hy := ⟨f x y, by rw [stores, hy]; rfl, grows x y⟩
  stocked hs x y hy := by
    rw [stores] at hy
    obtain ⟨z, hz, rfl⟩ := Option.map_eq_some_iff.1 hy
    obtain ⟨named, gapless⟩ := hs x z hz
    exact ⟨names x named, (grows x z).gapless gapless⟩

theorem of_names (stores : u.stores = s.stores) (names : ∀ x, s.Names x → u.Names x) :
    s.Stocks u :=
  .of_map (f := fun _ y => y) (fun _ y => .refl y) (fun x => by simp [stores]) names

theorem of_eq (stores : u.stores = s.stores) (caches : u.caches = s.caches)
    (clock : u.clock = s.clock) : s.Stocks u := by
  refine .of_names stores fun x hx => ?_
  cases x <;> simpa [Names, caches, clock] using hx

end Stocks

/-! ## What an event does to the calls that it is not about -/

/-- All calls keep their tasks, nobody falls asleep, and the calls but `who` that sleep on go on
waiting. -/
structure Heeds (s : Session) (who : Option CallId) (u : Session) : Prop extends s.Stocks u where
  task : ∀ i, u.task? i = s.task? i
  sleeps : ∀ {i a}, u.Sleeps i a → s.Sleeps i a
  attends : ∀ {i a}, who ≠ some i → u.Sleeps i a → s.Attends a → u.Attends a
  reader : ∀ {i r}, who ≠ some i → s.task? i = some (.read r) →
    u.readers.get? r.reader = s.readers.get? r.reader

/-- The calls but `who` keep their tasks, those of them that sleep on go on waiting, and `who` goes
on with what its task leads to, and sleeps only if it has to wait. -/
structure Passes (s : Session) (who : Option CallId) (u : Session) : Prop extends s.Stocks u where
  task : ∀ {i}, who ≠ some i → u.task? i = s.task? i
  own : ∀ {i a b}, who = some i → s.task? i = some a → u.task? i = some b → b = a ∨ a.Leads b
  attends : ∀ {i a}, who ≠ some i → u.Sleeps i a → s.Sleeps i a ∧ (s.Attends a → u.Attends a)
  waits : ∀ {i a}, who = some i → u.Sleeps i a → u.Waits a
  reader : ∀ {i r}, who ≠ some i → s.task? i = some (.read r) →
    u.readers.get? r.reader = s.readers.get? r.reader

theorem task?_of_sleeps (h : s.Sleeps i a) : s.task? i = some a := by
  rw [Sleeps] at h
  simp [task?, h]

theorem Heeds.refl (s : Session) (who : Option CallId) : s.Heeds who s :=
  ⟨.refl s, fun _ => rfl, fun h => h, fun _ _ h => h, fun _ _ => rfl⟩

theorem Heeds.trans (h : s.Heeds who t) (h' : t.Heeds who u) : s.Heeds who u where
  toStocks := h.toStocks.trans h'.toStocks
  task i := (h'.task i).trans (h.task i)
  sleeps hi := h.sleeps (h'.sleeps hi)
  attends other hi ha := h'.attends other hi (h.attends other (h'.sleeps hi) ha)
  reader other hi := (h'.reader other ((h.task _).trans hi)).trans (h.reader other hi)

/-- Whoever sleeps on waits for something that has stayed the same. -/
theorem Heeds.of_same (stocks : s.Stocks u) (task : ∀ i, u.task? i = s.task? i)
    (sleeps : ∀ {i a}, u.Sleeps i a → s.Sleeps i a)
    (keys : ∀ {i a}, u.Sleeps i a → a.seeks = true → s.SameKeys u)
    (stores : ∀ {i a x}, u.Sleeps i a → a.awaits x = true → s.SameStore u x)
    (reader : ∀ {i r}, who ≠ some i → s.task? i = some (.read r) →
      u.readers.get? r.reader = s.readers.get? r.reader) : s.Heeds who u := by
  refine ⟨stocks, task, sleeps, ?_, reader⟩
  rintro i a other hi (waits | ⟨seeks, announcing⟩)
  · cases seeks : a.seeks with
    | true => exact .inl (waits.keys seeks (keys hi seeks))
    | false =>
      refine .inl (waits.stores seeks (fun x hx => stores hi hx) ?_)
      rintro r rfl
      exact reader other (task?_of_sleeps (sleeps hi))
  · exact .inr ⟨seeks, announcing.congr task⟩

/-- Nothing has changed that anybody waits for. -/
theorem Heeds.of_eq (stocks : s.Stocks u) (calls : u.calls = s.calls) (keys : s.SameKeys u)
    (stores : u.stores = s.stores) (readers : u.readers = s.readers) : s.Heeds who u := by
  refine .of_same stocks ?_ ?_ (fun _ _ => keys) (fun _ _ => .of_eq stores _) fun _ _ => by
    rw [readers]
  · intro i
    rw [task?, calls, task?]
  · intro i a hi
    rwa [Sleeps, calls] at hi

theorem SameKeys.of_eq (registry : u.registry = s.registry) (caches : u.caches = s.caches) :
    s.SameKeys u :=
  ⟨by rw [registry], by rw [registry], fun c => by simp [Session.refs, caches]⟩

/-! ## How a call ends its move -/

theorem get?_wake (p : Task → Bool) (i : CallId) : (s.wake p).calls.get? i =
    (s.calls.get? i).map fun c => if p c.task then { c with awake := true } else c :=
  Table.get?_map ..

/-- Whoever is woken does not sleep. -/
theorem sleeps_wake {p : Task → Bool} : (s.wake p).Sleeps i a ↔ s.Sleeps i a ∧ p a = false := by
  rw [Sleeps, get?_wake, Sleeps]
  constructor
  · intro h
    obtain ⟨c, hc, woken⟩ := Option.map_eq_some_iff.1 h
    split at woken
    · cases woken
    · next asleep =>
      subst woken
      exact ⟨hc, by simpa using asleep⟩
  · rintro ⟨h, asleep⟩
    simp [h, asleep]

theorem sleeps_goOn_of_ne (h : i ≠ id) : (s.goOn id b).Sleeps i a ↔ s.Sleeps i a := by
  simp [Sleeps, goOn, Table.get?_modify, h]

theorem sleeps_answer {r : Result} : (s.answer id r).Sleeps i a ↔ i ≠ id ∧ s.Sleeps i a := by
  by_cases h : i = id <;> simp [Sleeps, answer, Table.get?_erase, h]

theorem sleeps_sleep_of_ne (h : i ≠ id) : (s.sleep id).Sleeps i a ↔ s.Sleeps i a := by
  simp [Sleeps, sleep, Table.get?_modify, h]

/-- What is left of a wait when the calls have changed in another way. -/
theorem Attends.of_calls (h : s.Attends a) (registry : u.registry = s.registry)
    (caches : u.caches = s.caches) (stores : u.stores = s.stores) (readers : u.readers = s.readers)
    (announcing : s.Announcing → u.Announcing) : u.Attends a := by
  rcases h with waits | ⟨seeks, h⟩
  · left
    cases seeks : a.seeks with
    | true => exact waits.keys seeks (.of_eq registry caches)
    | false => exact waits.stores seeks (fun x _ => .of_eq stores x) fun r _ => by rw [readers]
  · exact .inr ⟨seeks, announcing h⟩

/-- Nobody sleeps in `u` who has to be told by the call. -/
def Needless (s : Session) (id : CallId) (u : Session) : Prop :=
  (∀ h p, s.task? id ≠ some (.announce h p)) ∨ ∀ i a, u.Sleeps i a → a.seeks = false

namespace Heeds
variable (h : s.Heeds (some id) u)
include h

/-- When the call that may have to tell them moves on, the others still wait for the same. -/
theorem attends_of_needless (needless : s.Needless id u) {v : Session} (other : i ≠ id)
    (hi : u.Sleeps i a) (ha : s.Attends a) (registry : v.registry = u.registry)
    (caches : v.caches = u.caches) (stores : v.stores = u.stores) (readers : v.readers = u.readers)
    (task : ∀ j, j ≠ id → v.task? j = u.task? j) : v.Attends a := by
  have attends := h.attends (by simpa [eq_comm] using other) hi ha
  rcases needless with still | awake
  · refine attends.of_calls registry caches stores readers ?_
    rintro ⟨j, reader, p, hj⟩
    have other : j ≠ id := by
      rintro rfl
      exact still reader p ((h.task j).symm.trans hj)
    exact ⟨j, reader, p, by rw [task j other, hj]⟩
  · have store := awake i a hi
    rcases attends with waits | ⟨seeks, -⟩
    · exact .inl (waits.stores store (fun x _ => .of_eq stores x) fun r _ => by rw [readers])
    · cases seeks.symm.trans store

theorem goOn (ht : s.task? id = some a) (awake : ¬ s.Sleeps id a) (needless : s.Needless id u)
    (leads : a.Leads b) : s.Passes (some id) (u.goOn id b) := by
  have present : (u.task? id).isSome := by simp [h.task, ht]
  have task := task?_goOn present b
  refine ⟨h.toStocks.trans (.of_eq rfl rfl rfl), ?_, ?_, ?_, ?_, h.reader⟩
  · intro i other
    rw [task, if_neg (by simpa [eq_comm] using other), h.task]
  · rintro i a' b' ⟨⟩ ha hb
    rw [ht, Option.some.injEq] at ha
    rw [task, if_pos rfl, Option.some.injEq] at hb
    exact .inr (ha ▸ hb ▸ leads)
  · intro i a' other hi
    have other : i ≠ id := by simpa [eq_comm] using other
    have hi := (sleeps_goOn_of_ne other).1 hi
    refine ⟨h.sleeps hi, fun ha => h.attends_of_needless needless other hi ha rfl rfl rfl rfl ?_⟩
    intro j hj
    rw [task, if_neg hj]
  · rintro i a' ⟨⟩ hi
    -- The call was awake, and it stays so whatever its task.
    exfalso
    simp only [Sleeps, Session.goOn, Table.get?_modify, if_true] at hi
    obtain ⟨c, hc, asleep⟩ := Option.map_eq_some_iff.1 hi
    have hc : u.Sleeps id c.task := by
      cases c
      simp only [Call.mk.injEq] at asleep
      rw [Sleeps, hc, asleep.2]
    have same := task?_of_sleeps (h.sleeps hc)
    rw [ht, Option.some.injEq] at same
    exact awake (same ▸ h.sleeps hc)

theorem answer (needless : s.Needless id u) (r : Result) :
    s.Passes (some id) (u.answer id r) := by
  have task : ∀ i, (u.answer id r).task? i = if i = id then none else u.task? i := task?_answer r
  refine ⟨h.toStocks.trans (.of_eq rfl rfl rfl), ?_, ?_, ?_, ?_, h.reader⟩
  · intro i other
    rw [task, if_neg (by simpa [eq_comm] using other), h.task]
  · rintro i a b ⟨⟩ - hb
    simp [task] at hb
  · intro i a other hi
    obtain ⟨other, hi⟩ := sleeps_answer.1 hi
    refine ⟨h.sleeps hi, fun ha => h.attends_of_needless needless other hi ha rfl rfl rfl rfl ?_⟩
    intro j hj
    rw [task, if_neg hj]
  · rintro i a ⟨⟩ hi
    exact absurd rfl (sleeps_answer.1 hi).1

/-- A call that begins is awake. -/
theorem call (new : s.task? id = none) (b : Task) : s.Passes (some id) (u.call id b) := by
  have task : ∀ i, (u.call id b).task? i = if i = id then some b else u.task? i := task?_call b
  have sleeps : ∀ {i a}, (u.call id b).Sleeps i a → i ≠ id ∧ u.Sleeps i a := by
    intro i a hi
    by_cases hid : i = id
    · simp [Sleeps, Session.call, hid] at hi
    · exact ⟨hid, by simpa [Sleeps, Session.call, Table.get?_set, hid] using hi⟩
  refine ⟨h.toStocks.trans (.of_eq rfl rfl rfl), ?_, ?_, ?_, ?_, h.reader⟩
  · intro i other
    rw [task, if_neg (by simpa [eq_comm] using other), h.task]
  · rintro i a b ⟨⟩ ha -
    rw [new] at ha
    cases ha
  · intro i a other hi
    have hi := (sleeps hi).2
    refine ⟨h.sleeps hi, fun ha => (h.attends other hi ha).of_calls rfl rfl rfl rfl ?_⟩
    rintro ⟨j, reader, p, hj⟩
    have other : j ≠ id := by
      rintro rfl
      rw [h.task, new] at hj
      cases hj
    exact ⟨j, reader, p, by rw [task, if_neg other, hj]⟩
  · rintro i a ⟨⟩ hi
    exact absurd rfl (sleeps hi).1

end Heeds

theorem Heeds.passes_of_none (h : s.Heeds none u) : s.Passes none u where
  toStocks := h.toStocks
  task _ := h.task _
  own none := by cases none
  attends other hi := ⟨h.sleeps hi, h.attends other hi⟩
  waits none := by cases none
  reader := h.reader

theorem Waits.passes (h : s.Waits a) (ht : s.task? id = some a) :
    s.Passes (some id) (s.sleep id) := by
  have same : ∀ {a}, s.Attends a → (s.sleep id).Attends a := fun ha =>
    ha.of_calls rfl rfl rfl rfl fun ann => ann.congr fun _ => task?_sleep _
  refine ⟨.of_eq rfl rfl rfl, fun _ => task?_sleep _, ?_, ?_, ?_, fun _ _ => rfl⟩
  · intro i a b _ ha hb
    rw [task?_sleep, ha, Option.some.injEq] at hb
    exact .inl hb.symm
  · intro i a' other hi
    exact ⟨(sleeps_sleep_of_ne (by simpa [eq_comm] using other)).1 hi, same⟩
  · rintro i a' ⟨⟩ hi
    have ht' := task?_of_sleeps hi
    rw [task?_sleep, ht, Option.some.injEq] at ht'
    subst ht'
    cases seeks : a.seeks with
    | true => exact h.keys seeks (.of_eq rfl rfl)
    | false => exact h.stores seeks (fun x _ => .of_eq rfl x) fun r _ => rfl

/-- Whoever sleeps has to wait or will be told, and nobody else uses the handle of a call. -/
structure Attentive (s : Session) : Prop where
  attends : ∀ {i a}, s.Sleeps i a → s.Attends a
  sole : ∀ {i j a b x}, s.task? i = some a → s.task? j = some b → a.handle? = some x →
    b.handle? = some x → i = j
  begun : ∀ {i a}, s.task? i = some a → i < s.clock
  reads : ∀ {i r}, s.task? i = some (.read r) → ∃ h, s.readers.get? r.reader = some h
  stocked : s.Stocked

end Session
end SharedStream
