import SharedStream.Proofs.Calls

/-! # Moves and the calls that sleep

No move leaves a call asleep whose wait it has ended, but for the call that takes the last reader
from a cache: it goes on to tell the others.
-/
namespace SharedStream.Session

variable {s u : Session} {who : Option CallId} {id c x : CallId} {k : Key} {a : Task} {l : Load}

/-! ## Parts of moves -/

theorem heeds_setPool (n : PoolName) (p : Pool) : s.Heeds who (s.setPool n p) := by
  cases n <;> exact .of_eq (.of_eq rfl rfl rfl) rfl ⟨rfl, rfl, fun _ => rfl⟩ rfl rfl

theorem heeds_modifySource (f : Source → Source) : s.Heeds who (s.modifySource c f) :=
  .of_eq (.of_eq rfl rfl rfl) rfl (.of_eq rfl rfl) rfl rfl

theorem heeds_setSinks (sinks : Table CallId Sink) : s.Heeds who { s with sinks := sinks } :=
  .of_eq (.of_eq rfl rfl rfl) rfl (.of_eq rfl rfl) rfl rfl

theorem heeds_setWriters (writers : Table CallId Writer) :
    s.Heeds who { s with writers := writers } :=
  .of_eq (.of_eq rfl rfl rfl) rfl (.of_eq rfl rfl) rfl rfl

theorem heeds_closeSources (jobs : List Job) :
    s.Heeds who (jobs.foldl (fun s job => s.modifySource job.source Source.close) s) := by
  obtain ⟨sources, closed⟩ := closeSources_eq (s := s) jobs
  rw [closed]
  exact .of_eq (.of_eq rfl rfl rfl) rfl (.of_eq rfl rfl) rfl rfl

theorem refs_touch (c' : CallId) : (s.touch c).refs c' = s.refs c' := by
  by_cases h : c' = c <;> simp [refs, touch, Table.get?_modify, h, Function.comp_def]

theorem stocks_modifyCache (f : Cache → Cache) :
    s.Stocks { s with caches := s.caches.modify c f } := by
  refine .of_names rfl fun x hx => ?_
  cases x with
  | separate i => exact hx
  | cache c' => by_cases h : c' = c <;> simpa [Names, Table.contains, Table.get?_modify, h] using hx

theorem heeds_touch : s.Heeds who (s.touch c) :=
  .of_eq (stocks_modifyCache _) rfl ⟨rfl, rfl, refs_touch⟩ rfl rfl

/-- Whatever has become of the keys, who seeks one looks again. -/
theorem heeds_notifyKeys (r : Registry) : s.Heeds who ({ s with registry := r }).notifyKeys := by
  refine .of_same (.of_eq rfl rfl rfl) (task?_wake _) (fun h => (sleeps_wake.1 h).1) ?_
    (fun _ _ => .of_eq rfl _) fun _ _ => rfl
  intro i a hi seeks
  have other := (sleeps_wake.1 hi).2
  rw [seeks] at other
  cases other

/-- Taking a slot ends no wait. -/
theorem Waits.take {y : Slot} (waits : s.Waits a) (taken : y.isTaken = true) :
    (s.setSlot k y).Waits a := by
  have slot : ∀ k', (s.setSlot k y).registry.slots.get? k' =
      if k' = k then some y else s.registry.slots.get? k' := fun k' => Table.get?_set ..
  have blocks : (s.setSlot k y).Blocks y := by cases y <;> trivial
  cases a with
  | seekReader key mode =>
    obtain ⟨going, z, hz, hzt⟩ := waits
    by_cases hk : key = k
    · exact ⟨going, y, by rw [slot, if_pos hk], taken⟩
    · exact ⟨going, z, by rw [slot, if_neg hk, hz], hzt⟩
  | seekWriter key =>
    obtain ⟨going, z, hz, hzb⟩ := waits
    by_cases hk : key = k
    · exact ⟨going, y, by rw [slot, if_pos hk], blocks⟩
    · exact ⟨going, z, by rw [slot, if_neg hk, hz], hzb⟩
  | _ => exact waits

/-- A slot can be taken without a word. -/
theorem heeds_take {y : Slot} (taken : y.isTaken = true) : s.Heeds who (s.setSlot k y) :=
  ⟨.of_eq rfl rfl rfl, fun _ => rfl, fun h => h,
    fun _ _ h => h.imp_left fun waits => waits.take taken, fun _ _ => rfl⟩

theorem refs_pos_addRefs {n : Int} (h : ∀ c', 0 < s.refs c' → c' = c → 0 < s.refs c + n)
    {c' : CallId} (pos : 0 < s.refs c') : 0 < (s.addRefs c n).refs c' := by
  by_cases hc : c' = c
  · have more := h c' pos hc
    subst hc
    cases hx : s.caches.get? c' with
    | none => simp [refs, hx] at pos
    | some x => simpa [refs, addRefs, Table.get?_modify, hx] using more
  · simpa [refs, addRefs, Table.get?_modify, hc] using pos

/-- Nobody waits for a count to change as long as there are readers. -/
theorem heeds_addRefs {n : Int} (h : ∀ c', 0 < s.refs c' → c' = c → 0 < s.refs c + n) :
    s.Heeds who (s.addRefs c n) := by
  refine ⟨stocks_modifyCache _, fun _ => rfl, fun h => h, ?_, fun _ _ => rfl⟩
  intro i a _ _ ha
  refine ha.imp_left fun waits => ?_
  cases a with
  | seekWriter key =>
    obtain ⟨going, y, hy, blocks⟩ := waits
    refine ⟨going, y, hy, ?_⟩
    cases y with
    | reader c' => exact refs_pos_addRefs h blocks
    | _ => trivial
  | _ => exact waits

theorem heeds_setReaders {readers : Table CallId Reader}
    (h : ∀ {i r}, who ≠ some i → s.task? i = some (.read r) →
      readers.get? r.reader = s.readers.get? r.reader) :
    s.Heeds who { s with readers := readers } := by
  refine ⟨.of_eq rfl rfl rfl, fun _ => rfl, fun h => h, ?_, h⟩
  intro i a other hi ha
  refine ha.imp_left fun waits => ?_
  cases seeks : a.seeks with
  | true => exact waits.keys seeks (.of_eq rfl rfl)
  | false =>
    refine waits.stores seeks (fun x _ => .of_eq rfl x) ?_
    rintro r rfl
    exact h other (task?_of_sleeps hi)

theorem stocks_modifyStore (y : StoreId) {f : Store → Store}
    (grows : ∀ z : Store, z.Grows (f z)) :
    s.Stocks { s with stores := s.stores.modify y f } := by
  refine .of_map (f := fun x y' => if x = y then f y' else y') ?_ ?_ fun _ hx => hx
  · intro x y'
    split
    · exact grows y'
    · exact .refl y'
  · intro x
    by_cases h : x = y <;> simp [Table.get?_modify, h]

theorem heeds_modifyStore (y : StoreId) {f : Store → Store}
    (grows : ∀ z : Store, z.Grows (f z)) :
    s.Heeds who (({ s with stores := s.stores.modify y f } : Session).notifyStore y) := by
  refine .of_same ((stocks_modifyStore y grows).trans (.of_eq rfl rfl rfl)) (task?_wake _)
    (fun h => (sleeps_wake.1 h).1) (fun _ _ => .of_eq rfl rfl) ?_ fun _ _ => rfl
  intro i a z hi awaits
  have other : z ≠ y := by
    rintro rfl
    have asleep := (sleeps_wake.1 hi).2
    rw [awaits] at asleep
    cases asleep
  simp [SameStore, store, notifyStore, wake, Table.get?_modify, other]

theorem heeds_changeStore (y : StoreId) (change : StoreChange) :
    s.Heeds who (s.changeStore y change) := by
  cases change with
  | none => exact .refl s who
  | finish => exact heeds_modifyStore y fun y => .change y .finish
  | append data =>
    simp only [changeStore, appendTo]
    split
    · exact heeds_modifyStore y fun y => .change y (.append data)
    · exact .refl s who

theorem heeds_advanceLoad (l : Load) : s.Heeds who (s.advanceLoad l).2 :=
  (heeds_modifySource _).trans (heeds_changeStore _ _)

/-- Who waits for a store does not care whether its load was asked to stop. -/
theorem heeds_cancelStore (y : StoreId) : s.Heeds who (s.cancelStore y) := by
  refine .of_same (stocks_modifyStore y .cancel) (fun _ => rfl) (fun h => h)
    (fun _ _ => .of_eq rfl rfl) ?_ fun _ _ => rfl
  intro i a z _ _
  by_cases hz : z = y
  · cases hy : s.stores.get? y <;>
      simp [SameStore, store, cancelStore, Table.get?_modify, Store.cancel, hz, hy]
  · simp [SameStore, store, cancelStore, Table.get?_modify, hz]

theorem heeds_dequeue (n : PoolName) (y : StoreId) : s.Heeds who (s.dequeue n y) := by
  unfold dequeue
  split
  · exact .refl s who
  · exact ((heeds_setPool n _).trans (heeds_closeSources _)).trans (heeds_changeStore y .finish)

/-- A store that comes anew is as empty as one that is not there. -/
theorem heeds_setStore {y : StoreId} (absent : s.stores.get? y = none)
    (named : ∀ z, s.Names z ∨ z = y → u.Names z) (calls : u.calls = s.calls)
    (keys : s.SameKeys u) (stores : u.stores = s.stores.set y {})
    (readers : u.readers = s.readers) : s.Heeds who u := by
  have get : ∀ z, u.stores.get? z = if z = y then some {} else s.stores.get? z := fun z => by
    rw [stores, Table.get?_set]
  refine .of_same ⟨?_, ?_⟩ ?_ ?_ (fun _ _ => keys) ?_ fun _ _ => by rw [readers]
  · intro z y' hz
    have other : z ≠ y := by
      rintro rfl
      rw [absent] at hz
      cases hz
    exact ⟨y', by rw [get, if_neg other, hz], .refl y'⟩
  · intro stocked z y' hz
    rw [get] at hz
    split at hz
    · next h =>
      cases hz
      exact ⟨named z (.inr h), rfl⟩
    · obtain ⟨known, gapless⟩ := stocked z y' hz
      exact ⟨named z (.inl known), gapless⟩
  · intro i
    rw [task?, calls, task?]
  · intro i a hi
    rwa [Sleeps, calls] at hi
  · intro i a z _ _
    by_cases hz : z = y <;> simp [SameStore, store, get, hz, absent]

theorem heeds_newCache {mode : LoadMode} (stocked : s.Stocked) (cache : s.caches.get? id = none) :
    s.Heeds who (s.newCache id k mode) := by
  have absent : s.stores.get? (.cache id) = none := by
    refine Option.eq_none_iff_forall_ne_some.2 fun y hy => ?_
    have named : s.caches.contains id = true := (stocked (.cache id) y hy).1
    simp [Table.contains, cache] at named
  refine heeds_setStore absent ?_ rfl ⟨rfl, rfl, fun c => ?_⟩ rfl rfl
  · rintro z (hz | rfl)
    · cases z with
      | separate i => exact hz
      | cache c =>
        have named : s.caches.contains c = true := hz
        by_cases hc : c = id
        · simp [Names, newCache, Table.contains, hc]
        · simpa [Names, newCache, Table.contains, Table.get?_set, hc] using named
    · simp [Names, newCache, Table.contains]
  · by_cases hc : c = id <;> simp [refs, newCache, Table.get?_set, hc, cache]

/-! ## Moves of calls -/

theorem reader_ne_of_role (hs : s.Sound) {ro : Role} (role : s.keys.role id = some ro) {i : CallId}
    {r : Reading} (hi : s.task? i = some (.read r)) : r.reader ≠ id := by
  rintro rfl
  have none := (hs.fits hi).2.1
  rw [role] at none
  cases none

/-- One more reader of a cache is no news to those who wait. -/
theorem Heeds.attach (h : s.Heeds (some id) u) (hs : s.Sound) (ht : s.task? id = some a)
    {ro : Role} (role : a.role? = some ro) (c : CallId) :
    s.Passes (some id) (u.attach id c) := by
  have counted : u.Heeds (some id) (u.addRefs c 1) := by
    apply heeds_addRefs
    rintro c' pos rfl
    omega
  have handle : ((u.addRefs c 1).touch c).Heeds (some id)
      { (u.addRefs c 1).touch c with
        readers := ((u.addRefs c 1).touch c).readers.set id { cache := c } } := by
    apply heeds_setReaders
    intro i r _ hi
    have task : s.task? i = some (.read r) := (h.task i).symm.trans hi
    exact Table.get?_set_of_ne _ _ (reader_ne_of_role hs ((role_of_task ht).trans role) task)
  have still : ∀ reader p, s.task? id ≠ some (.announce reader p) := by
    rintro reader p same
    cases ht.symm.trans same
    cases role
  exact (((h.trans counted).trans heeds_touch).trans handle).answer (.inl still) _

theorem Heeds.abandon (h : s.Heeds (some id) u) (still : ∀ x p, s.task? id ≠ some (.announce x p))
    (k : Key) (r : Result) : s.Passes (some id) (u.abandon id k r) :=
  (h.trans (heeds_notifyKeys _)).answer (.inl still) r

theorem Heeds.grant (h : s.Heeds (some id) u) (still : ∀ x p, s.task? id ≠ some (.announce x p))
    (k : Key) : s.Passes (some id) (u.grant id k) := by
  have leased : u.Heeds (some id) (u.setSlot k (.writer id)).notifyKeys := heeds_notifyKeys _
  exact ((h.trans leased).trans (heeds_setWriters _)).answer (.inl still) _

theorem Heeds.refuse (h : s.Heeds (some id) u) (still : ∀ x p, s.task? id ≠ some (.announce x p))
    (e : CacheError) : s.Passes (some id) (u.refuse id e) :=
  (h.trans (heeds_setSinks _)).answer (.inl still) _

theorem Heeds.depart (h : s.Heeds (some id) u) (ht : s.task? id = some a) (awake : ¬ s.Sleeps id a)
    (needless : s.Needless id u) {x : ClosedHandle} {r : Result} {p : Parting}
    (leads : p = .close → a.Leads (.expire x r)) : s.Passes (some id) (u.depart id x r p) := by
  cases p with
  | close => exact h.goOn ht awake needless (leads rfl)
  | drop => exact h.answer needless r

theorem passes_moveSeekReader {mode : LoadMode} (hs : s.Sound)
    (ht : s.task? id = some (.seekReader k mode)) (awake : ¬ s.Sleeps id (.seekReader k mode)) :
    s.Passes (some id) (s.moveSeekReader id k mode) := by
  have same := Heeds.refl s (some id)
  unfold moveSeekReader
  split
  · exact same.answer (.inl (by simp [ht])) _
  next going =>
  have going : s.registry.shutDown = false := by simpa using going
  have wait : ∀ {y : Slot}, s.registry.slots.get? k = some y → y.isTaken = true →
      s.Passes (some id) (s.sleep id) := fun hy taken =>
    Waits.passes (a := .seekReader k mode) ⟨going, _, hy, taken⟩ ht
  split
  · exact ((heeds_take rfl).trans (heeds_modifySource _)).goOn ht awake (.inl (by simp [ht]))
      (.claim ..)
  · exact same.attach hs ht rfl _
  · next hy => exact wait hy rfl
  · next hy => exact wait hy rfl
  · next hy => exact wait hy rfl

theorem passes_moveMakeSource {mode : LoadMode} (hs : s.Sound)
    (ht : s.task? id = some (.makeSource k mode)) (awake : ¬ s.Sleeps id (.makeSource k mode))
    (stocked : s.Stocked) :
    s.Passes (some id) (s.moveMakeSource id k mode) := by
  have same := Heeds.refl s (some id)
  have uncached : s.caches.get? id = none := by
    have none := (uncached_of_makes hs (role_of_task ht)).1
    simpa [Table.contains] using none
  unfold moveMakeSource
  split
  · exact same.abandon (by simp [ht]) _ _
  · exact same.abandon (by simp [ht]) _ _
  have made : s.Heeds (some id) (s.newCache id k mode) := heeds_newCache stocked uncached
  cases mode with
  | sync => exact made.goOn ht awake (.inl (by simp [ht])) (.fill ..)
  | async =>
    exact (made.trans (heeds_setPool ..)).goOn ht awake (.inl (by simp [ht]))
      (Task.leads_submitted ..)

theorem passes_moveFill (ht : s.task? id = some (.fill k l)) (awake : ¬ s.Sleeps id (.fill k l)) :
    s.Passes (some id) (s.moveFill id k l) := by
  have load : s.Heeds (some id) (s.advanceLoad l).2 := heeds_advanceLoad l
  unfold moveFill
  rcases hl : s.advanceLoad l with ⟨m, t⟩
  rw [hl] at load
  cases m with
  | goesOn p => exact load.goOn ht awake (.inl (by simp [ht])) (.filling _ _ _ rfl)
  | ends => exact load.goOn ht awake (.inl (by simp [ht])) (.filled ..)
  | panics text => exact load.abandon (by simp [ht]) _ _

theorem passes_moveStandIn {i : Nat} (ht : s.task? id = some (.standIn k i))
    (awake : ¬ s.Sleeps id (.standIn k i)) : s.Passes (some id) (s.moveStandIn id k i) := by
  have same := Heeds.refl s (some id)
  unfold moveStandIn
  split
  · exact same.abandon (by simp [ht]) _ _
  · exact same.goOn ht awake (.inl (by simp [ht])) (.stoodIn ..)

theorem passes_moveRegister (hs : s.Sound) (ht : s.task? id = some (.register k)) :
    s.Passes (some id) (s.moveRegister id k) :=
  (heeds_notifyKeys _).attach hs ht rfl id

theorem passes_moveSeekWriter (ht : s.task? id = some (.seekWriter k))
    (awake : ¬ s.Sleeps id (.seekWriter k)) : s.Passes (some id) (s.moveSeekWriter id k) := by
  have same := Heeds.refl s (some id)
  unfold moveSeekWriter
  split
  · exact same.refuse (by simp [ht]) _
  next going =>
  have going : s.registry.shutDown = false := by simpa using going
  have wait : ∀ {y : Slot}, s.registry.slots.get? k = some y → s.Blocks y →
      s.Passes (some id) (s.sleep id) := fun hy blocks =>
    Waits.passes (a := .seekWriter k) ⟨going, _, hy, blocks⟩ ht
  split
  · exact same.grant (by simp [ht]) _
  · next c hy =>
    split
    · exact same.refuse (by simp [ht]) _
    next nonneg =>
    split
    · exact (heeds_take rfl).goOn ht awake (.inl (by simp [ht])) (.retire ..)
    · next nonzero =>
      refine wait hy ?_
      show 0 < s.refs c
      omega
  · next hy => exact wait hy trivial
  · next hy => exact wait hy trivial
  · next hy => exact wait hy trivial

theorem passes_moveAwaitCache (ht : s.task? id = some (.awaitCache k c))
    (awake : ¬ s.Sleeps id (.awaitCache k c)) : s.Passes (some id) (s.moveAwaitCache id k c) := by
  unfold moveAwaitCache
  split
  · exact (Heeds.refl s _).goOn ht awake (.inl (by simp [ht])) (.lease ..)
  · next unfinished =>
    exact Waits.passes (a := .awaitCache k c) (by simpa [Waits] using unfinished) ht

theorem passes_moveLease (ht : s.task? id = some (.lease k)) :
    s.Passes (some id) (s.moveLease id k) := by
  unfold moveLease
  split
  · exact (Heeds.refl s _).grant (by simp [ht]) _
  · exact (Heeds.refl s _).refuse (by simp [ht]) _

theorem Attentive.reader_ne (ha : s.Attentive) (ht : s.task? id = some a)
    (handle : a.handle? = some x) {i : CallId} {r : Reading} (other : some id ≠ some i)
    (hi : s.task? i = some (.read r)) : r.reader ≠ x := by
  rintro rfl
  exact other (congrArg some (ha.sole ht hi handle rfl))

theorem heeds_moved {r : Reading} (ha : s.Attentive) (ht : s.task? id = some (.read r))
    (h : Reader) (o : ReadOutcome) : s.Heeds (some id) (s.moved r h o) := by
  have cursor : s.Heeds (some id)
      { s with readers := s.readers.set r.reader (advanced r h o) } := by
    apply heeds_setReaders
    intro i r' other hi
    exact Table.get?_set_of_ne _ _ (ha.reader_ne ht rfl other hi)
  unfold moved
  dsimp only
  split
  · exact cursor
  · exact cursor.trans heeds_touch

theorem passes_moveReading {r : Reading} (ha : s.Attentive) (ht : s.task? id = some (.read r))
    (awake : ¬ s.Sleeps id (.read r)) : s.Passes (some id) (s.moveReading id r) := by
  have move := s.readMove id r
  generalize s.moveReading id r = u at move ⊢
  cases move with
  | missing => exact (Heeds.refl s _).answer (.inl (by simp [ht])) _
  | refused => exact (Heeds.refl s _).answer (.inl (by simp [ht])) _
  | @waits h hr waits => exact Waits.passes (a := .read r) ⟨h, hr, waits⟩ ht
  | goesOn _ _ after =>
    obtain ⟨reader, cache, goal⟩ := Reading.after_inl after
    exact (heeds_moved ha ht ..).goOn ht awake (.inl (by simp [ht]))
      (.reading _ _ reader cache goal)
  | ends => exact (heeds_moved ha ht ..).answer (.inl (by simp [ht])) _

/-- The call that takes the last reader from a cache is the one that will tell. -/
theorem passes_announce {h : ClosedHandle} {p : Parting} (ht : s.task? id = some (.leave x p))
    (awake : ¬ s.Sleeps id (.leave x p))
    (reader : ∀ {i r}, some id ≠ some i → s.task? i = some (.read r) →
      u.readers.get? r.reader = s.readers.get? r.reader)
    (calls : u.calls = s.calls) (stores : u.stores = s.stores) (stocks : s.Stocks u) :
    s.Passes (some id) (u.goOn id (.announce h p)) := by
  have same : ∀ i, u.task? i = s.task? i := fun i => by rw [task?, calls, task?]
  have present : (u.task? id).isSome := by simp [same, ht]
  have task := task?_goOn present (.announce h p)
  have sleeps : ∀ {i a}, (u.goOn id (.announce h p)).Sleeps i a → i ≠ id → s.Sleeps i a := by
    intro i a hi other
    have hi := (sleeps_goOn_of_ne other).1 hi
    rwa [Sleeps, calls] at hi
  refine ⟨stocks.trans (.of_eq rfl rfl rfl), ?_, ?_, ?_, ?_, reader⟩
  · intro i other
    rw [task, if_neg (by simpa [eq_comm] using other), same]
  · rintro i a b ⟨⟩ ha hb
    rw [ht, Option.some.injEq] at ha
    rw [task, if_pos rfl, Option.some.injEq] at hb
    exact .inr (ha ▸ hb ▸ .announce x h p)
  · intro i a other hi
    have hi := sleeps hi (by simpa [eq_comm] using other)
    refine ⟨hi, fun attends => ?_⟩
    cases seeks : a.seeks with
    | true => exact .inr ⟨seeks, id, h, p, by rw [task, if_pos rfl]⟩
    | false =>
      left
      rcases attends with waits | ⟨seeks', -⟩
      · refine waits.stores seeks (fun y _ => .of_eq stores y) ?_
        rintro r rfl
        exact reader other (task?_of_sleeps hi)
      · rw [seeks] at seeks'
        cases seeks'
  · rintro i a ⟨⟩ hi
    exfalso
    simp only [Sleeps, Session.goOn, Table.get?_modify, if_true, calls] at hi
    obtain ⟨call, hc, asleep⟩ := Option.map_eq_some_iff.1 hi
    simp only [task?, hc, Option.map_some, Option.some.injEq] at ht
    cases call
    simp only [Call.mk.injEq] at asleep ht
    exact awake (by rw [Sleeps, hc, asleep.2, ht])

theorem passes_moveLeave {p : Parting} (ha : s.Attentive) (ht : s.task? id = some (.leave x p))
    (awake : ¬ s.Sleeps id (.leave x p)) : s.Passes (some id) (s.moveLeave id x p) := by
  have reader : ∀ {i r}, some id ≠ some i → s.task? i = some (.read r) →
      (s.readers.erase x).get? r.reader = s.readers.get? r.reader := by
    intro i r other hi
    rw [Table.get?_erase, if_neg (ha.reader_ne ht rfl other hi)]
  have gone : s.Heeds (some id) { s with readers := s.readers.erase x } := heeds_setReaders reader
  unfold moveLeave
  split
  · exact (Heeds.refl s _).answer (.inl (by simp [ht])) _
  next h hr =>
  dsimp only
  split
  · refine gone.depart ht awake (.inl (by simp [ht])) ?_
    rintro rfl
    exact .leave ..
  next pos =>
  split
  · exact passes_announce ht awake reader rfl rfl (gone.toStocks.trans (stocks_modifyCache _))
  · next more =>
    refine (gone.trans (heeds_addRefs ?_)).depart ht awake (.inl (by simp [ht])) ?_
    · rintro c' _ rfl
      show 0 < s.refs h.cache + -1
      omega
    · rintro rfl
      exact .leave ..

theorem passes_moveAnnounce {h : ClosedHandle} {p : Parting}
    (ht : s.task? id = some (.announce h p))
    (awake : ¬ s.Sleeps id (.announce h p)) : s.Passes (some id) (s.moveAnnounce id h p) := by
  refine (heeds_notifyKeys _).depart ht awake (.inr fun i a hi => (sleeps_wake.1 hi).2) ?_
  rintro rfl
  exact .tell ..

theorem passes_moveGiveBack {f : Option IoFailure} {p : Parting}
    (ht : s.task? id = some (.giveBack x f p)) (awake : ¬ s.Sleeps id (.giveBack x f p)) :
    s.Passes (some id) (s.moveGiveBack id x f p) := by
  unfold moveGiveBack
  split
  · exact (Heeds.refl s _).answer (.inl (by simp [ht])) _
  next w _ =>
  have gone : s.Heeds (some id) { s with writers := s.writers.erase x } := heeds_setWriters _
  have leads : ∀ r, p = .close → (Task.giveBack x f p).Leads (.expire (.writer x w.key) r) := by
    rintro r rfl
    exact .expire ..
  dsimp only
  split
  · exact (gone.trans (heeds_notifyKeys _)).depart ht awake (.inl (by simp [ht])) (leads _)
  · exact gone.depart ht awake (.inl (by simp [ht])) (leads _)

/-- A handle that was closed has nothing left to do when it is dropped. -/
theorem passes_moveExpire {x : ClosedHandle} {r : Result} (hs : s.Sound)
    (ht : s.task? id = some (.expire x r)) : s.Passes (some id) (s.moveExpire id x r) := by
  rw [moveExpire_eq (hs.completed ht).1]
  exact (Heeds.refl s _).answer (.inl (by simp [ht])) r

theorem passes_moveReadStore {y : StoreId} {r : Store.Request}
    (ht : s.task? id = some (.readStore y r)) : s.Passes (some id) (s.moveReadStore id y r) := by
  unfold moveReadStore
  split
  · exact (Heeds.refl s _).answer (.inl (by simp [ht])) _
  · next waits => exact Waits.passes (a := .readStore y r) waits ht
  · exact (Heeds.refl s _).answer (.inl (by simp [ht])) _

theorem passes_moveAwaitStore {y : StoreId} (ht : s.task? id = some (.awaitStore y)) :
    s.Passes (some id) (s.moveAwaitStore id y) := by
  unfold moveAwaitStore
  split
  · exact (Heeds.refl s _).answer (.inl (by simp [ht])) _
  · next unfinished =>
    exact Waits.passes (a := .awaitStore y) (by simpa [Waits] using unfinished) ht

theorem passes_moveMakeLoad {j : Job} (ht : s.task? id = some (.makeLoad j))
    (awake : ¬ s.Sleeps id (.makeLoad j)) : s.Passes (some id) (s.moveMakeLoad id j) := by
  have same := Heeds.refl s (some id)
  unfold moveMakeLoad
  split
  · exact same.goOn ht awake (.inl (by simp [ht])) (.start _)
  · exact same.answer (.inl (by simp [ht])) _
  · exact same.answer (.inl (by simp [ht])) _

theorem passes_moveLoad (ht : s.task? id = some (.load l)) (awake : ¬ s.Sleeps id (.load l)) :
    s.Passes (some id) (s.moveLoad id l) := by
  have load : s.Heeds (some id) (s.advanceLoad l).2 := heeds_advanceLoad l
  unfold moveLoad
  rcases hl : s.advanceLoad l with ⟨m, t⟩
  rw [hl] at load
  cases m with
  | goesOn p => exact load.goOn ht awake (.inl (by simp [ht])) (.loading _ _ rfl)
  | ends => exact load.answer (.inl (by simp [ht])) _
  | panics text => exact load.answer (.inl (by simp [ht])) _

theorem passes_moveAssist {i : Nat} (ht : s.task? id = some (.assist i)) :
    s.Passes (some id) (s.moveAssist id i) := by
  have same := Heeds.refl s (some id)
  unfold moveAssist
  split
  · exact same.answer (.inl (by simp [ht])) _
  · exact same.answer (.inl (by simp [ht])) _

theorem passes_moveTask (hs : s.Sound) (ha : s.Attentive) (ht : s.task? id = some a)
    (awake : ¬ s.Sleeps id a) : s.Passes (some id) (s.moveTask id a) := by
  have same := Heeds.refl s (some id)
  cases a with
  | seekReader key mode => exact passes_moveSeekReader hs ht awake
  | makeSource key mode => exact passes_moveMakeSource hs ht awake ha.stocked
  | fill key l => exact passes_moveFill ht awake
  | standIn key i => exact passes_moveStandIn ht awake
  | register key => exact passes_moveRegister hs ht
  | seekWriter key => exact passes_moveSeekWriter ht awake
  | cancelCache key cache =>
    exact (heeds_cancelStore _).goOn ht awake (.inl (by simp [ht])) (.dequeue ..)
  | dequeueCache key cache =>
    exact (heeds_dequeue _ _).goOn ht awake (.inl (by simp [ht])) (.await ..)
  | awaitCache key cache => exact passes_moveAwaitCache ht awake
  | lease key => exact passes_moveLease ht
  | read r => exact passes_moveReading ha ht awake
  | leave reader parting => exact passes_moveLeave ha ht awake
  | announce h parting => exact passes_moveAnnounce ht awake
  | closeSink writer parting =>
    exact (heeds_setSinks _).goOn ht awake (.inl (by simp [ht])) (.giveBack ..)
  | giveBack writer flush parting => exact passes_moveGiveBack ht awake
  | expire h r => exact passes_moveExpire hs ht
  | readStore store r => exact passes_moveReadStore ht
  | awaitStore store => exact passes_moveAwaitStore ht
  | makeLoad job => exact passes_moveMakeLoad ht awake
  | load l => exact passes_moveLoad ht awake
  | assist i => exact passes_moveAssist ht

end SharedStream.Session
