import SharedStream.Proofs.Failures.Without

/-! # Sessions that look the same

A read through a handle moves the handle on, notes the time of the access and has a result. What a
session does otherwise depends on none of these, but for the times that it notes. Two sessions that
differ in nothing else are twins.
-/
namespace SharedStream

/-- The result, without the position at which a read has left its handle. -/
def Result.placeless : Result → Result
  | .read r _ => .read r 0
  | r => r

namespace Session

/-- What a session notes of accesses to its caches. -/
structure Log where
  clock : Nat
  caches : Table CallId Cache
  readers : Table CallId Reader
  results : Table CallId Result

def log (s : Session) : Log := ⟨s.clock, s.caches, s.readers, s.results⟩

def withLog (s : Session) (l : Log) : Session :=
  { s with clock := l.clock, caches := l.caches, readers := l.readers, results := l.results }

/-- What of a session does not show. -/
structure View where
  /-- The handle whose position does not show. -/
  reader : Option CallId
  /-- The calls whose results do not show, -/
  hides : CallId → Prop
  /-- and those of whose results the position does not show. -/
  blurs : CallId → Prop

/-- The logs are the same as far as they show. -/
structure View.Same (v : View) (l l' : Log) : Prop where
  caches : ∀ c, (l'.caches.get? c).map Cache.plain = (l.caches.get? c).map Cache.plain
  readers : ∀ r, (l'.readers.get? r).map Reader.cache = (l.readers.get? r).map Reader.cache
  reader : ∀ r, v.reader ≠ some r → l'.readers.get? r = l.readers.get? r
  blurred : ∀ id, ¬ v.hides id →
    (l'.results.get? id).map Result.placeless = (l.results.get? id).map Result.placeless
  results : ∀ id, ¬ v.hides id → ¬ v.blurs id → l'.results.get? id = l.results.get? id

/-- The sessions are the same, but for logs that are the same as far as they show. -/
def Twin (v : View) (s t : Session) : Prop := ∃ l, t = s.withLog l ∧ v.Same s.log l

variable {v w : View} {s t u : Session} {id c x : CallId} {k : Key} {n : PoolName}

namespace View.Same
variable {l l' l'' : Log}

theorem refl (l : Log) : v.Same l l :=
  ⟨fun _ => rfl, fun _ => rfl, fun _ _ => rfl, fun _ _ => rfl, fun _ _ _ => rfl⟩

theorem symm (h : v.Same l l') : v.Same l' l :=
  ⟨fun c => (h.caches c).symm, fun r => (h.readers r).symm, fun r hr => (h.reader r hr).symm,
    fun i hi => (h.blurred i hi).symm, fun i hi hb => (h.results i hi hb).symm⟩

theorem trans (h : v.Same l l') (h' : v.Same l' l'') : v.Same l l'' :=
  ⟨fun c => (h'.caches c).trans (h.caches c), fun r => (h'.readers r).trans (h.readers r),
    fun r hr => (h'.reader r hr).trans (h.reader r hr),
    fun i hi => (h'.blurred i hi).trans (h.blurred i hi),
    fun i hi hb => (h'.results i hi hb).trans (h.results i hi hb)⟩

end View.Same

/-- The view `w` shows no more than the view `v`. -/
structure View.Covers (w v : View) : Prop where
  reader : v.reader = none ∨ w.reader = v.reader
  hides : ∀ {id}, v.hides id → w.hides id
  blurs : ∀ {id}, v.blurs id → w.blurs id

namespace Twin

theorem refl (v : View) (s : Session) : s.Twin v s := ⟨s.log, rfl, .refl _⟩

theorem symm (h : s.Twin v t) : t.Twin v s := by
  obtain ⟨l, rfl, same⟩ := h
  exact ⟨s.log, rfl, same.symm⟩

theorem trans (h : s.Twin v t) (h' : t.Twin v u) : s.Twin v u := by
  obtain ⟨l, rfl, same⟩ := h
  obtain ⟨l', rfl, same'⟩ := h'
  exact ⟨l', rfl, same.trans same'⟩

/-- Twins are so for whoever sees less. -/
theorem of_covers (h : s.Twin v t) (covers : w.Covers v) : s.Twin w t := by
  obtain ⟨l, rfl, same⟩ := h
  refine ⟨l, rfl, same.caches, same.readers, fun r hr => same.reader r fun hidden => ?_,
    fun i hi => same.blurred i fun h => hi (covers.hides h),
    fun i hi hb => same.results i (fun h => hi (covers.hides h)) fun h => hb (covers.blurs h)⟩
  rcases covers.reader with none | same
  · cases none.symm.trans hidden
  · exact hr (same.trans hidden)

/-! ## What the sessions share -/

section
variable (h : s.Twin v t)
include h

theorem registry : t.registry = s.registry := by
  obtain ⟨l, rfl, -⟩ := h
  rfl

theorem separate : t.separate = s.separate := by
  obtain ⟨l, rfl, -⟩ := h
  rfl

theorem pool (n : PoolName) : t.pool n = s.pool n := by
  cases n
  · exact congrArg Registry.pool h.registry
  · exact h.separate

theorem held : t.held = s.held := by
  obtain ⟨l, rfl, -⟩ := h
  rfl

theorem stores : t.stores = s.stores := by
  obtain ⟨l, rfl, -⟩ := h
  rfl

theorem store (x : StoreId) : t.store x = s.store x := by
  rw [Session.store, h.stores, Session.store]

theorem sources : t.sources = s.sources := by
  obtain ⟨l, rfl, -⟩ := h
  rfl

theorem source (c : CallId) : t.source c = s.source c := by
  rw [Session.source, h.sources, Session.source]

theorem sinks : t.sinks = s.sinks := by
  obtain ⟨l, rfl, -⟩ := h
  rfl

theorem sink (w : CallId) : t.sink w = s.sink w := by rw [Session.sink, h.sinks, Session.sink]

theorem writers : t.writers = s.writers := by
  obtain ⟨l, rfl, -⟩ := h
  rfl

theorem calls : t.calls = s.calls := by
  obtain ⟨l, rfl, -⟩ := h
  rfl

theorem task (id : CallId) : t.task? id = s.task? id := by rw [task?, h.calls, task?]

theorem cache (c : CallId) :
    (t.caches.get? c).map Cache.plain = (s.caches.get? c).map Cache.plain := by
  obtain ⟨l, rfl, same⟩ := h
  exact same.caches c

theorem refs (c : CallId) : t.refs c = s.refs c := by
  have same := congrArg (fun o => (o.map Cache.refs).getD 0) (h.cache c)
  simp only [Option.map_map] at same
  exact same

theorem keyOf (c : CallId) : t.keyOf c = s.keyOf c := by
  have same := congrArg (fun o => (o.map Cache.key).getD default) (h.cache c)
  simp only [Option.map_map] at same
  exact same

theorem describeSlot (k : Key) : t.describeSlot k = s.describeSlot k := by
  unfold Session.describeSlot
  rw [h.registry]
  split
  · rfl
  · rfl
  · rw [h.refs]
  · rfl
  · rfl

theorem readers (r : CallId) :
    (t.readers.get? r).map Reader.cache = (s.readers.get? r).map Reader.cache := by
  obtain ⟨l, rfl, same⟩ := h
  exact same.readers r

theorem reader {r : CallId} (shows : v.reader ≠ some r) :
    t.readers.get? r = s.readers.get? r := by
  obtain ⟨l, rfl, same⟩ := h
  exact same.reader r shows

theorem isAway (x : CallId) : t.isAway x = s.isAway x := by
  rw [Session.isAway, h.calls, Session.isAway]

/-- A handle can be used in one session if it can be used in the other one, and there it reads the
same cache. -/
theorem reader? (x : CallId) :
    (t.reader? x).map Reader.cache = (s.reader? x).map Reader.cache := by
  rw [Session.reader?, Session.reader?, h.isAway]
  split
  · rfl
  · exact h.readers x

theorem reader?_eq (shows : v.reader ≠ some x) : t.reader? x = s.reader? x := by
  rw [Session.reader?, Session.reader?, h.isAway, h.reader shows]

theorem writer? (x : CallId) : t.writer? x = s.writer? x := by
  rw [Session.writer?, Session.writer?, h.isAway, h.writers]

theorem result (shows : ¬ v.hides id) (sharp : ¬ v.blurs id) :
    t.results.get? id = s.results.get? id := by
  obtain ⟨l, rfl, same⟩ := h
  exact same.results id shows sharp

theorem blurred (shows : ¬ v.hides id) :
    (t.results.get? id).map Result.placeless = (s.results.get? id).map Result.placeless := by
  obtain ⟨l, rfl, same⟩ := h
  exact same.blurred id shows

/-! ## What leaves the logs alone -/

/-- What neither looks at a log nor changes it does the same to twins. -/
theorem map {f : Session → Session} (hf : ∀ s l, f (s.withLog l) = (f s).withLog l) :
    (f s).Twin v (f t) := by
  obtain ⟨l, rfl, same⟩ := h
  have whole : f s = (f s).withLog s.log := hf s s.log
  have kept : (f s).log = s.log := by
    rw [whole]
    rfl
  exact ⟨l, hf s l, kept ▸ same⟩

theorem goOn (id : CallId) (a : Task) : (s.goOn id a).Twin v (t.goOn id a) :=
  h.map (f := fun s => s.goOn id a) fun _ _ => rfl

theorem call (id : CallId) (a : Task) : (s.call id a).Twin v (t.call id a) :=
  h.map (f := fun s => s.call id a) fun _ _ => rfl

theorem sleep (id : CallId) : (s.sleep id).Twin v (t.sleep id) :=
  h.map (f := fun s => s.sleep id) fun _ _ => rfl

theorem notifyKeys : s.notifyKeys.Twin v t.notifyKeys :=
  h.map (f := fun s => s.notifyKeys) fun _ _ => rfl

theorem setSlot (k : Key) (y : Slot) : (s.setSlot k y).Twin v (t.setSlot k y) :=
  h.map (f := fun s => s.setSlot k y) fun _ _ => rfl

theorem freeSlot (k : Key) : (s.freeSlot k).Twin v (t.freeSlot k) :=
  h.map (f := fun s => s.freeSlot k) fun _ _ => rfl

theorem modifySource (c : CallId) (f : Source → Source) :
    (s.modifySource c f).Twin v (t.modifySource c f) :=
  h.map (f := fun s => s.modifySource c f) fun _ _ => rfl

theorem setSource (c : CallId) (y : Source) :
    ({ s with sources := s.sources.set c y }).Twin v { t with sources := t.sources.set c y } :=
  h.map (f := fun s => { s with sources := s.sources.set c y }) fun _ _ => rfl

theorem setPool (n : PoolName) (p : Pool) : (s.setPool n p).Twin v (t.setPool n p) :=
  h.map (f := fun s => s.setPool n p) fun _ _ => by cases n <;> rfl

theorem cancelStore (y : StoreId) : (s.cancelStore y).Twin v (t.cancelStore y) :=
  h.map (f := fun s => s.cancelStore y) fun _ _ => rfl

theorem finishStore (y : StoreId) : (s.finishStore y).Twin v (t.finishStore y) :=
  h.map (f := fun s => s.finishStore y) fun _ _ => rfl

theorem appendTo (y : StoreId) (data : ByteArray) :
    (s.appendTo y data).Twin v (t.appendTo y data) := by
  have added := h.map (f := fun s =>
    ({ s with stores := s.stores.modify y (·.append data) }).notifyStore y) fun _ _ => rfl
  unfold Session.appendTo
  rw [h.store]
  split
  · exact added
  · exact h

theorem changeStore (y : StoreId) (change : StoreChange) :
    (s.changeStore y change).Twin v (t.changeStore y change) := by
  cases change with
  | none => exact h
  | append data => exact h.appendTo y data
  | finish => exact h.finishStore y

theorem advanceLoad (l : Load) : (t.advanceLoad l).1 = (s.advanceLoad l).1 ∧
    (s.advanceLoad l).2.Twin v (t.advanceLoad l).2 := by
  unfold Session.advanceLoad
  rw [h.source, h.store]
  exact ⟨rfl, (h.modifySource ..).changeStore ..⟩

theorem closeSources (jobs : List Job) :
    (jobs.foldl (fun s j => s.modifySource j.source Source.close) s).Twin v
      (jobs.foldl (fun s j => s.modifySource j.source Source.close) t) := by
  induction jobs generalizing s t with
  | nil => exact h
  | cons j jobs ih => exact ih (h.modifySource j.source Source.close)

theorem dequeue (n : PoolName) (y : StoreId) : (s.dequeue n y).Twin v (t.dequeue n y) := by
  unfold Session.dequeue
  rw [h.pool]
  split
  · exact h
  · dsimp only
    exact ((h.setPool ..).closeSources _).finishStore y

theorem dropQueue (n : PoolName) : (s.dropQueue n).Twin v (t.dropQueue n) := by
  unfold Session.dropQueue
  rw [h.pool]
  exact (h.setPool ..).closeSources _

theorem setEnding (e : Ending) : (s.setEnding e).Twin v (t.setEnding e) :=
  h.map (f := fun s => s.setEnding e) fun _ _ => rfl

theorem endRegistry : s.endRegistry.Twin v t.endRegistry := by
  unfold Session.endRegistry
  rw [h.registry]
  split
  · exact h.map (f := fun u => { u with registry := { s.registry with
      slots := ∅, ending := .cancel s.registry.caches } }) fun _ _ => rfl
  · exact (h.cancelStore _).setEnding _
  · exact (h.dequeue ..).setEnding _
  · rw [h.pool]
    exact (h.setPool ..).setEnding _
  · exact h

/-! ## What changes the logs -/

theorem setClock (i j : Nat) : ({ s with clock := i }).Twin v { t with clock := j } := by
  obtain ⟨l, rfl, same⟩ := h
  exact ⟨{ l with clock := j }, rfl, same.caches, same.readers, same.reader, same.blurred,
    same.results⟩

theorem answer_of {r r' : Result} (id : CallId)
    (same : ¬ v.hides id → r'.placeless = r.placeless ∧ (¬ v.blurs id → r' = r)) :
    (s.answer id r).Twin v (t.answer id r') := by
  obtain ⟨l, rfl, log⟩ := h
  refine ⟨{ l with results := l.results.set id r' }, rfl, log.caches, log.readers, log.reader,
    fun i shows => ?_, fun i shows sharp => ?_⟩
  · show ((l.results.set id r').get? i).map _ = ((s.results.set id r).get? i).map _
    rw [Table.get?_set, Table.get?_set]
    split
    · next own =>
      subst own
      exact congrArg some (same shows).1
    · exact log.blurred i shows
  · show (l.results.set id r').get? i = (s.results.set id r).get? i
    rw [Table.get?_set, Table.get?_set]
    split
    · next own =>
      subst own
      exact congrArg some ((same shows).2 sharp)
    · exact log.results i shows sharp

theorem answer (id : CallId) (r : Result) : (s.answer id r).Twin v (t.answer id r) :=
  h.answer_of id fun _ => ⟨rfl, fun _ => rfl⟩

/-- A result that does not show may be any. -/
theorem answer_hidden (hidden : v.hides id) (r r' : Result) :
    (s.answer id r).Twin v (t.answer id r') :=
  h.answer_of id fun shows => absurd hidden shows

theorem modifyCache (c : CallId) {f g : Cache → Cache}
    (same : ∀ x y, x.plain = y.plain → (f x).plain = (g y).plain) :
    ({ s with caches := s.caches.modify c f }).Twin v
      { t with caches := t.caches.modify c g } := by
  obtain ⟨l, rfl, log⟩ := h
  refine ⟨{ l with caches := l.caches.modify c g }, rfl, fun d => ?_, log.readers, log.reader,
    log.blurred, log.results⟩
  have before := log.caches d
  show ((l.caches.modify c g).get? d).map _ = ((s.caches.modify c f).get? d).map _
  rw [Table.get?_modify, Table.get?_modify]
  split
  · change (l.caches.get? d).map _ = (s.caches.get? d).map _ at before
    cases hx : s.caches.get? d <;> cases hy : l.caches.get? d <;> rw [hx, hy] at before
    · rfl
    · cases before
    · cases before
    · exact congrArg some (same _ _ (Option.some.inj before).symm).symm
  · exact before

theorem touch (c : CallId) : (s.touch c).Twin v (t.touch c) :=
  h.modifyCache c fun _ _ same => same

theorem addRefs (c : CallId) (z : Int) : (s.addRefs c z).Twin v (t.addRefs c z) := by
  refine h.modifyCache c fun x y same => ?_
  obtain ⟨key, mode, refs, access⟩ := x
  obtain ⟨key', mode', refs', access'⟩ := y
  cases same
  rfl

/-- An access changes nothing that shows. -/
theorem touch_right (c : CallId) : s.Twin v (t.touch c) := by
  obtain ⟨l, rfl, log⟩ := h
  refine ⟨{ l with caches := ((s.withLog l).touch c).caches }, rfl, fun d => ?_, log.readers,
    log.reader, log.blurred, log.results⟩
  refine Eq.trans ?_ (log.caches d)
  show ((l.caches.modify c _).get? d).map _ = (l.caches.get? d).map _
  rw [Table.get?_modify]
  split
  · rw [Option.map_map]
    rfl
  · rfl

theorem setReader {y y' : Reader} (r : CallId) (cache : y'.cache = y.cache)
    (same : v.reader ≠ some r → y' = y) :
    ({ s with readers := s.readers.set r y }).Twin v
      { t with readers := t.readers.set r y' } := by
  obtain ⟨l, rfl, log⟩ := h
  refine ⟨{ l with readers := l.readers.set r y' }, rfl, log.caches, fun i => ?_, fun i shows => ?_,
    log.blurred, log.results⟩
  · show ((l.readers.set r y').get? i).map _ = ((s.readers.set r y).get? i).map _
    rw [Table.get?_set, Table.get?_set]
    split
    · exact congrArg some cache
    · exact log.readers i
  · show (l.readers.set r y').get? i = (s.readers.set r y).get? i
    rw [Table.get?_set, Table.get?_set]
    split
    · next own =>
      subst own
      exact congrArg some (same shows)
    · exact log.reader i shows

theorem eraseReader (r : CallId) : ({ s with readers := s.readers.erase r }).Twin v
    { t with readers := t.readers.erase r } := by
  obtain ⟨l, rfl, log⟩ := h
  refine ⟨{ l with readers := l.readers.erase r }, rfl, log.caches, fun i => ?_, fun i shows => ?_,
    log.blurred, log.results⟩
  · show ((l.readers.erase r).get? i).map _ = ((s.readers.erase r).get? i).map _
    rw [Table.get?_erase, Table.get?_erase]
    split
    · rfl
    · exact log.readers i
  · show (l.readers.erase r).get? i = (s.readers.erase r).get? i
    rw [Table.get?_erase, Table.get?_erase]
    split
    · rfl
    · exact log.reader i shows

theorem newCache (id : CallId) (k : Key) (mode : LoadMode) :
    (s.newCache id k mode).Twin v (t.newCache id k mode) := by
  obtain ⟨l, rfl, log⟩ := h
  refine ⟨{ l with caches := ((s.withLog l).newCache id k mode).caches }, rfl, fun d => ?_,
    log.readers, log.reader, log.blurred, log.results⟩
  show ((l.caches.set id _).get? d).map _ = ((s.caches.set id _).get? d).map _
  rw [Table.get?_set, Table.get?_set]
  split
  · rfl
  · exact log.caches d

theorem attach (id c : CallId) : (s.attach id c).Twin v (t.attach id c) :=
  (((h.addRefs c 1).touch c).setReader id rfl fun _ => rfl).answer id .done

theorem abandon (id : CallId) (k : Key) (r : Result) :
    (s.abandon id k r).Twin v (t.abandon id k r) :=
  ((h.freeSlot k).notifyKeys).answer id r

theorem refuse (id : CallId) (e : CacheError) : (s.refuse id e).Twin v (t.refuse id e) :=
  (h.map (f := fun s => s.dropSink id) fun _ _ => rfl).answer id (.refused e)

theorem grant (id : CallId) (k : Key) : (s.grant id k).Twin v (t.grant id k) :=
  (((h.setSlot k (.writer id)).notifyKeys).map (f := fun s =>
    { s with writers := s.writers.set id { key := k } }) fun _ _ => rfl).answer id .done

end
end Twin
end Session
end SharedStream
