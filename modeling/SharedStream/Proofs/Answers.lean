import SharedStream.Proofs.Calls.Settled
import SharedStream.Proofs.Exclusion
import SharedStream.Proofs.Frames

/-! # What calls come to

An event answers nobody but its own call, a handle is given up only by a call that was given it, and
no call reports that the protocol of the cache was broken.
-/
namespace SharedStream

theorem Store.violation_of_read {y : Store} {q : Store.Request} {e : CacheError}
    (h : y.read q = .refused e) : e.violation? = none := by
  unfold Store.read at h
  split at h
  · cases h
    rfl
  split at h
  · cases h
  split at h
  · split at h
    · cases h
    split at h <;> cases h
  · cases h

theorem Reading.violation_after {r : Reading} {o : ReadOutcome} {buf : ByteArray}
    {result : ReadResult} (h : r.after o buf = .inr result) (position : Nat) :
    (Result.read result position).violation? = none := by
  have text : ∀ data, (Result.read (textOf data) position).violation? = none := by
    intro data
    unfold textOf
    split <;> rfl
  unfold after at h
  repeat' split at h
  all_goals cases h
  all_goals
    first
    | rfl
    | exact text _

namespace Session
open Keys

variable {s t u : Session} {who : Option CallId} {gone used : CallId → Prop}
variable {id c x : CallId} {k : Key} {a b : Task} {e : Event} {op : Op}

/-! ## Results, handles and sinks -/

/-- Nobody is answered, and all handles and sinks stay as they are. -/
structure Mute (s u : Session) : Prop where
  results : u.results = s.results
  readers : u.readers = s.readers
  writers : u.writers = s.writers
  sinks : u.sinks = s.sinks

/-- At most `who` is answered, with a result that reports no violation; at most the handles `gone`
go; at most the sinks of `used` are touched. -/
structure Spares (s : Session) (who : Option CallId) (gone used : CallId → Prop) (u : Session) :
    Prop where
  results : u.results = s.results ∨
    ∃ id r, who = some id ∧ r.violation? = none ∧ u.results = s.results.set id r
  reader : ∀ {x}, ¬ gone x → s.readers.contains x = true → u.readers.contains x = true
  writer : ∀ {x}, ¬ gone x → s.writers.contains x = true → u.writers.contains x = true
  sink : ∀ {x}, ¬ used x → u.sinks.get? x = s.sinks.get? x

namespace Mute

theorem refl (s : Session) : s.Mute s := ⟨rfl, rfl, rfl, rfl⟩

theorem trans (h : s.Mute t) (h' : t.Mute u) : s.Mute u :=
  ⟨h'.results.trans h.results, h'.readers.trans h.readers, h'.writers.trans h.writers,
    h'.sinks.trans h.sinks⟩

theorem spares (h : s.Mute u) : s.Spares who gone used u where
  results := .inl h.results
  reader _ hx := by rwa [h.readers]
  writer _ hx := by rwa [h.writers]
  sink _ := by rw [h.sinks]

theorem goOn (h : s.Mute u) (b : Task) : s.Spares who gone used (u.goOn id b) :=
  (h.trans (u := u.goOn id b) ⟨rfl, rfl, rfl, rfl⟩).spares

theorem call (h : s.Mute u) (b : Task) : s.Spares who gone used (u.call id b) :=
  (h.trans (u := u.call id b) ⟨rfl, rfl, rfl, rfl⟩).spares

theorem sleep (h : s.Mute u) : s.Spares who gone used (u.sleep id) :=
  (h.trans (u := u.sleep id) ⟨rfl, rfl, rfl, rfl⟩).spares

end Mute

/-- A call is answered after something was done to handles and sinks alone. -/
theorem Spares.answer (h : s.Spares (some id) gone used u) (same : u.results = s.results)
    {r : Result} (hr : r.violation? = none) : s.Spares (some id) gone used (u.answer id r) where
  results := .inr ⟨id, r, rfl, hr, by rw [← same]; rfl⟩
  reader := h.reader
  writer := h.writer
  sink := h.sink

theorem Spares.depart (h : s.Spares (some id) gone used u) (same : u.results = s.results)
    {r : Result} (hr : r.violation? = none) (x : ClosedHandle) (p : Parting) :
    s.Spares (some id) gone used (u.depart id x r p) := by
  cases p with
  | close => exact ⟨.inl same, h.reader, h.writer, h.sink⟩
  | drop => exact h.answer same hr

theorem Mute.answer (h : s.Mute u) {r : Result} (hr : r.violation? = none) :
    s.Spares (some id) gone used (u.answer id r) :=
  h.spares.answer h.results hr

theorem mute_setPool (n : PoolName) (p : Pool) : s.Mute (s.setPool n p) := by
  cases n <;> exact ⟨rfl, rfl, rfl, rfl⟩

theorem mute_changeStore (y : StoreId) (change : StoreChange) :
    s.Mute (s.changeStore y change) := by
  obtain ⟨stores, calls, changed⟩ := changeStore_eq (s := s) y change
  rw [changed]
  exact ⟨rfl, rfl, rfl, rfl⟩

theorem mute_advanceLoad (l : Load) : s.Mute (s.advanceLoad l).2 := by
  obtain ⟨stores, calls, advanced⟩ := s.advanceLoad_eq (l := l)
  rw [advanced]
  exact ⟨rfl, rfl, rfl, rfl⟩

theorem mute_closeSources (jobs : List Job) :
    s.Mute (jobs.foldl (fun s job => s.modifySource job.source Source.close) s) := by
  obtain ⟨sources, closed⟩ := closeSources_eq (s := s) jobs
  rw [closed]
  exact ⟨rfl, rfl, rfl, rfl⟩

theorem mute_dequeue (n : PoolName) (y : StoreId) : s.Mute (s.dequeue n y) := by
  unfold dequeue
  split
  · exact .refl s
  · exact ((mute_setPool n _).trans (mute_closeSources _)).trans (mute_changeStore y .finish)

theorem contains_set {α : Type} {t : Table CallId α} {i x : CallId} {v : α}
    (h : t.contains x = true) : (t.set i v).contains x = true := by
  by_cases hx : x = i
  · simp [Table.contains, hx]
  · simpa [Table.contains, Table.get?_set, hx] using h

theorem contains_erase {α : Type} {t : Table CallId α} {i x : CallId} (other : x ≠ i)
    (h : t.contains x = true) : (t.erase i).contains x = true := by
  simpa [Table.contains, Table.get?_erase, other] using h

/-! ## Moves of calls -/

theorem Mute.attach (h : s.Mute u) : s.Spares (some id) gone used (u.attach id c) where
  results := .inr ⟨id, .done, rfl, rfl, by rw [← h.results]; rfl⟩
  reader _ hx := contains_set (t := u.readers) (by rwa [h.readers])
  writer _ hx := by
    rw [← h.writers] at hx
    exact hx
  sink _ := by
    rw [← h.sinks]
    rfl

theorem Mute.abandon (h : s.Mute u) {r : Result} (hr : r.violation? = none) :
    s.Spares (some id) gone used (u.abandon id k r) :=
  (h.trans (u := (u.freeSlot k).notifyKeys) ⟨rfl, rfl, rfl, rfl⟩).answer hr

theorem spares_grant : s.Spares (some id) gone used (s.grant id k) where
  results := .inr ⟨id, .done, rfl, rfl, rfl⟩
  reader _ hx := hx
  writer _ hx := contains_set hx
  sink _ := rfl

theorem spares_refuse {e : CacheError} (he : e.violation? = none) (own : used id) :
    s.Spares (some id) gone used (s.refuse id e) where
  results := .inr ⟨id, .refused e, rfl, he, rfl⟩
  reader _ hx := hx
  writer _ hx := hx
  sink {x} other := by
    have ne : x ≠ id := fun same => other (same ▸ own)
    simp [refuse, dropSink, Session.answer, Table.get?_modify, ne]

theorem spares_moveSeekReader (mode : LoadMode) :
    s.Spares (some id) gone used (s.moveSeekReader id k mode) := by
  have same := Mute.refl s
  have claimed : s.Mute ((s.setSlot k .opening).modifySource id Source.build) :=
    ⟨rfl, rfl, rfl, rfl⟩
  unfold moveSeekReader
  split
  · exact same.answer rfl
  split
  · exact claimed.goOn _
  · exact same.attach
  all_goals exact same.sleep

theorem spares_moveMakeSource (mode : LoadMode) :
    s.Spares (some id) gone used (s.moveMakeSource id k mode) := by
  have same := Mute.refl s
  have made : s.Mute (s.newCache id k mode) := ⟨rfl, rfl, rfl, rfl⟩
  unfold moveMakeSource
  split
  · exact same.abandon rfl
  · exact same.abandon rfl
  · cases mode with
    | sync => exact made.goOn _
    | async => exact (made.trans (mute_setPool ..)).goOn _

theorem spares_moveFill (l : Load) : s.Spares (some id) gone used (s.moveFill id k l) := by
  have load := mute_advanceLoad (s := s) l
  unfold moveFill
  rcases hl : s.advanceLoad l with ⟨m, t⟩
  rw [hl] at load
  cases m with
  | goesOn p => exact load.goOn _
  | ends => exact load.goOn _
  | panics text => exact load.abandon rfl

/-- A writer's call never finds a negative count. -/
theorem Sound.refs_nonneg (hs : s.Sound) (slot : s.registry.slots.get? k = some (.reader c)) :
    0 ≤ s.refs c := by
  rw [(hs.refs_of_slot slot).2]
  exact Int.natCast_nonneg _

theorem spares_moveSeekWriter (hs : s.Sound) (own : used id) :
    s.Spares (some id) gone used (s.moveSeekWriter id k) := by
  have same := Mute.refl s
  have retired : s.Mute (s.setSlot k .closing) := ⟨rfl, rfl, rfl, rfl⟩
  unfold moveSeekWriter
  split
  · exact spares_refuse rfl own
  split
  · exact spares_grant
  · next c slot =>
    have nonneg := hs.refs_nonneg slot
    rw [if_neg (by omega)]
    split
    · exact retired.goOn _
    · exact same.sleep
  all_goals exact same.sleep

/-- A key is still being freed when its cache is torn down. -/
theorem Sound.closing_of_lease (hs : s.Sound) (ht : s.task? id = some (.lease k)) :
    s.registry.slots.get? k = some .closing := by
  have stake : s.keys.stake id = some (k, .closing) := by
    simp [Keys.stake, stakeOf, role_of_task ht, Task.role?]
  exact hs.keys.agree.slot_eq stake

theorem spares_moveLease (hs : s.Sound) (ht : s.task? id = some (.lease k)) :
    s.Spares (some id) gone used (s.moveLease id k) := by
  unfold moveLease
  rw [if_pos (hs.closing_of_lease ht)]
  exact spares_grant

theorem spares_moved (r : Reading) (h : Reader) (o : ReadOutcome) :
    s.Spares who gone used (s.moved r h o) ∧ (s.moved r h o).results = s.results := by
  unfold moved
  dsimp only
  split <;>
    exact ⟨⟨.inl rfl, fun _ hx => contains_set hx, fun _ hx => hx, fun _ => rfl⟩, rfl⟩

theorem spares_moveReading (r : Reading) :
    s.Spares (some id) gone used (s.moveReading id r) := by
  have same := Mute.refl s
  have move := s.readMove id r
  generalize s.moveReading id r = u at move ⊢
  cases move with
  | missing => exact same.answer rfl
  | refused _ refused => exact same.answer (Store.violation_of_read refused)
  | waits => exact same.sleep
  | @goesOn h o =>
    obtain ⟨moved, results⟩ : s.Spares (some id) gone used (s.moved r h o) ∧ _ := spares_moved r h o
    exact ⟨.inl results, moved.reader, moved.writer, moved.sink⟩
  | @ends h o _ _ _ _ after =>
    obtain ⟨moved, results⟩ : s.Spares (some id) gone used (s.moved r h o) ∧ _ := spares_moved r h o
    exact moved.answer results (Reading.violation_after after _)

/-- A reader that leaves is counted, and its cache is not without readers before that. -/
theorem spares_moveLeave (hs : s.Sound) (p : Parting) (own : gone x) :
    s.Spares (some id) gone used (s.moveLeave id x p) := by
  have erased : ∀ {y}, ¬ gone y → s.readers.contains y = true →
      (s.readers.erase x).contains y = true := by
    intro y kept hy
    refine contains_erase ?_ hy
    rintro rfl
    exact kept own
  unfold moveLeave
  split
  · exact (Mute.refl s).answer rfl
  next h hr =>
  obtain ⟨k, n, -, refs, pos⟩ := refs_pos hs.keys hr
  dsimp only
  rw [if_neg (by omega)]
  split
  · exact ⟨.inl rfl, erased, fun _ hy => hy, fun _ => rfl⟩
  · have gone : s.Spares (some id) gone used
        (({ s with readers := s.readers.erase x }).addRefs h.cache (-1)) :=
      ⟨.inl rfl, erased, fun _ hy => hy, fun _ => rfl⟩
    exact gone.depart rfl rfl ..

theorem spares_moveCloseSink (p : Parting) (own : used x) :
    s.Spares (some id) gone used (s.moveCloseSink id x p) where
  results := .inl rfl
  reader _ hy := hy
  writer _ hy := hy
  sink {y} other := by
    have ne : y ≠ x := fun same => other (same ▸ own)
    simp [moveCloseSink, takeSink, Session.goOn, Table.get?_set, ne]

/-- A writer finds its own lease in the slot when it gives it back. -/
theorem spares_moveGiveBack (hs : s.Sound) (flush : Option IoFailure) (p : Parting) (own : gone x) :
    s.Spares (some id) gone used (s.moveGiveBack id x flush p) := by
  unfold moveGiveBack
  split
  · exact (Mute.refl s).answer rfl
  next w hw =>
  have slot := hs.slot_of_writes ⟨w, hw, rfl⟩
  dsimp only
  rw [if_pos slot]
  have released : s.Spares (some id) gone used
      (({ s with writers := s.writers.erase x }).freeSlot w.key).notifyKeys := by
    refine ⟨.inl rfl, fun _ hy => hy, ?_, fun _ => rfl⟩
    intro y kept hy
    refine contains_erase ?_ hy
    rintro rfl
    exact kept own
  exact released.depart rfl (Parting.violation_report p flush) ..

theorem spares_moveTask (hs : s.Sound) (ht : s.task? id = some a) :
    s.Spares (some id) (fun x => a.handle? = some x) (fun x => x = id ∨ a.handle? = some x)
      (s.moveTask id a) := by
  have same := Mute.refl s
  cases a with
  | seekReader key mode => exact spares_moveSeekReader mode
  | makeSource key mode => exact spares_moveMakeSource mode
  | fill key l => exact spares_moveFill l
  | register key =>
    have registered : s.Mute (s.setSlot key (.reader id)).notifyKeys := ⟨rfl, rfl, rfl, rfl⟩
    exact registered.attach
  | seekWriter key => exact spares_moveSeekWriter hs (.inl rfl)
  | cancelCache key cache =>
    have canceled : s.Mute (s.cancelStore (.cache cache)) := ⟨rfl, rfl, rfl, rfl⟩
    exact canceled.goOn _
  | dequeueCache key cache => exact (mute_dequeue ..).goOn _
  | awaitCache key cache =>
    simp only [moveTask, moveAwaitCache]
    split
    · exact same.goOn _
    · exact same.sleep
  | lease key => exact spares_moveLease hs ht
  | read r => exact spares_moveReading r
  | leave reader parting => exact spares_moveLeave hs parting rfl
  | announce h parting =>
    have told : s.Mute s.notifyKeys := ⟨rfl, rfl, rfl, rfl⟩
    exact told.spares.depart rfl rfl ..
  | closeSink writer parting => exact spares_moveCloseSink parting (.inr rfl)
  | giveBack writer flush parting => exact spares_moveGiveBack hs flush parting rfl
  | expire h r =>
    obtain ⟨completed, told⟩ := hs.completed ht
    rw [moveTask, moveExpire_eq completed]
    exact same.answer told
  | readStore store r =>
    simp only [moveTask, moveReadStore]
    split
    · next refused => exact same.answer (Store.violation_of_read refused)
    · exact same.sleep
    · exact same.answer rfl
  | awaitStore store =>
    simp only [moveTask, moveAwaitStore]
    split
    · exact same.answer rfl
    · exact same.sleep
  | makeLoad job =>
    simp only [moveTask, moveMakeLoad]
    split
    · exact same.goOn _
    · exact same.answer rfl
    · exact same.answer rfl
  | load l =>
    have load := mute_advanceLoad (s := s) l
    simp only [moveTask, moveLoad]
    rcases hl : s.advanceLoad l with ⟨m, t⟩
    rw [hl] at load
    cases m with
    | goesOn p => exact load.goOn _
    | ends => exact load.answer rfl
    | panics text => exact load.answer rfl
  | standIn key i =>
    simp only [moveTask, moveStandIn]
    split
    · exact same.abandon rfl
    · exact same.goOn _
  | assist i =>
    simp only [moveTask, moveAssist]
    split
    · exact same.answer rfl
    · exact same.answer rfl

/-! ## Workers, pools and the end of the registry -/

theorem mute_moveWorker (n : PoolName) (i : Nat) : s.Mute (s.moveWorker n i) := by
  have move := s.workerMove n i
  generalize s.moveWorker n i = u at move ⊢
  cases move with
  | still => exact .refl s
  | look | retract | next => exact mute_setPool ..
  | @shed _ j => exact (mute_closeSources [j]).trans (mute_setPool ..)
  | load => exact (mute_advanceLoad _).trans (mute_setPool ..)

theorem mute_dropQueue (n : PoolName) : s.Mute (s.dropQueue n) :=
  (mute_setPool n _).trans (mute_closeSources _)

theorem mute_endRegistry : s.Mute s.endRegistry := by
  unfold endRegistry
  split
  · exact ⟨rfl, rfl, rfl, rfl⟩
  · exact ⟨rfl, rfl, rfl, rfl⟩
  · exact (mute_dequeue ..).trans ⟨rfl, rfl, rfl, rfl⟩
  · exact (mute_setPool .registry (s.pool .registry).shutdown).trans ⟨rfl, rfl, rfl, rfl⟩
  · exact .refl s

/-! ## Operations -/

theorem spares_setTally {w : CallId} {h : Writer} (own : used w) (t : Tally) :
    s.Spares who gone used (s.setTally w h t) where
  results := .inl rfl
  reader _ hx := hx
  writer _ hx := contains_set hx
  sink {x} other := by
    have ne : x ≠ w := fun same => other (same ▸ own)
    exact Table.get?_set_of_ne _ _ ne

/-- What an operation does at once concerns its own call and writer handles that are there. -/
theorem Entry.spares {op : Op} (h : s.Entry id op u) :
    s.Spares (some id) (fun _ => False) (fun x => x = id ∨ (s.writer? x).isSome = true) u := by
  have same := Mute.refl s
  have source : ∀ y, s.Mute { s with sources := s.sources.set id y } := fun _ =>
    ⟨rfl, rfl, rfl, rfl⟩
  cases h with
  | missing => exact same.answer rfl
  | openReader | load => exact (source _).call _
  | openWriter =>
    refine ⟨.inl rfl, fun _ hx => hx, fun _ hx => hx, fun {x} other => ?_⟩
    exact Table.get?_set_of_ne _ _ fun same => other (.inl same)
  | shutdown =>
    have told : s.Mute s.shutdown := ⟨rfl, rfl, rfl, rfl⟩
    exact told.answer rfl
  | dropRegistry =>
    have dropped : s.Mute { s with held := false } := ⟨rfl, rfl, rfl, rfl⟩
    exact dropped.answer rfl
  | read | leave | closeSink | readStore | awaitStore => exact same.call _
  | skip => exact ⟨.inr ⟨id, _, rfl, rfl, rfl⟩, fun _ hx => contains_set hx, fun _ hx => hx,
      fun _ => rfl⟩
  | write t r told hw =>
    exact (spares_setTally (.inr (Option.isSome_of_eq_some hw)) t).answer rfl told
  | supply source f =>
    have supplied : s.Mute (s.modifySource source f) := ⟨rfl, rfl, rfl, rfl⟩
    exact supplied.answer rfl
  | newStore =>
    have stocked : s.Mute { s with stores := s.stores.set (.separate id) {} } :=
      ⟨rfl, rfl, rfl, rfl⟩
    exact stocked.answer rfl
  | append => exact (mute_changeStore _ (.append _)).answer rfl
  | finish => exact (mute_changeStore _ .finish).answer rfl
  | @cancel x =>
    have canceled : s.Mute (s.cancelStore (.separate x)) := ⟨rfl, rfl, rfl, rfl⟩
    exact canceled.answer rfl
  | unsourced r told => exact (source _).answer told
  | submit => exact ((source _).trans (mute_setPool ..)).answer rfl
  | assist => exact ((source _).trans (mute_setPool ..)).call _
  | dequeue => exact (mute_dequeue ..).answer rfl
  | dropPool => exact (mute_setPool ..).answer rfl

/-! ## All events -/

/-- The handle belongs to the call that moves. -/
def Hands (s : Session) (x : CallId) : Event → Prop
  | .move (.call id) => ∃ t, s.task? id = some t ∧ t.handle? = some x
  | .move _ | .begin .. => False

/-- The event may touch the sink. -/
def Uses (s : Session) (x : CallId) (e : Event) : Prop :=
  e.caller = some x ∨ s.Hands x e ∨ (∃ id op, e = .begin id op) ∧ (s.writer? x).isSome = true

theorem spares_after (hs : s.Sound) (admitted : s.admits e) :
    s.Spares e.caller (s.Hands · e) (s.Uses · e) (s.after e) := by
  cases e with
  | begin id op =>
    have spares := (entry { s with clock := id + 1 } id op).spares
    refine ⟨spares.results, fun _ => spares.reader not_false, fun _ => spares.writer not_false, ?_⟩
    intro x unused
    refine spares.sink ?_
    rintro (rfl | writes)
    · exact unused (.inl rfl)
    · exact unused (.inr (.inr ⟨⟨id, op, rfl⟩, writes⟩))
  | move actor =>
    cases actor with
    | worker n i => exact (mute_moveWorker n i).spares
    | pool n => exact (mute_dropQueue n).spares
    | registry => exact mute_endRegistry.spares
    | call id =>
      obtain ⟨a, ht⟩ := task_of_canMove admitted
      have spares := spares_moveTask hs ht
      rw [← move_of_task ht] at spares
      refine ⟨spares.results, fun kept => spares.reader fun own => kept ⟨a, ht, own⟩,
        fun kept => spares.writer fun own => kept ⟨a, ht, own⟩, fun {x} unused => spares.sink ?_⟩
      rintro (rfl | own)
      · exact unused (.inl rfl)
      · exact unused (.inr (.inl ⟨a, ht, own⟩))

end Session
end SharedStream
