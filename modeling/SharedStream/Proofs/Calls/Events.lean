import SharedStream.Proofs.Calls.Moves
import SharedStream.Proofs.Deliveries
import SharedStream.Proofs.Entries

/-! # Events and the calls that sleep

In every reachable session, whoever sleeps has to wait, or somebody is about to tell.
-/
namespace SharedStream

namespace Session

variable {s u : Session} {who : Option CallId} {id x : CallId} {a b : Task} {e : Event} {op : Op}

/-! ## Workers, pools and the end of the registry -/

theorem heeds_moveWorker (n : PoolName) (i : Nat) : s.Heeds none (s.moveWorker n i) := by
  have move := s.workerMove n i
  generalize s.moveWorker n i = u at move ⊢
  cases move with
  | still => exact .refl s none
  | look | retract | next => exact heeds_setPool ..
  | shed => exact (heeds_modifySource _).trans (heeds_setPool ..)
  | load => exact (heeds_advanceLoad _).trans (heeds_setPool ..)

theorem heeds_dropQueue (n : PoolName) : s.Heeds none (s.dropQueue n) :=
  (heeds_setPool n _).trans (heeds_closeSources _)

theorem heeds_setEnding (e : Ending) : s.Heeds who (s.setEnding e) :=
  .of_eq (.of_eq rfl rfl rfl) rfl ⟨rfl, rfl, fun _ => rfl⟩ rfl rfl

/-- Nobody seeks a key of a registry that ends. -/
theorem heeds_endRegistry (can : s.canMove .registry = true) : s.Heeds none s.endRegistry := by
  unfold endRegistry
  split
  · next ahead =>
    obtain ⟨-, -, -, tasks⟩ := hasHolder_eq_false_iff.1 (unused_of_canMove can ahead)
    refine .of_same (.of_eq rfl rfl rfl) (fun _ => rfl) (fun hi => hi) ?_
      (fun _ _ => .of_eq rfl _) (fun _ _ => rfl)
    intro i a hi seeks
    have holds := tasks i a (task?_of_sleeps hi)
    cases a with
    | seekReader | seekWriter => cases holds
    | _ => cases seeks
  · exact (heeds_cancelStore _).trans (heeds_setEnding _)
  · exact (heeds_dequeue ..).trans (heeds_setEnding _)
  · exact (heeds_setPool .registry _).trans (heeds_setEnding _)
  · exact .refl s none

/-! ## Operations -/

/-- A handle that can be used is not in use. -/
theorem isAway_eq_false (h : s.isAway x = false) {i : CallId} (hi : s.task? i = some a) :
    a.handle? ≠ some x := by
  intro handle
  obtain ⟨c, hc, rfl⟩ := Option.map_eq_some_iff.1 hi
  have away : s.isAway x = true := Table.any_iff.2 ⟨i, c, hc, by simpa using handle⟩
  rw [h] at away
  cases away

theorem reader?_eq_some {h : Reader} (hr : s.reader? x = some h) :
    s.isAway x = false ∧ s.readers.get? x = some h := by
  unfold reader? at hr
  split at hr
  · cases hr
  · next home => exact ⟨by simpa using home, hr⟩

theorem isAway_of_writer? {w : Writer} (hw : s.writer? x = some w) : s.isAway x = false := by
  unfold writer? at hw
  split at hw
  · cases hw
  · next home => simpa using home

theorem heeds_tick (later : s.clock ≤ id) : s.Heeds who { s with clock := id + 1 } := by
  refine .of_eq (.of_names rfl fun y hy => ?_) rfl (.of_eq rfl rfl) rfl rfl
  cases y with
  | cache c => exact hy
  | separate i =>
    have before : i < s.clock := hy
    exact Nat.lt_succ_of_lt (Nat.lt_of_lt_of_le before later)

theorem heeds_setSources (sources : Table CallId Source) :
    s.Heeds who { s with sources := sources } :=
  .of_eq (.of_eq rfl rfl rfl) rfl (.of_eq rfl rfl) rfl rfl

theorem heeds_setTally (x : CallId) (w : Writer) (t : Tally) :
    s.Heeds who (s.setTally x w t) :=
  .of_eq (.of_eq rfl rfl rfl) rfl (.of_eq rfl rfl) rfl rfl

theorem heeds_letGo : s.Heeds who { s with held := false } :=
  .of_eq (.of_eq rfl rfl rfl) rfl (.of_eq rfl rfl) rfl rfl

theorem heeds_newStore (stocked : s.Stocked) (later : s.clock ≤ id) :
    s.Heeds who { s with clock := id + 1, stores := s.stores.set (.separate id) {} } := by
  refine heeds_setStore ?_ ?_ rfl (.of_eq rfl rfl) rfl rfl
  · refine Option.eq_none_iff_forall_ne_some.2 fun y hy => ?_
    have before : id < s.clock := (stocked (.separate id) y hy).1
    exact absurd before (Nat.not_lt_of_le later)
  · rintro z (hz | rfl)
    · cases z with
      | cache c => exact hz
      | separate i =>
        have before : i < s.clock := hz
        exact Nat.lt_succ_of_lt (Nat.lt_of_lt_of_le before later)
    · exact Nat.lt_succ_self id

theorem passes_begin (ha : s.Attentive) (later : s.clock ≤ id) (op : Op) :
    s.Passes (some id) (s.begin id op) := by
  have new : s.task? id = none := by
    refine Option.eq_none_iff_forall_ne_some.2 fun a hi => ?_
    exact absurd (ha.begun hi) (Nat.not_lt_of_le later)
  have still : ∀ u, s.Needless id u := fun u => .inl (by simp [new])
  have tick : s.Heeds (some id) { s with clock := id + 1 } := heeds_tick later
  have entry := entry { s with clock := id + 1 } id op
  unfold begin
  generalize Session.enter { s with clock := id + 1 } id op = u at entry ⊢
  cases entry with
  | missing m => exact tick.answer (still _) _
  | openReader => exact (tick.trans (heeds_setSources _)).call new _
  | openWriter => exact (tick.trans (heeds_setSinks _)).call new _
  | shutdown => exact (tick.trans (heeds_notifyKeys _)).answer (still _) _
  | dropRegistry => exact (tick.trans heeds_letGo).answer (still _) _
  | read hr => exact tick.call new _
  | @skip reader len h hr =>
    have home := (reader?_eq_some hr).1
    refine (tick.trans (heeds_setReaders fun _ hi => ?_)).answer (still _) _
    rw [Table.get?_set_of_ne]
    rintro rfl
    exact isAway_eq_false home hi rfl
  | write t r _ hw => exact (tick.trans (heeds_setTally ..)).answer (still _) r
  | leave reads => exact tick.call new _
  | closeSink other hw => exact tick.call new _
  | supply source f => exact (tick.trans (heeds_modifySource f)).answer (still _) _
  | newStore => exact (heeds_newStore ha.stocked later).answer (still _) _
  | append present => exact (tick.trans (heeds_changeStore _ (.append _))).answer (still _) _
  | finish present => exact (tick.trans (heeds_changeStore _ .finish)).answer (still _) _
  | cancel present => exact (tick.trans (heeds_cancelStore _)).answer (still _) _
  | readStore present => exact tick.call new _
  | awaitStore present => exact tick.call new _
  | load present => exact (tick.trans (heeds_setSources _)).call new _
  | unsourced r _ going => exact (tick.trans (heeds_setSources _)).answer (still _) _
  | submit going present =>
    exact ((tick.trans (heeds_setSources _)).trans (heeds_setPool .separate _)).answer (still _) _
  | assist going present =>
    exact ((tick.trans (heeds_setSources _)).trans (heeds_setPool .separate _)).call new _
  | dequeue going => exact (tick.trans (heeds_dequeue .separate _)).answer (still _) _
  | dropPool going => exact (tick.trans (heeds_setPool .separate _)).answer (still _) _

/-! ## All events -/

theorem passes_after (hs : s.Sound) (ha : s.Attentive) (admitted : s.admits e) :
    s.Passes e.caller (s.after e) := by
  cases e with
  | begin id op => exact passes_begin ha admitted op
  | move actor =>
    cases actor with
    | worker n i => exact (heeds_moveWorker n i).passes_of_none
    | pool n => exact (heeds_dropQueue n).passes_of_none
    | registry => exact (heeds_endRegistry admitted).passes_of_none
    | call id =>
      have can : s.canMove (.call id) = true := admitted
      cases hc : s.calls.get? id with
      | none => simp [canMove, hc] at can
      | some call =>
        have task : s.task? id = some call.task := by simp [task?, hc]
        have awake : ¬ s.Sleeps id call.task := by
          intro asleep
          rw [Sleeps, hc, Option.some.injEq] at asleep
          have asleep : call.awake = false := congrArg Call.awake asleep
          simp [canMove, hc, asleep] at can
        show s.Passes (some id) (s.move (.call id))
        rw [move_of_task task]
        exact passes_moveTask hs ha task awake

/-! ## Reachable sessions -/

theorem Entry.clock (h : s.Entry id op u) : u.clock = s.clock := by
  cases h with
  | append => exact congrArg Keys.clock (keys_changeStore (s := s) _ (.append _))
  | dequeue => exact congrArg Keys.clock (keys_dequeue (s := s) _ _)
  | _ => rfl

/-- A call begins with a handle that nobody uses. -/
theorem Entry.handle (h : s.Entry id op u) (hu : u.task? id = some b)
    (hx : b.handle? = some x) : s.isAway x = false := by
  have called : ∀ {t : Session} {a : Task}, u = t.call id a → a.handle? = some x := by
    rintro t a rfl
    rw [task?_call, if_pos rfl, Option.some.injEq] at hu
    rwa [hu]
  have answered : ∀ {t : Session} {r : Result}, u ≠ t.answer id r := by
    rintro t r rfl
    simp [task?_answer] at hu
  cases h with
  | read hr =>
    cases called rfl
    exact (reader?_eq_some hr).1
  | leave reads =>
    cases called rfl
    obtain ⟨h, hr⟩ := Option.isSome_iff_exists.1 reads
    exact (reader?_eq_some hr).1
  | closeSink other hw =>
    cases called rfl
    exact isAway_of_writer? hw
  | openReader | openWriter | readStore | awaitStore | load | assist => cases called rfl
  | _ => exact absurd rfl answered

theorem Entry.reads (h : s.Entry id op u) {r : Reading} (hu : u.task? id = some (.read r)) :
    ∃ h, u.readers.get? r.reader = some h := by
  have answered : ∀ {t : Session} {r : Result}, u ≠ t.answer id r := by
    rintro t r rfl
    simp [task?_answer] at hu
  cases h with
  | read hr =>
    rw [task?_call, if_pos rfl, Option.some.injEq, Task.read.injEq] at hu
    subst hu
    exact ⟨_, (reader?_eq_some hr).2⟩
  | openReader | openWriter | leave | closeSink | readStore | awaitStore | load | assist =>
    simp [task?_call] at hu
  | _ => exact absurd rfl answered

theorem task_of_canMove (can : s.canMove (.call id) = true) : ∃ a, s.task? id = some a := by
  cases hc : s.calls.get? id with
  | none => simp [canMove, hc] at can
  | some call => exact ⟨call.task, by simp [task?, hc]⟩

/-- After an event a call has the task that it had, or one that it leads to, or it has begun. -/
theorem task_after (hs : s.Sound) (ha : s.Attentive) (admitted : s.admits e)
    (hi : (s.after e).task? id = some b) :
    (∃ op, e = .begin id op) ∨ ∃ a, s.task? id = some a ∧ (b = a ∨ a.Leads b) := by
  have passes := passes_after hs ha admitted
  by_cases own : e.caller = some id
  · cases e with
    | begin i op =>
      cases own
      exact .inl ⟨op, rfl⟩
    | move actor =>
      cases actor <;> cases own
      obtain ⟨a, before⟩ := task_of_canMove admitted
      exact .inr ⟨a, before, passes.own rfl before hi⟩
  · exact .inr ⟨b, (passes.task own).symm.trans hi, .inl rfl⟩

theorem handle_after (hs : s.Sound) (ha : s.Attentive) (admitted : s.admits e)
    (hi : (s.after e).task? id = some b) (hx : b.handle? = some x) :
    (∃ op, e = .begin id op) ∧ s.isAway x = false ∨
      ∃ a, s.task? id = some a ∧ a.handle? = some x := by
  rcases task_after hs ha admitted hi with ⟨op, rfl⟩ | ⟨a, before, rfl | leads⟩
  · exact .inl ⟨⟨op, rfl⟩, (entry { s with clock := id + 1 } id op).handle hi hx⟩
  · exact .inr ⟨b, before, hx⟩
  · exact .inr ⟨a, before, leads.handle hx⟩

theorem sole_after (hs : s.Sound) (ha : s.Attentive) (admitted : s.admits e) {i j : CallId}
    (hi : (s.after e).task? i = some a) (hj : (s.after e).task? j = some b)
    (hix : a.handle? = some x) (hjx : b.handle? = some x) : i = j := by
  rcases handle_after hs ha admitted hi hix with ⟨⟨op, rfl⟩, home⟩ | ⟨a', hi', hix'⟩
  · rcases handle_after hs ha admitted hj hjx with ⟨⟨op', same⟩, -⟩ | ⟨b', hj', hjx'⟩
    · cases same
      rfl
    · exact absurd hjx' (isAway_eq_false home hj')
  · rcases handle_after hs ha admitted hj hjx with ⟨-, home⟩ | ⟨b', hj', hjx'⟩
    · exact absurd hix' (isAway_eq_false home hi')
    · exact ha.sole hi' hj' hix' hjx'

theorem begun_after (hs : s.Sound) (ha : s.Attentive) (admitted : s.admits e)
    (hi : (s.after e).task? id = some b) : id < (s.after e).clock := by
  rcases task_after hs ha admitted hi with ⟨op, rfl⟩ | ⟨a, before, -⟩
  · show id < (s.begin id op).clock
    rw [begin, (entry _ id op).clock]
    exact Nat.lt_succ_self id
  · exact Nat.lt_of_lt_of_le (ha.begun before) (step_after hs admitted).clock_le

/-- A reading keeps its handle. -/
theorem reads_moveReading (ha : s.Attentive) {r r' : Reading} (ht : s.task? id = some (.read r))
    (hi : (s.moveReading id r).task? id = some (.read r')) :
    ∃ h, (s.moveReading id r).readers.get? r'.reader = some h := by
  obtain ⟨h, hr⟩ := ha.reads ht
  have move := s.readMove id r
  generalize s.moveReading id r = u at move hi ⊢
  cases move with
  | missing => simp [task?_answer] at hi
  | refused => simp [task?_answer] at hi
  | ends => simp [task?_answer] at hi
  | waits =>
    rw [task?_sleep, ht] at hi
    cases hi
    exact ⟨h, hr⟩
  | @goesOn h o buf r'' _ _ after =>
    have task := (task?_moved r h o id).trans ht
    rw [task?_goOn (by rw [task]; rfl), if_pos rfl] at hi
    cases hi
    refine ⟨advanced r h o, ?_⟩
    show (s.moved r h o).readers.get? r'.reader = _
    rw [readers_moved, (Reading.after_inl after).1, Table.get?_set, if_pos rfl]

theorem reads_after (hs : s.Sound) (ha : s.Attentive) (admitted : s.admits e) {r : Reading}
    (hi : (s.after e).task? id = some (.read r)) :
    ∃ h, (s.after e).readers.get? r.reader = some h := by
  have passes := passes_after hs ha admitted
  by_cases own : e.caller = some id
  · cases e with
    | begin i op =>
      cases own
      exact (entry { s with clock := id + 1 } id op).reads hi
    | move actor =>
      cases actor <;> cases own
      obtain ⟨a, before⟩ := task_of_canMove admitted
      have reading : ∃ r, a = .read r := by
        rcases passes.own rfl before hi with rfl | leads
        · exact ⟨r, rfl⟩
        · cases leads with
          | reading r₀ => exact ⟨r₀, rfl⟩
      obtain ⟨r₀, rfl⟩ := reading
      rw [Session.after, move_of_task before] at hi ⊢
      exact reads_moveReading ha before hi
  · have before := (passes.task own).symm.trans hi
    rw [passes.reader own before]
    exact ha.reads before

theorem Attentive.after (ha : s.Attentive) (hs : s.Sound) (admitted : s.admits e) :
    (s.after e).Attentive where
  attends {i a} hi := by
    have passes := passes_after hs ha admitted
    by_cases own : e.caller = some i
    · exact .inl (passes.waits own hi)
    · obtain ⟨before, attends⟩ := passes.attends own hi
      exact attends (ha.attends before)
  sole := sole_after hs ha admitted
  begun := begun_after hs ha admitted
  reads := reads_after hs ha admitted
  stocked := (passes_after hs ha admitted).stocked ha.stocked

theorem attentive_start (config : CacheConfig) (workers : Nat) :
    (start config workers).Attentive where
  attends hi := by simp [start, Sleeps] at hi
  sole hi := by simp [start, task?] at hi
  begun hi := by simp [start, task?] at hi
  reads hi := by simp [start, task?] at hi
  stocked x y hy := by simp [start] at hy

/-- Nobody sleeps in a reachable session without need. -/
theorem Reach.attentive {config : CacheConfig} {workers : Nat}
    (h : Reach (start config workers) s) : s.Attentive :=
  h.invariant (attentive_start config workers) fun reach ha admitted =>
    ha.after reach.sound admitted

end Session
end SharedStream
