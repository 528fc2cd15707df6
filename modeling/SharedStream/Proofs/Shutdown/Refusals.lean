import SharedStream.Proofs.Consistency
import SharedStream.Proofs.Keys.Shut
import SharedStream.Proofs.Shutdown.Rules

/-! # Calls that are refused their key

In a registry that is shut down, every call that seeks a key is refused it when it moves, and goes
with nothing but its sink, which nobody has used.
-/
namespace SharedStream

namespace Session
open Keys

variable {s t u : Session} {id i c x : CallId} {k : Key} {a b : Task} {e : Event}

/-! ## Calls that seek a key are refused it -/

theorem task_of_seeks (seeks : s.keys.role id = some (.seeks k)) :
    ∃ a, s.task? id = some a ∧ a.role? = some (.seeks k) :=
  Option.bind_eq_some_iff.1 seeks

theorem seeks_of_role (role : a.role? = some (.seeks k)) : a.seeks = true := by
  cases a <;> cases role <;> rfl

theorem role_of_seeks (seeks : a.seeks = true) : ∃ k, a.role? = some (.seeks k) := by
  cases a <;> cases seeks <;> exact ⟨_, rfl⟩

/-- The session after the call has let its sink go, if it has one. -/
def letGo (s : Session) (id : CallId) : Task → Session
  | .seekWriter _ => s.dropSink id
  | _ => s

theorem moveTask_of_shut (shut : s.registry.shutDown = true) (role : a.role? = some (.seeks k)) :
    s.moveTask id a = (s.letGo id a).answer id (.refused (.interruptedWait k)) := by
  cases a <;> cases role
  · exact if_pos shut
  · exact if_pos shut

theorem keys_letGo : (s.letGo id a).keys = s.keys := by
  cases a <;> rfl

theorem calls_letGo : (s.letGo id a).calls = s.calls := by
  cases a <;> rfl

/-- The registry is shut down, and no call that seeks a key is asleep. -/
structure Shut (s : Session) : Prop where
  shut : s.registry.shutDown = true
  awake : ∀ {i a}, s.Sleeps i a → a.seeks = false

theorem down_eq_self (shut : s.registry.shutDown = true) : s.down = s := by
  obtain ⟨⟨config, slots, shutDown, pool, ended⟩⟩ := s
  cases shut
  rfl

theorem shutDown_after (shut : s.registry.shutDown = true) :
    (s.after e).registry.shutDown = true := by
  by_cases looks : s.Looks e
  · cases e with
    | begin => exact looks.elim
    | move actor =>
      cases actor with
      | call id =>
        obtain ⟨a, ht, seeks⟩ := looks
        obtain ⟨k, role⟩ := role_of_seeks seeks
        rw [after, move_of_task ht, moveTask_of_shut shut role]
        cases a <;> exact shut
      | _ => exact looks.elim
  · have same := down_after looks
    rw [down_eq_self shut] at same
    rw [same]
    rfl

/-- A call that is awake and seeks a key can move. -/
theorem canMove_of_seeks (ht : s.task? id = some a) (seeks : a.seeks = true)
    (awake : ¬ s.Sleeps id a) : s.canMove (.call id) = true := by
  obtain ⟨⟨task, woken⟩, hc, rfl⟩ := Option.map_eq_some_iff.1 ht
  cases woken with
  | false => exact absurd hc awake
  | true =>
    have free : s.taskCanMove id task = true := by
      cases task <;> first | rfl | cases seeks
    simpa only [Session.canMove, hc, Bool.true_and] using free

theorem Shut.canMove (h : s.Shut) (ht : s.task? id = some a) (seeks : a.seeks = true) :
    s.canMove (.call id) = true := by
  refine canMove_of_seeks ht seeks fun asleep => ?_
  cases seeks.symm.trans (h.awake asleep)

theorem Shut.after (h : s.Shut) (hs : s.Sound) (ha : s.Attentive) (admitted : s.admits e) :
    (s.after e).Shut where
  shut := shutDown_after h.shut
  awake {i a} hi := by
    rw [← Bool.not_eq_true]
    intro seeks
    have passes := passes_after hs ha admitted
    by_cases own : e.caller = some i
    · -- A call sleeps after its own move only if the registry is not shut down.
      have waits := passes.waits own hi
      have shut : (s.after e).registry.shutDown = true := shutDown_after h.shut
      have going : (s.after e).registry.shutDown = false := by
        cases a <;> first | exact waits.1 | cases seeks
      rw [shut] at going
      cases going
    · have asleep := h.awake (passes.attends own hi).1
      rw [seeks] at asleep
      cases asleep

theorem Shut.declines (h : s.Shut) (ha : s.Attentive) (admitted : s.admits e) :
    s.keys.Declines e.caller (s.after e).keys := by
  intro id k own seeks
  obtain ⟨a, ht, role⟩ := task_of_seeks seeks
  rw [ha.after_of_caller admitted own ht, moveTask_of_shut h.shut role, keys_answer, keys_letGo]

/-- The shutdown of a registry wakes all that seek a key. -/
theorem shut_shutdown : (s.shutdown.answer id .done).Shut where
  shut := rfl
  awake hi := (sleeps_wake.1 (sleeps_answer.1 hi).2).2

/-- The call was refused its key. -/
def Refused (s : Session) (id : CallId) (k : Key) : Prop :=
  s.task? id = none ∧ s.results.get? id = some (.refused (.interruptedWait k))

/-- The call has got nothing, and was refused its key or is about to be. -/
structure Interrupted (s : Session) (id : CallId) (k : Key) : Prop where
  /-- Its factory was not called, -/
  unbuilt : (s.source id).built = false
  /-- and it has no handle. -/
  reader : s.readers.get? id = none
  writer : s.writers.get? id = none
  refused : s.Refused id k ∨
    (∃ a, s.task? id = some a ∧ a.role? = some (.seeks k)) ∧ s.canMove (.call id) = true

theorem reader_eq_none_iff : s.keys.reader.get? id = none ↔ s.readers.get? id = none := by
  simp [keys]

theorem writer_eq_none_iff : s.keys.writer id = none ↔ s.writers.get? id = none := by
  simp [keys]

namespace Interrupted

theorem of_seeks (hs : s.Sound) (h : s.Shut) (ht : s.task? id = some a)
    (role : a.role? = some (.seeks k)) : s.Interrupted id k := by
  have bare := hs.keys.bare_of_seeks ((role_of_task ht).trans role)
  exact ⟨bare.built, reader_eq_none_iff.1 bare.reader, writer_eq_none_iff.1 bare.writer,
    .inr ⟨⟨a, ht, role⟩, h.canMove ht (seeks_of_role role)⟩⟩

theorem ended (h : s.Interrupted id k) (settled : s.Settled) : s.Refused id k := by
  refine h.refused.resolve_right ?_
  rintro ⟨-, can⟩
  rw [settled] at can
  cases can

theorem idle (h : s.Interrupted id k) :
    s.keys.role id = none ∨ s.keys.role id = some (.seeks k) := by
  rcases h.refused with ⟨none, -⟩ | ⟨⟨a, ht, role⟩, -⟩
  · exact .inl (by simp [keys, none])
  · exact .inr ((role_of_task ht).trans role)

end Interrupted

/-- Nobody but the call itself can answer it. -/
theorem results_of_ne (hs : s.Sound) (admitted : s.admits e) (other : e.caller ≠ some id) :
    (s.after e).results.get? id = s.results.get? id := by
  rcases (spares_after hs admitted).results with same | ⟨i, r, own, -, set⟩
  · rw [same]
  · rw [set, Table.get?_set_of_ne]
    rintro rfl
    exact other own

theorem Refused.after (h : s.Refused id k) (hs : s.Sound) (ha : s.Attentive)
    (later : id < s.clock) (admitted : s.admits e) : (s.after e).Refused id k := by
  have other := caller_ne_of_ended admitted later h.1
  exact ⟨((passes_after hs ha admitted).task other).trans h.1,
    (results_of_ne hs admitted other).trans h.2⟩

theorem Interrupted.after (h : s.Interrupted id k) (hs : s.Sound) (ha : s.Attentive)
    (later : id < s.clock) (shut : s.Shut) (admitted : s.admits e) :
    (s.after e).Interrupted id k := by
  have bare : s.keys.Bare id :=
    ⟨later, reader_eq_none_iff.2 h.reader, writer_eq_none_iff.2 h.writer, h.unbuilt⟩
  have bare := (step_after hs admitted).bare (shut.declines ha admitted) bare h.idle
  refine ⟨bare.built, reader_eq_none_iff.1 bare.reader, writer_eq_none_iff.1 bare.writer, ?_⟩
  rcases h.refused with refused | ⟨⟨a, ht, role⟩, -⟩
  · exact .inl (refused.after hs ha later admitted)
  · by_cases own : e.caller = some id
    · rw [ha.after_of_caller admitted own ht, moveTask_of_shut shut.shut role]
      exact .inl ⟨by rw [task?_answer, if_pos rfl], Table.get?_set_self ..⟩
    · have task := ((passes_after hs ha admitted).task own).trans ht
      exact .inr ⟨⟨a, task, role⟩, (shut.after hs ha admitted).canMove task (seeks_of_role role)⟩

/-! ## The sink of a writer that is refused -/

/-- The sink of a call that seeks a key for writing is `y`, and dropped as it is at the end. -/
structure KeepsSink (s : Session) (id : CallId) (y : Sink) : Prop where
  writes : ∀ {a}, s.task? id = some a → ∃ k, a = .seekWriter k
  sink : s.sinks.get? id = some (if (s.task? id).isSome then y else y.close)

/-- Nobody writes to the sink of a call that has no handle. -/
theorem not_uses (reader : s.readers.get? id = none) (writer : s.writers.get? id = none)
    (ha : s.Attentive) (held : s.Holds) (other : e.caller ≠ some id) : ¬ s.Uses id e := by
  have unread : s.readers.contains id = false := by simp [Table.contains, reader]
  have unwritten : s.writers.contains id = false := by simp [Table.contains, writer]
  rintro (own | hands | ⟨-, writes⟩)
  · exact other own
  · cases e with
    | begin => exact hands
    | move actor =>
      cases actor with
      | call i =>
        obtain ⟨b, hb, hx⟩ := hands
        cases b with
        | read r =>
          cases hx
          obtain ⟨handle, hr⟩ := ha.reads hb
          simp [reader] at hr
        | leave x p =>
          cases hx
          simp [held.leave hb] at unread
        | closeSink x p =>
          cases hx
          simp [held.closeSink hb] at unwritten
        | giveBack x f p =>
          cases hx
          simp [held.giveBack hb] at unwritten
        | _ => cases hx
      | _ => exact hands
  · obtain ⟨w, hw⟩ := Option.isSome_iff_exists.1 writes
    have present := get?_of_writer? hw
    rw [writer] at present
    cases present

theorem KeepsSink.after {y : Sink} (h : s.KeepsSink id y) (interrupted : s.Interrupted id k)
    (hs : s.Sound) (ha : s.Attentive) (held : s.Holds) (later : id < s.clock) (shut : s.Shut)
    (admitted : s.admits e) : (s.after e).KeepsSink id y := by
  by_cases own : e.caller = some id
  · cases ht : s.task? id with
    | none => exact absurd own (caller_ne_of_ended admitted later ht)
    | some a =>
      obtain ⟨k, rfl⟩ := h.writes ht
      have sink := h.sink
      rw [ht] at sink
      rw [ha.after_of_caller admitted own ht, moveTask_of_shut shut.shut (k := k) rfl]
      refine ⟨fun {a} ha => by simp [task?_answer] at ha, ?_⟩
      rw [task?_answer, if_pos rfl]
      simp [letGo, dropSink, Session.answer, Table.get?_modify, sink]
  · have task := (passes_after hs ha admitted).task own
    refine ⟨fun hb => h.writes (task ▸ hb), ?_⟩
    have unused := not_uses interrupted.reader interrupted.writer ha held own
    rw [(spares_after hs admitted).sink unused, task]
    exact h.sink

/-! ## The shutdown itself -/

/-- The sessions differ at most in calls that seek a key, their sinks and results, the clock and
whether the registry is shut down. -/
structure Alike (s u : Session) : Prop where
  slots : u.registry.slots = s.registry.slots
  ending : u.registry.ending = s.registry.ending
  held : u.held = s.held
  caches : u.caches = s.caches
  stores : u.stores = s.stores
  sources : u.sources = s.sources
  pool : ∀ n, u.pool n = s.pool n
  readers : u.readers = s.readers
  writers : u.writers = s.writers
  calls : ∀ {i a}, s.task? i = some a → a.seeks = false → u.calls.get? i = s.calls.get? i
  /-- No call has begun. -/
  tasks : ∀ {i a}, u.task? i = some a → s.task? i = some a

theorem Alike.trans (h : s.Alike t) (h' : t.Alike u) : s.Alike u where
  slots := h'.slots.trans h.slots
  ending := h'.ending.trans h.ending
  held := h'.held.trans h.held
  caches := h'.caches.trans h.caches
  stores := h'.stores.trans h.stores
  sources := h'.sources.trans h.sources
  pool n := (h'.pool n).trans (h.pool n)
  readers := h'.readers.trans h.readers
  writers := h'.writers.trans h.writers
  calls {i a} ht other := by
    have same := h.calls ht other
    have task : t.task? i = some a := by rwa [task?, same]
    exact (h'.calls task other).trans same
  tasks ht := h.tasks (h'.tasks ht)

theorem alike_shutdown (ha : s.Attentive) (held : s.held = true) (later : s.clock ≤ id) :
    s.Alike (s.begin id .shutdown) := by
  have eq : s.begin id .shutdown =
      (Session.shutdown { s with clock := id + 1 }).answer id .done := if_pos held
  have calls : ∀ i, (s.begin id .shutdown).calls.get? i = if i = id then none else
      (s.calls.get? i).map fun c => if c.task.seeks then { c with awake := true } else c := by
    intro i
    rw [eq, Session.answer, Table.get?_erase]
    exact congrArg (fun x => if i = id then none else x) (get?_wake ..)
  have old : ∀ {i a}, s.task? i = some a → i ≠ id := by
    rintro i a ht rfl
    exact absurd (ha.begun ht) (Nat.not_lt_of_le later)
  refine ⟨by rw [eq]; rfl, by rw [eq]; rfl, by rw [eq]; rfl, by rw [eq]; rfl, by rw [eq]; rfl,
    by rw [eq]; rfl, fun n => by rw [eq]; cases n <;> rfl, by rw [eq]; rfl, by rw [eq]; rfl, ?_, ?_⟩
  · intro i a ht other
    obtain ⟨call, hc, rfl⟩ := Option.map_eq_some_iff.1 ht
    rw [calls, if_neg (old ht), hc, Option.map_some, if_neg (by simp [other])]
  · intro i a ht
    obtain ⟨call, hc, rfl⟩ := Option.map_eq_some_iff.1 ht
    rw [calls] at hc
    split at hc
    · cases hc
    obtain ⟨call', hc', woken⟩ := Option.map_eq_some_iff.1 hc
    rw [task?, hc', Option.map_some]
    split at woken <;> rw [← woken]

theorem alike_refusal (shut : s.registry.shutDown = true) (ht : s.task? id = some a)
    (role : a.role? = some (.seeks k)) : s.Alike (s.moveTask id a) := by
  have seeks := seeks_of_role role
  rw [moveTask_of_shut shut role]
  have calls : ∀ i, ((s.letGo id a).answer id (.refused (.interruptedWait k))).calls.get? i =
      if i = id then none else s.calls.get? i := by
    intro i
    rw [Session.answer, Table.get?_erase, calls_letGo]
  refine ⟨?_, ?_, ?_, ?_, ?_, ?_, fun n => ?pool, ?_, ?_, fun {i b} hb other => ?calls,
    fun {i b} hb => ?tasks⟩
  case pool => cases n <;> cases a <;> rfl
  case calls =>
    rw [calls, if_neg]
    rintro rfl
    rw [ht] at hb
    cases hb
    rw [seeks] at other
    cases other
  case tasks =>
    rw [task?, calls] at hb
    split at hb
    · cases hb
    · exact hb
  all_goals cases a <;> rfl

/-- Who could not move before can move afterwards only as a call that seeks a key. -/
theorem Alike.canMove (h : s.Alike u) (held : s.held = true) {actor : Actor}
    (can : u.canMove actor = true) (other : ∀ i, actor = .call i → ∃ a, u.task? i = some a ∧
      a.seeks = false) : s.canMove actor = true := by
  cases actor with
  | worker n i =>
    simpa only [Session.canMove, workerCanMove, loadCanMove, source, h.pool, h.sources] using can
  | pool n => simpa only [Session.canMove, poolCanMove, h.pool] using can
  | registry =>
    rw [Session.canMove, h.ending] at can
    rw [Session.canMove]
    split at can
    · simp [hasHolder, h.held, held] at can
    · rfl
    · rfl
    · cases can
  | call i =>
    obtain ⟨a, ht, seeks⟩ := other i rfl
    have same := h.calls (h.tasks ht) seeks
    have free : ∀ b, u.taskCanMove i b = s.taskCanMove i b := by
      intro b
      cases b <;> simp only [taskCanMove, loadCanMove, source, h.sources, hasStoodIn, h.pool]
    simpa only [Session.canMove, same, free] using can

end Session
end SharedStream
