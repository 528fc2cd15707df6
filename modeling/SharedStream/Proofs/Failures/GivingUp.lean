import SharedStream.Proofs.Failures.Own
import SharedStream.Proofs.Flights

/-! # Giving up

The ways in which a call can fail to open its key, and what it leaves.
-/
namespace SharedStream

/-- The results of calls that fail to open their key. -/
inductive Result.FailsToOpen : Result → Prop
  | sourceCreation (k : Key) (e : IoFailure) : FailsToOpen (.refused (.sourceCreation k e))
  | interruptedWait (k : Key) : FailsToOpen (.refused (.interruptedWait k))
  | panicked (text : String) : FailsToOpen (.panicked text)

namespace Session
open Keys

variable {s t u : Session} {id i c : CallId} {k : Key} {a : Task} {l : Load} {res : Result}

/-- How the call that opens the key gives up: the result, and the session after it. -/
inductive GivesUp (s : Session) (id : CallId) (k : Key) : Task → Result → Session → Prop
  /-- The registry is shut down. -/
  | interrupted {a : Task} : s.registry.shutDown = true → a.role? = some (.seeks k) →
      GivesUp s id k a (.refused (.interruptedWait k))
        ((s.letGo id a).answer id (.refused (.interruptedWait k)))
  /-- The factory fails or panics. -/
  | failed {mode : LoadMode} {e : IoFailure} : (s.source id).factory = .fails e →
      GivesUp s id k (.makeSource k mode) (.refused (.sourceCreation k e))
        (s.abandon id k (.refused (.sourceCreation k e)))
  | panicked {mode : LoadMode} {text : String} : (s.source id).factory = .panics text →
      GivesUp s id k (.makeSource k mode) (.panicked text) (s.abandon id k (.panicked text))
  /-- The load that the call runs itself panics. -/
  | lost {l : Load} {text : String} : (s.nextStep l).move = .panics text →
      GivesUp s id k (.fill k l) (.panicked text)
        ((s.advanceLoad l).2.abandon id k (.panicked text))

theorem goOn_ne_none (ht : s.task? id = some a) {b : Task} :
    (s.goOn id b).task? id ≠ none := by
  rw [task?_goOn (Option.isSome_of_eq_some ht), if_pos rfl]
  simp

theorem sleep_ne_none (ht : s.task? id = some a) : (s.sleep id).task? id ≠ none := by
  rw [task?_sleep, ht]
  simp

theorem eq_of_answer {r : Result} (result : (s.answer id r).results.get? id = some res) :
    r = res :=
  Option.some.inj ((Table.get?_set_self s.results id r).symm.trans result)

/-- A result of another kind is no failure. -/
theorem not_failsToOpen {r : Result} (other : ¬ r.FailsToOpen) (failure : res.FailsToOpen) :
    (s.answer id r).results.get? id ≠ some res := by
  intro result
  obtain rfl := eq_of_answer result
  exact other failure

namespace GivesUp

theorem of_shut (shut : s.registry.shutDown = true) (role : a.role? = some (.seeks k))
    (result : (s.moveTask id a).results.get? id = some res) :
    s.GivesUp id k a res (s.moveTask id a) := by
  rw [moveTask_of_shut shut role] at result ⊢
  obtain rfl := eq_of_answer result
  exact .interrupted shut role

theorem of_seekReader {mode : LoadMode} (ht : s.task? id = some (.seekReader k mode))
    (ended : (s.moveTask id (.seekReader k mode)).task? id = none)
    (result : (s.moveTask id (.seekReader k mode)).results.get? id = some res)
    (failure : res.FailsToOpen) :
    s.GivesUp id k (.seekReader k mode) res (s.moveTask id (.seekReader k mode)) := by
  by_cases shut : s.registry.shutDown = true
  · exact of_shut shut rfl result
  revert ended result
  simp only [moveTask, moveSeekReader, if_neg shut]
  split
  · exact fun ended => absurd ended (goOn_ne_none ht)
  · exact fun _ result => absurd result (not_failsToOpen (by rintro ⟨⟩) failure)
  all_goals exact fun ended => absurd ended (sleep_ne_none ht)

theorem of_makeSource {mode : LoadMode} (ht : s.task? id = some (.makeSource k mode))
    (ended : (s.moveTask id (.makeSource k mode)).task? id = none)
    (result : (s.moveTask id (.makeSource k mode)).results.get? id = some res) :
    s.GivesUp id k (.makeSource k mode) res (s.moveTask id (.makeSource k mode)) := by
  revert ended result
  simp only [moveTask, moveMakeSource]
  split
  · next e fails =>
    intro _ result
    obtain rfl := eq_of_answer result
    exact .failed fails
  · next text panics =>
    intro _ result
    obtain rfl := eq_of_answer result
    exact .panicked panics
  · cases mode with
    | sync => exact fun ended => absurd ended (goOn_ne_none ht)
    | async => exact fun ended => absurd ended (goOn_ne_none ht)

theorem of_fill (ht : s.task? id = some (.fill k l))
    (ended : (s.moveTask id (.fill k l)).task? id = none)
    (result : (s.moveTask id (.fill k l)).results.get? id = some res) :
    s.GivesUp id k (.fill k l) res (s.moveTask id (.fill k l)) := by
  have move := s.advanceLoad_fst (l := l)
  have task : (s.advanceLoad l).2.task? id = some (.fill k l) := by rw [task?_advanceLoad, ht]
  have lost : ∀ {text}, (s.nextStep l).move = .panics text →
      s.GivesUp id k (.fill k l) (.panicked text)
        ((s.advanceLoad l).2.abandon id k (.panicked text)) := .lost
  revert ended result
  simp only [moveTask, moveFill]
  rcases hl : s.advanceLoad l with ⟨m, t⟩
  rw [hl] at move task lost
  intro ended result
  cases m with
  | goesOn p => exact absurd ended (goOn_ne_none task)
  | ends => exact absurd ended (goOn_ne_none task)
  | panics text =>
    obtain rfl := eq_of_answer result
    exact lost move.symm

theorem of_seekWriter (ht : s.task? id = some (.seekWriter k))
    (ended : (s.moveTask id (.seekWriter k)).task? id = none)
    (result : (s.moveTask id (.seekWriter k)).results.get? id = some res)
    (failure : res.FailsToOpen) :
    s.GivesUp id k (.seekWriter k) res (s.moveTask id (.seekWriter k)) := by
  by_cases shut : s.registry.shutDown = true
  · exact of_shut shut rfl result
  revert ended result
  simp only [moveTask, moveSeekWriter, if_neg shut]
  split
  · exact fun _ result => absurd result (not_failsToOpen (by rintro ⟨⟩) failure)
  · split
    · exact fun _ result => absurd result (not_failsToOpen (by rintro ⟨⟩) failure)
    split
    · exact fun ended => absurd ended (goOn_ne_none ht)
    · exact fun ended => absurd ended (sleep_ne_none ht)
  all_goals exact fun ended => absurd ended (sleep_ne_none ht)

end GivesUp

/-- There is no other way for a call to fail to open its key, but to have run loads in the place of
a worker. -/
theorem givesUp (ht : s.task? id = some a) (key : a.reads? = some k ∨ a.writes? = some k)
    (alone : ∀ i, a ≠ .standIn k i)
    (ended : (s.moveTask id a).task? id = none)
    (result : (s.moveTask id a).results.get? id = some res) (failure : res.FailsToOpen) :
    s.GivesUp id k a res (s.moveTask id a) := by
  cases a with
  | seekReader key' mode =>
    cases key.resolve_right (by simp [Task.writes?])
    exact .of_seekReader ht ended result failure
  | makeSource key' mode =>
    cases key.resolve_right (by simp [Task.writes?])
    exact .of_makeSource ht ended result
  | fill key' l =>
    cases key.resolve_right (by simp [Task.writes?])
    exact .of_fill ht ended result
  | standIn key' i =>
    cases key.resolve_right (by simp [Task.writes?])
    exact absurd rfl (alone i)
  | register key' => exact absurd result (not_failsToOpen (by rintro ⟨⟩) failure)
  | seekWriter key' =>
    cases key.resolve_left (by simp [Task.reads?])
    exact .of_seekWriter ht ended result failure
  | cancelCache key' cache => exact absurd ended (goOn_ne_none ht)
  | dequeueCache key' cache => exact absurd ended (goOn_ne_none (by rw [task?_dequeue, ht]))
  | awaitCache key' cache =>
    revert ended
    simp only [moveTask, moveAwaitCache]
    split
    · exact fun ended => absurd ended (goOn_ne_none ht)
    · exact fun ended => absurd ended (sleep_ne_none ht)
  | lease key' =>
    revert result
    simp only [moveTask, moveLease]
    split
    · exact fun result => absurd result (not_failsToOpen (by rintro ⟨⟩) failure)
    · exact fun result => absurd result (not_failsToOpen (by rintro ⟨⟩) failure)
  | _ => rcases key with key | key <;> cases key

/-! ## What is left of the call -/

/-- Whoever is not the call `id` finds the same in both sessions. -/
structure Matches (s : Session) (id : CallId) (u : Session) : Prop where
  slots : ∀ k, u.registry.slots.get? k = s.registry.slots.get? k
  refs : ∀ c, u.refs c = s.refs c
  stores : ∀ {k c}, s.registry.slots.get? k = some (.reader c) →
    u.store (.cache c) = s.store (.cache c)
  pool : ∀ n, u.pool n = s.pool n
  readers : u.readers = s.readers
  writers : u.writers = s.writers
  sinks : ∀ {w h}, s.writers.get? w = some h → u.sink w = s.sink w
  tasks : ∀ i, i ≠ id → u.task? i = s.task? i

namespace Matches
variable (h : s.Matches id u)
include h

theorem wake (p : Task → Bool) : (s.wake p).Matches id u :=
  { h with
    tasks := fun i other => by rw [task?_wake, h.tasks i other] }

theorem answer (r : Result) : (s.answer id r).Matches id u :=
  { h with
    tasks := fun i other => by rw [task?_answer, if_neg other, h.tasks i other] }

end Matches

theorem Without.matches (h : s.Without id none u)
    (unread : ∀ k, s.registry.slots.get? k ≠ some (.reader id))
    (unwritten : s.writers.get? id = none) (unused : s.refs id = 0) : s.Matches id u where
  slots k := h.slot_of_ne (by simp)
  refs c := by
    by_cases own : c = id
    · subst own
      have none := h.cache c
      rw [if_pos rfl, Option.map_eq_none_iff] at none
      rw [unused, Session.refs, none]
      rfl
    · exact h.refs own
  stores {k c} slot := by
    refine h.store fun same => unread k ?_
    cases same
    exact slot
  pool := h.pool
  readers := h.readers
  writers := h.writers
  sinks {w x} hw := by
    refine h.sink ?_
    rintro rfl
    cases unwritten.symm.trans hw
  tasks i other := h.task other

/-- A key that is given up is free, as without the call. -/
theorem Without.freed (h : s.Without id (some k) u) : (s.freeSlot k).Without id none u :=
  { h with
    slot := fun k' => by
      rw [h.slot, Session.freeSlot, Registry.freeSlot, Table.get?_erase]
      by_cases own : k = k'
      · simp [own]
      · simp [own, Ne.symm own] }

theorem Without.abandoned (h : s.Without id (some k) u)
    (unread : ∀ k, s.registry.slots.get? k ≠ some (.reader id))
    (unwritten : s.writers.get? id = none) (unused : s.refs id = 0) (r : Result) :
    (s.abandon id k r).Matches id u := by
  refine ((h.freed.matches (fun k' => ?_) unwritten unused).wake _).answer r
  rw [Session.freeSlot, Registry.freeSlot, Table.get?_erase]
  split
  · simp
  · exact unread k'

/-- A cache that no handle is on is counted as unread. -/
theorem Sound.refs_eq_zero (hs : s.Sound)
    (unread : ∀ {x y}, s.readers.get? x = some y → y.cache ≠ c) : s.refs c = 0 := by
  cases hc : s.keys.cache c with
  | none =>
    have absent : s.caches.get? c = none := Option.map_eq_none_iff.1 hc
    rw [refs, absent]
    rfl
  | some x =>
    obtain ⟨k, n⟩ := x
    have none : ¬ 0 < s.keys.reader.countP (· = c) := by
      rw [Table.countP_pos_iff]
      rintro ⟨i, c', reads, same⟩
      obtain ⟨h, hr, rfl⟩ := Option.map_eq_some_iff.1 ((Table.get?_map ..).symm.trans reads)
      exact unread hr (by simpa using same)
    rw [refs_eq_of_cache hc, hs.keys.refs_eq hc]
    omega

/-- When the call has given up, it has left no trace. -/
theorem GivesUp.matches (gives : s.GivesUp id k a res t) (h : s.Without id a.works? u)
    (clear : s.Clear id a.works?) (hs : s.Sound) (ht : s.task? id = some a)
    (unused : s.refs id = 0) : t.Matches id u := by
  cases gives with
  | interrupted shut role =>
    have refused : ∀ e, a.works? = none → ((s.letGo id a).answer id e).Matches id u := by
      intro e none
      rw [none] at h
      refine Matches.answer ?_ e
      cases a with
      | seekWriter key => exact h.dropSink_left.matches clear.slot clear.writer unused
      | _ => exact h.matches clear.slot clear.writer unused
    refine refused _ ?_
    cases a <;> cases role <;> rfl
  | failed => exact h.abandoned clear.slot clear.writer unused _
  | panicked => exact h.abandoned clear.slot clear.writer unused _
  | @lost l text panics =>
    obtain ⟨store, source⟩ := hs.fits ht
    have loaded := h.advanceLoad_left source store fun i a => clear.unheard
    obtain ⟨stores, calls, eq⟩ := s.advanceLoad_eq (l := l)
    rw [eq] at loaded ⊢
    exact loaded.abandoned clear.slot clear.writer unused _

/-! ## Each failure in turn -/

namespace GivesUp
variable (h : s.GivesUp id k a res t)
include h

theorem tries : a.tries? = some k := by
  cases h with
  | @interrupted a shut role => cases a <;> cases role <;> rfl
  | _ => rfl

/-- A factory or a load that has failed frees the key, and wakes all who seek one. -/
theorem freed (failure : res.IsFailure k) : t.registry.slots.get? k = none ∧
    ∀ i b, t.Sleeps i b → b.seeks = false := by
  have abandoned : ∀ {v : Session} {r : Result}, (v.abandon id k r).registry.slots.get? k = none ∧
      ∀ i b, (v.abandon id k r).Sleeps i b → b.seeks = false :=
    ⟨Table.get?_erase_self .., fun i b hi => (sleeps_wake.1 (sleeps_answer.1 hi).2).2⟩
  cases h with
  | interrupted =>
    obtain (⟨e, he⟩ | ⟨text, ht⟩) := failure
    · cases he
    · cases ht
  | _ => exact abandoned

/-- A call that is refused its key leaves it as it is, and has not called its factory. -/
theorem of_refused (hs : s.Sound) (ht : s.task? id = some a) {k' : Key}
    (refused : res = .refused (.interruptedWait k')) :
    k' = k ∧ t.registry = s.registry ∧ (t.source id).built = false := by
  subst refused
  cases h with
  | @interrupted a shut role =>
    have unbuilt : (s.source id).built = false := hs.keys.not_built ((role_of_task ht).trans role)
    refine ⟨rfl, ?_, ?_⟩
    · cases a <;> rfl
    · cases a <;> exact unbuilt

/-- The source that a call has made a cache of is dropped when it gives up. -/
theorem closed (hs : s.Sound) (ht : s.task? id = some a) {n : Int}
    (cached : t.keys.cache id = some (k, n)) : (t.source id).closed = true := by
  have role := role_of_task ht
  cases h with
  | interrupted shut seeks =>
    rw [keys_answer, keys_letGo] at cached
    cases cached.symm.trans (hs.keys.no_cache (.inl (role.trans seeks)))
  | failed | panicked =>
    rw [keys_abandon] at cached
    cases cached.symm.trans (hs.keys.no_cache (.inr role))
  | @lost l text panics =>
    obtain ⟨-, source⟩ := hs.fits ht
    obtain ⟨n', hc⟩ := hs.keys.cache_of_builds role
    obtain ⟨-, x, -, hx, -⟩ := eq_of_track_of_stages hs (cached_iff.2 ⟨k, n', hc⟩)
    have dropped := LoadPhase.closed_of_panics panics
    show ((s.advanceLoad l).2.source id).closed = true
    rw [Session.source, sources_advanceLoad, source, Table.get?_modify, if_pos rfl, hx]
    exact dropped

/-- The error of a factory is told as it is. -/
theorem factory {k' : Key} {e : IoFailure} (error : res = .refused (.sourceCreation k' e)) :
    k' = k ∧ (∃ mode, a = .makeSource k mode) ∧ (s.source id).factory = .fails e := by
  subst error
  cases h with
  | failed fails => exact ⟨rfl, ⟨_, rfl⟩, fails⟩

/-- A writer gives up when it looks for its key, and drops its sink. -/
theorem sink (writes : a.writes? = some k) : a = .seekWriter k ∧
    ∀ {y}, s.sinks.get? id = some y → t.sinks.get? id = some y.close := by
  cases h with
  | @interrupted a shut role =>
    cases a <;> cases role
    · cases writes
    · refine ⟨rfl, fun {y} hy => ?_⟩
      simp [letGo, dropSink, Session.answer, Table.get?_modify, hy]
  | _ => cases writes

end GivesUp

end Session
end SharedStream
