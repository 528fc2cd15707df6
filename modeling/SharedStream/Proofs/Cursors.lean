import Mathlib.Algebra.Order.Ring.Nat
import SharedStream.Proofs.Fidelity
import SharedStream.Proofs.StableReads

/-! # Where handles stand

A handle stands at the end of what it has been given and what it has skipped, which is never past
what its cache has loaded. Only its own reads and skips move it.
-/
namespace SharedStream

/-- The handle so many bytes further on. -/
def Reader.ahead (h : Reader) (n : Nat) : Reader := { h with cursor := h.cursor.advance n }

namespace Session
variable {s : Session} {id x y : CallId} {h : Reader} {len : Nat} {e : Event}

/-- How many bytes a handle passes over in an event without reading them. -/
def passed (s : Session) (x : CallId) : Event → Nat
  | .begin _ (.skip y len) =>
    match s.reader? y with
    | some h =>
      if y = x then min len ((s.store (.cache h.cache)).loadedLen - h.cursor.position) else 0
    | none => 0
  | _ => 0

theorem passed_of_other (other : ∀ id len, e ≠ .begin id (.skip x len)) : s.passed x e = 0 := by
  unfold passed
  split
  · next id y len =>
    have ne : y ≠ x := by
      rintro rfl
      exact other id len rfl
    split
    · exact if_neg ne
    · rfl
  · rfl

theorem passed_of_absent (absent : s.readers.get? x = none) : s.passed x e = 0 := by
  unfold passed
  split
  · next id y len =>
    split
    · next h hr =>
      refine if_neg fun same => ?_
      rw [same] at hr
      rw [(reader?_eq_some hr).2] at absent
      cases absent
    · rfl
  · rfl

/-- A skip is answered at once, with as much as is loaded of what was asked for. -/
theorem after_skip (hr : s.reader? x = some h) : s.after (.begin id (.skip x len)) =
    ({ s with clock := id + 1 } : Session).skip id x h len := by
  have hr : ({ s with clock := id + 1 } : Session).reader? x = some h := hr
  rw [after, begin, enter, withReader, hr]

theorem readers_after_skip (hr : s.reader? x = some h) :
    (s.after (.begin id (.skip x len))).readers =
      s.readers.set x
        (h.ahead (min len ((s.store (.cache h.cache)).loadedLen - h.cursor.position))) := by
  rw [after_skip hr]
  rfl

theorem readers_after_missing_skip (missing : s.reader? x = none) :
    (s.after (.begin id (.skip x len))).readers = s.readers := by
  have missing : ({ s with clock := id + 1 } : Session).reader? x = none := missing
  rw [after, begin, enter, withReader, missing]
  rfl

end Session

namespace Run
open Session

variable {config : CacheConfig} {workers : Nat} (r : Run (start config workers))
variable {x id : CallId} {m n : Nat} {h : Reader} {d : Delivery}

/-- All that has been skipped through a handle before some moment. -/
def skipped (x : CallId) (n : Nat) : Nat :=
  ((List.range n).map fun i => (r.state i).passed x (r.event i)).sum

theorem skipped_succ (x : CallId) (n : Nat) :
    r.skipped x (n + 1) = r.skipped x n + (r.state n).passed x (r.event n) := by
  simp [skipped, List.range_succ]

/-- How much the cache of a handle has loaded. -/
def loaded (h : Reader) (n : Nat) : Nat := ((r.state n).store (.cache h.cache)).loadedLen

theorem advanced_of_moves {rd : Reading} (moves : rd.goal.moves = true) (o : ReadOutcome) :
    Session.advanced rd h o = h.ahead o.count := by
  simp [Session.advanced, moves, Reader.ahead]

theorem advanced_of_count {rd : Reading} {o : ReadOutcome} (none : o.count = 0) :
    Session.advanced rd h o = h := by
  simp [Session.advanced, none, Cursor.advance]

/-- What a read through a handle has delivered is what its cache has at the handle's place. -/
theorem delivered (delivers : (r.state n).Delivers id d) (moves : d.reading.goal.moves = true) :
    d.given = ((octets ((r.state n).store (.cache d.handle.cache)).bytes).drop
        d.handle.cursor.position).take d.outcome.count ∧
      d.given.length = d.outcome.count ∧
      (d.handle.cursor.position ≤ r.loaded d.handle n →
        d.handle.cursor.position + d.outcome.count ≤ r.loaded d.handle n) := by
  have copied := r.copied delivers
  have position : d.request.position = d.handle.cursor.position :=
    Reading.position_of_moves moves _
  refine ⟨?_, copied.length_extract, fun within => ?_⟩
  · rw [Delivery.given, copied.extract_eq, position]
  · have count := copied.loaded
    rw [(r.gapless (.cache d.handle.cache) n).carries.1, position] at count
    unfold loaded at within ⊢
    omega

/-- From before the event to after it the handle has moved by what it was given and what it has
skipped. -/
structure Moved (x : CallId) (n : Nat) (h h' : Reader) : Prop where
  cache : h'.cache = h.cache
  position : h'.cursor.position = h.cursor.position + ((r.state n).given x (r.event n)).length +
    (r.state n).passed x (r.event n)
  within : h.cursor.position ≤ r.loaded h n → h'.cursor.position ≤ r.loaded h n

theorem moved_of_skip {h' : Reader} {len : Nat} (event : r.event n = .begin id (.skip x len))
    (hr : (r.state (n + 1)).readers.get? x = some h') :
    ∃ h, (r.state n).readers.get? x = some h ∧ r.Moved x n h h' := by
  have idle : (r.state n).delivery? (r.event n) = none := by
    rw [event]
    rfl
  rw [r.state_succ, event] at hr
  cases reads : (r.state n).reader? x with
  | none =>
    rw [readers_after_missing_skip reads] at hr
    refine ⟨h', hr, rfl, ?_, fun within => within⟩
    rw [given_of_idle idle, event]
    simp [passed, reads]
  | some h =>
    rw [readers_after_skip reads, Table.get?_set_self] at hr
    cases hr
    refine ⟨h, (reader?_eq_some reads).2, rfl, ?_, fun within => ?_⟩
    · rw [given_of_idle idle, event]
      simp [passed, reads, Reader.ahead, Cursor.advance]
    · unfold loaded at within ⊢
      dsimp only [Reader.ahead, Cursor.advance]
      omega

theorem moved_of_delivers {h' : Reader} (delivers : (r.state n).Delivers id d)
    (event : r.event n = .move (.call id)) (hr : (r.state (n + 1)).readers.get? x = some h') :
    ∃ h, (r.state n).readers.get? x = some h ∧ r.Moved x n h h' := by
  have passes : (r.state n).passed x (r.event n) = 0 := by
    rw [event]
    rfl
  have given := delivers.given x
  rw [← event] at given
  rw [r.state_succ, event, delivers.readers_after, Table.get?_set] at hr
  split at hr
  · next same =>
    cases hr
    subst same
    refine ⟨d.handle, delivers.handle, ?_⟩
    cases moves : d.reading.goal.moves with
    | true =>
      obtain ⟨-, length, within⟩ := r.delivered delivers moves
      rw [advanced_of_moves moves]
      refine ⟨rfl, ?_, within⟩
      rw [given, passes, if_pos ⟨rfl, moves⟩, length]
      rfl
    | false =>
      have stays : Session.advanced d.reading d.handle d.outcome = d.handle := by
        simp [Session.advanced, moves]
      rw [stays]
      refine ⟨rfl, ?_, fun within => within⟩
      rw [given, passes, if_neg (by simp [moves])]
      rfl
  · next other =>
    refine ⟨h', hr, rfl, ?_, fun within => within⟩
    rw [given, passes, if_neg fun both => other both.1.symm]
    rfl

/-- What an event does to a handle, unless the handle is new. -/
theorem cursor_before {h' : Reader} (hr : (r.state (n + 1)).readers.get? x = some h') :
    (∃ h, (r.state n).readers.get? x = some h ∧ r.Moved x n h h') ∨
      (r.state n).readers.get? x = none ∧ h'.cursor.position = 0 := by
  by_cases skips : ∃ id len, r.event n = .begin id (.skip x len)
  · obtain ⟨id, len, event⟩ := skips
    exact .inl (r.moved_of_skip event hr)
  cases hd : (r.state n).delivery? (r.event n) with
  | some d =>
    obtain ⟨id, event, delivers⟩ := delivers_of_delivery? hd
    exact .inl (r.moved_of_delivers delivers event hr)
  | none =>
    have other : ∀ id len, r.event n ≠ .begin id (.skip x len) :=
      fun id len event => skips ⟨id, len, event⟩
    rw [r.state_succ] at hr
    rcases kept_after (r.sound n).keys hd other hr with old | fresh
    · refine .inl ⟨h', old, rfl, ?_, fun within => within⟩
      rw [given_of_idle hd, passed_of_other other]
      rfl
    · exact .inr fresh

/-- Where a handle stands: at the end of what it has been given and has skipped. -/
theorem places (x : CallId) (n : Nat) :
    (∀ h, (r.state n).readers.get? x = some h →
      h.cursor.position = (r.received x n).length + r.skipped x n ∧
        h.cursor.position ≤ r.loaded h n) ∧
    ((r.state n).readers.get? x = none → (r.received x n).length + r.skipped x n = 0 ∨
      x < (r.state n).keys.clock ∧ (r.state n).keys.role x = none) := by
  -- Handles that are not there are in the induction too: a new one must have passed nothing.
  induction n with
  | zero =>
    refine ⟨fun h hr => ?_, fun _ => .inl rfl⟩
    simp [r.state_zero, Session.start] at hr
  | succ n ih =>
    obtain ⟨placed, waits⟩ := ih
    refine ⟨fun h' hr => ?_, fun absent => ?_⟩
    · rw [received_succ, skipped_succ, List.length_append]
      rcases r.cursor_before hr with ⟨h, old, cache, position, within⟩ | ⟨absent, place⟩
      · obtain ⟨total, bound⟩ := placed h old
        have grows := (r.store_grows (.cache h.cache) (Nat.le_add_right n 1)).loaded
        have after := within bound
        unfold loaded at after ⊢
        rw [cache]
        omega
      · have none := (waits absent).resolve_right (r.not_over_of_fresh absent hr)
        rw [given_of_absent absent, passed_of_absent absent, List.length_nil, place]
        exact ⟨by omega, Nat.zero_le _⟩
    · cases hr : (r.state n).readers.get? x with
      | some h => exact .inr (r.over_succ (r.over_of_handle hr))
      | none =>
        refine (waits hr).imp (fun none => ?_) r.over_succ
        rw [received_succ, skipped_succ, given_of_absent hr, passed_of_absent hr, List.append_nil]
        exact none

theorem position_le (hr : (r.state n).readers.get? x = some h) : h.cursor.position ≤ r.loaded h n :=
  ((r.places x n).1 h hr).2

/-! ## What moves a handle -/

/-- A read through a handle delivers what is there and moves the handle on by it. -/
theorem handle_of_delivers (delivers : (r.state n).Delivers id d)
    (event : r.event n = .move (.call id)) (moves : d.reading.goal.moves = true) :
    (r.state (n + 1)).readers.get? d.reading.reader = some (d.handle.ahead d.outcome.count) ∧
      r.received d.reading.reader (n + 1) = r.received d.reading.reader n ++ d.given := by
  constructor
  · rw [r.state_succ, event, delivers.readers_after, Table.get?_set_self,
      advanced_of_moves moves]
  · rw [received_succ, event, delivers.given, if_pos ⟨rfl, moves⟩]

/-- A reading that gets no bytes from its place leaves its handle where it is. -/
theorem handle_of_nothing {rd : Reading} (event : r.event n = .move (.call id))
    (ht : (r.state n).task? id = some (.read rd))
    (hr : (r.state n).readers.get? rd.reader = some h)
    (nothing : rd.goal.moves = false ∨ ∀ o buf, ((r.state n).store (.cache rd.cache)).read
      (rd.request h.cursor.position) = .done o buf → o.count = 0) :
    (r.state (n + 1)).readers.get? rd.reader = some h := by
  rw [r.state_succ, event]
  cases hd : (r.state n).delivery? (.move (.call id)) with
  | none => rwa [Session.after, move_of_task ht, moveTask, readers_moveReading ht hd]
  | some d =>
    obtain ⟨id', event', delivers⟩ := delivers_of_delivery? hd
    cases event'
    obtain ⟨rd', h', o, buf⟩ := d
    cases ht.symm.trans delivers.task
    cases hr.symm.trans delivers.handle
    rw [delivers.readers_after, Table.get?_set_self]
    congr 1
    rcases nothing with still | nothing
    · simp [Session.advanced, still]
    · exact advanced_of_count (nothing o buf delivers.read)

/-- Nobody else moves a handle. -/
theorem handle_of_others {h' : Reader} (hr : (r.state n).readers.get? x = some h)
    (after : (r.state (n + 1)).readers.get? x = some h')
    (reads : ∀ id rd, r.event n = .move (.call id) → (r.state n).task? id = some (.read rd) →
      rd.reader ≠ x)
    (skips : ∀ id len, r.event n ≠ .begin id (.skip x len)) : h' = h := by
  rw [r.state_succ] at after
  cases hd : (r.state n).delivery? (r.event n) with
  | none =>
    rcases kept_after (r.sound n).keys hd skips after with old | ⟨absent, -⟩
    · exact Option.some.inj (old.symm.trans hr)
    · rw [hr] at absent
      cases absent
  | some d =>
    obtain ⟨id, event, delivers⟩ := delivers_of_delivery? hd
    have other := reads id d.reading event delivers.task
    rw [event, delivers.readers_after, Table.get?_set_of_ne _ _ (Ne.symm other), hr] at after
    exact (Option.some.inj after).symm

/-- A result has the bytes at the place of its handle, which goes on to where they end. -/
theorem handle_of_result {rd : Reading} {result : ReadResult}
    (comes : r.Comes h.cache n rd h result) (single : rd.goal.single = true)
    (moves : rd.goal.moves = true) :
    result.given (rd.request h.cursor.position).offset =
        ((octets ((r.state n).store (.cache h.cache)).bytes).drop h.cursor.position).take
          result.count ∧
      (result.given (rd.request h.cursor.position).offset).length = result.count ∧
      h.cursor.position + result.count ≤ r.loaded h n ∧
      (r.state (n + 1)).readers.get? rd.reader = some (h.ahead result.count) := by
  have bound := r.position_le comes.handle
  rcases comes.refused_or_delivers with ⟨idle, e, rfl⟩ | ⟨id, o, buf, event, delivers, result_eq⟩
  · obtain ⟨handle, -, id, p, event, task, -⟩ := comes
    refine ⟨rfl, rfl, bound, ?_⟩
    rw [event] at idle
    rw [r.state_succ, event, Session.after, move_of_task task, moveTask,
      readers_moveReading task idle]
    exact handle
  · obtain ⟨given, count⟩ := result_eq single
    obtain ⟨slice, length, within⟩ := r.delivered delivers moves
    rw [given, count]
    exact ⟨slice, length, within bound, (r.handle_of_delivers delivers event moves).1⟩

/-- A single byte is missing only at the end of a stream. -/
theorem ended_of_no_byte {rd : Reading} (comes : r.Comes h.cache n rd h (.byte none))
    (goal : rd.goal = .byte) :
    ((r.state n).store (.cache h.cache)).finished = true ∧ r.loaded h n = h.cursor.position := by
  have bound := r.position_le comes.handle
  rcases comes.refused_or_delivers with ⟨-, e, refused⟩ | ⟨id, o, buf, -, delivers, result_eq⟩
  · cases refused
  · obtain ⟨-, count⟩ := result_eq (by rw [goal]; rfl)
    have read := delivers.read
    rw [← delivers.cache_eq (r.sound n)] at read
    have request : Delivery.request ⟨rd, h, o, buf⟩ =
        .whole [0].toByteArray h.cursor.position true := by
      rw [Delivery.request, Reading.request, goal]
    rw [request] at read
    have patient : (Store.Request.whole [0].toByteArray h.cursor.position true).Patient :=
      ⟨rfl, Nat.one_ne_zero, Nat.le_refl 1⟩
    rcases Store.read_cases (r.gapless (.cache h.cache) n) patient with
      waits | ⟨more, buf', made⟩ | ⟨short, finished, -⟩
    · cases waits.symm.trans read
    · cases made.symm.trans read
      have nothing : 0 = min 1 (((r.state n).store (.cache h.cache)).loadedLen -
        h.cursor.position) := count
      have more : h.cursor.position < ((r.state n).store (.cache h.cache)).loadedLen := more
      omega
    · exact ⟨finished, Nat.le_antisymm short bound⟩

/-- A skip moves its handle at once, and never past what is loaded. -/
theorem handle_of_skip {len k : Nat} (event : r.event n = .begin id (.skip x len))
    (hr : (r.state n).reader? x = some h)
    (possible : k = min len (r.loaded h n - h.cursor.position)) :
    (r.state (n + 1)).readers.get? x = some (h.ahead k) ∧
      h.cursor.position + k ≤ r.loaded h n ∧ r.skipped x (n + 1) = r.skipped x n + k ∧
      (r.state (n + 1)).calls.contains id = false ∧ (r.state (n + 1)).results.get? id =
        some (.skipped k (h.cursor.position + k) (r.loaded h n - (h.cursor.position + k))) := by
  subst possible
  have bound := r.position_le (reader?_eq_some hr).2
  refine ⟨?_, by omega, ?_, ?_, ?_⟩
  · rw [r.state_succ, event, readers_after_skip hr, Table.get?_set_self]
    rfl
  · rw [skipped_succ, event]
    simp [passed, hr, loaded]
  · rw [r.state_succ, event, after_skip hr]
    simp [Session.skip, answer, Table.contains]
  · rw [r.state_succ, event, after_skip hr]
    exact Table.get?_set_self ..

/-- How a handle goes on through the stream. -/
structure Steady (x : CallId) : Prop where
  /-- No handle is past what its cache has loaded, so that moving on to there exceeds no word. -/
  bound : ∀ {n h}, (r.state n).readers.get? x = some h → h.cursor.position ≤ r.loaded h n
  available : ∀ {n h}, (r.state n).readers.get? x = some h →
    h.cursor.position + (r.state n).available h = r.loaded h n
  total : ∀ {n h}, (r.state n).readers.get? x = some h →
    h.cursor.position = (r.received x n).length + r.skipped x n
  /-- Each read of the cache delivers the bytes at the handle's place, and moves it past them. -/
  reads : ∀ {n id d}, (r.state n).Delivers id d → r.event n = .move (.call id) →
    d.reading.reader = x → d.reading.goal.moves = true →
      d.given = ((octets ((r.state n).store (.cache d.handle.cache)).bytes).drop
          d.handle.cursor.position).take d.outcome.count ∧
        d.given.length = d.outcome.count ∧
        d.handle.cursor.position + d.outcome.count ≤ r.loaded d.handle n ∧
        (r.state (n + 1)).readers.get? x = some (d.handle.ahead d.outcome.count) ∧
        r.received x (n + 1) = r.received x n ++ d.given
  /-- So does a call that one read answers, with what it is told. -/
  comes : ∀ {n rd h result}, rd.reader = x → r.Comes h.cache n rd h result →
    rd.goal.single = true → rd.goal.moves = true →
      result.given (rd.request h.cursor.position).offset =
          ((octets ((r.state n).store (.cache h.cache)).bytes).drop h.cursor.position).take
            result.count ∧
        (result.given (rd.request h.cursor.position).offset).length = result.count ∧
        h.cursor.position + result.count ≤ r.loaded h n ∧
        (r.state (n + 1)).readers.get? x = some (h.ahead result.count)
  /-- A skip goes as far as is loaded, and is answered at once. -/
  skip : ∀ {n id len h k}, r.event n = .begin id (.skip x len) →
    (r.state n).reader? x = some h → k = min len (r.loaded h n - h.cursor.position) →
      (r.state (n + 1)).readers.get? x = some (h.ahead k) ∧
        h.cursor.position + k ≤ r.loaded h n ∧ r.skipped x (n + 1) = r.skipped x n + k ∧
        (r.state (n + 1)).calls.contains id = false ∧ (r.state (n + 1)).results.get? id =
          some (.skipped k (h.cursor.position + k) (r.loaded h n - (h.cursor.position + k)))
  /-- A read at a position of its own, of no length, that is refused, waits, or comes to no bytes
  leaves the handle where it is. -/
  nothing : ∀ {n id rd h}, r.event n = .move (.call id) →
    (r.state n).task? id = some (.read rd) → rd.reader = x →
    (r.state n).readers.get? x = some h →
    (rd.goal.moves = false ∨ (rd.request h.cursor.position).len = 0 ∨
      ∀ k buf, ((r.state n).store (.cache rd.cache)).read (rd.request h.cursor.position) ≠
        .done (.bytes k) buf) →
    (r.state (n + 1)).readers.get? x = some h
  no_byte : ∀ {n rd h}, rd.reader = x → rd.goal = .byte → r.Comes h.cache n rd h (.byte none) →
    ((r.state n).store (.cache h.cache)).finished = true ∧ r.loaded h n = h.cursor.position ∧
      (r.state (n + 1)).readers.get? x = some h
  /-- Loads, other handles and all other calls do not move it. -/
  others : ∀ {n h h'}, (r.state n).readers.get? x = some h →
    (r.state (n + 1)).readers.get? x = some h' →
    (∀ id rd, r.event n = .move (.call id) → (r.state n).task? id = some (.read rd) →
      rd.reader ≠ x) →
    (∀ id len, r.event n ≠ .begin id (.skip x len)) → h' = h

theorem steady (x : CallId) : r.Steady x where
  bound hr := r.position_le hr
  available {n h} hr := Nat.add_sub_cancel' (r.position_le hr)
  total {n h} hr := ((r.places x n).1 h hr).1
  reads {n id d} delivers event own moves := by
    subst own
    obtain ⟨slice, length, within⟩ := r.delivered delivers moves
    obtain ⟨after, received⟩ := r.handle_of_delivers delivers event moves
    exact ⟨slice, length, within (r.position_le delivers.handle), after, received⟩
  comes {n rd h result} own comes single moves := by
    subst own
    exact r.handle_of_result comes single moves
  skip event hr possible := r.handle_of_skip event hr possible
  nothing {n id rd h} event ht own hr none := by
    subst own
    refine r.handle_of_nothing event ht hr ?_
    rcases none with still | empty | other
    · exact .inl still
    · refine .inr fun o buf done => ?_
      have made := ((r.gapless (.cache rd.cache) n).meets _).empty (Store.room_of_done done) empty
      cases made.symm.trans done
      rfl
    · refine .inr fun o buf done => ?_
      cases o with
      | bytes k => exact absurd done (other k buf)
      | endOfStream | notYet => rfl
  no_byte {n rd h} own goal comes := by
    subst own
    obtain ⟨finished, ended⟩ := r.ended_of_no_byte comes goal
    have after := (r.handle_of_result comes (by rw [goal]; rfl) (by rw [goal]; rfl)).2.2.2
    exact ⟨finished, ended, after⟩
  others hr after reads skips := r.handle_of_others hr after reads skips

end Run
end SharedStream
