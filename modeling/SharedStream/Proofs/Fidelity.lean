import SharedStream.Proofs.Content
import SharedStream.Proofs.Deliveries

/-! # Caches are true to their sources

In every run a cache holds what its source has given, and handles are given what the cache holds.
-/
namespace SharedStream.Run
open Session

variable {start : Session} (r : Run start)

/-- The answers to the reads of a source before some moment. -/
def answers (c : CallId) (n : Nat) : List SourceAnswer :=
  (List.range n).filterMap fun i => (r.state i).answered c (r.event i)

/-- What a source has given before some moment, up to the answer that ends it. -/
def content (c : CallId) (n : Nat) : List UInt8 := SharedStream.content (r.answers c n)

/-- All that the reads through a handle have given before some moment. -/
def received (h : CallId) (n : Nat) : List UInt8 :=
  (List.range n).flatMap fun i => (r.state i).given h (r.event i)

theorem answers_succ (c : CallId) (n : Nat) :
    r.answers c (n + 1) = r.answers c n ++ ((r.state n).answered c (r.event n)).toList := by
  rw [answers, List.range_succ, List.filterMap_append, answers]
  cases h : (r.state n).answered c (r.event n) <;> simp [h]

theorem received_succ (h : CallId) (n : Nat) :
    r.received h (n + 1) = r.received h n ++ (r.state n).given h (r.event n) := by
  simp [received, List.range_succ]

theorem exists_answers (c : CallId) {n N : Nat} (le : n ≤ N) :
    ∃ as, r.answers c N = r.answers c n ++ as := by
  induction le with
  | refl => exact ⟨[], by simp⟩
  | @step N _ ih =>
    obtain ⟨as, ih⟩ := ih
    exact ⟨as ++ ((r.state N).answered c (r.event N)).toList, by
      rw [answers_succ, ih, List.append_assoc]⟩

theorem content_mono (c : CallId) {n N : Nat} (le : n ≤ N) : r.content c n <+: r.content c N := by
  obtain ⟨as, h⟩ := r.exists_answers c le
  rw [content, content, h]
  exact content_within _ _

end SharedStream.Run

namespace SharedStream.Run
open Session

variable {config : CacheConfig} {workers : Nat} (r : Run (Session.start config workers))
variable {c : CallId} {m n N : Nat}

theorem faithful (c : CallId) (n : Nat) (own : ¬ (r.state n).keys.Apart c) :
    ((r.state n).track c).Faithful (r.answers c n) := by
  induction n with
  | zero =>
    refine ⟨fun _ => rfl, fun cached => ?_⟩
    simp [r.state_zero, Session.track, Session.start, Table.contains] at cached
  | succ n ih =>
    have before : ¬ (r.state n).keys.Apart c :=
      fun apart => own ((r.step n).apart (r.sound n).keys apart)
    rw [answers_succ]
    exact (ih before).step ((r.sound n).track before) ((r.onward n).track before)

theorem keeps (cached : (r.state n).caches.contains c = true) :
    Keeps ((r.state n).stages c) ((r.state n).store (.cache c)) (r.answers c n) := by
  obtain ⟨y, -, hy, -, store, -⟩ := eq_of_track_of_stages (r.sound n) cached
  rw [store]
  exact (r.faithful c n (not_apart_of_cached cached)).keeps cached hy

/-- A cache holds a beginning of the content of its source. -/
theorem bytes_within (cached : (r.state n).caches.contains c = true) (le : n ≤ N) :
    octets ((r.state n).store (.cache c)).bytes <+: r.content c N :=
  (r.keeps cached).within.trans (r.content_mono c le)

/-- When its load has finished without being asked to stop, the cache holds all of the content. -/
theorem bytes_eq (cached : (r.state m).caches.contains c = true)
    (finished : ((r.state m).store (.cache c)).finished = true)
    (going : (r.state m).canceled c = false) (le : m ≤ n) (le' : n ≤ N) :
    octets ((r.state n).store (.cache c)).bytes = r.content c N := by
  obtain ⟨bytes, ended⟩ := (r.keeps cached).ended going (.inr finished)
  obtain ⟨as, answers⟩ := r.exists_answers c (Nat.le_trans le le')
  have rests := r.rests ((r.sound m).gone_of_finished cached finished) le
  rw [content, answers, content_append_of_ended ended, ← bytes, Store.bytes_congr rests.chunks]

/-! ## Deliveries -/

theorem slice_within {l l' : List UInt8} (h : l <+: l') {p k : Nat} (fits : k ≤ l.length - p) :
    (l.drop p).take k = (l'.drop p).take k := by
  obtain ⟨rest, rfl⟩ := h
  rw [List.drop_append, List.take_append_of_le_length]
  rw [List.length_drop]
  exact fits

section
variable {id : CallId} {d : Delivery}

theorem cached_of_handle {h : Reader} {x : CallId} (hr : (r.state n).readers.get? x = some h) :
    (r.state n).caches.contains h.cache = true := by
  obtain ⟨k, x, hx, -⟩ := refs_pos (r.sound n).keys hr
  exact cached_iff.2 ⟨k, x, hx⟩

/-- The load of a cache that has a handle was not asked to stop. -/
theorem going_of_handle {h : Reader} {x : CallId} (hr : (r.state n).readers.get? x = some h) :
    (r.state n).canceled h.cache = false := by
  rw [← Bool.not_eq_true]
  intro canceled
  obtain ⟨k, slot⟩ := (r.sound n).keys.slot_of_reader (reader_of_handle hr)
  exact ((r.reach n).spent canceled).slot k slot

theorem copied (delivers : (r.state n).Delivers id d) :
    ((r.state n).store (.cache d.handle.cache)).Copied d.request d.outcome d.buf := by
  rw [delivers.cache_eq (r.sound n)]
  refine delivers.copied ?_
  rw [← delivers.cache_eq (r.sound n)]
  exact (r.keeps (r.cached_of_handle delivers.handle)).gapless

theorem given_eq (delivers : (r.state n).Delivers id d) (le : n ≤ N) :
    d.given = ((r.content d.handle.cache N).drop d.request.position).take d.outcome.count ∧
      d.given.length = d.outcome.count := by
  have copied := r.copied delivers
  have cached := r.cached_of_handle delivers.handle
  refine ⟨?_, copied.length_extract⟩
  rw [Delivery.given, copied.extract_eq]
  exact slice_within (r.bytes_within cached le) copied.loaded

/-- A result of one read has the content at its place. -/
theorem result_given {result : ReadResult} {p : Nat} (delivers : (r.state n).Delivers id d)
    (single : d.reading.goal.single = true)
    (ended : (r.state (n + 1)).task? id = none) (event : r.event n = .move (.call id))
    (results : (r.state (n + 1)).results.get? id = some (.read result p)) :
    result.given d.request.offset = d.given ∧ result.count = d.outcome.count := by
  rw [r.state_succ, event, delivers.after_eq] at ended results
  split at results
  · next going =>
    simp only [going] at ended
    rw [task?_goOn, if_pos rfl] at ended
    · cases ended
    · rw [task?_moved, delivers.task]
      rfl
  · next result' ends =>
    have same : result' = result := by
      have results := (Table.get?_set_self ..).symm.trans results
      cases results
      rfl
    subst same
    exact Reading.result_given single (r.copied delivers) ends

end

/-! ## What a handle receives -/

variable {x : CallId}

/-- What a handle has received is the content up to its place. -/
def UpTo (r : Run (Session.start config workers)) (x : CallId) (n : Nat) (h : Reader) : Prop :=
  ∀ N, n ≤ N → r.received x n = (r.content h.cache N).take h.cursor.position ∧
    h.cursor.position ≤ (r.content h.cache N).length

/-- A handle that has not come yet has received nothing. -/
def Waits (r : Run (Session.start config workers)) (x : CallId) (n : Nat) : Prop :=
  r.received x n = [] ∨ x < (r.state n).keys.clock ∧ (r.state n).keys.role x = none

theorem upTo_of_idle {h : Reader} (given : (r.state n).given x (r.event n) = [])
    (before : r.UpTo x n h) : r.UpTo x (n + 1) h := by
  intro N hN
  rw [received_succ, given, List.append_nil]
  exact before N (by omega)

theorem upTo_of_delivers {id : CallId} {d : Delivery} (event : r.event n = .move (.call id))
    (delivers : (r.state n).Delivers id d) (before : r.UpTo d.reading.reader n d.handle) :
    r.UpTo d.reading.reader (n + 1) (advanced d.reading d.handle d.outcome) := by
  intro N hN
  obtain ⟨received, place⟩ := before N (by omega)
  obtain ⟨slice, length⟩ := r.given_eq delivers (show n ≤ N by omega)
  have given := delivers.given d.reading.reader
  rw [received_succ, event, given, received]
  by_cases moves : d.reading.goal.moves = true
  · have position : d.request.position = d.handle.cursor.position :=
      Reading.position_of_moves moves _
    have after : (advanced d.reading d.handle d.outcome).cursor.position =
        d.handle.cursor.position + d.outcome.count := by
      simp [advanced, moves, Cursor.advance]
    have cache : (advanced d.reading d.handle d.outcome).cache = d.handle.cache := rfl
    rw [position] at slice
    rw [if_pos ⟨rfl, moves⟩, after, cache, slice, List.take_add]
    refine ⟨rfl, ?_⟩
    rw [slice, List.length_take, List.length_drop] at length
    omega
  · have after : advanced d.reading d.handle d.outcome = d.handle := by
      simp [advanced, moves]
    rw [if_neg (fun h => moves h.2), after, List.append_nil]
    exact ⟨rfl, place⟩

/-- A call that is over stays over. -/
theorem over_succ (gone : x < (r.state n).keys.clock ∧ (r.state n).keys.role x = none) :
    x < (r.state (n + 1)).keys.clock ∧ (r.state (n + 1)).keys.role x = none :=
  ⟨Nat.lt_of_lt_of_le gone.1 (r.step n).clock_le, (r.step n).ended gone.1 gone.2⟩

/-- The call that has opened a handle is over. -/
theorem over_of_handle {h : Reader} (hr : (r.state n).readers.get? x = some h) :
    x < (r.state n).keys.clock ∧ (r.state n).keys.role x = none := by
  have reads := reader_of_handle hr
  exact ⟨(r.sound n).keys.lt_clock_of_reader reads, (r.sound n).keys.role_of_reader reads⟩

theorem not_over_of_fresh {h : Reader} (absent : (r.state n).readers.get? x = none)
    (after : (r.state (n + 1)).readers.get? x = some h) :
    ¬ (x < (r.state n).keys.clock ∧ (r.state n).keys.role x = none) := by
  rintro ⟨-, role⟩
  have reads := (r.step n).reader_of_ended role (reader_of_handle after)
  simp [keys, absent] at reads

theorem waits_succ (absent : (r.state n).readers.get? x = none) (before : r.Waits x n) :
    r.Waits x (n + 1) := by
  refine before.imp (fun none => ?_) r.over_succ
  rw [received_succ, none, given_of_absent absent]
  rfl

theorem received_eq (skips : ∀ i, i < n → ∀ id k, r.event i ≠ .begin id (.skip x k)) :
    (∀ h, (r.state n).readers.get? x = some h → r.UpTo x n h) ∧
      ((r.state n).readers.get? x = none → r.Waits x n) := by
  -- Handles that are not there are in the induction too: a new one must have received nothing.
  induction n with
  | zero =>
    refine ⟨fun h hr => ?_, fun _ => .inl rfl⟩
    simp [r.state_zero, Session.start] at hr
  | succ n ih =>
    obtain ⟨upTo, waits⟩ := ih fun i hi => skips i (by omega)
    refine ⟨fun h hr => ?_, fun absent => ?_⟩
    · cases hd : (r.state n).delivery? (r.event n) with
      | none =>
        have given : (r.state n).given x (r.event n) = [] := given_of_idle hd
        have after := hr
        rw [r.state_succ] at after
        rcases kept_after (r.sound n).keys hd (skips n (by omega)) after with old | ⟨absent, place⟩
        · exact r.upTo_of_idle given (upTo h old)
        · intro N _
          have none := (waits absent).resolve_right (r.not_over_of_fresh absent hr)
          rw [received_succ, given, none, place]
          simp
      | some d =>
        obtain ⟨id, event, delivers⟩ := delivers_of_delivery? hd
        rw [r.state_succ, event, delivers.readers_after, Table.get?_set] at hr
        split at hr
        · next same =>
          cases hr
          subst same
          exact r.upTo_of_delivers event delivers (upTo _ delivers.handle)
        · next other =>
          have given : (r.state n).given x (r.event n) = [] := by
            rw [event, delivers.given, if_neg fun h => other h.1.symm]
          exact r.upTo_of_idle given (upTo h hr)
    · cases hr : (r.state n).readers.get? x with
      | none => exact r.waits_succ hr (waits hr)
      | some h => exact .inr (r.over_succ (r.over_of_handle hr))

/-! ## The whole way from a source to its readers -/

/-- A call reads through a handle on the cache in the next event, and ends with a result. -/
structure Comes (r : Run (Session.start config workers)) (c : CallId) (n : Nat) (rd : Reading)
    (h : Reader) (result : ReadResult) : Prop where
  handle : (r.state n).readers.get? rd.reader = some h
  cache : h.cache = c
  ends : ∃ id p, r.event n = .move (.call id) ∧ (r.state n).task? id = some (.read rd) ∧
    (r.state (n + 1)).task? id = none ∧
    (r.state (n + 1)).results.get? id = some (.read result p)

/-- Either the call is refused, or what it ends with is a delivery. -/
theorem Comes.refused_or_delivers {rd : Reading} {h : Reader} {result : ReadResult}
    (comes : r.Comes c n rd h result) :
    ((r.state n).delivery? (r.event n) = none ∧ ∃ e, result = .refused e) ∨
      ∃ id o buf, r.event n = .move (.call id) ∧ (r.state n).Delivers id ⟨rd, h, o, buf⟩ ∧
        (rd.goal.single = true →
          result.given (rd.request h.cursor.position).offset = Delivery.given ⟨rd, h, o, buf⟩ ∧
            result.count = o.count) := by
  obtain ⟨handle, rfl, id, p, event, task, ended, results⟩ := comes
  cases hd : (r.state n).delivery? (.move (.call id)) with
  | none =>
    rw [r.state_succ, event] at ended results
    exact .inl ⟨event ▸ hd, refused_of_idle task hd ended results⟩
  | some d =>
    obtain ⟨id', event', delivers⟩ := delivers_of_delivery? hd
    cases event'
    obtain ⟨rd', h', o, buf⟩ := d
    cases task.symm.trans delivers.task
    cases handle.symm.trans delivers.handle
    refine .inr ⟨id, o, buf, event, delivers, fun single => ?_⟩
    exact r.result_given delivers single ended event results

theorem Comes.given {rd : Reading} {h : Reader} {result : ReadResult}
    (comes : r.Comes c n rd h result) (single : rd.goal.single = true) (le : n ≤ N) :
    result.given (rd.request h.cursor.position).offset =
        ((r.content c N).drop (rd.request h.cursor.position).position).take result.count ∧
      (result.given (rd.request h.cursor.position).offset).length = result.count := by
  have cache := comes.cache
  rcases comes.refused_or_delivers with ⟨-, e, rfl⟩ | ⟨id, o, buf, -, delivers, result_eq⟩
  · exact ⟨rfl, rfl⟩
  · obtain ⟨given, count⟩ := result_eq single
    obtain ⟨slice, length⟩ := r.given_eq delivers le
    rw [given, count, ← cache]
    exact ⟨slice, length⟩

/-- What the handle receives is what the result has. -/
theorem Comes.received {rd : Reading} {h : Reader} {result : ReadResult}
    (comes : r.Comes c n rd h result) (single : rd.goal.single = true)
    (moves : rd.goal.moves = true) :
    (r.state n).given rd.reader (r.event n) =
      result.given (rd.request h.cursor.position).offset := by
  rcases comes.refused_or_delivers with ⟨idle, e, rfl⟩ | ⟨id, o, buf, event, delivers, result_eq⟩
  · exact given_of_idle idle
  · rw [event, delivers.given, if_pos ⟨rfl, moves⟩, (result_eq single).1]

/-- A handle whose read has come to the end of the stream has received all of it. -/
theorem received_all {id : CallId} {d : Delivery}
    (skips : ∀ i, i < n → ∀ id k, r.event i ≠ .begin id (.skip d.reading.reader k))
    (delivers : (r.state n).Delivers id d) (moves : d.reading.goal.moves = true)
    (ended : d.outcome = .endOfStream) (le : n ≤ N) :
    r.received d.reading.reader n = r.content d.handle.cache N := by
  have cached := r.cached_of_handle delivers.handle
  obtain ⟨finished, length⟩ := (r.copied delivers).ended ended
  have going := r.going_of_handle delivers.handle
  have bytes := r.bytes_eq cached finished going (Nat.le_refl n) le
  obtain ⟨received, -⟩ := (r.received_eq skips).1 _ delivers.handle N le
  have position : d.request.position = d.handle.cursor.position :=
    Reading.position_of_moves moves _
  rw [bytes, position] at length
  rw [received, List.take_of_length_le length]

/-- A cache is true to its source, and so are the reads of the cache. -/
structure Fidelity (r : Run (Session.start config workers)) (c : CallId) : Prop where
  held : ∀ n N, n ≤ N → (r.state n).caches.contains c = true →
    octets ((r.state n).store (.cache c)).bytes <+: r.content c N
  /-- All of the content is there when the load has finished and was not asked to stop. -/
  whole : ∀ m n N, m ≤ n → n ≤ N → (r.state m).caches.contains c = true →
    ((r.state m).store (.cache c)).finished = true →
    ((r.state m).store (.cache c)).canceled = false →
    octets ((r.state n).store (.cache c)).bytes = r.content c N
  /-- A result has the content at the place that its call has asked for. -/
  delivered : ∀ n N rd h result, n ≤ N → rd.goal.single = true → r.Comes c n rd h result →
    result.given (rd.request h.cursor.position).offset =
        ((r.content c N).drop (rd.request h.cursor.position).position).take result.count ∧
      (result.given (rd.request h.cursor.position).offset).length = result.count
  /-- The results of a handle make up what it receives. -/
  logged : ∀ n rd h result, rd.goal.single = true → rd.goal.moves = true →
    r.Comes c n rd h result → r.received rd.reader (n + 1) =
      r.received rd.reader n ++ result.given (rd.request h.cursor.position).offset
  /-- A handle that skips nothing receives the content in order, -/
  received : ∀ n N x h, n ≤ N → (∀ i, i < n → ∀ id k, r.event i ≠ .begin id (.skip x k)) →
    (r.state n).readers.get? x = some h → h.cache = c →
    r.received x n = (r.content c N).take h.cursor.position ∧
      h.cursor.position ≤ (r.content c N).length
  /-- and all of it by the end of the stream. -/
  complete : ∀ n N id d, n ≤ N →
    (∀ i, i < n → ∀ id k, r.event i ≠ .begin id (.skip d.reading.reader k)) →
    (r.state n).delivery? (.move (.call id)) = some d → d.handle.cache = c →
    d.reading.goal.moves = true → d.outcome = .endOfStream →
    r.received d.reading.reader n = r.content c N

theorem fidelity (c : CallId) : r.Fidelity c where
  held n N le cached := r.bytes_within cached le
  whole m n N le le' cached finished going := r.bytes_eq cached finished going le le'
  delivered n N rd h result le single comes := comes.given r single le
  logged n rd h result single moves comes := by
    rw [received_succ, comes.received r single moves]
  received n N x h le skips hr hc := by
    subst hc
    exact (r.received_eq skips).1 h hr N le
  complete n N id d le skips hd hc moves ended := by
    obtain ⟨id', event, delivers⟩ := delivers_of_delivery? hd
    subst hc
    exact r.received_all skips delivers moves ended le

end SharedStream.Run
