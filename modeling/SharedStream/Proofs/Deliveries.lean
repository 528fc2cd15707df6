import SharedStream.Proofs.Frames
import SharedStream.Proofs.Stores

/-! # What handles are given

The bytes that a move of a reading hands out, and where the handle stands after it.
-/
namespace SharedStream

/-- A read of a store for a reading, and what it came to. -/
structure Delivery where
  reading : Reading
  handle : Reader
  outcome : ReadOutcome
  buf : ByteArray

namespace Delivery

def request (d : Delivery) : Store.Request := d.reading.request d.handle.cursor.position

/-- The bytes that the read has put into its buffer. -/
def given (d : Delivery) : List UInt8 :=
  octets (d.buf.extract d.request.offset (d.request.offset + d.outcome.count))

end Delivery

namespace Session
variable {s u : Session} {id c r : CallId} {d : Delivery} {e : Event}

/-- The read of a store that is done in an event, if there is one. -/
def delivery? (s : Session) : Event → Option Delivery
  | .begin .. | .move (.worker ..) | .move (.pool _) | .move .registry => none
  | .move (.call id) =>
    match s.task? id with
    | some (.read r) =>
      (s.readers.get? r.reader).bind fun h =>
        match (s.store (.cache r.cache)).read (r.request h.cursor.position) with
        | .done o buf => some ⟨r, h, o, buf⟩
        | .refused _ | .waits => none
    | _ => none

structure Delivers (s : Session) (id : CallId) (d : Delivery) : Prop where
  task : s.task? id = some (.read d.reading)
  handle : s.readers.get? d.reading.reader = some d.handle
  read : (s.store (.cache d.reading.cache)).read d.request = .done d.outcome d.buf

theorem Delivers.delivery? (h : s.Delivers id d) : s.delivery? (.move (.call id)) = some d := by
  obtain ⟨task, handle, read⟩ := h
  rw [Delivery.request] at read
  simp [Session.delivery?, task, handle, read]

theorem delivers_of_delivery? (h : s.delivery? e = some d) :
    ∃ id, e = .move (.call id) ∧ s.Delivers id d := by
  unfold Session.delivery? at h
  split at h
  any_goals cases h
  next id =>
  refine ⟨id, rfl, ?_⟩
  split at h
  · next r task =>
    obtain ⟨x, handle, h⟩ := Option.bind_eq_some_iff.1 h
    split at h
    · next o buf read =>
      cases h
      exact ⟨task, handle, read⟩
    all_goals cases h
  · cases h

theorem Delivers.cache_eq (h : s.Delivers id d) (hs : s.Sound) :
    d.handle.cache = d.reading.cache := by
  obtain ⟨-, -, cache⟩ := hs.fits h.task
  exact cache _ (reader_of_handle h.handle)

theorem Delivers.after_eq (h : s.Delivers id d) : s.after (.move (.call id)) =
    match d.reading.after d.outcome d.buf with
    | .inl r => (s.moved d.reading d.handle d.outcome).goOn id (.read r)
    | .inr result => (s.moved d.reading d.handle d.outcome).answer id
        (.read result (advanced d.reading d.handle d.outcome).cursor.position) := by
  obtain ⟨task, handle, read⟩ := h
  rw [Delivery.request] at read
  simp only [after, move_of_task task, moveTask, moveReading, handle, read]
  rfl

theorem readers_moved (rd : Reading) (h : Reader) (o : ReadOutcome) :
    (s.moved rd h o).readers = s.readers.set rd.reader (advanced rd h o) := by
  unfold moved
  dsimp only
  split <;> rfl

theorem Delivers.readers_after (h : s.Delivers id d) :
    (s.after (.move (.call id))).readers =
      s.readers.set d.reading.reader (advanced d.reading d.handle d.outcome) := by
  rw [h.after_eq]
  split <;> exact readers_moved ..

/-- What the read has copied if the store has no gaps. -/
theorem Delivers.copied (h : s.Delivers id d)
    (gapless : (s.store (.cache d.reading.cache)).Gapless) :
    (s.store (.cache d.reading.cache)).Copied d.request d.outcome d.buf :=
  Store.read_done gapless h.read

/-- A reading ends without a delivery only by being refused. -/
theorem refused_of_idle {rd : Reading} {result : ReadResult} {p : Nat}
    (ht : s.task? id = some (.read rd)) (idle : s.delivery? (.move (.call id)) = none)
    (ended : (s.after (.move (.call id))).task? id = none)
    (results : (s.after (.move (.call id))).results.get? id = some (.read result p)) :
    ∃ e, result = .refused e := by
  have move := s.readMove id rd
  rw [after, move_of_task ht, moveTask] at ended results
  generalize s.moveReading id rd = u at move ended results
  cases move with
  | missing => cases (Table.get?_set_self ..).symm.trans results
  | @refused h e hr read =>
    cases (Table.get?_set_self ..).symm.trans results
    exact ⟨e, rfl⟩
  | waits =>
    rw [task?_sleep, ht] at ended
    cases ended
  | @goesOn h o buf _ hr read =>
    have delivers : s.Delivers id ⟨rd, h, o, buf⟩ := ⟨ht, hr, read⟩
    rw [delivers.delivery?] at idle
    cases idle
  | @ends h o buf _ hr read =>
    have delivers : s.Delivers id ⟨rd, h, o, buf⟩ := ⟨ht, hr, read⟩
    rw [delivers.delivery?] at idle
    cases idle

/-! ## Handles without a delivery -/

/-- A handle has stayed as it was or gone, unless it is new. -/
def Kept (s u : Session) : Prop :=
  ∀ r h, u.readers.get? r = some h → s.readers.get? r = some h ∨
    s.readers.get? r = none ∧ h.cursor.position = 0

theorem Still.kept (h : s.Still u) : s.Kept u := by
  intro r x hx
  rw [h.readers] at hx
  exact .inl hx

theorem kept_attach (hv : s.keys.Valid) {x : Role} (role : s.keys.role id = some x)
    (same : u.readers = s.readers) : s.Kept (u.attach id c) := by
  intro r h hr
  have hr : (u.readers.set id { cache := c }).get? r = some h := hr
  rw [same, Table.get?_set] at hr
  split at hr
  · next hid =>
    cases hr
    refine .inr ⟨?_, rfl⟩
    have none := (hv.no_handle role).1
    rw [hid]
    simpa [keys] using none
  · exact .inl hr

theorem kept_erase (r : CallId) (h : u.readers = s.readers.erase r) : s.Kept u := by
  intro r' x hx
  rw [h, Table.get?_erase] at hx
  split at hx
  · cases hx
  · exact .inl hx

theorem kept_moveSeekReader {k : Key} {mode : LoadMode} (hv : s.keys.Valid)
    (ht : s.task? id = some (.seekReader k mode)) : s.Kept (s.moveSeekReader id k mode) := by
  unfold moveSeekReader
  split
  · exact (still_answer _).kept
  split
  · exact (Still.of_eq rfl rfl).kept
  · exact kept_attach hv (role_of_task ht) rfl
  all_goals exact still_sleep.kept

theorem kept_moveLeave (r : CallId) (p : Parting) : s.Kept (s.moveLeave id r p) := by
  unfold moveLeave
  split
  · exact (still_answer _).kept
  dsimp only
  split
  · exact kept_erase r (readers_depart ..)
  split
  · exact kept_erase r rfl
  · exact kept_erase r (readers_depart ..)

/-- A reading that is given nothing leaves all handles alone. -/
theorem readers_moveReading {rd : Reading} (ht : s.task? id = some (.read rd))
    (none : s.delivery? (.move (.call id)) = none) :
    (s.moveReading id rd).readers = s.readers := by
  have move := s.readMove id rd
  generalize s.moveReading id rd = u at move ⊢
  cases move with
  | missing | refused | waits => rfl
  | @goesOn h o buf _ hr read =>
    have delivers : s.Delivers id ⟨rd, h, o, buf⟩ := ⟨ht, hr, read⟩
    rw [delivers.delivery?] at none
    cases none
  | @ends h o buf _ hr read =>
    have delivers : s.Delivers id ⟨rd, h, o, buf⟩ := ⟨ht, hr, read⟩
    rw [delivers.delivery?] at none
    cases none

theorem kept_moveReading {rd : Reading} (ht : s.task? id = some (.read rd))
    (none : s.delivery? (.move (.call id)) = none) : s.Kept (s.moveReading id rd) :=
  fun _ _ hr => .inl (readers_moveReading ht none ▸ hr)

theorem kept_moveTask {t : Task} (hv : s.keys.Valid) (ht : s.task? id = some t)
    (none : s.delivery? (.move (.call id)) = none) : s.Kept (s.moveTask id t) := by
  cases t with
  | seekReader key mode => exact kept_moveSeekReader hv ht
  | makeSource key mode => exact (still_moveMakeSource mode).kept
  | fill key l => exact (still_moveFill l).kept
  | standIn key i => exact (still_moveStandIn i).kept
  | register key => exact kept_attach hv (role_of_task ht) rfl
  | seekWriter key => exact still_moveSeekWriter.kept
  | cancelCache key cache => exact fun r h hr => .inl hr
  | dequeueCache key cache => exact still_moveDequeueCache.kept
  | awaitCache key cache => exact still_moveAwaitCache.kept
  | lease key => exact still_moveLease.kept
  | read r => exact kept_moveReading ht none
  | leave reader parting => exact kept_moveLeave reader parting
  | announce h parting => exact (still_moveAnnounce h parting).kept
  | closeSink writer parting => exact (Still.of_eq rfl rfl).kept
  | giveBack writer flush parting => exact (still_moveGiveBack writer flush parting).kept
  | expire h r => exact (still_moveExpire h r).kept
  | readStore store r => exact (still_moveReadStore store r).kept
  | awaitStore store => exact (still_moveAwaitStore store).kept
  | makeLoad job => exact (still_moveMakeLoad job).kept
  | load l => exact (still_moveLoad l).kept
  | assist i => exact (still_moveAssist i).kept

theorem kept_move {a : Actor} (hv : s.keys.Valid) (idle : s.delivery? (.move a) = none) :
    s.Kept (s.move a) := by
  cases a with
  | worker n i => exact (still_moveWorker n i).kept
  | pool n => exact (still_dropQueue n).kept
  | registry =>
    intro r h hr
    exact .inl (readers_endRegistry (s := s) ▸ hr)
  | call id =>
    cases ht : s.task? id with
    | none =>
      have none : s.calls.get? id = none := by simpa [task?] using ht
      have same : s.move (.call id) = s := by simp only [move, none]
      rw [same]
      exact (Still.refl s).kept
    | some t =>
      rw [move_of_task ht]
      exact kept_moveTask hv ht idle

theorem get?_readers_skip {r' : CallId} {n : Nat} (ne : r ≠ r') :
    (s.begin id (.skip r' n)).readers.get? r = s.readers.get? r := by
  simp only [begin, enter, withReader]
  split
  · next h _ => exact Table.get?_set_of_ne s.readers _ ne
  · rfl

theorem kept_after {h : Reader} (hv : s.keys.Valid) (idle : s.delivery? e = none)
    (skips : ∀ id n, e ≠ .begin id (.skip r n)) (hr : (s.after e).readers.get? r = some h) :
    s.readers.get? r = some h ∨ s.readers.get? r = none ∧ h.cursor.position = 0 := by
  cases e with
  | move a => exact kept_move hv idle r h hr
  | begin id op =>
    by_cases skip : ∃ r' n, op = .skip r' n
    · obtain ⟨r', n, rfl⟩ := skip
      have ne : r ≠ r' := by
        rintro rfl
        exact skips id n rfl
      exact .inl (by rwa [after, get?_readers_skip ne] at hr)
    · exact (still_begin fun r' n h => skip ⟨r', n, h⟩).kept r h hr

/-- The bytes that a handle is given in an event and that it moves on by. -/
def given (s : Session) (r : CallId) (e : Event) : List UInt8 :=
  match s.delivery? e with
  | some d => if d.reading.reader = r ∧ d.reading.goal.moves = true then d.given else []
  | none => []

theorem Delivers.given (h : s.Delivers id d) (r : CallId) : s.given r (.move (.call id)) =
    if d.reading.reader = r ∧ d.reading.goal.moves = true then d.given else [] := by
  rw [Session.given, h.delivery?]

theorem given_of_idle (idle : s.delivery? e = none) : s.given r e = [] := by
  rw [Session.given, idle]

theorem given_of_absent (absent : s.readers.get? r = none) : s.given r e = [] := by
  cases hd : s.delivery? e with
  | none => exact given_of_idle hd
  | some d =>
    obtain ⟨id, rfl, delivers⟩ := delivers_of_delivery? hd
    rw [delivers.given, if_neg]
    rintro ⟨rfl, -⟩
    have handle := delivers.handle
    rw [absent] at handle
    cases handle

end Session

/-- A handle that moves reads at its place. -/
theorem Reading.position_of_moves {rd : Reading} (moves : rd.goal.moves = true) (pos : Nat) :
    (rd.request pos).position = pos := by
  unfold Reading.request
  cases hg : rd.goal with
  | absolute own blocking => simp [hg, Goal.moves] at moves
  | _ => rfl

/-! ## Results -/

/-- The goal is reached by one read of the store. -/
def Goal.single : Goal → Bool
  | .into .. | .absolute .. | .byte | .once => true
  | .fill | .toEnd | .toText => false

/-- How many bytes a result says it has. -/
def ReadResult.count : ReadResult → Nat
  | .outcome o _ => o.count
  | .once n _ => n
  | .byte b => b.toList.length
  | .refused _ | .filled _ | .rest _ | .text _ | .failed _ => 0

/-- The bytes of a result, which starts at `offset` in its buffer. -/
def ReadResult.given (offset : Nat) : ReadResult → List UInt8
  | .outcome o buf => octets (buf.extract offset (offset + o.count))
  | .once n buf => octets (buf.extract 0 n)
  | .byte b => b.toList
  | .refused _ | .filled _ | .rest _ | .text _ | .failed _ => []

/-- A goal that one read reaches comes to what the read has copied. -/
theorem Reading.result_given {rd : Reading} {pos : Nat} {y : Store} {o : ReadOutcome}
    {buf : ByteArray} {result : ReadResult} (single : rd.goal.single = true)
    (done : y.Copied (rd.request pos) o buf) (ends : rd.after o buf = .inr result) :
    result.given (rd.request pos).offset =
        octets (buf.extract (rd.request pos).offset ((rd.request pos).offset + o.count)) ∧
      result.count = o.count := by
  have copied := done.length_extract
  have room := done.room
  unfold Reading.after at ends
  unfold Reading.request at copied room ⊢
  cases hg : rd.goal with
  | into offset len blocking =>
    rw [hg] at ends
    cases ends
    exact ⟨rfl, rfl⟩
  | absolute own blocking =>
    rw [hg] at ends
    cases ends
    exact ⟨rfl, rfl⟩
  | once =>
    rw [hg] at ends
    cases ends
    exact ⟨by simp [ReadResult.given, Store.Request.whole], rfl⟩
  | byte =>
    rw [hg] at ends copied room
    cases ends
    have offset : (Store.Request.whole [0].toByteArray pos true).offset = 0 := rfl
    have size : (Store.Request.whole [0].toByteArray pos true).buf.size = 1 := rfl
    simp only [offset, size, Nat.zero_add] at copied room ⊢
    have first : octets (buf.extract 0 1) = buf.data[0]?.toList := by
      rw [octets_extract, List.drop_zero, octets, ← Array.getElem?_toList]
      cases buf.data.toList <;> rfl
    by_cases one : o.count = 1
    · have bytes : o = .bytes 1 := by
        cases o with
        | bytes n => exact congrArg _ one
        | _ => cases one
      rw [one] at copied ⊢
      rw [if_pos bytes, ReadResult.given, ReadResult.count, ← first]
      exact ⟨rfl, copied⟩
    · have none : o.count = 0 := by omega
      have other : o ≠ .bytes 1 := by
        rintro rfl
        exact one rfl
      rw [none] at copied ⊢
      rw [if_neg other, ReadResult.given, ReadResult.count]
      exact ⟨(List.eq_nil_of_length_eq_zero copied).symm, rfl⟩
  | _ => simp [hg, Goal.single] at single

end SharedStream
