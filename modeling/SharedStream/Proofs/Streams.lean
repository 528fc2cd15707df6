import SharedStream.Proofs.Cursors
import SharedStream.Proofs.Owners

/-! # Handles as plain streams

The loops that fill a buffer, read to the end and read a text take what the cache has, piece by
piece, while it loads. What they come to is what a stream gives that has all of its bytes from the
beginning.
-/
namespace SharedStream

/-! ## Plain streams -/

/-- The goals of a plain stream: a read of what there is, and the loops that go on until they have
what they want or a read brings nothing. -/
def Goal.standard : Goal → Bool
  | .once | .fill | .toEnd | .toText => true
  | .into .. | .absolute .. | .byte => false

theorem Goal.moves_of_standard {goal : Goal} (standard : goal.standard = true) :
    goal.moves = true := by
  cases goal with
  | into | absolute | byte => cases standard
  | once | fill | toEnd | toText => rfl

/-- The bytes encode a text. -/
def IsText (bytes : List UInt8) : Prop := ∃ s : String, octets s.toByteArray = bytes

/-- What a call comes to that reads a stream of these bytes from `p` on: its result and the place
after it. The load of the stream has stopped by then if it has `ended`. -/
inductive Plain (bytes : List UInt8) (p : Nat) (buf : ByteArray) (ended : Bool) :
    Goal → ReadResult → Nat → Prop
  /-- A single read may bring less than there is room for, but nothing only at the end. -/
  | once {k : Nat} {buf' : ByteArray} :
      (k = 0 ↔ buf.size = 0 ∨ ended = true ∧ p = bytes.length) → k ≤ buf.size →
      p + k ≤ bytes.length → octets buf' = (bytes.drop p).take k ++ (octets buf).drop k →
      Plain bytes p buf ended .once (.once k buf') (p + k)
  | filled {buf' : ByteArray} : p + buf.size ≤ bytes.length →
      octets buf' = (bytes.drop p).take buf.size →
      Plain bytes p buf ended .fill (.filled buf') (p + buf.size)
  | short : bytes.length < p + buf.size → ended = true →
      Plain bytes p buf ended .fill (.failed Reading.unexpectedEnd) bytes.length
  | rest {data : ByteArray} : octets data = octets buf ++ bytes.drop p → ended = true →
      Plain bytes p buf ended .toEnd (.rest data) bytes.length
  | text {s : String} : octets s.toByteArray = octets buf ++ bytes.drop p → ended = true →
      Plain bytes p buf ended .toText (.text s) bytes.length
  | notText : ¬ IsText (octets buf ++ bytes.drop p) → ended = true →
      Plain bytes p buf ended .toText (.failed Reading.notText) bytes.length

namespace Plain
variable {bytes : List UInt8} {p q q' : Nat} {buf : ByteArray} {ended ended' : Bool}
variable {goal : Goal} {result result' : ReadResult}

theorem le (h : Plain bytes p buf ended goal result q) : q ≤ bytes.length := by
  cases h with
  | once _ _ within => exact within
  | filled fits => exact fits
  | short | rest | text | notText => exact Nat.le_refl _

/-- What the loops come to depends on nothing but the bytes. -/
theorem unique (h : Plain bytes p buf ended goal result q)
    (h' : Plain bytes p buf ended' goal result' q') (loops : goal ≠ .once) :
    result' = result ∧ q' = q := by
  cases h with
  | once => exact absurd rfl loops
  | filled fits same =>
    cases h' with
    | filled _ same' => exact ⟨congrArg _ (octets_injective (same'.trans same.symm)), rfl⟩
    | short past => omega
  | short past =>
    cases h' with
    | filled fits => omega
    | short => exact ⟨rfl, rfl⟩
  | rest same =>
    cases h' with
    | rest same' => exact ⟨congrArg _ (octets_injective (same'.trans same.symm)), rfl⟩
  | @text s same =>
    cases h' with
    | text same' =>
      have equal := String.toByteArray_inj.1 (octets_injective (same'.trans same.symm))
      exact ⟨congrArg _ equal, rfl⟩
    | notText other => exact absurd ⟨s, same⟩ other
  | notText other =>
    cases h' with
    | @text s same => exact absurd ⟨s, same⟩ other
    | notText => exact ⟨rfl, rfl⟩

/-- Whether a single read brings nothing depends on nothing but the bytes, either. -/
theorem exists_once (h : Plain bytes p buf ended .once result q) :
    ∃ k data, result = .once k data ∧ (k = 0 ↔ buf.size = 0 ∨ p = bytes.length) := by
  cases h with
  | @once k data nothing _ within =>
    refine ⟨k, data, rfl, ?_⟩
    constructor
    · intro zero
      exact (nothing.1 zero).imp_right fun ends => ends.2
    · rintro (empty | ends)
      · exact nothing.2 (.inl empty)
      · omega

end Plain

/-! ## The pieces -/

/-- A read has brought the next `k` bytes of a stream, and none only at its end. -/
structure Portion (bytes : List UInt8) (q : Store.Request) (ended : Bool) (k : Nat)
    (buf : ByteArray) : Prop where
  le : k ≤ q.len
  within : q.position + k ≤ bytes.length
  octets_eq : octets buf = (octets q.buf).take q.offset ++ (bytes.drop q.position).take k ++
    (octets q.buf).drop (q.offset + k)
  nothing_iff : k = 0 ↔ q.len = 0 ∨ ended = true ∧ q.position = bytes.length

/-- The store holds a beginning of the stream, and all of it when its load has stopped. -/
structure Store.Begins (y : Store) (bytes : List UInt8) : Prop where
  gapless : y.Gapless
  within : octets y.bytes <+: bytes
  whole : y.finished = true → octets y.bytes = bytes

theorem Store.Begins.loaded {y : Store} {bytes : List UInt8} (h : y.Begins bytes) :
    y.loadedLen ≤ bytes.length ∧ (y.finished = true → y.loadedLen = bytes.length) := by
  have length := h.gapless.carries.1
  constructor
  · have := h.within.length_le
    omega
  · intro finished
    rw [← length, h.whole finished]

theorem Store.Begins.portion {y : Store} {bytes : List UInt8} {q : Store.Request}
    {o : ReadOutcome} {buf : ByteArray} (h : y.Begins bytes) (blocking : q.blocking = true)
    (placed : q.position ≤ y.loadedLen) (done : y.read q = .done o buf) :
    Portion bytes q y.finished o.count buf := by
  have copied := Store.read_done h.gapless done
  have fits := copied.loaded
  have length := h.gapless.carries.1
  have loaded := h.loaded
  have room := Store.room_of_done done
  have slice := Run.slice_within h.within fits
  have meets := h.gapless.meets q
  suffices counts : o.count ≤ q.len ∧
      (o.count = 0 ↔ q.len = 0 ∨ y.finished = true ∧ q.position = bytes.length) by
    refine ⟨counts.1, by omega, ?_, counts.2⟩
    rw [copied.octets_eq, slice]
  by_cases empty : q.len = 0
  · have made := meets.empty room empty
    rw [done] at made
    cases made
    exact ⟨Nat.zero_le _, fun _ => .inl empty, fun _ => rfl⟩
  · rcases Store.read_cases h.gapless ⟨blocking, empty, room⟩ with
      waits | ⟨more, buf', made⟩ | ⟨past, finished, made⟩
    · cases waits.symm.trans done
    · cases made.symm.trans done
      refine ⟨Nat.min_le_left .., ?_⟩
      dsimp only [ReadOutcome.count]
      omega
    · cases made.symm.trans done
      have whole := loaded.2 finished
      refine ⟨Nat.zero_le _, fun _ => .inr ⟨finished, by omega⟩, fun _ => rfl⟩

/-! ## The loops -/

namespace Reading
variable {rd rd' : Reading} {bytes : List UInt8} {p q : Nat} {buf buf' : ByteArray}
variable {o : ReadOutcome} {ended : Bool} {result : ReadResult}

/-- What a reading has so far that has come from `p` to `q`. -/
inductive Gathers (rd : Reading) (bytes : List UInt8) (p : Nat) (buf : ByteArray) (q : Nat) : Prop
  | once : rd.goal = .once → rd.buf = buf → q = p → Gathers rd bytes p buf q
  | fill : rd.goal = .fill → rd.buf.size = buf.size → rd.filled ≤ buf.size → q = p + rd.filled →
      (octets rd.buf).take rd.filled = (bytes.drop p).take rd.filled → Gathers rd bytes p buf q
  | rest {k : Nat} : rd.goal = .toEnd ∨ rd.goal = .toText → q = p + k →
      octets rd.buf = octets buf ++ (bytes.drop p).take k → Gathers rd bytes p buf q

theorem gathers_of_begin {x c : CallId} {goal : Goal} (standard : goal.standard = true) :
    ({ reader := x, cache := c, goal, buf } : Reading).Gathers bytes p buf p := by
  cases goal with
  | once => exact .once rfl rfl rfl
  | fill => exact .fill rfl rfl (Nat.zero_le _) rfl rfl
  | toEnd =>
    refine .rest (.inl rfl) (k := 0) rfl ?_
    rw [List.take_zero, List.append_nil]
  | toText =>
    refine .rest (.inr rfl) (k := 0) rfl ?_
    rw [List.take_zero, List.append_nil]
  | into | absolute | byte => cases standard

theorem Gathers.standard (h : rd.Gathers bytes p buf q) : rd.goal.standard = true := by
  cases h with
  | once goal | fill goal =>
    rw [goal]
    rfl
  | rest goal =>
    rcases goal with goal | goal
    · rw [goal]
      rfl
    · rw [goal]
      rfl

theorem request_of_standard (standard : rd.goal.standard = true) (position : Nat) :
    (rd.request position).position = position ∧ (rd.request position).blocking = true := by
  unfold request
  split
  · next goal => cases (congrArg Goal.standard goal).symm.trans standard
  · next goal => cases (congrArg Goal.standard goal).symm.trans standard
  all_goals exact ⟨rfl, rfl⟩

theorem request_of_fill (goal : rd.goal = .fill) (position : Nat) : rd.request position =
    ⟨rd.buf, rd.filled, rd.buf.size - rd.filled, position, true⟩ := by
  rw [request, goal]

theorem request_of_rest (goal : rd.goal = .toEnd ∨ rd.goal = .toText) (position : Nat) :
    rd.request position = .whole probe position true := by
  rcases goal with goal | goal
  · rw [request, goal]
  · rw [request, goal]

theorem request_of_once (goal : rd.goal = .once) (position : Nat) :
    rd.request position = .whole rd.buf position true := by
  rw [request, goal]

/-- There is always room for what the next piece may bring. -/
theorem Gathers.room (h : rd.Gathers bytes p buf q) :
    (rd.request q).offset + (rd.request q).len ≤ (rd.request q).buf.size := by
  cases h with
  | once goal =>
    rw [request_of_once goal]
    exact Nat.le_of_eq (Nat.zero_add _)
  | fill goal size filled =>
    rw [request_of_fill goal]
    dsimp only
    omega
  | rest goal =>
    rw [request_of_rest goal]
    exact Nat.le_of_eq (Nat.zero_add _)

/-- A piece goes into the buffer behind those that are there. -/
theorem filled_of_portion {k : Nat} (goal : rd.goal = .fill) (size : rd.buf.size = buf.size)
    (filled : rd.filled ≤ buf.size)
    (had : (octets rd.buf).take rd.filled = (bytes.drop p).take rd.filled)
    (portion : Portion bytes (rd.request (p + rd.filled)) ended k buf') :
    rd.filled + k ≤ buf.size ∧ p + (rd.filled + k) ≤ bytes.length ∧ buf'.size = buf.size ∧
      octets buf' = (bytes.drop p).take (rd.filled + k) ++ (octets rd.buf).drop (rd.filled + k) ∧
      (k = 0 ↔ rd.filled = buf.size ∨ ended = true ∧ p + rd.filled = bytes.length) := by
  obtain ⟨le, within, octets_eq, nothing⟩ := portion
  rw [request_of_fill goal] at le within octets_eq nothing
  dsimp only at le within octets_eq nothing
  have octets_eq : octets buf' =
      (bytes.drop p).take (rd.filled + k) ++ (octets rd.buf).drop (rd.filled + k) := by
    rw [octets_eq, had, List.take_add, List.drop_drop]
  have length := congrArg List.length octets_eq
  rw [List.length_append, List.length_take, List.length_drop, List.length_drop, length_octets,
    length_octets] at length
  have full : rd.buf.size - rd.filled = 0 ↔ rd.filled = buf.size := by omega
  rw [full] at nothing
  exact ⟨by omega, by omega, by omega, octets_eq, nothing⟩

theorem size_probe : probe.size = 4096 := Array.size_replicate

/-- What is added to the buffer is the piece, without what else is in the probe. -/
theorem gathered_of_portion {k : Nat} (goal : rd.goal = .toEnd ∨ rd.goal = .toText)
    (portion : Portion bytes (rd.request q) ended k buf') :
    octets (rd.gather k buf').buf = octets rd.buf ++ (bytes.drop q).take k ∧
      (k = 0 ↔ ended = true ∧ q = bytes.length) := by
  obtain ⟨-, within, octets_eq, nothing⟩ := portion
  rw [request_of_rest goal] at within octets_eq nothing
  dsimp only [Store.Request.whole] at within octets_eq nothing
  have length : ((bytes.drop q).take k).length = k := by
    rw [List.length_take, List.length_drop]
    omega
  have some : probe.size ≠ 0 := by
    rw [size_probe]
    omega
  refine ⟨?_, nothing.trans (or_iff_right some)⟩
  rw [gather, octets_append, octets_extract, octets_eq, List.take_zero, List.nil_append,
    List.take_left' length, List.drop_zero]

theorem after_of_rest (goal : rd.goal = .toEnd ∨ rd.goal = .toText)
    (next : rd.after o buf' = .inl rd') : rd' = rd.gather o.count buf' ∧ o.count ≠ 0 := by
  unfold after at next
  rcases goal with goal | goal
  all_goals
    simp only [goal] at next
    split at next
    · cases next
    · next some => exact ⟨(Sum.inl.inj next).symm, some⟩

theorem Gathers.goesOn (h : rd.Gathers bytes p buf q)
    (portion : Portion bytes (rd.request q) ended o.count buf')
    (next : rd.after o buf' = .inl rd') :
    rd'.Gathers bytes p buf (q + o.count) ∧ o.count ≠ 0 := by
  cases h with
  | once goal =>
    simp only [after, goal] at next
    cases next
  | fill goal size filled place had =>
    subst place
    obtain ⟨filled, within, size, octets_eq, -⟩ := filled_of_portion goal size filled had portion
    have length : ((bytes.drop p).take (rd.filled + o.count)).length = rd.filled + o.count := by
      rw [List.length_take, List.length_drop]
      omega
    simp only [after, goal] at next
    split at next
    · cases next
    split at next
    · cases next
    · next some =>
      cases next
      refine ⟨.fill rfl size filled (Nat.add_assoc ..) ?_, some⟩
      rw [octets_eq, List.take_left' length]
  | @rest k goal place had =>
    subst place
    obtain ⟨octets_eq, -⟩ := gathered_of_portion goal portion
    obtain ⟨rfl, some⟩ := after_of_rest goal next
    refine ⟨.rest goal (Nat.add_assoc ..) ?_, some⟩
    rw [octets_eq, had, List.append_assoc, List.take_add, List.drop_drop]

theorem plain_of_textOf {data : ByteArray} (same : octets data = octets buf ++ bytes.drop p)
    (finished : ended = true) :
    Plain bytes p buf ended .toText (textOf data) bytes.length := by
  unfold textOf
  split
  · next s text =>
    refine .text ?_ finished
    rw [← same]
    unfold String.fromUTF8? at text
    split at text
    · cases text
      rfl
    · cases text
  · next garbled =>
    refine .notText ?_ finished
    rintro ⟨s, text⟩
    have valid : data.IsValidUTF8 := octets_injective (text.trans same.symm) ▸ s.isValidUTF8
    rw [String.fromUTF8?, dif_pos valid] at garbled
    cases garbled

theorem plain_of_once (goal : rd.goal = .once) (same : rd.buf = buf)
    (portion : Portion bytes (rd.request p) ended o.count buf')
    (last : rd.after o buf' = .inr result) :
    Plain bytes p buf ended rd.goal result (p + o.count) := by
  subst same
  obtain ⟨le, within, octets_eq, nothing⟩ := portion
  rw [request_of_once goal] at le within octets_eq nothing
  dsimp only [Store.Request.whole] at le within octets_eq nothing
  rw [List.take_zero, List.nil_append, Nat.zero_add] at octets_eq
  simp only [after, goal] at last ⊢
  cases last
  exact .once nothing le within octets_eq

/-- A buffer is full, or a piece that brings nothing has come before. -/
theorem plain_of_fill (goal : rd.goal = .fill) (size : rd.buf.size = buf.size)
    (filled : rd.filled ≤ buf.size)
    (had : (octets rd.buf).take rd.filled = (bytes.drop p).take rd.filled)
    (portion : Portion bytes (rd.request (p + rd.filled)) ended o.count buf')
    (last : rd.after o buf' = .inr result) :
    Plain bytes p buf ended rd.goal result (p + rd.filled + o.count) := by
  obtain ⟨upTo, within, size', octets_eq, nothing⟩ := filled_of_portion goal size filled had portion
  simp only [after, goal] at last ⊢
  split at last
  · next full =>
    cases last
    have all : rd.filled + o.count = buf.size := by omega
    have rest : (octets rd.buf).drop buf.size = [] := by
      apply List.drop_eq_nil_of_le
      rw [length_octets, size]
    rw [all, rest, List.append_nil] at octets_eq
    rw [Nat.add_assoc, all]
    exact .filled (by omega) octets_eq
  split at last
  · next more none =>
    cases last
    rcases nothing.1 none with full | ⟨finished, place⟩
    · omega
    · rw [none, Nat.add_zero, place]
      exact .short (by omega) finished
  · cases last

/-- All that is left is there when a piece brings nothing. -/
theorem plain_of_rest {k : Nat} (goal : rd.goal = .toEnd ∨ rd.goal = .toText)
    (had : octets rd.buf = octets buf ++ (bytes.drop p).take k)
    (portion : Portion bytes (rd.request (p + k)) ended o.count buf')
    (last : rd.after o buf' = .inr result) :
    Plain bytes p buf ended rd.goal result (p + k + o.count) := by
  obtain ⟨-, nothing⟩ := gathered_of_portion goal portion
  have whole : p + k = bytes.length → octets rd.buf = octets buf ++ bytes.drop p := by
    intro place
    rw [had, List.take_of_length_le]
    rw [List.length_drop]
    omega
  rcases goal with goal | goal
  · simp only [after, goal] at last ⊢
    split at last
    · next none =>
      obtain ⟨finished, place⟩ := nothing.1 none
      cases last
      rw [none, Nat.add_zero, place]
      exact .rest (whole place) finished
    · cases last
  · simp only [after, goal] at last ⊢
    split at last
    · next none =>
      obtain ⟨finished, place⟩ := nothing.1 none
      cases last
      rw [none, Nat.add_zero, place]
      exact plain_of_textOf (whole place) finished
    · cases last

/-- What a reading ends with is what a plain stream gives. -/
theorem Gathers.ends (h : rd.Gathers bytes p buf q)
    (portion : Portion bytes (rd.request q) ended o.count buf')
    (last : rd.after o buf' = .inr result) :
    Plain bytes p buf ended rd.goal result (q + o.count) := by
  cases h with
  | once goal same place =>
    subst place
    exact plain_of_once goal same portion last
  | fill goal size filled place had =>
    subst place
    exact plain_of_fill goal size filled had portion last
  | rest goal place had =>
    subst place
    exact plain_of_rest goal had portion last

end Reading

theorem Reader.ahead_ahead (h : Reader) (j k : Nat) : (h.ahead j).ahead k = h.ahead (j + k) := by
  simp only [Reader.ahead, Cursor.advance, Nat.add_assoc]

namespace Session
variable {s u : Session} {id x : CallId} {h : Reader} {goal : Goal} {bytes : List UInt8}
variable {buf : ByteArray} {k : Nat} {e : Event}

/-- A standard reading is in progress, and its handle stands `k` bytes past `h`, where it began. -/
structure Amid (s : Session) (id x : CallId) (h : Reader) (goal : Goal) (buf : ByteArray)
    (bytes : List UInt8) (k : Nat) : Prop where
  reading : ∃ rd, s.task? id = some (.read rd) ∧ rd.reader = x ∧ rd.goal = goal ∧
    rd.Gathers bytes h.cursor.position buf (h.cursor.position + k)
  handle : s.readers.get? x = some (h.ahead k)

theorem Amid.of_other (amid : s.Amid id x h goal buf bytes k) (passes : s.Passes e.caller u)
    (other : e.caller ≠ some id) : u.Amid id x h goal buf bytes k := by
  obtain ⟨⟨rd, ht, rfl, same, gathers⟩, hr⟩ := amid
  exact ⟨⟨rd, (passes.task other).trans ht, rfl, same, gathers⟩, (passes.reader other ht).trans hr⟩

theorem Amid.cache_eq {rd : Reading} (amid : s.Amid id x h goal buf bytes k) (hs : s.Sound)
    (ht : s.task? id = some (.read rd)) (reader : rd.reader = x) : h.cache = rd.cache := by
  subst reader
  obtain ⟨-, -, same⟩ := hs.fits ht
  have same := same _ (reader_of_handle amid.handle)
  exact same

/-- When the load of the cache has ended, a reading has nothing to wait for. -/
theorem Amid.canMove (amid : s.Amid id x h goal buf bytes k) (hs : s.Sound) (ha : s.Attentive)
    (finished : (s.store (.cache h.cache)).finished = true) : s.canMove (.call id) = true := by
  obtain ⟨rd, ht, reader, -⟩ := amid.reading
  have cache := amid.cache_eq hs ht reader
  have asks : s.Asks id (.cache rd.cache) (rd.request (h.ahead k).cursor.position) :=
    .inr ⟨rd, h.ahead k, ht, reader ▸ amid.handle, rfl, rfl⟩
  refine asks.canMove ha fun waits => ?_
  have lacks := (Store.read_eq_waits_iff.1 waits).2
  rw [← cache, Store.Lacks, finished] at lacks
  cases lacks.2

/-- The session after the last move of a call that has read through a handle, which stands `k` bytes
past `h` then. -/
structure Ended (s : Session) (id x : CallId) (h : Reader) (result : ReadResult) (k : Nat) :
    Prop where
  idle : s.task? id = none
  told : s.results.get? id = some (.read result (h.cursor.position + k))
  handle : s.readers.get? x = some (h.ahead k)

/-- What a move of a standard reading leads to: it waits, it goes on with a piece that is not empty,
or it ends like a plain stream. -/
inductive Turn (s : Session) (id x : CallId) (h : Reader) (goal : Goal) (buf : ByteArray)
    (bytes : List UInt8) (k : Nat) (u : Session) : Prop
  | waits : (s.store (.cache h.cache)).finished = false → u.Amid id x h goal buf bytes k →
      Turn s id x h goal buf bytes k u
  | goesOn {j : Nat} : j ≠ 0 → u.Amid id x h goal buf bytes (k + j) →
      Turn s id x h goal buf bytes k u
  | ends {j : Nat} {result : ReadResult} : u.Ended id x h result (k + j) →
      Plain bytes h.cursor.position buf (s.store (.cache h.cache)).finished goal result
        (h.cursor.position + (k + j)) → Turn s id x h goal buf bytes k u

/-- A read of the cache that is done brings the next piece. -/
theorem Turn.of_done {rd : Reading} {o : ReadOutcome} {buf' : ByteArray}
    (delivers : s.Delivers id ⟨rd, h.ahead k, o, buf'⟩)
    (gathers : rd.Gathers bytes h.cursor.position buf (h.cursor.position + k))
    (portion : Portion bytes (rd.request (h.cursor.position + k))
      (s.store (.cache h.cache)).finished o.count buf') :
    s.Turn id rd.reader h rd.goal buf bytes k (s.after (.move (.call id))) := by
  have moves : rd.goal.moves = true := Goal.moves_of_standard gathers.standard
  have handle : (s.after (.move (.call id))).readers.get? rd.reader =
      some (h.ahead (k + o.count)) := by
    rw [delivers.readers_after, Table.get?_set_self, Run.advanced_of_moves moves,
      Reader.ahead_ahead]
  have after := delivers.after_eq
  rw [Run.advanced_of_moves moves, Reader.ahead_ahead] at after
  split at after
  · next rd' next =>
    obtain ⟨gathers', some⟩ := gathers.goesOn portion next
    obtain ⟨reader, -, goal⟩ := Reading.after_inl next
    rw [Nat.add_assoc] at gathers'
    refine .goesOn some ⟨⟨rd', ?_, reader, goal, gathers'⟩, handle⟩
    rw [after, task?_goOn, if_pos rfl]
    rw [task?_moved, delivers.task]
    rfl
  · next result last =>
    have plain := gathers.ends portion last
    rw [Nat.add_assoc] at plain
    refine .ends ⟨?_, ?_, handle⟩ plain
    · rw [after, task?_answer, if_pos rfl]
    · rw [after]
      exact Table.get?_set_self ..

theorem Amid.turn (amid : s.Amid id x h goal buf bytes k) (hs : s.Sound)
    (begins : (s.store (.cache h.cache)).Begins bytes)
    (placed : h.cursor.position + k ≤ (s.store (.cache h.cache)).loadedLen) :
    s.Turn id x h goal buf bytes k (s.after (.move (.call id))) := by
  obtain ⟨rd, ht, rfl, rfl, gathers⟩ := amid.reading
  have hr := amid.handle
  have cache := amid.cache_eq hs ht rfl
  obtain ⟨position, blocking⟩ :=
    Reading.request_of_standard gathers.standard (h.cursor.position + k)
  cases read : (s.store (.cache rd.cache)).read (rd.request (h.cursor.position + k)) with
  | refused e =>
    have room := gathers.room
    rw [← cache] at read
    have out := (begins.gapless.meets _).bounds e read
    omega
  | waits =>
    have lacks := (Store.read_eq_waits_iff.1 read).2
    have asks : s.Asks id (.cache rd.cache) (rd.request (h.cursor.position + k)) :=
      .inr ⟨rd, _, ht, hr, rfl, rfl⟩
    refine .waits (cache ▸ lacks.2) ?_
    rw [asks.after_eq read]
    exact ⟨⟨rd, (task?_sleep id).trans ht, rfl, rfl, gathers⟩, hr⟩
  | done o buf' =>
    have delivers : s.Delivers id ⟨rd, h.ahead k, o, buf'⟩ := ⟨ht, hr, read⟩
    rw [← cache] at read
    have portion := begins.portion blocking (Nat.le_trans (Nat.le_of_eq position) placed) read
    exact .of_done delivers gathers portion

end Session

namespace Run
open Session

/-- How often a call moves in the first `k` events from moment `n` on. -/
def movesOf {start : Session} (r : Run start) (id : CallId) (n : Nat) : Nat → Nat
  | 0 => 0
  | k + 1 => r.movesOf id n k + if (r.event (n + k)).caller = some id then 1 else 0

variable {config : CacheConfig} {workers : Nat} (r : Run (start config workers))
variable {m n N i k : Nat} {id x c : CallId} {h h' : Reader} {goal : Goal} {buf : ByteArray}
variable {bytes : List UInt8} {result : ReadResult}

/-- The load of a cache has ended by moment `N` without having been asked to stop, and these are the
bytes that its source has given. -/
structure Brings (c : CallId) (N : Nat) (bytes : List UInt8) : Prop where
  cached : (r.state N).caches.contains c = true
  finished : ((r.state N).store (.cache c)).finished = true
  going : ((r.state N).store (.cache c)).canceled = false
  content : r.content c N = bytes

/-- In event `m` a call is asked for a standard read through a handle, which was `h`, of a cache
whose load brings these bytes. -/
structure Streams (m N : Nat) (id x : CallId) (h : Reader) (goal : Goal) (buf : ByteArray)
    (bytes : List UInt8) : Prop where
  begun : r.event m = .begin id (.read x goal buf)
  handle : (r.state m).reader? x = some h
  standard : goal.standard = true
  brings : r.Brings h.cache N bytes

/-- By moment `n` the call has ended in event `i`, with its handle `k` bytes further on, and it has
come to what a plain stream gives. -/
structure Answered (m n : Nat) (id x : CallId) (h : Reader) (goal : Goal) (buf : ByteArray)
    (bytes : List UInt8) (i k : Nat) (result : ReadResult) : Prop where
  from_ : m < i
  upTo : i < n
  event : r.event i = .move (.call id)
  plain : Plain bytes h.cursor.position buf ((r.state i).store (.cache h.cache)).finished goal
    result (h.cursor.position + k)
  handle : (r.state (i + 1)).readers.get? x = some (h.ahead k)
  told : (r.state n).results.get? id = some (.read result (h.cursor.position + k))

/-- What the source has given does not grow once the load has ended. -/
theorem Brings.content_eq (brings : r.Brings c N bytes) (le : N ≤ n) : r.content c n = bytes := by
  obtain ⟨cached, finished, going, rfl⟩ := brings
  rw [← r.bytes_eq cached finished going (Nat.le_refl N) le,
    r.bytes_eq cached finished going (Nat.le_refl N) (Nat.le_refl N)]

/-- While a handle is there its cache holds a beginning of the bytes, and all of them once its load
has ended. -/
theorem Brings.begins (brings : r.Brings c N bytes) (hr : (r.state n).readers.get? x = some h)
    (cache : h.cache = c) : ((r.state n).store (.cache c)).Begins bytes := by
  subst cache
  have cached := r.cached_of_handle hr
  have going := r.going_of_handle hr
  have content := brings.content_eq r (Nat.le_max_left N n)
  have le := Nat.le_max_right N n
  refine ⟨r.gapless _ n, ?_, fun finished => ?_⟩
  · rw [← content]
    exact r.bytes_within cached le
  · rw [← content]
    exact r.bytes_eq cached finished going (Nat.le_refl n) le

variable {r}

theorem Streams.amid_zero (streams : r.Streams m N id x h goal buf bytes) :
    (r.state (m + 1)).Amid id x h goal buf bytes 0 := by
  obtain ⟨begun, handle, standard, -⟩ := streams
  have there := (reader?_eq_some handle).2
  rw [r.state_succ, begun, after_read handle]
  refine ⟨⟨{ reader := x, cache := h.cache, goal, buf }, ?_, rfl, rfl, ?_⟩, there⟩
  · rw [task?_call, if_pos rfl]
  · exact Reading.gathers_of_begin standard

/-- What the next event does to a call in progress. -/
theorem Streams.turn (streams : r.Streams m N id x h goal buf bytes)
    (amid : (r.state n).Amid id x h goal buf bytes k) :
    (r.event n).caller ≠ some id ∧ (r.state (n + 1)).Amid id x h goal buf bytes k ∨
      r.event n = .move (.call id) ∧
        (r.state n).Turn id x h goal buf bytes k (r.state (n + 1)) := by
  by_cases own : (r.event n).caller = some id
  · obtain ⟨rd, ht, -⟩ := amid.reading
    have event := (r.attentive n).caller_eq (r.admitted n) own ht
    right
    refine ⟨event, ?_⟩
    rw [r.state_succ, event]
    have begins := streams.brings.begins r amid.handle rfl
    exact amid.turn (r.sound n) begins (r.position_le amid.handle)
  · exact .inl ⟨own, amid.of_other (r.passes n) own⟩

/-- A call that is over stays as it has ended. -/
theorem Answered.succ (answered : r.Answered m n id x h goal buf bytes i k result)
    (other : (r.event n).caller ≠ some id) :
    r.Answered m (n + 1) id x h goal buf bytes i k result := by
  obtain ⟨from_, upTo, event, plain, handle, told⟩ := answered
  refine ⟨from_, Nat.lt_succ_of_lt upTo, event, plain, handle, ?_⟩
  rw [r.state_succ, results_of_ne (r.sound n) (r.admitted n) other, told]

/-- The call is in progress, or has come to what a plain stream gives. -/
theorem Streams.amid_or_answered (streams : r.Streams m N id x h goal buf bytes) (lt : m < n) :
    (∃ k, (r.state n).Amid id x h goal buf bytes k) ∨ (r.state n).task? id = none ∧
      ∃ i k result, r.Answered m n id x h goal buf bytes i k result := by
  induction lt with
  | refl => exact .inl ⟨0, streams.amid_zero⟩
  | @step n lt ih =>
    rcases ih with ⟨k, amid⟩ | ⟨idle, i, k, result, answered⟩
    · rcases streams.turn amid with ⟨-, still⟩ | ⟨event, turn⟩
      · exact .inl ⟨k, still⟩
      · cases turn with
        | waits _ still => exact .inl ⟨k, still⟩
        | @goesOn j _ further => exact .inl ⟨k + j, further⟩
        | @ends j result ended plain =>
          obtain ⟨idle, told, handle⟩ := ended
          exact .inr ⟨idle, n, k + j, result, lt, Nat.lt_succ_self n, event, plain, handle, told⟩
    · have other := caller_ne_of_ended (r.admitted n) (r.older_of_begin streams.begun lt) idle
      exact .inr ⟨((r.passes n).task other).trans idle, i, k, result, answered.succ other⟩

theorem Streams.answered (streams : r.Streams m N id x h goal buf bytes) (lt : m < n)
    (idle : (r.state n).calls.contains id = false) :
    ∃ i k result, r.Answered m n id x h goal buf bytes i k result := by
  rcases streams.amid_or_answered lt with ⟨k, amid⟩ | ⟨-, answered⟩
  · obtain ⟨rd, ht, -⟩ := amid.reading
    rw [task?_eq_none_iff.2 idle] at ht
    cases ht
  · exact answered

theorem Streams.finished (streams : r.Streams m N id x h goal buf bytes) (le : N ≤ n) :
    ((r.state n).store (.cache h.cache)).finished = true :=
  ((r.store_grows (.cache h.cache) le).finished streams.brings.finished).1

theorem Streams.canMove (streams : r.Streams m N id x h goal buf bytes) (lt : m < n) (le : N ≤ n)
    (pending : (r.state n).calls.contains id = true) : (r.state n).canMove (.call id) = true := by
  rcases streams.amid_or_answered lt with ⟨k, amid⟩ | ⟨idle, -⟩
  · exact amid.canMove (r.sound n) (r.attentive n) (streams.finished le)
  · rw [task?_eq_none_iff, pending] at idle
    cases idle

/-- Once the load has ended, each move but the last brings a byte. -/
theorem Streams.movesOf_le (streams : r.Streams m N id x h goal buf bytes) (lt : m < n)
    (le : N ≤ n) (k : Nat) : r.movesOf id n k ≤ bytes.length - h.cursor.position + 1 := by
  suffices counts : (∃ j, (r.state (n + k)).Amid id x h goal buf bytes j ∧ r.movesOf id n k ≤ j) ∨
      (r.state (n + k)).task? id = none ∧
        r.movesOf id n k ≤ bytes.length - h.cursor.position + 1 by
    rcases counts with ⟨j, amid, moves⟩ | ⟨-, moves⟩
    · have placed : h.cursor.position + j ≤ _ := r.position_le amid.handle
      have loaded := (streams.brings.begins r amid.handle rfl).loaded.1
      have within := Nat.le_trans placed loaded
      omega
    · exact moves
  induction k with
  | zero =>
    rcases streams.amid_or_answered lt with ⟨j, amid⟩ | ⟨idle, -⟩
    · exact .inl ⟨j, amid, Nat.zero_le j⟩
    · exact .inr ⟨idle, Nat.zero_le _⟩
  | succ k ih =>
    rw [movesOf]
    rcases ih with ⟨j, amid, moves⟩ | ⟨idle, moves⟩
    · rcases streams.turn amid with ⟨other, still⟩ | ⟨event, turn⟩
      · rw [if_neg other]
        exact .inl ⟨j, still, moves⟩
      · have own : (r.event (n + k)).caller = some id := by
          rw [event]
          rfl
        rw [if_pos own]
        cases turn with
        | waits unfinished =>
          rw [streams.finished (Nat.le_add_right_of_le le)] at unfinished
          cases unfinished
        | @goesOn i some further => exact .inl ⟨j + i, further, by omega⟩
        | ends ended plain =>
          have within := plain.le
          exact .inr ⟨ended.idle, by omega⟩
    · have older := r.older_of_begin streams.begun (Nat.lt_add_right k lt)
      have other := caller_ne_of_ended (r.admitted (n + k)) older idle
      rw [if_neg other]
      exact .inr ⟨((r.passes (n + k)).task other).trans idle, moves⟩

/-- What the calls that read through handles come to is what plain streams of the bytes give. -/
structure ReadsPlainly (r : Run (start config workers)) : Prop where
  plain : ∀ {m n N id x h goal buf bytes}, r.Streams m N id x h goal buf bytes → m < n →
    (r.state n).calls.contains id = false →
      ∃ i k result, r.Answered m n id x h goal buf bytes i k result
  /-- Once the load has ended, a call in progress can move at any time, -/
  canMove : ∀ {m n N id x h goal buf bytes}, r.Streams m N id x h goal buf bytes → m < n → N ≤ n →
    (r.state n).calls.contains id = true → (r.state n).canMove (.call id) = true
  /-- and has no more moves left than bytes, and one. -/
  moves : ∀ {m n N id x h goal buf bytes}, r.Streams m N id x h goal buf bytes → m < n → N ≤ n →
    ∀ k, r.movesOf id n k ≤ bytes.length - h.cursor.position + 1
  /-- In a settled session it is over. -/
  settles : ∀ {m n N id x h goal buf bytes}, r.Streams m N id x h goal buf bytes → m < n → N ≤ n →
    (r.state n).Settled → (r.state n).calls.contains id = false
  /-- Neither the chunks nor the mode nor the moments of the load make a difference to the loops: in
  any other run with the same bytes they come to the same. -/
  same : ∀ {config' : CacheConfig} {workers' : Nat} {r' : Run (start config' workers')}
    {m n N id x h m' n' N' id' x' h' goal buf bytes}, r.Streams m N id x h goal buf bytes →
    r'.Streams m' N' id' x' h' goal buf bytes → h'.cursor.position = h.cursor.position →
    m < n → m' < n' → (r.state n).calls.contains id = false →
    (r'.state n').calls.contains id' = false → goal ≠ .once →
      ∃ result position, (r.state n).results.get? id = some (.read result position) ∧
        (r'.state n').results.get? id' = some (.read result position)
  /-- A single read may bring more or less, but nothing only where it does so in any other run. -/
  same_once : ∀ {config' : CacheConfig} {workers' : Nat} {r' : Run (start config' workers')}
    {m n N id x h m' n' N' id' x' h' buf bytes}, r.Streams m N id x h .once buf bytes →
    r'.Streams m' N' id' x' h' .once buf bytes → h'.cursor.position = h.cursor.position →
    m < n → m' < n' → (r.state n).calls.contains id = false →
    (r'.state n').calls.contains id' = false →
      ∃ k k' data data' position position',
        (r.state n).results.get? id = some (.read (.once k data) position) ∧
        (r'.state n').results.get? id' = some (.read (.once k' data') position') ∧
        (k = 0 ↔ buf.size = 0 ∨ h.cursor.position = bytes.length) ∧ (k = 0 ↔ k' = 0)

theorem readsPlainly (r : Run (start config workers)) : r.ReadsPlainly where
  plain streams lt idle := streams.answered lt idle
  canMove streams lt le pending := streams.canMove lt le pending
  moves streams lt le k := streams.movesOf_le lt le k
  settles {m n N id x h goal buf bytes} streams lt le settled := by
    by_contra pending
    have can := streams.canMove lt le (by simpa using pending)
    rw [settled] at can
    cases can
  same streams streams' place lt lt' idle idle' loops := by
    obtain ⟨i, k, result, answered⟩ := streams.answered lt idle
    obtain ⟨i', k', result', answered'⟩ := streams'.answered lt' idle'
    have plain' := answered'.plain
    rw [place] at plain'
    obtain ⟨same, there⟩ := answered.plain.unique plain' loops
    refine ⟨result, _, answered.told, ?_⟩
    rw [answered'.told, same, place, there]
  same_once streams streams' place lt lt' idle idle' := by
    obtain ⟨i, k, result, answered⟩ := streams.answered lt idle
    obtain ⟨i', k', result', answered'⟩ := streams'.answered lt' idle'
    obtain ⟨j, data, rfl, nothing⟩ := answered.plain.exists_once
    obtain ⟨j', data', rfl, nothing'⟩ := answered'.plain.exists_once
    rw [place] at nothing'
    exact ⟨j, j', data, data', _, _, answered.told, answered'.told, nothing,
      nothing.trans nothing'.symm⟩

end Run

namespace Session

/-- A buffer of four bytes is filled while a load brings two bytes and then one more. -/
def racing : List Event :=
  [.begin 0 (.openReader ⟨"a"⟩ (some .async)
      { script := [.data ⟨#[1, 2]⟩ none, .data ⟨#[3]⟩ none] }),
    .move (.call 0), .move (.call 0), .move (.call 0), .begin 1 (.read 0 .fill ⟨#[0, 0, 0, 0]⟩),
    .move (.call 1), .move (.worker .registry 0), .move (.worker .registry 0),
    .move (.worker .registry 0), .move (.worker .registry 0), .move (.worker .registry 0),
    .move (.call 1), .move (.call 1), .move (.worker .registry 0), .move (.worker .registry 0),
    .move (.worker .registry 0), .move (.call 1), .move (.worker .registry 0),
    .move (.worker .registry 0), .move (.worker .registry 0), .move (.worker .registry 0),
    .move (.worker .registry 0), .move (.call 1)]

/-- The call waits twice before it is over. -/
theorem streams_racing : ∃ plays : (start {} 1).Plays racing,
    (Run.ofList plays).Streams 4 23 1 0 { cache := 0 } .fill ⟨#[0, 0, 0, 0]⟩ [1, 2, 3] ∧
      ((Run.ofList plays).state 14).calls.contains 1 = true ∧
      ((Run.ofList plays).state 23).calls.contains 1 = false := by
  have plays : (start {} 1).Plays racing := by
    unfold Plays
    decide +kernel
  have cached : ((start {} 1).play racing 23).caches.contains 0 = true := by decide +kernel
  have finished : (((start {} 1).play racing 23).store (.cache 0)).finished = true := by
    decide +kernel
  have going : (((start {} 1).play racing 23).store (.cache 0)).canceled = false := by
    decide +kernel
  have handle : ((start {} 1).play racing 4).reader? 0 = some { cache := 0 } := by decide +kernel
  have content : SharedStream.content ((List.range 23).filterMap fun n =>
      ((start {} 1).play racing n).answered 0
        (racing[n]?.getD (.begin ((start {} 1).play racing n).clock .newStore))) = [1, 2, 3] := by
    decide +kernel
  have waits : ((start {} 1).play racing 14).calls.contains 1 = true := by decide +kernel
  have idle : ((start {} 1).play racing 23).calls.contains 1 = false := by decide +kernel
  have begun : (Run.ofList plays).event 4 = .begin 1 (.read 0 .fill ⟨#[0, 0, 0, 0]⟩) := rfl
  have handle : ((Run.ofList plays).state 4).reader? 0 = some { cache := 0 } := handle
  have content : (Run.ofList plays).content 0 23 = [1, 2, 3] := content
  have brings : (Run.ofList plays).Brings 0 23 [1, 2, 3] := ⟨cached, finished, going, content⟩
  exact ⟨plays, ⟨begun, handle, rfl, brings⟩, waits, idle⟩

end Session
end SharedStream
