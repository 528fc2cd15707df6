import SharedStream.Proofs.Bystanders
import SharedStream.Proofs.StoreWaits

/-! # What a store answers to reads

A store takes what is appended to it until its load stops, and every read is answered from the bytes
it has taken: which bytes they are does not depend on the chunks that they came in.
-/
namespace SharedStream

inductive StoreAct where
  | append (data : ByteArray)
  | finish
  | cancel

namespace Store

def act (s : Store) : StoreAct → Store
  | .append data => s.append data
  | .finish => s.finish
  | .cancel => s.cancel

/-- The store after a history. -/
def following (s : Store) (acts : List StoreAct) : Store := acts.foldl act s

/-- The bytes that are appended before anything stops the load. -/
def taken : List StoreAct → List UInt8
  | .append data :: acts => octets data ++ taken acts
  | .finish :: _ | .cancel :: _ | [] => []

variable {s : Store} {acts : List StoreAct} {r : Request} {o : ReadOutcome} {buf : ByteArray}

@[simp] theorem following_nil (s : Store) : s.following [] = s := rfl

@[simp] theorem following_cons (s : Store) (a : StoreAct) (acts : List StoreAct) :
    s.following (a :: acts) = (s.act a).following acts := rfl

/-! ## Histories -/

theorem Gapless.act (h : s.Gapless) (a : StoreAct) : (s.act a).Gapless := by
  cases a with
  | append data => exact h.append data
  | finish => exact h
  | cancel => exact h

theorem Gapless.following (h : s.Gapless) (acts : List StoreAct) : (s.following acts).Gapless := by
  induction acts generalizing s with
  | nil => exact h
  | cons a acts ih => exact ih (h.act a)

theorem append_of_not_isOpen (h : s.isOpen = false) (data : ByteArray) : s.append data = s :=
  if_neg fun some => by simp [h] at some

theorem isOpen_append (data : ByteArray) : (s.append data).isOpen = s.isOpen := by
  unfold append
  split
  · rfl
  · rfl

theorem octets_bytes_append (h : s.isOpen = true) (data : ByteArray) :
    octets (s.append data).bytes = octets s.bytes ++ octets data := by
  unfold append
  split
  · simp [octets_bytes]
  · next none =>
    have nothing : data.size = 0 := by simpa [h] using none
    rw [List.eq_nil_of_length_eq_zero ((length_octets data).trans nothing), List.append_nil]

/-- A store that has stopped takes nothing more. -/
theorem bytes_following_of_stopped (h : s.isOpen = false) (acts : List StoreAct) :
    (s.following acts).bytes = s.bytes := by
  induction acts generalizing s with
  | nil => rfl
  | cons a acts ih =>
    cases a with
    | append data =>
      rw [following_cons, act, append_of_not_isOpen h]
      exact ih h
    | finish => exact ih (s := s.finish) (by simp [isOpen, finish])
    | cancel => exact ih (s := s.cancel) (by simp [isOpen, cancel])

theorem octets_bytes_following (h : s.isOpen = true) (acts : List StoreAct) :
    octets (s.following acts).bytes = octets s.bytes ++ taken acts := by
  induction acts generalizing s with
  | nil => simp [taken]
  | cons a acts ih =>
    cases a with
    | append data =>
      rw [following_cons, act, ih ((isOpen_append data).trans h), octets_bytes_append h, taken,
        List.append_assoc]
    | finish =>
      rw [following_cons, act, bytes_following_of_stopped (by simp [isOpen, finish]), taken,
        List.append_nil]
      rfl
    | cancel =>
      rw [following_cons, act, bytes_following_of_stopped (by simp [isOpen, cancel]), taken,
        List.append_nil]
      rfl

theorem gapless_following (acts : List StoreAct) : (({} : Store).following acts).Gapless :=
  Gapless.following (s := {}) rfl acts

theorem finished_following (acts : List StoreAct) :
    (s.following acts).finished = true ↔ s.finished = true ∨ .finish ∈ acts := by
  induction acts generalizing s with
  | nil => simp
  | cons a acts ih =>
    rw [following_cons, ih]
    cases a with
    | append data =>
      have same : (s.append data).finished = s.finished := by
        unfold append
        split
        · rfl
        · rfl
      simp [act, same]
    | finish => simp [act, finish]
    | cancel => simp [act, cancel]

/-! ## Buffers -/

theorem Copied.size_eq (h : s.Copied r o buf) : buf.size = r.buf.size := by
  have length := congrArg List.length h.octets_eq
  have loaded := h.loaded
  have room := h.room
  simp only [List.length_append, List.length_take, List.length_drop, length_octets] at length
  rw [length_octets] at loaded
  omega

/-- A read writes only where its bytes go. -/
theorem Copied.getElem?_eq (h : s.Copied r o buf) {i : Nat}
    (outside : i < r.offset ∨ r.offset + o.count ≤ i) :
    (octets buf)[i]? = (octets r.buf)[i]? := by
  have loaded := h.loaded
  have room := h.room
  have before : ((octets r.buf).take r.offset).length = r.offset := by
    rw [List.length_take, length_octets]
    omega
  have written : ((octets r.buf).take r.offset ++
      ((octets s.bytes).drop r.position).take o.count).length = r.offset + o.count := by
    simp only [List.length_append, before, List.length_take, List.length_drop]
    omega
  rw [h.octets_eq]
  rcases outside with left | right
  · rw [List.getElem?_append_left (by omega), List.getElem?_append_left (by omega),
      List.getElem?_take_of_lt left]
  · rw [List.getElem?_append_right (by omega), written, List.getElem?_drop]
    congr 1
    omega

/-- A read that has got no bytes has left its buffer alone. -/
theorem buf_eq_of_count (gapless : s.Gapless) (done : s.read r = .done o buf)
    (nothing : o.count = 0) : buf = r.buf := by
  have copied := read_done gapless done
  have same : octets buf = octets r.buf := by
    rw [copied.octets_eq, nothing, List.take_zero, List.append_nil, Nat.add_zero,
      List.take_append_drop]
  exact octets_injective same

/-! ## Answers -/

/-- What the store answers to the request. -/
structure Meets (s : Store) (r : Request) : Prop where
  refused : r.buf.size < r.offset + r.len →
    s.read r = .refused (.invalidArgument r.offset r.len r.buf.size)
  /-- That includes a place in the buffer that no word can hold. -/
  overflow : r.buf.size < wordLimit → wordLimit ≤ r.offset + r.len →
    s.read r = .refused (.invalidArgument r.offset r.len r.buf.size)
  /-- Nothing else is refused. -/
  bounds : ∀ e, s.read r = .refused e → r.buf.size < r.offset + r.len
  empty : r.offset + r.len ≤ r.buf.size → r.len = 0 → s.read r = .done (.bytes 0) r.buf
  ended : r.offset + r.len ≤ r.buf.size → r.len ≠ 0 → s.loadedLen ≤ r.position →
    s.finished = true → s.read r = .done .endOfStream r.buf
  notYet : r.offset + r.len ≤ r.buf.size → r.len ≠ 0 → s.loadedLen ≤ r.position →
    s.finished = false → r.blocking = false → s.read r = .done .notYet r.buf
  waits : r.offset + r.len ≤ r.buf.size → r.len ≠ 0 → s.loadedLen ≤ r.position →
    s.finished = false → r.blocking = true → s.read r = .waits
  bytes : r.offset + r.len ≤ r.buf.size → r.len ≠ 0 → r.position < s.loadedLen →
    ∃ n buf, s.read r = .done (.bytes n) buf ∧ n = min r.len (s.loadedLen - r.position) ∧ 1 ≤ n ∧
      octets (buf.extract r.offset (r.offset + n)) = ((octets s.bytes).drop r.position).take n ∧
      ∀ i, i < r.offset ∨ r.offset + n ≤ i → (octets buf)[i]? = (octets r.buf)[i]?
  size : ∀ o buf, s.read r = .done o buf → buf.size = r.buf.size
  /-- Without bytes the buffer stays as it was. -/
  untouched : ∀ o buf, s.read r = .done o buf → o.count = 0 → buf = r.buf
  never_notYet : r.blocking = true → ∀ buf, s.read r ≠ .done .notYet buf

theorem bytes_of_read (gapless : s.Gapless) (room : r.offset + r.len ≤ r.buf.size)
    (some : r.len ≠ 0) (loaded : r.position < s.loadedLen) :
    ∃ n buf, s.read r = .done (.bytes n) buf ∧ n = min r.len (s.loadedLen - r.position) ∧ 1 ≤ n ∧
      octets (buf.extract r.offset (r.offset + n)) = ((octets s.bytes).drop r.position).take n ∧
      ∀ i, i < r.offset ∨ r.offset + n ≤ i → (octets buf)[i]? = (octets r.buf)[i]? := by
  obtain ⟨count, -⟩ := copy_holds gapless r.buf r.offset
    (min r.len (s.loadedLen - r.position)) r.position (by omega) (by omega)
  have done : s.read r = .done (.bytes (min r.len (s.loadedLen - r.position)))
      (s.copy r.buf r.offset (min r.len (s.loadedLen - r.position)) r.position).buf := by
    rw [read, if_neg (by omega), if_neg some, if_neg (by omega)]
    dsimp only
    rw [count]
  have copied := read_done gapless done
  exact ⟨_, _, done, rfl, by omega, copied.extract_eq, fun i outside => copied.getElem?_eq outside⟩

theorem Gapless.meets (gapless : s.Gapless) (r : Request) : s.Meets r where
  refused out := by rw [read, if_pos out]
  overflow size large := by rw [read, if_pos (by omega)]
  bounds e refused := by
    by_contra within
    rw [read, if_neg within] at refused
    split at refused
    · cases refused
    split at refused
    · split at refused
      · cases refused
      split at refused
      · cases refused
      · cases refused
    · cases refused
  empty room none := by rw [read, if_neg (by omega), if_pos none]
  ended room some short finished := by
    rw [read, if_neg (by omega), if_neg some, if_pos short, if_pos finished]
  notYet room some short unfinished impatient := by
    rw [read, if_neg (by omega), if_neg some, if_pos short, if_neg (by simp [unfinished]),
      if_neg (by simp [impatient])]
  waits room some short unfinished patient := by
    rw [read, if_neg (by omega), if_neg some, if_pos short, if_neg (by simp [unfinished]),
      if_pos patient]
  bytes room some loaded := bytes_of_read gapless room some loaded
  size o buf done := (read_done gapless done).size_eq
  untouched o buf done nothing := buf_eq_of_count gapless done nothing
  never_notYet patient buf done := by
    unfold read at done
    split at done
    · cases done
    split at done
    · cases done
    split at done
    · split at done
      · cases done
      · cases done
    · cases done

end Store

/-- What a store answers after a history that nobody but the history has a part in. -/
structure Store.Specified (acts : List StoreAct) (r : Store.Request) : Prop extends
    (({} : Store).following acts).Meets r where
  /-- Its bytes are those taken, and it knows how many they are. -/
  stream : octets (({} : Store).following acts).bytes = Store.taken acts
  loadedLen : (({} : Store).following acts).loadedLen = (Store.taken acts).length
  finished : (({} : Store).following acts).finished = true ↔ .finish ∈ acts
  /-- Those who read a store, by themselves or through a handle, leave all stores as they are. -/
  unchanged : ∀ (s : Session) (id : CallId) (x : StoreId),
    (s.moveReadStore id x r).stores = s.stores
  unchanged_of_handle : ∀ (s : Session) (id : CallId) (g : Reading),
    (s.moveReading id g).stores = s.stores

theorem Session.stores_moveReadStore (s : Session) (id : CallId) (x : StoreId)
    (r : Store.Request) : (s.moveReadStore id x r).stores = s.stores := by
  have aside : s.Bystands (s.moveTask id (.readStore x r)) := Session.bystands_moveTask rfl
  exact aside.stores

theorem Session.stores_moveReading (s : Session) (id : CallId) (g : Reading) :
    (s.moveReading id g).stores = s.stores :=
  (Session.bystands_moveReading g).stores

theorem Store.specified (acts : List StoreAct) (r : Store.Request) : Store.Specified acts r where
  toMeets := (gapless_following acts).meets r
  stream := octets_bytes_following rfl acts
  loadedLen := by
    rw [← (gapless_following acts).carries.1, octets_bytes_following rfl acts]
    rfl
  finished := by simp [finished_following]
  unchanged s id x := s.stores_moveReadStore id x r
  unchanged_of_handle s id g := s.stores_moveReading id g

end SharedStream
