import SharedStream.Proofs.Calls.Settled
import SharedStream.Proofs.Freshness

/-! # Waiting for a store

A read waits for its position as long as nothing is loaded there and more may come. The first bytes
past the position, or the end of the load, let it go on, and what it comes to is decided then.
-/
namespace SharedStream

namespace Store
variable {y z : Store} {q : Request} {p : Nat}

theorem Lacks.of_grows (h : z.Lacks p) (grows : y.Grows z) : y.Lacks p := by
  refine ⟨Nat.le_trans grows.loaded h.1, ?_⟩
  by_contra finished
  have finished := (grows.finished (by simpa using finished)).1
  rw [h.2] at finished
  cases finished

/-- A read of a store that has bytes at the position gets as many as there are and as it wants. -/
theorem read_of_lt (gapless : y.Gapless) (hq : q.Patient) (loaded : q.position < y.loadedLen) :
    ∃ buf, y.read q = .done (.bytes (min q.len (y.loadedLen - q.position))) buf := by
  have room := hq.room
  obtain ⟨copied, -⟩ := copy_holds gapless q.buf q.offset (min q.len (y.loadedLen - q.position))
    q.position (by omega) (by omega)
  refine ⟨(y.copy q.buf q.offset (min q.len (y.loadedLen - q.position)) q.position).buf, ?_⟩
  rw [read, if_neg (by omega), if_neg hq.nonempty, if_neg (by omega)]
  dsimp only
  rw [copied]

theorem read_of_finished (hq : q.Patient) (short : y.loadedLen ≤ q.position)
    (finished : y.finished = true) : y.read q = .done .endOfStream q.buf := by
  have room := hq.room
  rw [read, if_neg (by omega), if_neg hq.nonempty, if_pos short, if_pos finished]

/-- What a patient read comes to. -/
theorem read_cases (gapless : y.Gapless) (hq : q.Patient) :
    y.read q = .waits ∨
      q.position < y.loadedLen ∧
        (∃ buf, y.read q = .done (.bytes (min q.len (y.loadedLen - q.position))) buf) ∨
      y.loadedLen ≤ q.position ∧ y.finished = true ∧ y.read q = .done .endOfStream q.buf := by
  by_cases loaded : q.position < y.loadedLen
  · exact .inr (.inl ⟨loaded, read_of_lt gapless hq loaded⟩)
  · have short : y.loadedLen ≤ q.position := Nat.le_of_not_lt loaded
    cases finished : y.finished with
    | true => exact .inr (.inr ⟨short, rfl, read_of_finished hq short finished⟩)
    | false => exact .inl (read_eq_waits_iff.2 ⟨hq, short, finished⟩)

end Store

namespace Session

variable {s u : Session} {id : CallId} {x : StoreId} {q : Store.Request} {e : Event}

theorem Stocks.store (h : s.Stocks u) (hs : s.Stocked) (x : StoreId) :
    (s.store x).Grows (u.store x) := by
  cases hx : s.stores.get? x with
  | some y =>
    obtain ⟨y', hy', grows⟩ := h.grows hx
    simpa [Session.store, hx, hy'] using grows
  | none =>
    have empty : s.store x = {} := by simp [Session.store, hx]
    rw [empty]
    refine ⟨Nat.zero_le _, fun finished => ?_, fun _ => ?_⟩
    · cases finished
    · cases hu : u.stores.get? x with
      | none =>
        rw [Session.store, hu]
        rfl
      | some y =>
        rw [Session.store, hu]
        exact (h.stocked hs x y hu).2

theorem Stocked.gapless (hs : s.Stocked) (x : StoreId) : (s.store x).Gapless := by
  cases hx : s.stores.get? x with
  | none =>
    rw [Session.store, hx]
    rfl
  | some y =>
    rw [Session.store, hx]
    exact (hs x y hx).2

/-- The read of a store that a call in progress makes with its next move. -/
def Asks (s : Session) (id : CallId) (x : StoreId) (q : Store.Request) : Prop :=
  s.task? id = some (.readStore x q) ∨
    ∃ r h, s.task? id = some (.read r) ∧ s.readers.get? r.reader = some h ∧
      x = .cache r.cache ∧ q = r.request h.cursor.position

theorem Asks.attends_iff (h : s.Asks id x q) {a : Task} (ht : s.task? id = some a) :
    s.Attends a ↔ (s.store x).read q = .waits := by
  rcases h with task | ⟨r, h, task, hr, rfl, rfl⟩
  · cases task.symm.trans ht
    constructor
    · rintro (waits | ⟨seeks, -⟩)
      · exact waits
      · cases seeks
    · exact fun waits => .inl waits
  · cases task.symm.trans ht
    constructor
    · rintro (⟨h', hr', waits⟩ | ⟨seeks, -⟩)
      · cases hr.symm.trans hr'
        exact waits
      · cases seeks
    · exact fun waits => .inl ⟨h, hr, waits⟩

theorem Asks.task (h : s.Asks id x q) : ∃ a, s.task? id = some a ∧ s.taskCanMove id a = true := by
  rcases h with task | ⟨r, h, task, -⟩
  · exact ⟨_, task, rfl⟩
  · exact ⟨_, task, rfl⟩

/-- A read that does not wait can be made. -/
theorem Asks.canMove (h : s.Asks id x q) (ha : s.Attentive)
    (past : (s.store x).read q ≠ .waits) : s.canMove (.call id) = true := by
  obtain ⟨a, ht, free⟩ := h.task
  exact ha.canMove ht (fun attends => past ((h.attends_iff ht).1 attends)) free

theorem Asks.of_other (h : s.Asks id x q) (passes : s.Passes e.caller u)
    (other : e.caller ≠ some id) : u.Asks id x q := by
  rcases h with task | ⟨r, h, task, hr, hx, hq⟩
  · exact .inl ((passes.task other).trans task)
  · exact .inr ⟨r, h, (passes.task other).trans task, (passes.reader other task).trans hr, hx, hq⟩

theorem Asks.of_sleep (h : s.Asks id x q) : (s.sleep id).Asks id x q := by
  rcases h with task | ⟨r, h, task, hr, hx, hq⟩
  · exact .inl ((task?_sleep id).trans task)
  · exact .inr ⟨r, h, (task?_sleep id).trans task, hr, hx, hq⟩

/-- The move of a read that has to wait is to sleep. -/
theorem Asks.after_eq (h : s.Asks id x q) (waits : (s.store x).read q = .waits) :
    s.after (.move (.call id)) = s.sleep id := by
  rcases h with task | ⟨r, h, task, hr, rfl, rfl⟩
  · rw [after, move_of_task task, moveTask, moveReadStore, waits]
  · rw [after, move_of_task task, moveTask, moveReading, hr]
    simp only [waits]

/-- Who reads through a handle that is there begins with a reading. -/
theorem after_read {c : CallId} {goal : Goal} {buf : ByteArray} {h : Reader}
    (hr : s.reader? c = some h) : s.after (.begin id (.read c goal buf)) =
      ({ s with clock := id + 1 } : Session).call id
        (.read { reader := c, cache := h.cache, goal, buf }) := by
  have hr : ({ s with clock := id + 1 } : Session).reader? c = some h := hr
  rw [Session.after, begin, enter, Session.withReader, hr]

/-- A read that has to wait waits on after every event. -/
theorem Asks.after (h : s.Asks id x q) (ha : s.Attentive) (hs : s.Sound) (admitted : s.admits e)
    (waits : (s.store x).read q = .waits) : (s.after e).Asks id x q := by
  by_cases own : e.caller = some id
  · obtain ⟨a, ht, -⟩ := h.task
    rw [ha.caller_eq admitted own ht, h.after_eq waits]
    exact h.of_sleep
  · exact h.of_other (passes_after hs ha admitted) own

end Session

namespace Run
open Session

variable {config : CacheConfig} {workers : Nat} (r : Run (start config workers))
variable {id : CallId} {x : StoreId} {q : Store.Request} {m n : Nat}

theorem store_grows (x : StoreId) (le : m ≤ n) :
    ((r.state m).store x).Grows ((r.state n).store x) := by
  induction le with
  | refl => exact .refl _
  | step _ ih => exact ih.trans ((r.passes _).toStocks.store (r.attentive _).stocked x)

theorem asks_succ (asks : (r.state n).Asks id x q)
    (waits : ((r.state n).store x).read q = .waits) : (r.state (n + 1)).Asks id x q := by
  rw [r.state_succ]
  exact asks.after (r.attentive n) (r.sound n) (r.admitted n) waits

/-- A read waits on as long as nothing is loaded at its position and more may come. -/
theorem asks_of_lacks (asks : (r.state m).Asks id x q) (hq : q.Patient) (le : m ≤ n)
    (lacks : ((r.state n).store x).Lacks q.position) : (r.state n).Asks id x q := by
  induction le with
  | refl => exact asks
  | @step n le ih =>
    have before := lacks.of_grows (r.store_grows x (Nat.le_succ n))
    exact r.asks_succ (ih before) (Store.read_eq_waits_iff.2 ⟨hq, before⟩)

theorem not_asks_of_settled (settled : (r.state n).Settled)
    (past : ((r.state n).store x).read q ≠ .waits) : ¬ (r.state n).Asks id x q := by
  intro asks
  have can := asks.canMove (r.attentive n) past
  rw [settled] at can
  cases can

/-- The call makes its read of the store in the next event, and comes to the outcome. -/
structure Completes (r : Run (start config workers)) (n : Nat) (id : CallId) (x : StoreId)
    (q : Store.Request) (o : ReadOutcome) : Prop where
  asks : (r.state n).Asks id x q
  event : r.event n = .move (.call id)
  read : ∃ buf, ((r.state n).store x).read q = .done o buf

/-- A read that is over by `n` was made in an event before. -/
theorem exists_event (asks : (r.state m).Asks id x q) (le : m ≤ n)
    (past : ¬ (r.state n).Asks id x q) :
    ∃ i, m ≤ i ∧ i < n ∧ (r.state i).Asks id x q ∧ r.event i = .move (.call id) ∧
      ((r.state i).store x).read q ≠ .waits := by
  obtain ⟨i, le, lt, asks, ends⟩ := exists_end (P := fun i => (r.state i).Asks id x q) asks past le
  refine ⟨i, le, lt, asks, ?_, fun waits => ends (r.asks_succ asks waits)⟩
  obtain ⟨a, ht, -⟩ := asks.task
  refine (r.attentive i).caller_eq (r.admitted i) ?_ ht
  by_contra other
  exact ends (asks.of_other (r.passes i) other)

/-- What a read comes to is decided by the store at the time. -/
theorem Completes.outcome {o : ReadOutcome} (h : r.Completes n id x q o) (hq : q.Patient) :
    q.position < ((r.state n).store x).loadedLen ∧
        o = .bytes (min q.len (((r.state n).store x).loadedLen - q.position)) ∨
      ((r.state n).store x).loadedLen ≤ q.position ∧ ((r.state n).store x).finished = true ∧
        o = .endOfStream := by
  obtain ⟨-, -, buf, read⟩ := h
  rcases Store.read_cases ((r.attentive n).stocked.gapless x) hq with
    waits | ⟨loaded, buf', made⟩ | ⟨short, finished, made⟩
  · cases waits.symm.trans read
  · cases made.symm.trans read
    exact .inl ⟨loaded, rfl⟩
  · cases made.symm.trans read
    exact .inr ⟨short, finished, rfl⟩

theorem exists_outcome (hq : q.Patient) (past : ((r.state n).store x).read q ≠ .waits) :
    ∃ o buf, ((r.state n).store x).read q = .done o buf := by
  rcases Store.read_cases ((r.attentive n).stocked.gapless x) hq with
    waits | ⟨-, buf, made⟩ | ⟨-, -, made⟩
  · exact absurd waits past
  · exact ⟨_, buf, made⟩
  · exact ⟨_, _, made⟩

/-- A read that waits is made once its wait is over, and the event that ends its wait decides what
it comes to: bytes past its position, or the end of the load. -/
theorem exists_completes (asks : (r.state m).Asks id x q) (hq : q.Patient) (le : m ≤ n)
    (lacks : ((r.state m).store x).Lacks q.position) (settled : (r.state n).Settled)
    (past : ¬ ((r.state n).store x).Lacks q.position) :
    ∃ j i o, m ≤ j ∧ j < i ∧ i < n ∧
      (∀ l, m ≤ l → l ≤ j → (r.state l).Asks id x q ∧ ((r.state l).store x).Lacks q.position) ∧
      r.Completes i id x q o ∧
      (q.position < ((r.state (j + 1)).store x).loadedLen ∧ (∃ k, o = .bytes k ∧ 1 ≤ k) ∨
        ((r.state (j + 1)).store x).loadedLen ≤ q.position ∧
          ((r.state (j + 1)).store x).finished = true ∧ o = .endOfStream) := by
  obtain ⟨j, le, lt, last, ends⟩ :=
    exists_end (P := fun i => ((r.state i).store x).Lacks q.position) lacks past le
  have waited : ∀ l, m ≤ l → l ≤ j →
      (r.state l).Asks id x q ∧ ((r.state l).store x).Lacks q.position := by
    intro l from_ upTo
    have lacks := last.of_grows (r.store_grows x upTo)
    exact ⟨r.asks_of_lacks asks hq from_ lacks, lacks⟩
  have next : (r.state (j + 1)).Asks id x q :=
    r.asks_succ (waited j le (Nat.le_refl j)).1 (Store.read_eq_waits_iff.2 ⟨hq, last⟩)
  have gone : ¬ (r.state n).Asks id x q :=
    r.not_asks_of_settled settled fun waits => past (Store.read_eq_waits_iff.1 waits).2
  obtain ⟨i, from_, before, asks, event, made⟩ := r.exists_event next lt gone
  obtain ⟨o, buf, read⟩ := r.exists_outcome hq made
  have completes : r.Completes i id x q o := ⟨asks, event, buf, read⟩
  refine ⟨j, i, o, le, from_, before, waited, completes, ?_⟩
  have grows := r.store_grows x from_
  by_cases loaded : q.position < ((r.state (j + 1)).store x).loadedLen
  · left
    rcases completes.outcome r hq with ⟨past, rfl⟩ | ⟨short, -⟩
    · have nonempty := hq.nonempty
      exact ⟨loaded, _, rfl, by omega⟩
    · have := grows.loaded
      omega
  · right
    have short : ((r.state (j + 1)).store x).loadedLen ≤ q.position := Nat.le_of_not_lt loaded
    have finished : ((r.state (j + 1)).store x).finished = true := by
      by_contra unfinished
      exact ends ⟨short, by simpa using unfinished⟩
    rcases completes.outcome r hq with ⟨past, -⟩ | ⟨-, -, rfl⟩
    · rw [(grows.finished finished).2] at past
      exact absurd past loaded
    · exact ⟨short, finished, rfl⟩

/-! ## Calls -/

theorem asks_of_begin {i : CallId} (begun : r.event m = .begin id (.readStore i q))
    (present : (r.state m).stores.contains (.separate i) = true) :
    (r.state (m + 1)).Asks id (.separate i) q := by
  left
  rw [r.state_succ, begun]
  show (Session.enter { r.state m with clock := id + 1 } id (.readStore i q)).task? id = _
  simp only [enter, withStore]
  rw [if_pos present, task?_call, if_pos rfl]

theorem asks_of_reads {c : CallId} {goal : Goal} {buf : ByteArray} {h : Reader}
    (begun : r.event m = .begin id (.read c goal buf)) (hr : (r.state m).reader? c = some h) :
    (r.state (m + 1)).Asks id (.cache h.cache)
      (({ reader := c, cache := h.cache, goal, buf } : Reading).request h.cursor.position) := by
  have handle := (reader?_eq_some hr).2
  rw [r.state_succ, begun, after_read hr]
  exact .inr ⟨{ reader := c, cache := h.cache, goal, buf }, h, by rw [task?_call, if_pos rfl],
    handle, rfl, rfl⟩

/-- A call whose first task leads nowhere keeps it as long as it is in progress. -/
theorem task_of_pending {op : Op} {a : Task} (begun : r.event m = .begin id op) (lt : m < n)
    (pending : (r.state n).calls.contains id = true)
    (first : (r.state m).firstTask? id op = some a) (last : ∀ b, ¬ a.Leads b) :
    (r.state n).task? id = some a := by
  obtain ⟨call, hc⟩ := Option.isSome_iff_exists.1 pending
  have ht : (r.state n).task? id = some call.task := by simp [task?, hc]
  obtain ⟨a', first', leads⟩ := r.task_of_begin begun lt ht
  cases first.symm.trans first'
  rcases Relation.ReflTransGen.cases_head leads with same | ⟨b, more, -⟩
  · exact same ▸ ht
  · exact absurd more (last b)

theorem asks_iff (asks : (r.state m).Asks id x q) (hq : q.Patient) (le : m ≤ n)
    (settled : (r.state n).Settled) :
    (r.state n).Asks id x q ↔ ((r.state n).store x).Lacks q.position := by
  constructor
  · intro still
    by_contra past
    refine r.not_asks_of_settled settled ?_ still
    exact fun waits => past (Store.read_eq_waits_iff.1 waits).2
  · exact r.asks_of_lacks asks hq le

theorem pending_iff {i : CallId} (begun : r.event m = .begin id (.readStore i q)) (lt : m < n)
    (present : (r.state m).stores.contains (.separate i) = true) (hq : q.Patient)
    (settled : (r.state n).Settled) : (r.state n).calls.contains id = true ↔
      ((r.state n).store (.separate i)).Lacks q.position := by
  rw [← r.asks_iff (r.asks_of_begin begun present) hq lt settled]
  constructor
  · intro pending
    exact .inl (r.task_of_pending begun lt pending rfl fun b leads => by cases leads)
  · intro asks
    obtain ⟨a, ht, -⟩ := asks.task
    obtain ⟨call, hc, -⟩ := Option.map_eq_some_iff.1 ht
    exact Option.isSome_of_eq_some hc

/-- The outcome of a read of a store is what its call comes to. -/
theorem Completes.result {o : ReadOutcome} (h : r.Completes n id x q o)
    (ht : (r.state n).task? id = some (.readStore x q)) :
    (r.state (n + 1)).calls.contains id = false ∧
      ∃ buf, (r.state (n + 1)).results.get? id = some (.storeRead (.outcome o buf)) := by
  obtain ⟨-, event, buf, read⟩ := h
  have after : r.state (n + 1) = (r.state n).answer id (.storeRead (.outcome o buf)) := by
    rw [r.state_succ, event, Session.after, move_of_task ht, moveTask, moveReadStore, read]
  rw [after]
  exact ⟨by simp [answer, Table.contains], buf, by simp [answer]⟩

/-- How the calls fare that wait for a store. -/
structure Served (r : Run (start config workers)) (x : StoreId) : Prop where
  /-- In a settled session a read that was asked for is in progress if and only if it has to
  wait. -/
  pending_iff : ∀ {m n id i q}, x = .separate i → m < n → r.event m = .begin id (.readStore i q) →
    (r.state m).stores.contains x = true → q.Patient → (r.state n).Settled →
      ((r.state n).calls.contains id = true ↔ ((r.state n).store x).Lacks q.position)
  /-- A read through a handle is one as well, -/
  reads : ∀ {m id c goal buf h}, r.event m = .begin id (.read c goal buf) →
    (r.state m).reader? c = some h → x = .cache h.cache →
      (r.state (m + 1)).Asks id x
        (({ reader := c, cache := h.cache, goal, buf } : Reading).request h.cursor.position)
  /-- and whoever reads is in progress with it if and only if it has to wait. -/
  asks_iff : ∀ {m n id q}, m ≤ n → (r.state m).Asks id x q → q.Patient → (r.state n).Settled →
    ((r.state n).Asks id x q ↔ ((r.state n).store x).Lacks q.position)
  /-- No event ends a wait but one that loads something past the position or ends the load. -/
  waits : ∀ {m n id q}, m ≤ n → (r.state m).Asks id x q → q.Patient →
    ((r.state n).store x).Lacks q.position → (r.state n).Asks id x q
  /-- From then on the call can move. -/
  wakes : ∀ {n id q}, (r.state n).Asks id x q → q.Patient →
    ¬ ((r.state n).store x).Lacks q.position → (r.state n).canMove (.call id) = true
  /-- The event that ends the wait decides what the read comes to before the next settled
  session. -/
  completes : ∀ {m n id q}, m ≤ n → (r.state m).Asks id x q → q.Patient →
    ((r.state m).store x).Lacks q.position → (r.state n).Settled →
    ¬ ((r.state n).store x).Lacks q.position →
      ∃ j i o, m ≤ j ∧ j < i ∧ i < n ∧
        (∀ l, m ≤ l → l ≤ j → (r.state l).Asks id x q ∧ ((r.state l).store x).Lacks q.position) ∧
        r.Completes i id x q o ∧
        (q.position < ((r.state (j + 1)).store x).loadedLen ∧ (∃ k, o = .bytes k ∧ 1 ≤ k) ∨
          ((r.state (j + 1)).store x).loadedLen ≤ q.position ∧
            ((r.state (j + 1)).store x).finished = true ∧ o = .endOfStream)
  /-- A read that is made comes to bytes if there are some, and to the end of a stopped load. -/
  outcome : ∀ {n id q o}, r.Completes n id x q o → q.Patient →
    q.position < ((r.state n).store x).loadedLen ∧
        o = .bytes (min q.len (((r.state n).store x).loadedLen - q.position)) ∨
      ((r.state n).store x).loadedLen ≤ q.position ∧ ((r.state n).store x).finished = true ∧
        o = .endOfStream
  answered : ∀ {n id q o}, r.Completes n id x q o → (r.state n).task? id = some (.readStore x q) →
    (r.state (n + 1)).calls.contains id = false ∧
      ∃ buf, (r.state (n + 1)).results.get? id = some (.storeRead (.outcome o buf))
  /-- In a settled session whoever waits for the end of the load waits for one that goes on. -/
  unfinished : ∀ {n id}, (r.state n).Settled → ((r.state n).task? id = some (.awaitStore x) ∨
    ∃ k c, x = .cache c ∧ (r.state n).task? id = some (.awaitCache k c)) →
      ((r.state n).store x).finished = false
  /-- Who asks for the end of the load does nothing else. -/
  awaits : ∀ {m n id i}, x = .separate i → m < n → r.event m = .begin id (.awaitStore i) →
    (r.state n).calls.contains id = true → (r.state n).task? id = some (.awaitStore x)

theorem served (x : StoreId) : r.Served x where
  pending_iff := by
    rintro m n id i q rfl lt begun present hq settled
    exact r.pending_iff begun lt present hq settled
  reads := by
    rintro m id c goal buf h begun hr rfl
    exact r.asks_of_reads begun hr
  asks_iff le asks hq settled := r.asks_iff asks hq le settled
  waits le asks hq lacks := r.asks_of_lacks asks hq le lacks
  wakes asks hq past := by
    refine asks.canMove (r.attentive _) ?_
    exact fun waits => past (Store.read_eq_waits_iff.1 waits).2
  completes le asks hq lacks settled past := r.exists_completes asks hq le lacks settled past
  outcome completes hq := completes.outcome r hq
  answered completes ht := completes.result r ht
  unfinished settled task := by
    rcases task with ht | ⟨k, c, rfl, ht⟩
    · exact ((r.attentive _).waits_or settled ht).resolve_right (by simp [taskCanMove])
    · exact ((r.attentive _).waits_or settled ht).resolve_right (by simp [taskCanMove])
  awaits := by
    rintro m n id i rfl lt begun pending
    exact r.task_of_pending begun lt pending rfl fun b leads => by cases leads

end Run

namespace Session

/-- A read of more bytes than its buffer has room for. -/
def overlong : List Event :=
  [.begin 0 .newStore,
    .begin 1 (.readStore 0 ⟨⟨#[0, 0, 0, 0]⟩, 2, 4, 0, true⟩), .move (.call 1)]

/-- Such a read does not wait, though nothing is loaded and more may come. -/
theorem refused_overlong : ∃ plays : (start {} 1).Plays overlong,
    (Run.ofList plays).event 1 = .begin 1 (.readStore 0 ⟨⟨#[0, 0, 0, 0]⟩, 2, 4, 0, true⟩) ∧
      ((Run.ofList plays).state 3).Settled ∧
      (((Run.ofList plays).state 3).store (.separate 0)).Lacks 0 ∧
      ((Run.ofList plays).state 3).calls.contains 1 = false ∧
      ((Run.ofList plays).state 3).results.get? 1 =
        some (.storeRead (.refused (.invalidArgument 2 4 4))) := by
  have plays : (start {} 1).Plays overlong := by
    unfold Plays
    decide
  have settled : ((start {} 1).play overlong 3).Settled := by
    rw [settled_iff]
    decide
  have lacks : (((start {} 1).play overlong 3).store (.separate 0)).Lacks 0 :=
    ⟨by decide, by decide⟩
  have ended : ((start {} 1).play overlong 3).calls.contains 1 = false := by decide
  exact ⟨plays, rfl, settled, lacks, ended, rfl⟩

end Session
end SharedStream
