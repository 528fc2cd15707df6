import SharedStream.Proofs.StoreHistories
import SharedStream.Proofs.Underway

/-! # What a cancellation stops

Whoever cancels a store stops the loads into it within one read. A load that has looked at its store
before begins the read that it was about to begin; no other read begins. What a read gives does not
come to the store any more, and the loads close their sources and finish the store.
-/
namespace SharedStream

/-- A bound on the moves that a load still makes once its store is cancelled. -/
def LoadPhase.left : LoadPhase → Nat
  | .beginning => 5
  | .allocating | .reading => 4
  | .checking => 3
  | .closing => 2
  | .finishing => 1

/-- The load waits in a read, or begins one whatever becomes of its store. -/
def LoadPhase.awaits : LoadPhase → Bool
  | .beginning | .reading => true
  | .allocating | .checking | .closing | .finishing => false

/-- Each move takes a load nearer to its end when its store is cancelled, and to no read but the one
that it was about to begin. -/
theorem LoadPhase.left_of_canceled {x : Source} {y : Store} {p : LoadPhase} {n : Nat}
    (canceled : y.canceled = true) (small : n < halfLimit)
    (returns : p = .reading → x.answer.1.returns = true) :
    p = .finishing ∨ ∃ q, (p.step n x y).move = .goesOn q ∧ q.left < p.left ∧
      (q.awaits = true → p = .beginning) := by
  cases p with
  | finishing => exact .inl rfl
  | closing => exact .inr ⟨.finishing, rfl, by decide, by decide⟩
  | checking => exact .inr ⟨.closing, by simp [LoadPhase.step, canceled], by decide, by decide⟩
  | allocating => exact .inr ⟨.checking, by simp [LoadPhase.step, small], by decide, by decide⟩
  | beginning => exact .inr ⟨.reading, rfl, by decide, fun _ => rfl⟩
  | reading =>
    right
    have returns := returns rfl
    have closed : y.isOpen = false := by simp [Store.isOpen, canceled]
    rcases hx : x.answer with ⟨answer, x'⟩
    rw [hx] at returns
    cases answer with
    | bytes data =>
      refine ⟨.closing, ?_, by decide, by decide⟩
      simp [LoadPhase.step, hx, LoadPhase.afterRead, closed]
    | failed e =>
      by_cases interrupted : e.kind = .interrupted
      · refine ⟨.checking, ?_, by decide, by decide⟩
        simp [LoadPhase.step, hx, LoadPhase.afterRead, interrupted]
      · refine ⟨.closing, ?_, by decide, by decide⟩
        simp [LoadPhase.step, hx, LoadPhase.afterRead, interrupted]
    | panicked text => cases returns

/-- A load comes to a read only when it looks at a store that wants more. -/
theorem LoadPhase.not_beginning {x : Source} {y : Store} {p : LoadPhase} {n : Nat}
    (canceled : y.canceled = true) : (p.step n x y).move ≠ .goesOn .beginning := by
  cases p with
  | allocating =>
    simp only [LoadPhase.step]
    split <;> simp
  | checking => simp [LoadPhase.step, canceled]
  | reading =>
    rcases hx : x.answer with ⟨answer, x'⟩
    cases answer with
    | bytes data =>
      simp only [LoadPhase.step, hx, LoadPhase.afterRead]
      split <;> simp
    | failed e =>
      simp only [LoadPhase.step, hx, LoadPhase.afterRead]
      split <;> simp
    | panicked text => simp [LoadPhase.step, hx, LoadPhase.afterRead]
  | beginning | closing | finishing => simp [LoadPhase.step]

/-- A script without panics has no answer that panics. -/
theorem Source.returns_of_script {s : Source} (calm : ∀ text, .panic text ∉ s.script) :
    s.answer.1.returns = true := by
  unfold Source.answer
  cases next : s.next? with
  | none => rfl
  | some item =>
    cases item with
    | panic text => exact absurd (List.mem_of_getElem? next) (calm text)
    | data | interrupted | error | eof => rfl

namespace Run
open Session

variable {config : CacheConfig} {workers : Nat} (r : Run (start config workers))
variable {a : Actor} {c : CallId} {x : StoreId} {p : PoolName} {m n n' : Nat}
variable {j : Job} {l : Load} {q : LoadPhase}

/-! ## The store and the sources -/

theorem canceled_mono (canceled : ((r.state m).store x).canceled = true) (le : m ≤ n) :
    ((r.state n).store x).canceled = true :=
  (r.store_extends x le).canceled canceled

theorem chunks_of_canceled (canceled : ((r.state m).store x).canceled = true) (le : m ≤ n) :
    ((r.state n).store x).chunks = ((r.state m).store x).chunks ∧
      ((r.state n).store x).loadedLen = ((r.state m).store x).loadedLen :=
  (r.store_extends x le).stopped (by simp [Store.isOpen, canceled])

/-- Whoever loads from the source is about to begin a read. -/
def Begins (r : Run (start config workers)) (c : CallId) (n : Nat) : Prop :=
  ∃ a j, (r.state n).loadOf? a = some ⟨j, .beginning⟩ ∧ j.source = c

/-- Once its store is cancelled, no load is newly about to begin a read. -/
theorem load_of_begins (canceled : ((r.state n).store j.store).canceled = true)
    (h : (r.state (n + 1)).loadOf? a = some ⟨j, .beginning⟩) :
    (r.state n).loadOf? a = some ⟨j, .beginning⟩ ∧ r.event n ≠ .move a := by
  cases before : (r.state n).loadOf? a with
  | none => cases r.load_begins before h
  | some l =>
    by_cases own : r.event n = .move a
    · obtain ⟨rfl, next⟩ := (r.advances (j := l.job) (q := l.phase) before own).goesOn r h
      exact absurd next (LoadPhase.not_beginning canceled)
    · cases (r.load_stays before own).symm.trans h
      exact ⟨rfl, own⟩

theorem store_of_feeds {l : Load} (feeds : r.Feeds c x) (load : (r.state n).loadOf? a = some l)
    (source : l.job.source = c) : l.job.store = x := by
  subst source
  exact (r.feeds_of_load load).unique r feeds

/-- A load that is about to begin a read after the cancellation was so when it came. -/
theorem load_at_cancel (canceled : ((r.state m).store j.store).canceled = true)
    (h : (r.state n).loadOf? a = some ⟨j, .beginning⟩) {i : Nat} (from_ : m ≤ i) (upTo : i ≤ n) :
    (r.state i).loadOf? a = some ⟨j, .beginning⟩ := by
  induction upTo with
  | refl => exact h
  | @step n upTo ih =>
    exact ih (r.load_of_begins (r.canceled_mono canceled (Nat.le_trans from_ upTo)) h).1

/-- The reads begun after a cancellation: the one that was about to begin, and no other. -/
theorem reads_of_canceled (canceled : ((r.state m).store x).canceled = true)
    (feeds : r.Feeds c x) (le : m ≤ n) :
    (((r.state n).source c).reads = ((r.state m).source c).reads ∧
        (r.Begins c n → r.Begins c m)) ∨
      (((r.state n).source c).reads = ((r.state m).source c).reads + 1 ∧ r.Begins c m ∧
        ¬ r.Begins c n) := by
  induction le with
  | refl => exact .inl ⟨rfl, fun begins => begins⟩
  | @step n le ih =>
    have back : r.Begins c (n + 1) → ∃ a j, (r.state n).loadOf? a = some ⟨j, .beginning⟩ ∧
        j.source = c ∧ r.event n ≠ .move a := by
      rintro ⟨a, j, load, source⟩
      obtain rfl := r.store_of_feeds feeds load source
      obtain ⟨before, other⟩ := r.load_of_begins (r.canceled_mono canceled le) load
      exact ⟨a, j, before, source, other⟩
    have earlier : r.Begins c (n + 1) → r.Begins c n := by
      intro begins
      obtain ⟨a, j, load, source, -⟩ := back begins
      exact ⟨a, j, load, source⟩
    rcases r.reads_succ c n with same | ⟨a, j, event, load, source, reads⟩
    · rw [same]
      exact ih.imp (fun h => ⟨h.1, fun begins => h.2 (earlier begins)⟩)
        fun h => ⟨h.1, h.2.1, fun begins => h.2.2 (earlier begins)⟩
    · rcases ih with ⟨first, bound⟩ | ⟨-, -, none⟩
      · refine .inr ⟨by rw [reads, first], bound ⟨a, j, load, source⟩, fun begins => ?_⟩
        -- Nobody else loads from the source, so the load that moves would still be about to begin.
        obtain ⟨a', j', load', source', other⟩ := back begins
        obtain rfl := r.actor_unique load load' (source'.trans source.symm)
        exact other event
      · exact absurd ⟨a, j, load, source⟩ none

/-- A read that begins after the cancellation is the first move of a load that was about to begin it
at the cancellation. -/
theorem begun_of_canceled (canceled : ((r.state m).store x).canceled = true)
    (feeds : r.Feeds c x)
    (begun : ((r.state (n + 1)).source c).reads ≠ ((r.state n).source c).reads) :
    ∃ a j, j.source = c ∧ r.event n = .move a ∧
      ∀ i, m ≤ i → i ≤ n → (r.state i).loadOf? a = some ⟨j, .beginning⟩ := by
  rcases r.reads_succ c n with same | ⟨a, j, event, load, source, -⟩
  · exact absurd same begun
  · obtain rfl := r.store_of_feeds feeds load source
    exact ⟨a, j, source, event, fun i from_ upTo => r.load_at_cancel canceled load from_ upTo⟩

/-! ## The loads -/

/-- The load quits at the moment: its source is closed by then, and its store is finished after
it. -/
structure Quits (r : Run (start config workers)) (a : Actor) (j : Job) (n : Nat) : Prop where
  load : (r.state n).loadOf? a = some ⟨j, .finishing⟩
  event : r.event n = .move a
  gone : (r.state (n + 1)).loadOf? a = none
  closed : ∀ {i}, n ≤ i → ((r.state i).source j.source).closed = true
  finished : ∀ {i}, n < i → ((r.state i).store j.store).finished = true

theorem quits (h : (r.state n).loadOf? a = some ⟨j, .finishing⟩) (own : r.event n = .move a) :
    r.Quits a j n where
  load := h
  event := own
  gone := (r.advances h own).load
  closed le := r.closed_mono (r.closed_of_finishing h) le
  finished lt := by
    refine (r.store_extends j.store lt).finished ?_
    rw [(r.advances h own).store]
    rfl

/-- A read of the load that is answered in that time does not panic. -/
def Returns (r : Run (start config workers)) (a : Actor) (j : Job) (n n' : Nat) : Prop :=
  ∀ i, n ≤ i → i < n' → r.event i = .move a → (r.state i).loadOf? a = some ⟨j, .reading⟩ →
    ((r.state i).source j.source).answer.1.returns = true

/-- In that time the load does no more than to begin the read that it was about to begin. -/
def Awaits (r : Run (start config workers)) (a : Actor) (j : Job) (n n' : Nat) : Prop :=
  ∀ i, n ≤ i → i < n' → r.event i = .move a → (r.state i).loadOf? a = some ⟨j, .beginning⟩

theorem moves_of_canceled (canceled : ((r.state n).store j.store).canceled = true)
    (small : j.chunkSize < halfLimit) (h : (r.state n).loadOf? a = some ⟨j, q⟩)
    (own : r.event n = .move a)
    (returns : q = .reading → ((r.state n).source j.source).answer.1.returns = true) :
    (∃ q', (r.state (n + 1)).loadOf? a = some ⟨j, q'⟩ ∧ q'.left < q.left ∧
      (q'.awaits = true → q = .beginning)) ∨ r.Quits a j n := by
  rcases LoadPhase.left_of_canceled canceled small returns with rfl | ⟨q', move, less, begins⟩
  · exact .inr (r.quits h own)
  · refine .inl ⟨q', ?_, less, begins⟩
    rw [(r.advances h own).load, show ((r.state n).nextStep ⟨j, q⟩).move = .goesOn q' from move]

/-- A load goes on until it ends, and it is in no read but the one that it was in or about to
begin. -/
theorem winds (canceled : ((r.state n).store j.store).canceled = true)
    (small : j.chunkSize < halfLimit) (h : (r.state n).loadOf? a = some ⟨j, q⟩)
    (returns : q.awaits = true → r.Returns a j n n') (le : n ≤ n') :
    (∃ q', (r.state n').loadOf? a = some ⟨j, q'⟩ ∧
      (q'.awaits = true → q.awaits = true ∧ r.Awaits a j n n')) ∨
        ∃ f, n ≤ f ∧ f < n' ∧ r.Quits a j f := by
  induction le with
  | refl => exact .inl ⟨q, h, fun awaits => ⟨awaits, fun i from_ upTo => by omega⟩⟩
  | @step n' le ih =>
    have earlier := fun awaits i from_ upTo => returns awaits i from_ (Nat.lt_succ_of_lt upTo)
    rcases ih earlier with ⟨q', before, waits⟩ | ⟨f, from_, upTo, ends⟩
    · by_cases own : r.event n' = .move a
      · have answered : q' = .reading →
            ((r.state n').source j.source).answer.1.returns = true := by
          rintro rfl
          exact returns (waits rfl).1 n' le (Nat.lt_succ_self n') own before
        rcases r.moves_of_canceled (r.canceled_mono canceled le) small before own answered with
          ⟨q'', after, -, begins⟩ | ends
        · refine .inl ⟨q'', after, fun awaits => ?_⟩
          obtain rfl := begins awaits
          obtain ⟨awaits, waited⟩ := waits rfl
          refine ⟨awaits, fun i from_ upTo moved => ?_⟩
          rcases Nat.lt_succ_iff_lt_or_eq.1 upTo with lt | rfl
          · exact waited i from_ lt moved
          · exact before
        · exact .inr ⟨n', le, Nat.lt_succ_self n', ends⟩
      · refine .inl ⟨q', r.load_stays before own, fun awaits => ⟨(waits awaits).1, ?_⟩⟩
        intro i from_ upTo moved
        rcases Nat.lt_succ_iff_lt_or_eq.1 upTo with lt | rfl
        · exact (waits awaits).2 i from_ lt moved
        · exact absurd moved own
    · exact .inr ⟨f, from_, Nat.lt_succ_of_lt upTo, ends⟩

/-- In a settled session a load that is under way waits in a read. -/
theorem reading_of_settled (settled : (r.state n).Settled)
    (h : (r.state n).loadOf? a = some ⟨j, q⟩) :
    q = .reading ∧ ((r.state n).source j.source).isReady = false := by
  have still := settled a
  cases can : q.canMove ((r.state n).source j.source) with
  | false => simpa [LoadPhase.canMove] using can
  | true =>
    rw [(r.carries h).canMove (r.reach n) can] at still
    cases still

theorem settles (canceled : ((r.state n).store j.store).canceled = true)
    (small : j.chunkSize < halfLimit) (h : (r.state n).loadOf? a = some ⟨j, q⟩)
    (returns : q.awaits = true → r.Returns a j n n') (le : n ≤ n')
    (settled : (r.state n').Settled) :
    (q.awaits = true ∧ (r.state n').loadOf? a = some ⟨j, .reading⟩ ∧
      ((r.state n').source j.source).isReady = false ∧ r.Awaits a j n n') ∨
        ∃ f, n ≤ f ∧ f < n' ∧ r.Quits a j f := by
  refine (r.winds canceled small h returns le).imp_left ?_
  rintro ⟨q', still, waits⟩
  obtain ⟨rfl, unready⟩ := r.reading_of_settled settled still
  obtain ⟨awaits, waited⟩ := waits rfl
  exact ⟨awaits, still, unready, waited⟩

/-- A load that begins when its store is cancelled is in no read. -/
theorem ends_of_start (canceled : ((r.state n).store j.store).canceled = true)
    (small : j.chunkSize < halfLimit) (h : (r.state n).loadOf? a = some j.start) (le : n ≤ n')
    (settled : (r.state n').Settled) : ∃ f, n ≤ f ∧ f < n' ∧ r.Quits a j f := by
  refine (r.settles canceled small h (by rintro ⟨⟩) le settled).resolve_left ?_
  rintro ⟨awaits, -⟩
  cases awaits

/-! ## Cancellation -/

/-- How a store that is cancelled at the moment, and the loads into it, obey. -/
structure Obeys (r : Run (start config workers)) (x : StoreId) (m : Nat) : Prop where
  /-- The store keeps what it had, and nothing comes to it. -/
  kept : ∀ {n}, m ≤ n → ((r.state n).store x).canceled = true ∧
    ((r.state n).store x).chunks = ((r.state m).store x).chunks ∧
      ((r.state n).store x).loadedLen = ((r.state m).store x).loadedLen
  /-- Of a source that is made for the store, before or after, at most one read begins, -/
  once : ∀ {c n}, r.Feeds c x → m ≤ n →
    ((r.state n).source c).reads ≤ ((r.state m).source c).reads + 1
  /-- and that is the next move of a load that had looked at its store before, was told to go on,
  and was about to begin the read: -/
  begun : ∀ {c n}, r.Feeds c x → m ≤ n →
    ((r.state (n + 1)).source c).reads ≠ ((r.state n).source c).reads →
      ∃ a j, j.source = c ∧ r.event n = .move a ∧
        ∀ i, m ≤ i → i ≤ n → (r.state i).loadOf? a = some ⟨j, .beginning⟩
  /-- if there is no such load, no read begins. -/
  unread : ∀ {c n}, r.Feeds c x → m ≤ n →
    (∀ a l, (r.state m).loadOf? a = some l → l.job.source = c → l.phase ≠ .beginning) →
      ((r.state n).source c).reads = ((r.state m).source c).reads
  /-- A source that is made after is never read. -/
  later : ∀ {c n}, r.Feeds c x → (r.state m).clock ≤ c → m ≤ n → ((r.state n).source c).reads = 0
  /-- Whatever waits or is under way for the store has such a source. -/
  queued : ∀ {n p j}, j ∈ ((r.state n).pool p).waiting → j.store = x → r.Feeds j.source x
  underway : ∀ {n a l}, (r.state n).loadOf? a = some l → l.job.store = x → r.Feeds l.job.source x
  /-- A load begins with its buffer, -/
  begins : ∀ {n a l}, (r.state n).loadOf? a = none → (r.state (n + 1)).loadOf? a = some l →
    l.phase = .allocating
  /-- and only its own moves take it further: each takes it nearer to its end, which is at most five
  moves away, and to no read but the one that it was about to begin, unless it panics. -/
  waits : ∀ {n a l}, (r.state n).loadOf? a = some l → r.event n ≠ .move a →
    (r.state (n + 1)).loadOf? a = some l
  moves : ∀ {n a j q}, m ≤ n → (r.state n).loadOf? a = some ⟨j, q⟩ → j.store = x →
    j.chunkSize < halfLimit → r.event n = .move a →
    (q = .reading → ((r.state n).source j.source).answer.1.returns = true) →
      (∃ q', (r.state (n + 1)).loadOf? a = some ⟨j, q'⟩ ∧ q'.left < q.left ∧
        (q'.awaits = true → q = .beginning)) ∨ r.Quits a j n
  /-- A settled session finds the load at its end, or in the very read in which it was or which it
  was about to begin. -/
  settles : ∀ {n n' a j q}, m ≤ n → (r.state n).loadOf? a = some ⟨j, q⟩ → j.store = x →
    j.chunkSize < halfLimit → (q.awaits = true → r.Returns a j n n') → n ≤ n' →
    (r.state n').Settled →
      (q.awaits = true ∧ (r.state n').loadOf? a = some ⟨j, .reading⟩ ∧
        ((r.state n').source j.source).isReady = false ∧ r.Awaits a j n n') ∨
          ∃ f, n ≤ f ∧ f < n' ∧ r.Quits a j f
  /-- A source whose script has no panics panics in no read. -/
  returns : ∀ {n n' a j}, (∀ i, n ≤ i → i < n' →
    ∀ text, .panic text ∉ ((r.state i).source j.source).script) → r.Returns a j n n'
  /-- A load that begins when the store is cancelled comes to its end, whatever its source does. -/
  started : ∀ {n n' a j}, m ≤ n → (r.state n).loadOf? a = some j.start → j.store = x →
    j.chunkSize < halfLimit → n ≤ n' → (r.state n').Settled →
      ∃ f, n ≤ f ∧ f < n' ∧ r.Quits a j f
  /-- A load that waits, in the queue or for a call that took it from there, does so until somebody
  begins it and brings it to its end, or until it is removed or dropped. -/
  taken : ∀ {n n' p j}, m ≤ n → j ∈ ((r.state n).pool p).waiting → j.store = x →
    j.chunkSize < halfLimit → n ≤ n' → (r.state n').Settled →
      j ∈ ((r.state n').pool p).waiting ∨ (∃ i f, n ≤ f ∧ f < n' ∧ r.Quits (.worker p i) j f) ∨
        ∃ f, n ≤ f ∧ f < n' ∧ r.Discards p j f

theorem obeys (canceled : ((r.state m).store x).canceled = true) : r.Obeys x m where
  kept le := ⟨r.canceled_mono canceled le, r.chunks_of_canceled canceled le⟩
  once feeds le := by
    rcases r.reads_of_canceled canceled feeds le with ⟨reads, -⟩ | ⟨reads, -⟩ <;> omega
  begun feeds _ begun := r.begun_of_canceled canceled feeds begun
  unread feeds le none := by
    rcases r.reads_of_canceled canceled feeds le with ⟨reads, -⟩ | ⟨-, ⟨a, j, load, source⟩, -⟩
    · exact reads
    · exact absurd rfl (none a _ load source)
  later {c n} feeds young le := by
    have absent : (r.state m).sources.get? c = none := by
      by_contra present
      have older := r.older_of_source (c := c) (n := m) (Option.isSome_iff_ne_none.2 present)
      exact absurd older (Nat.not_lt_of_le young)
    have zero : ((r.state m).source c).reads = 0 := by simp [Session.source, absent]
    rcases r.reads_of_canceled canceled feeds le with ⟨reads, -⟩ | ⟨-, ⟨a, j, load, rfl⟩, -⟩
    · exact reads.trans zero
    · have present := (r.present load).1
      simp [Table.contains, absent] at present
  queued waits own :=
    own ▸ r.feeds_of_submitted (r.submitted_of_jobs (Pool.mem_jobs_of_waiting waits))
  underway load own := own ▸ r.feeds_of_load load
  begins idle busy := r.load_begins idle busy
  waits load other := r.load_stays load other
  moves := by
    rintro n a j q le load rfl small own returns
    exact r.moves_of_canceled (r.canceled_mono canceled le) small load own returns
  settles := by
    rintro n n' a j q le load rfl small returns le' settled
    exact r.settles (r.canceled_mono canceled le) small load returns le' settled
  returns calm i from_ upTo _ _ := Source.returns_of_script (calm i from_ upTo)
  started := by
    rintro n n' a j le load rfl small le' settled
    exact r.ends_of_start (r.canceled_mono canceled le) small load le' settled
  taken := by
    rintro n n' p j le waits rfl small le' settled
    rcases r.waiting_onward waits le' with still | ⟨k, i, from_, upTo, load⟩ | discarded
    · exact .inl still
    · have canceled := r.canceled_mono canceled (Nat.le_trans le from_)
      obtain ⟨f, after, before, ends⟩ := r.ends_of_start canceled small load upTo settled
      exact .inr (.inl ⟨i, f, Nat.le_trans from_ after, before, ends⟩)
    · exact .inr (.inr discarded)

end Run

namespace Session

/-- A store is cancelled while a load of it is in its second read, and then another load is
submitted. -/
def midRead : List Event :=
  [.begin 0 .newStore,
    .begin 1 (.load 0 { script := [.data ⟨#[1, 2]⟩ none, .data ⟨#[3]⟩ none] } 8),
    .move (.call 1), .move (.call 1), .move (.call 1), .move (.call 1), .move (.call 1),
    .move (.call 1), .move (.call 1), .begin 2 (.cancel 0),
    .begin 3 (.submit 0 { script := [.data ⟨#[4]⟩ none] } 8),
    .move (.worker .separate 0), .move (.worker .separate 0), .move (.worker .separate 0),
    .move (.call 1), .move (.worker .separate 0), .move (.worker .separate 0),
    .move (.worker .separate 0), .move (.call 1), .move (.call 1)]

/-- The byte that the read gives comes to nobody, and both loads end. -/
theorem obeys_midRead : ∃ plays : (start {} 1).Plays midRead,
    (((Run.ofList plays).state 10).store (.separate 0)).canceled = true ∧
      (Run.ofList plays).Obeys (.separate 0) 10 ∧
      ((Run.ofList plays).state 10).loadOf? (.call 1) = some ⟨⟨.separate 0, 1, 8⟩, .reading⟩ ∧
      (((Run.ofList plays).state 14).source 1).answer.1 = .bytes ⟨#[3]⟩ ∧
      (∃ f, 10 ≤ f ∧ f < 20 ∧ (Run.ofList plays).Quits (.call 1) ⟨.separate 0, 1, 8⟩ f) ∧
      (∃ f, 12 ≤ f ∧ f < 20 ∧
        (Run.ofList plays).Quits (.worker .separate 0) ⟨.separate 0, 3, 8⟩ f) ∧
      (((Run.ofList plays).state 20).store (.separate 0)).loadedLen = 2 ∧
      (((Run.ofList plays).state 20).source 1).reads = 2 ∧
      (((Run.ofList plays).state 20).source 3).reads = 0 := by
  have plays : (start {} 1).Plays midRead := by
    unfold Plays
    decide
  have settled : ((start {} 1).play midRead 20).Settled := by
    rw [settled_iff]
    decide
  have canceled : (((Run.ofList plays).state 10).store (.separate 0)).canceled = true := rfl
  have obeys := (Run.ofList plays).obeys canceled
  have quiet : ∀ i < 20, (((start {} 1).play midRead i).source 1).script.all
      (fun item => match item with | .panic _ => false | _ => true) = true := by decide
  have calm : ∀ i, 10 ≤ i → i < 20 →
      ∀ text, .panic text ∉ (((Run.ofList plays).state i).source 1).script := by
    intro i _ upTo text mem
    cases List.all_eq_true.1 (quiet i upTo) _ mem
  have reading : ((Run.ofList plays).state 10).loadOf? (.call 1) =
      some ⟨⟨.separate 0, 1, 8⟩, .reading⟩ := rfl
  have begun : ((Run.ofList plays).state 12).loadOf? (.worker .separate 0) =
      some (Job.start ⟨.separate 0, 3, 8⟩) := rfl
  have gone : ((Run.ofList plays).state 20).loadOf? (.call 1) = none := rfl
  refine ⟨plays, canceled, obeys, reading, rfl, ?_, ?_, rfl, rfl, rfl⟩
  · refine (obeys.settles (Nat.le_refl 10) reading rfl (by decide) (fun _ => obeys.returns calm)
      (by decide) settled).resolve_left ?_
    rintro ⟨-, still, -⟩
    cases gone.symm.trans still
  · exact obeys.started (by decide) begun rfl (by decide) (by decide) settled

/-- A load looks at its store, and then the store is cancelled. -/
def lookedBefore : List Event :=
  [.begin 0 .newStore, .begin 1 (.load 0 { script := [.data ⟨#[1]⟩ none] } 8), .move (.call 1),
    .move (.call 1), .move (.call 1), .begin 2 (.cancel 0), .move (.call 1)]

/-- The load begins a read of its source after the cancellation. -/
theorem begun_lookedBefore : ∃ plays : (start {} 1).Plays lookedBefore,
    (Run.ofList plays).Feeds 1 (.separate 0) ∧
      (((Run.ofList plays).state 6).store (.separate 0)).canceled = true ∧
      (((Run.ofList plays).state 6).source 1).reads = 0 ∧
      (((Run.ofList plays).state 7).source 1).reads = 1 := by
  have plays : (start {} 1).Plays lookedBefore := by
    unfold Plays
    decide
  exact ⟨plays, ⟨1, _, rfl, rfl⟩, rfl, rfl, rfl⟩

/-- A cache is torn down while its load is queued, and a worker takes the load before it is removed.
-/
def takenLate : List Event :=
  [.begin 0 (.openReader ⟨"a"⟩ (some .async) { script := [.data ⟨#[1]⟩ none] }), .move (.call 0),
    .move (.call 0), .move (.call 0), .begin 1 (.part 0 .drop), .move (.call 1), .move (.call 1),
    .begin 2 (.openWriter ⟨"a"⟩ {}), .move (.call 2), .move (.call 2),
    .move (.worker .registry 0), .move (.worker .registry 0), .move (.call 2), .move (.call 2)]

/-- The buffer of the load cannot be made. The load begins when its store is cancelled and closes
its source, but it does not finish the store, and the writer waits for that. -/
theorem unfinished_takenLate : ∃ plays : (start { chunkSize := halfLimit } 1).Plays takenLate,
    (((Run.ofList plays).state 10).store (.cache 0)).canceled = true ∧
      ((Run.ofList plays).state 11).loadOf? (.worker .registry 0) =
        some (Job.start ⟨.cache 0, 0, halfLimit⟩) ∧
      (((Run.ofList plays).state 11).store (.cache 0)).canceled = true ∧
      ((Run.ofList plays).state 14).Settled ∧
      ((Run.ofList plays).state 14).registry.pool.loads = [] ∧
      (((Run.ofList plays).state 14).source 0).closed = true ∧
      (((Run.ofList plays).state 14).source 0).reads = 0 ∧
      (((Run.ofList plays).state 14).store (.cache 0)).finished = false ∧
      (((Run.ofList plays).state 14).task? 2).any (·.awaits (.cache 0)) = true := by
  have plays : (start { chunkSize := halfLimit } 1).Plays takenLate := by
    unfold Plays
    decide
  have settled : ((start { chunkSize := halfLimit } 1).play takenLate 14).Settled := by
    rw [settled_iff]
    decide
  exact ⟨plays, rfl, rfl, rfl, settled, rfl, rfl, rfl, rfl, rfl⟩

end Session
end SharedStream
