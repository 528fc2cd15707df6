import SharedStream.Proofs.Readings
import SharedStream.Proofs.Reads.Events

/-! # Reads at one go

A call that reads through a handle and never has to wait goes from its beginning to its end with
nobody else moving. It leaves a twin of the session that it has found.
-/
namespace SharedStream

namespace Table
variable {κ α : Type} [DecidableEq κ]

theorem erase_of_absent {t : Table κ α} {k : κ} (absent : t.get? k = none) : t.erase k = t := by
  cases t
  simp only [Table.erase, mk.injEq]
  exact filter_eq_self_of_find absent

theorem erase_set_of_absent {t : Table κ α} {k : κ} (absent : t.get? k = none) (a : α) :
    (t.set k a).erase k = t := by
  refine Eq.trans ?_ (erase_of_absent absent)
  cases t with
  | mk es nodup =>
    simp only [Table.set, Table.erase, mk.injEq]
    clear nodup absent
    induction es with
    | nil => simp [put]
    | cons e es ih => by_cases own : e.1 = k <;> grind [put]

theorem erase_modify (t : Table κ α) (k : κ) (f : α → α) : (t.modify k f).erase k = t.erase k := by
  cases t with
  | mk es nodup =>
    simp only [Table.modify, Table.map, Table.erase, mk.injEq]
    clear nodup
    induction es with
    | nil => rfl
    | cons e es ih =>
      obtain ⟨i, a⟩ := e
      rw [List.map_cons, List.filter_cons, List.filter_cons]
      by_cases own : i = k
      · simpa [own] using ih
      · simpa [own] using ih

theorem get?_of_erase_eq {t t' : Table κ α} {k j : κ} (h : t.erase k = t') (other : j ≠ k) :
    t.get? j = t'.get? j := by
  rw [← h, get?_erase, if_neg other]

end Table

/-- The operation goes by the position of the handle or moves the handle on. -/
def Op.GoesBy (reader : CallId) : Op → Prop
  | .read r goal _ => r = reader ∧ goal.moves = true
  | .skip r _ => r = reader
  | _ => False

/-- The operation reads or skips through the handle. -/
def Op.Reads (reader : CallId) : Op → Prop
  | .read r _ _ | .skip r _ => r = reader
  | _ => False

namespace Session

variable {v : View} {s t u : Session} {id A c x : CallId} {k : Key} {a : Actor} {op : Op}

/-- The sessions are twins, but that in `u` the call `id` reads through a handle as well. If it
moves the handle on, the position of the handle does not show. -/
structure Beside (v : View) (id : CallId) (s u : Session) : Prop where
  calls : u.calls.erase id = s.calls
  task : ∃ r, u.task? id = some (.read r) ∧ (v.reader = some r.reader ∨ r.goal.moves = false)
  rest : s.Twin v { u with calls := s.calls }

/-! ## What a reading changes -/

theorem Twin.setReader_right (h : s.Twin v t) {r : CallId} {y y' : Reader}
    (hr : t.readers.get? r = some y) (cache : y'.cache = y.cache)
    (same : v.reader ≠ some r → y' = y) :
    s.Twin v { t with readers := t.readers.set r y' } := by
  have set := (Twin.refl v t).setReader (y := y) r cache same
  rw [Table.set_eq_self hr] at set
  exact h.trans set

theorem Twin.note_right (h : s.Twin v t) (hidden : v.hides id) (r : Result) :
    s.Twin v { t with results := t.results.set id r } := by
  obtain ⟨l, rfl, log⟩ := h
  have other : ∀ i, ¬ v.hides i → (l.results.set id r).get? i = l.results.get? i := by
    intro i shows
    refine Table.get?_set_of_ne _ _ fun own => shows ?_
    rwa [own]
  exact ⟨{ l with results := l.results.set id r }, rfl, log.caches, log.readers, log.reader,
    fun i shows => (congrArg _ (other i shows)).trans (log.blurred i shows),
    fun i shows sharp => (other i shows).trans (log.results i shows sharp)⟩

theorem Twin.answer_right (h : s.Twin v t) (absent : t.calls.get? id = none)
    (hidden : v.hides id) (r : Result) : s.Twin v (t.answer id r) := by
  have noted := h.note_right hidden r
  rwa [Session.answer, Table.erase_of_absent absent]

namespace Beside

section
variable (h : s.Beside v id u)
include h

/-- What the reading comes to does not show. -/
theorem answer (hidden : v.hides id) (r : Result) : s.Twin v (u.answer id r) := by
  have same : u.answer id r =
      { { u with calls := s.calls } with results := u.results.set id r } := by
    rw [Session.answer, h.calls]
  rw [same]
  exact h.rest.note_right hidden r

theorem goOn {r : Reading} (reads : v.reader = some r.reader ∨ r.goal.moves = false) :
    s.Beside v id (u.goOn id (.read r)) where
  calls := (Table.erase_modify ..).trans h.calls
  task := by
    obtain ⟨r', ht, -⟩ := h.task
    exact ⟨r, (task?_goOn (Option.isSome_of_eq_some ht) _ _).trans (if_pos rfl), reads⟩
  rest := h.rest

theorem sleep : s.Beside v id (u.sleep id) where
  calls := (Table.erase_modify ..).trans h.calls
  task := by
    obtain ⟨r, ht, reads⟩ := h.task
    exact ⟨r, (task?_sleep ..).trans ht, reads⟩
  rest := h.rest

theorem moved {r : Reading} {y : Reader} (hr : u.readers.get? r.reader = some y)
    (reads : v.reader = some r.reader ∨ r.goal.moves = false) (o : ReadOutcome) :
    s.Beside v id (u.moved r y o) := by
  have same : v.reader ≠ some r.reader → advanced r y o = y := by
    intro other
    rw [advanced, reads.resolve_left other]
    rfl
  have set : s.Beside v id { u with readers := u.readers.set r.reader (advanced r y o) } :=
    ⟨h.calls, h.task, h.rest.setReader_right hr rfl same⟩
  unfold Session.moved
  dsimp only
  split
  · exact set
  · exact ⟨set.calls, set.task, set.rest.touch_right r.cache⟩

/-- A move of the reading leads on or to its end. -/
theorem move (hidden : v.hides id) : s.Beside v id (u.move (.call id)) ∨
    s.Twin v (u.move (.call id)) ∧ (u.move (.call id)).task? id = none := by
  obtain ⟨r, ht, reads⟩ := h.task
  have ended : ∀ {w : Session} {res : Result}, (w.answer id res).task? id = none := by
    intro w res
    rw [task?_answer, if_pos rfl]
  rw [move_of_task ht]
  show s.Beside v id (u.moveReading id r) ∨ _
  have move := u.readMove id r
  rw [moveTask]
  generalize u.moveReading id r = w at move ⊢
  cases move with
  | missing => exact .inr ⟨h.answer hidden _, ended⟩
  | refused => exact .inr ⟨h.answer hidden _, ended⟩
  | waits => exact .inl h.sleep
  | @goesOn y o buf r' hr _ after =>
    obtain ⟨reader, -, goal⟩ := Reading.after_inl after
    refine .inl ((h.moved hr reads o).goOn ?_)
    rw [reader, goal]
    exact reads
  | @ends y o buf res hr => exact .inr ⟨(h.moved hr reads o).answer hidden _, ended⟩

/-- Nobody else gets a move by the reading. -/
theorem canMove (other : a ≠ .call id) : u.canMove a = s.canMove a := by
  have call : ∀ j, j ≠ id → u.calls.get? j = s.calls.get? j := fun j ne =>
    Table.get?_of_erase_eq h.calls ne
  refine Eq.trans ?_ (h.rest.canMove a)
  cases a with
  | call j =>
    have ne : j ≠ id := fun same => other (congrArg _ same)
    simp only [Session.canMove, call j ne]
    rfl
  | worker n i => cases n <;> rfl
  | pool n => cases n <;> rfl
  | registry =>
    obtain ⟨r, ht, -⟩ := h.task
    have tasks : (u.calls.any fun c => c.task.holdsRegistry) =
        s.calls.any fun c => c.task.holdsRegistry := by
      rw [Bool.eq_iff_iff, Table.any_iff, Table.any_iff]
      refine exists_congr fun j => exists_congr fun y => and_congr_left fun holds => ?_
      by_cases own : j = id
      · subst own
        have absent : s.calls.get? j = none := by rw [← h.calls, Table.get?_erase_self]
        refine iff_of_false (fun hy => ?_) (by simp [absent])
        have task : u.task? j = some y.task := congrArg (Option.map Call.task) hy
        rw [ht] at task
        rw [← Option.some.inj task] at holds
        cases holds
      · rw [call j own]
    simp only [Session.canMove, hasHolder, tasks]

end
end Beside

/-! ## How a reading begins -/

theorem get?_calls_of_later (ha : s.Attentive) (later : s.clock ≤ id) :
    s.calls.get? id = none := by
  cases hc : s.calls.get? id with
  | none => rfl
  | some y =>
    have task : s.task? id = some y.task := congrArg (Option.map Call.task) hc
    exact absurd (ha.begun task) (Nat.not_lt_of_le later)

/-- A read or a skip through a handle leaves a twin at once, or a call that reads. -/
theorem begin_of_reads (ha : s.Attentive) (later : s.clock ≤ id) (reads : op.Reads A)
    (hidden : v.hides id) (moves : op.GoesBy A → v.reader = some A) :
    s.Twin v (s.begin id op) ∨ s.Beside v id (s.begin id op) := by
  have ticked : s.Twin v { s with clock := id + 1 } := (Twin.refl v s).setClock s.clock (id + 1)
  have absent := get?_calls_of_later ha later
  cases op with
  | read r goal buf =>
    obtain rfl : r = A := reads
    show s.Twin v (Session.withReader _ id r _) ∨ s.Beside v id (Session.withReader _ id r _)
    unfold withReader
    split
    · next y _ =>
      refine .inr ⟨Table.erase_set_of_absent absent _, ⟨_, (task?_call ..).trans (if_pos rfl), ?_⟩,
        ticked⟩
      cases forward : goal.moves with
      | true => exact .inl (moves ⟨rfl, forward⟩)
      | false => exact .inr rfl
    · exact .inl (ticked.answer_right absent hidden _)
  | skip r len =>
    obtain rfl : r = A := reads
    left
    show s.Twin v (Session.withReader _ id r _)
    unfold withReader
    split
    · next y hy =>
      have reader : s.readers.get? r = some y := by
        have usable : s.reader? r = some y := hy
        unfold reader? at usable
        split at usable
        · cases usable
        · exact usable
      have set : ∀ cursor, s.Twin v
          { s with clock := id + 1, readers := s.readers.set r { y with cursor := cursor } } :=
        fun _ => ticked.setReader_right reader rfl fun shows => absurd (moves rfl) shows
      exact (set _).answer_right absent hidden _
    · exact ticked.answer_right absent hidden _
  | _ => exact reads.elim

/-! ## From the beginning to the end -/

theorem settleWithin_of_settled (settled : s.Settled) (fuel : Nat) : s.settleWithin fuel = s := by
  cases fuel with
  | zero => rfl
  | succ fuel => rw [settleWithin, settled_iff.1 settled]

/-- If the reading ends while the session settles, a twin is left of the session that was settled
before. -/
theorem Beside.twin_of_settleWithin (h : s.Beside v id u) (settled : s.Settled)
    (hidden : v.hides id) {fuel : Nat} (ended : (u.settleWithin fuel).task? id = none) :
    s.Twin v (u.settleWithin fuel) := by
  have going : ∀ {w : Session}, s.Beside v id w → w.task? id ≠ none := by
    intro w beside none
    obtain ⟨r, ht, -⟩ := beside.task
    cases none.symm.trans ht
  induction fuel generalizing u with
  | zero => exact absurd ended (going h)
  | succ fuel ih =>
    rw [settleWithin] at ended ⊢
    cases next : u.next? with
    | none =>
      rw [next] at ended
      exact absurd ended (going h)
    | some a =>
      have own : a = .call id := by
        by_contra other
        have can := canMove_of_next? next
        rw [h.canMove other, settled a] at can
        cases can
      rw [next] at ended
      subst own
      rcases h.move hidden with beside | ⟨twin, -⟩
      · exact ih beside ended
      · show s.Twin v ((u.move (.call id)).settleWithin fuel)
        rw [settleWithin_of_settled (twin.settled.2 settled)]
        exact twin

/-- A read through a handle that does not block leaves a twin of a settled session. -/
theorem twin_of_step (ha : s.Attentive) (later : s.clock ≤ id) (reads : op.Reads A)
    (hidden : v.hides id) (moves : op.GoesBy A → v.reader = some A) (settled : s.Settled)
    (ended : (s.step id op).task? id = none) : s.Twin v (s.step id op) := by
  unfold step settle at ended ⊢
  rcases begin_of_reads ha later reads hidden moves with twin | beside
  · rw [settleWithin_of_settled (twin.settled.2 settled)]
    exact twin
  · exact beside.twin_of_settleWithin settled hidden ended

/-- The call makes all the moves that it still has to make, and nobody else moves. -/
inductive Finishes (id : CallId) : Session → Session → Prop
  | ended {s : Session} : s.task? id = none → Finishes id s s
  | move {s t : Session} : s.canMove (.call id) = true → Finishes id (s.move (.call id)) t →
      Finishes id s t

/-- The operation is done at one go. -/
def Does (s : Session) (id : CallId) (op : Op) (t : Session) : Prop :=
  Finishes id (s.begin id op) t

theorem Finishes.eq_of_ended (h : Finishes id s t) (ended : s.task? id = none) : t = s := by
  cases h with
  | ended => rfl
  | move can =>
    obtain ⟨a, ht⟩ := task_of_canMove can
    cases ended.symm.trans ht

theorem Beside.twin_of_finishes (h : s.Beside v id u) (hidden : v.hides id)
    (finishes : Finishes id u t) : s.Twin v t := by
  induction finishes with
  | ended none =>
    obtain ⟨r, ht, -⟩ := h.task
    cases none.symm.trans ht
  | move _ finishes ih =>
    rcases h.move hidden with beside | ⟨twin, none⟩
    · exact ih beside
    · rw [finishes.eq_of_ended none]
      exact twin

/-- A read through a handle that is done at one go leaves a twin. -/
theorem Does.twin (h : s.Does id op t) (ha : s.Attentive) (later : s.clock ≤ id)
    (reads : op.Reads A) (hidden : v.hides id) (moves : op.GoesBy A → v.reader = some A) :
    s.Twin v t := by
  rcases begin_of_reads ha later reads hidden moves with twin | beside
  · have ended : (s.begin id op).task? id = none := by
      rw [twin.task, task?, get?_calls_of_later ha later, Option.map_none]
    rw [Finishes.eq_of_ended h ended]
    exact twin
  · exact beside.twin_of_finishes hidden h

/-- It can be done in one way only. -/
theorem Finishes.unique (h : Finishes id s t) (h' : Finishes id s u) : u = t := by
  induction h with
  | ended none => exact h'.eq_of_ended none
  | move can _ ih =>
    cases h' with
    | ended none =>
      obtain ⟨a, ht⟩ := task_of_canMove can
      cases none.symm.trans ht
    | move _ rest => exact ih rest

end Session
end SharedStream
