import SharedStream.Proofs.Frames
import SharedStream.Proofs.Unhindered

/-! # Giving handles up

What becomes of the loads when a handle is given up or the registry is let go in a settled session.
As long as the registry does not end, no load is asked to stop but that of a cache that has lost its
last reader to a writer that waits.
-/
namespace SharedStream

namespace Session
open Keys

variable {s : Session} {e : Event} {id c x y : CallId} {q : Reading}

/-- The event lets the registry go or begins to give a handle up. -/
def LetsGo (e : Event) : Prop :=
  (∃ id, e = .begin id .dropRegistry) ∨ ∃ id x p, e = .begin id (.part x p)

/-- The event begins to give the reader handle up. -/
structure Parts (s : Session) (e : Event) (x : CallId) : Prop where
  begins : ∃ id p, e = .begin id (.part x p)
  reader : ∃ h, s.readers.get? x = some h

theorem Parts.unique (hx : s.Parts e x) (hy : s.Parts e y) : y = x := by
  obtain ⟨i, p, hx⟩ := hx.begins
  obtain ⟨j, q, hy⟩ := hy.begins
  cases hx.symm.trans hy
  rfl

/-! ## Reader handles -/

theorem reader_moveReading : (s.moveReading id q).keys.reader = s.keys.reader := by
  have move := s.readMove id q
  generalize s.moveReading id q = u at move ⊢
  cases move with
  | missing | refused | waits => rfl
  | @goesOn h o _ _ hr | @ends h o _ _ hr =>
    show (s.moved q h o).keys.reader = s.keys.reader
    rw [keys_moved hr]

/-- A reader handle is lost only to a call that subtracts it. -/
theorem reads_of_stays (hs : s.Sound) (admitted : s.admits e) (hr : s.Reads y c)
    (stays : ∀ i p, s.task? i ≠ some (.leave y p)) : (s.after e).Reads y c := by
  rw [reads_iff] at hr ⊢
  have role := hs.keys.role_of_reader hr
  have step := step_after hs admitted
  suffices kept : ∃ c', (s.after e).keys.reader.get? y = some c' by
    obtain ⟨c', hc'⟩ := kept
    rw [hc', ← hr, step.reader_of_ended role hc']
  by_cases hands : s.Hands y e
  · refine ⟨c, ?_⟩
    cases e with
    | begin => exact hands.elim
    | move actor =>
      cases actor with
      | call i =>
        obtain ⟨t, ht, handle⟩ := hands
        rw [after, move_of_task ht]
        cases t with
        | read q => exact (congrArg (·.get? y) reader_moveReading).trans hr
        | leave z p =>
          cases handle
          exact absurd ht (stays i p)
        | closeSink => exact hr
        | giveBack w f p =>
          have still : s.Still (s.moveGiveBack i w f p) := still_moveGiveBack w f p
          rw [← reads_iff, Reads, moveTask, still.readers]
          exact reads_iff.2 hr
        | _ => cases handle
      | _ => exact hands.elim
  · have present : s.readers.contains y = true := by
      obtain ⟨h, hh, -⟩ := reads_iff.2 hr
      exact Option.isSome_of_eq_some hh
    obtain ⟨h, hh⟩ := Option.isSome_iff_exists.1 ((spares_after hs admitted).reader hands present)
    exact ⟨h.cache, reader_of_handle hh⟩

end Session

namespace Run
open Session Keys

variable {config : CacheConfig} {workers : Nat} (r : Run (start config workers))
variable {c x y : CallId} {k : Key} {m n : Nat}

/-- The last reader of the cache is given up at the moment while a writer of its key waits. -/
structure Forsakes (r : Run (start config workers)) (m : Nat) (k : Key) (c : CallId) : Prop where
  slot : (r.state m).registry.slots.get? k = some (.reader c)
  waits : ∃ w, (r.state m).task? w = some (.seekWriter k)
  last : ∃ x, (r.state m).Parts (r.event m) x ∧ ∀ y, (r.state m).Reads y c ↔ y = x

/-- How a session stands to the one in which something was given up. -/
structure Dropping (r : Run (start config workers)) (m : Nat) (u : Session) : Prop where
  leaves : ∀ {i y p}, u.task? i = some (.leave y p) → (r.state m).Parts (r.event m) y
  seeks : ∀ {w k}, u.task? w = some (.seekWriter k) → (r.state m).task? w = some (.seekWriter k)
  ended : ∀ {y}, (r.state m).Parts (r.event m) y → y < u.clock ∧ u.keys.role y = none
  reads : ∀ {y c}, ¬ (r.state m).Parts (r.event m) y → (r.state m).Reads y c → u.Reads y c
  slot : ∀ {k c}, u.registry.slots.get? k = some (.reader c) →
    (r.state m).registry.slots.get? k = some (.reader c) ∨
      ∃ y, ¬ (r.state m).Parts (r.event m) y ∧ u.Reads y c
  /-- Only caches are torn down that were forsaken. -/
  retires : ∀ {w k c}, u.task? w = some (.cancelCache k c) ∨ u.task? w = some (.dequeueCache k c) →
    r.Forsakes m k c

theorem Dropping.refl (settled : (r.state m).Settled) : r.Dropping m (r.state m) := by
  have none : ∀ {i a}, (r.state m).task? i = some a → ¬ (r.state m).Waits a →
      (r.state m).taskCanMove i a = true → False := by
    intro i a ht past free
    rcases (r.attentive m).waits_or settled ht with waits | held
    · exact past waits
    · cases free.symm.trans held
  refine ⟨fun ht => (none ht id rfl).elim, id, ?_, fun _ => id, .inl, ?_⟩
  · rintro y ⟨-, h, hh⟩
    have reads := reader_of_handle hh
    exact ⟨(r.sound m).keys.lt_clock_of_reader reads, (r.sound m).keys.role_of_reader reads⟩
  · rintro w k c (ht | ht) <;> exact (none ht id rfl).elim

/-- A handle that is given up is a reader handle for which a call comes to subtract it, or nothing
that seeks a key. -/
theorem firstTask?_of_letsGo {id : CallId} {op : Op} {b : Task} {s : Session}
    (drops : LetsGo (.begin id op)) (first : s.firstTask? id op = some b) :
    (∃ x p, op = .part x p ∧ b = .leave x p ∧ (s.reader? x).isSome = true) ∨
      ∃ x p, b = .closeSink x p := by
  rcases drops with ⟨_, same⟩ | ⟨_, x, p, same⟩ <;> cases same
  · cases first
  · simp only [firstTask?, Option.some.injEq] at first
    split at first
    · next reads => exact .inl ⟨x, p, rfl, first.symm, reads⟩
    · exact .inr ⟨x, p, first.symm⟩

namespace Dropping

/-- The tasks that come up in the step are those of the calls that were in progress, and that of
the call that gives a handle up. -/
theorem task (drops : LetsGo (r.event m)) (le : m ≤ n)
    (moves : m < n → ∃ a, r.event n = .move a) {i : CallId} {b : Task}
    (hb : (r.state (n + 1)).task? i = some b) :
    (∃ y p, b = .leave y p ∧ (r.state m).Parts (r.event m) y) ∨ (∃ y p, b = .closeSink y p) ∨
      ∃ a, (r.state n).task? i = some a ∧ (b = a ∨ a.Leads b) := by
  rw [r.state_succ] at hb
  rcases task_after (r.sound n) (r.attentive n) (r.admitted n) hb with ⟨op, begun⟩ | before
  · have now : m = n := by
      by_contra other
      obtain ⟨a, event⟩ := moves (Nat.lt_of_le_of_ne le other)
      cases event.symm.trans begun
    subst now
    rw [begun] at drops hb
    have first := (entry { r.state m with clock := i + 1 } i op).firstTask? hb
    rcases firstTask?_of_letsGo drops first with ⟨x, p, rfl, rfl, reads⟩ | closes
    · refine .inl ⟨x, p, rfl, ⟨i, p, begun⟩, ?_⟩
      obtain ⟨h, hr⟩ := Option.isSome_iff_exists.1 reads
      exact ⟨h, (reader?_eq_some hr).2⟩
    · exact .inr (.inl closes)
  · exact .inr (.inr before)

/-- Nobody is left who reads the cache, and somebody was when the session was settled. -/
theorem forsakes (h : r.Dropping m (r.state n)) (settled : (r.state m).Settled) {w : CallId}
    (ht : (r.state n).task? w = some (.seekWriter k))
    (hb : (r.state (n + 1)).task? w = some (.cancelCache k c)) : r.Forsakes m k c := by
  have role : (r.state (n + 1)).keys.role w = some (.retires k c) := role_of_task hb
  obtain ⟨slot, unread⟩ := (r.step n).of_retires (role_of_task ht) role
  have alone : ∀ y, ¬ (r.state n).Reads y c := by
    intro y reads
    have := (r.sound n).keys.refs_eq unread
    have := Table.countP_pos_iff (p := (· = c)).2 ⟨y, c, reads_iff.1 reads, by simp⟩
    omega
  have first := h.seeks ht
  have before : (r.state m).registry.slots.get? k = some (.reader c) := by
    rcases h.slot slot with before | ⟨y, -, reads⟩
    · exact before
    · exact absurd reads (alone y)
  have parted : ∀ {y}, (r.state m).Reads y c → (r.state m).Parts (r.event m) y := by
    intro y reads
    by_contra stays
    exact alone y (h.reads stays reads)
  obtain ⟨x, reads⟩ : ∃ x, (r.state m).Reads x c := by
    obtain ⟨-, x, slot, blocks⟩ :=
      ((r.attentive m).waits_or settled first).resolve_right (by simp [taskCanMove])
    cases slot.symm.trans before
    have pos : 0 < (r.state m).refs c := blocks
    rw [((r.sound m).refs_of_slot before).2] at pos
    obtain ⟨x, h, hx, same⟩ := Table.countP_pos_iff.1 (Int.natCast_pos.1 pos)
    exact ⟨x, h, hx, of_decide_eq_true same⟩
  exact ⟨before, ⟨w, first⟩, x, parted reads, fun y => ⟨fun other =>
    (parted reads).unique (parted other), fun same => same ▸ reads⟩⟩

theorem succ (h : r.Dropping m (r.state n)) (settled : (r.state m).Settled)
    (drops : LetsGo (r.event m)) (le : m ≤ n) (moves : m < n → ∃ a, r.event n = .move a) :
    r.Dropping m (r.state (n + 1)) := by
  have step := r.step n
  have kept : ∀ {y c}, ¬ (r.state m).Parts (r.event m) y → (r.state n).Reads y c →
      (r.state (n + 1)).Reads y c := by
    intro y c stays reads
    rw [r.state_succ]
    exact reads_of_stays (r.sound n) (r.admitted n) reads fun i p ht => stays (h.leaves ht)
  refine ⟨?_, ?_, ?_, fun stays reads => kept stays (h.reads stays reads), ?_, ?_⟩
  · intro i y p hb
    rcases task r drops le moves hb with ⟨_, _, same, parts⟩ | ⟨_, _, same⟩ | ⟨a, ha, rfl | leads⟩
    · cases same
      exact parts
    · cases same
    · exact h.leaves ha
    · cases leads
  · intro w k hb
    rcases task r drops le moves hb with ⟨_, _, same, -⟩ | ⟨_, _, same⟩ | ⟨a, ha, rfl | leads⟩
    · cases same
    · cases same
    · exact h.seeks ha
    · cases leads
  · intro y parts
    obtain ⟨later, role⟩ := h.ended parts
    exact ⟨Nat.lt_of_lt_of_le later step.clock_le, step.ended later role⟩
  · intro k c slot
    rcases step.reader_of_after slot with before | ⟨-, builds, reads⟩
    · exact (h.slot before).imp_right fun ⟨y, stays, reads⟩ => ⟨y, stays, kept stays reads⟩
    · refine .inr ⟨c, fun parts => ?_, reads_iff.2 reads⟩
      cases (h.ended parts).2.symm.trans builds
  · intro w k c hb
    rcases hb with hb | hb <;>
      rcases task r drops le moves hb with ⟨_, _, same, -⟩ | ⟨_, _, same⟩ | ⟨a, ha, rfl | leads⟩
    · cases same
    · cases same
    · exact h.retires (.inl ha)
    · cases leads
      exact h.forsakes r settled ha hb
    · cases same
    · cases same
    · exact h.retires (.inr ha)
    · cases leads
      exact h.retires (.inl ha)

end Dropping

section
variable (settled : (r.state m).Settled) (drops : LetsGo (r.event m)) (le : m ≤ n)
  (moves : ∀ {i}, m < i → i < n → ∃ a, r.event i = .move a)
include settled drops le moves

theorem dropping : r.Dropping m (r.state n) := by
  induction le with
  | refl => exact .refl r settled
  | @step n le ih =>
    have before := ih fun lt upTo => moves lt (Nat.lt_succ_of_lt upTo)
    exact before.succ r settled drops le fun lt => moves lt (Nat.lt_succ_self n)

/-- As long as the registry goes on, no cache is asked to stop but one that was forsaken. -/
theorem canceled_of_letsGo (going : ¬ r.Ended n) (canceled : (r.state n).canceled c = true) :
    (r.state m).canceled c = true ∨ ∃ k, r.Forsakes m k c := by
  induction le with
  | refl => exact .inl canceled
  | @step n le ih =>
    have moves' : ∀ {i}, m < i → i < n → ∃ a, r.event i = .move a :=
      fun lt upTo => moves lt (Nat.lt_succ_of_lt upTo)
    have going' : ¬ r.Ended n := fun ⟨i, lt, ends⟩ => going ⟨i, Nat.lt_succ_of_lt lt, ends⟩
    rw [r.state_succ] at canceled
    rcases canceled_after canceled with before | ⟨w, k, -, ht⟩ | ⟨ends, -⟩
    · exact ih moves' going' before
    · exact .inr ⟨k, (r.dropping settled drops le moves').retires (.inl ht)⟩
    · exact absurd ⟨n, Nat.lt_succ_self n, ends⟩ going

/-- Nor is the load of any other removed from the queue. -/
theorem removed_of_letsGo (going : ¬ r.Ended n) {j : Job}
    (removed : j ∈ (r.ledger .registry n).removed) :
    j ∈ (r.ledger .registry m).removed ∨ ∃ k c, j.store = .cache c ∧ r.Forsakes m k c := by
  induction le with
  | refl => exact .inl removed
  | @step n le ih =>
    have moves' : ∀ {i}, m < i → i < n → ∃ a, r.event i = .move a :=
      fun lt upTo => moves lt (Nat.lt_succ_of_lt upTo)
    have going' : ¬ r.Ended n := fun ⟨i, lt, ends⟩ => going ⟨i, Nat.lt_succ_of_lt lt, ends⟩
    rcases Ledger.removed_enterAll removed with before | cancel
    · exact ih moves' going' before
    · have cause := cause cancel
      generalize j.store = y at cause ⊢
      generalize event : r.event n = e at cause
      cases cause with
      | retired ht =>
        exact .inr ⟨_, _, rfl, (r.dropping settled drops le moves').retires (.inr ht)⟩
      | stopped => exact absurd ⟨n, Nat.lt_succ_self n, event⟩ going

end

end Run
end SharedStream
