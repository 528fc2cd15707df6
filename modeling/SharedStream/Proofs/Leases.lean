import SharedStream.Proofs.Writers

/-! # Leases are given back

Whoever closes or drops a writer has its sink flushed once more and dropped, and only then the lease
of the key given back. Neither depends on what the sink says.
-/
namespace SharedStream

namespace Sink

/-- From the one to the other the sink was flushed once and then dropped. -/
structure Ends (y z : Sink) : Prop where
  flushes : z.flushCalls = y.flushCalls + 1
  writes : z.writeCalls = y.writeCalls
  data : z.data = y.data
  before : y.dropped = false
  after : z.dropped = true

theorem ends_close {y : Sink} (kept : y.dropped = false) : y.Ends y.flush.2.close := by
  have flushes : y.flush.2.flushCalls = y.flushCalls + 1 := by
    unfold flush
    dsimp only
    split <;> rfl
  have writes : y.flush.2.writeCalls = y.writeCalls := by
    unfold flush
    dsimp only
    split <;> rfl
  exact ⟨flushes, writes, y.data_flush, kept, rfl⟩

/-- The failure of a flush of the sink. -/
def failure? (y : Sink) : Option IoFailure :=
  match y.flush.1 with
  | .ok _ => none
  | .error e => some e

end Sink

/-- What the caller is told who gives a writer up: the failure of the flush, unless failures are
dropped. -/
inductive Parting.Tells (p : Parting) (y : Sink) : Result → Prop
  | failed {e : IoFailure} : p = .close → y.flush.1 = .error e → Tells p y (.refused (.io e))
  | done : p = .drop ∨ y.flush.1 = .ok () → Tells p y .done

theorem Parting.tells_report (p : Parting) (y : Sink) :
    p.Tells y (p.report (y.failure?.map .io)) := by
  cases p with
  | drop =>
    apply Tells.done
    exact .inl rfl
  | close =>
    unfold Sink.failure?
    split
    · next flushed =>
      apply Tells.done
      exact .inr flushed
    · next e failed =>
      apply Tells.failed
      · rfl
      · exact failed

/-- The task is one of those by which a writer is given up. -/
def Task.partsWith (w : CallId) : Task → Bool
  | .closeSink x _ | .giveBack x _ _ | .expire (.writer x _) _ => x = w
  | _ => false

namespace Session
open Keys

variable {s u : Session} {id i w x : CallId} {k : Key} {a b : Task} {e : Event} {h : Writer}
variable {p : Parting} {f : Option IoFailure} {y : Sink}

/-! ## The moves that give a writer up -/

theorem task?_moveCloseSink (ht : s.task? id = some (.closeSink w p)) (hy : s.sink w = y) :
    (s.moveCloseSink id w p).task? id = some (.giveBack w y.failure? p) := by
  subst hy
  exact (task?_goOn (Option.isSome_of_eq_some ht) _ id).trans (if_pos rfl)

theorem sink_moveCloseSink (hy : s.sinks.get? w = some y) :
    (s.moveCloseSink id w p).sinks.get? w = some y.flush.2.close := by
  rw [← sink_eq hy]
  exact Table.get?_set_self ..

/-- The lease is removed, and all who seek a key are woken. -/
theorem moveGiveBack_eq (hs : s.Sound) (writes : s.Writes w k) : s.moveGiveBack id w f p =
    ((({ s with writers := s.writers.erase w }).freeSlot k).notifyKeys).depart id (.writer w k)
      (p.report (f.map .io)) p := by
  obtain ⟨h, hw, rfl⟩ := writes
  have slot := hs.slot_of_writes ⟨h, hw, rfl⟩
  unfold moveGiveBack
  rw [hw]
  exact if_pos slot

theorem slot_moveGiveBack (hs : s.Sound) (writes : s.Writes w k) :
    (s.moveGiveBack id w f p).registry.slots.get? k = none := by
  rw [moveGiveBack_eq hs writes]
  cases p <;> exact Table.get?_erase_self ..

theorem woken_moveGiveBack (hs : s.Sound) (writes : s.Writes w k)
    (asleep : (s.moveGiveBack id w f p).Sleeps i b) : b.seeks = false := by
  rw [moveGiveBack_eq hs writes] at asleep
  cases p with
  | drop => exact (sleeps_wake.1 (sleeps_answer.1 asleep).2).2
  | close =>
    by_cases own : i = id
    · simp only [own, depart, Sleeps, goOn, Table.get?_modify, if_true,
        Option.map_eq_some_iff] at asleep
      obtain ⟨c, -, same⟩ := asleep
      have next : Task.expire _ _ = b := congrArg Call.task same
      rw [← next]
      rfl
    · exact (sleeps_wake.1 ((sleeps_goOn_of_ne own).1 asleep)).2

theorem gone_moveGiveBack (hs : s.Sound) (writes : s.Writes w k) :
    (s.moveGiveBack id w f p).writers.get? w = none := by
  rw [moveGiveBack_eq hs writes]
  cases p <;> exact Table.get?_erase_self ..

/-! ## Writers that others leave alone -/

theorem role_of_writer (hs : s.Sound) (hw : s.writers.get? w = some h) : s.keys.role w = none := by
  cases role : s.keys.role w with
  | none => rfl
  | some r => cases (writer_eq_none_iff.1 (hs.keys.no_handle role).2).symm.trans hw

theorem older_of_writer (hs : s.Sound) (hw : s.writers.get? w = some h) : w < s.clock := by
  by_contra later
  obtain ⟨-, -, none, -⟩ := hs.keys.fresh (Nat.le_of_not_lt later)
  cases (writer_eq_none_iff.1 none).symm.trans hw

/-- Nobody but the call that has the handle of a writer changes the writer or its sink. -/
theorem writer_kept (hs : s.Sound) (ha : s.Attentive) (admitted : s.admits e)
    (ht : s.task? id = some a) (hx : a.handle? = some w) (hw : s.writers.get? w = some h)
    (other : e.caller ≠ some id) :
    (s.after e).writers.get? w = some h ∧ (s.after e).sinks.get? w = s.sinks.get? w := by
  have foreign : ∀ {i b}, e = .move (.call i) → s.task? i = some b → b.handle? ≠ some w := by
    intro i b moved hb hbx
    apply other
    rw [moved]
    exact congrArg some (ha.sole hb ht hbx hx)
  cases writer_after hs admitted w with
  | same writers sinks => exact ⟨writers.trans hw, sinks⟩
  | asked begun =>
    subst begun
    exact absurd (older_of_writer hs hw) (Nat.not_lt_of_le admitted)
  | refused _ seeks => cases (hs.no_writer seeks rfl).symm.trans hw
  | granted _ seeks =>
    have none : s.writers.get? w = none := seeks.elim (hs.no_writer · rfl) (hs.no_writer · rfl)
    cases none.symm.trans hw
  | used _ there => exact absurd hx (isAway_eq_false (isAway_of_writer? there) ht)
  | closes moved parts => exact absurd rfl (foreign moved parts)
  | gone moved parts => exact absurd rfl (foreign moved parts)

/-- The call that has made the writer has ended, and the writer is gone. -/
structure Gone (s : Session) (w : CallId) : Prop where
  older : w < s.clock
  role : s.keys.role w = none
  writer : s.writers.get? w = none

/-- What is gone does not come back, and its sink is left alone. -/
theorem Gone.after (gone : s.Gone w) (hs : s.Sound) (held : s.Holds) (admitted : s.admits e) :
    (s.after e).Gone w ∧ (s.after e).sinks.get? w = s.sinks.get? w := by
  have step := step_after hs admitted
  have still : (s.after e).Gone w := by
    refine ⟨Nat.lt_of_lt_of_le gone.older step.clock_le, step.ended gone.older gone.role, ?_⟩
    cases hw : (s.after e).writers.get? w with
    | none => rfl
    | some h =>
      have before := step.writer_of_ended gone.role (writes_iff.1 ⟨h, hw, rfl⟩)
      obtain ⟨h', hw', -⟩ := writes_iff.2 before
      cases gone.writer.symm.trans hw'
  refine ⟨still, ?_⟩
  have idle : ∀ {a r}, s.task? w = some a → a.role? ≠ some r := by
    intro a r ht role
    cases gone.role.symm.trans ((role_of_task ht).trans role)
  cases writer_after hs admitted w with
  | same _ sinks | granted _ _ _ _ sinks | gone _ _ _ sinks => exact sinks
  | asked begun =>
    subst begun
    exact absurd gone.older (Nat.not_lt_of_le admitted)
  | refused _ seeks => exact absurd rfl (idle seeks)
  | used _ there => cases gone.writer.symm.trans (get?_of_writer? there)
  | closes _ parts =>
    have present := held.closeSink parts
    simp [Table.contains, gone.writer] at present

/-- A writer goes in a move that gives its lease back. -/
theorem exists_giveBack (hs : s.Sound) (admitted : s.admits e) (before : s.Writes w k)
    (after : ¬ (s.after e).Writes w k) :
    ∃ id f p, e = .move (.call id) ∧ s.task? id = some (.giveBack w f p) := by
  obtain ⟨h, hw, key⟩ := before
  cases writer_after hs admitted w with
  | same writers | asked _ writers | refused _ _ _ writers | closes _ _ writers =>
    exact absurd ⟨h, writers.trans hw, key⟩ after
  | granted _ seeks =>
    have none : s.writers.get? w = none := seeks.elim (hs.no_writer · rfl) (hs.no_writer · rfl)
    cases none.symm.trans hw
  | @used _ _ h' _ _ _ there _ _ writers =>
    have same := get?_of_writer? there
    rw [hw, Option.some.injEq] at same
    subst same
    exact absurd ⟨_, writers, key⟩ after
  | gone moved parts => exact ⟨_, _, _, moved, parts⟩

/-- A call that gives a writer up has nothing to wait for. -/
theorem Attentive.canMove_of_parts (ha : s.Attentive) (ht : s.task? id = some a)
    (parts : a.partsWith w = true) : s.canMove (.call id) = true := by
  apply ha.canMove ht
  · rintro (waits | ⟨seeks, -⟩)
    · cases a <;> first | exact waits | cases parts
    · cases a <;> first | (cases seeks; done) | cases parts
  · cases a <;> first | rfl | cases parts

/-! ## The call that gives a writer up -/

theorem reader?_eq_none (unread : s.readers.get? w = none) : s.reader? w = none := by
  unfold reader?
  split
  · rfl
  · exact unread

theorem begin_part (unread : s.readers.get? w = none) (hw : s.writer? w = some h) :
    s.begin id (.part w p) = ({ s with clock := id + 1 }).call id (.closeSink w p) := by
  have there : ({ s with clock := id + 1 } : Session).writer? w = some h := hw
  have other : ({ s with clock := id + 1 } : Session).reader? w = none := reader?_eq_none unread
  show Session.enter _ id _ = _
  rw [enter, if_neg (by simp [other]), Session.withWriter, there]

theorem begin_part_of_gone (unread : s.readers.get? w = none) (none : s.writer? w = none) :
    s.begin id (.part w p) = ({ s with clock := id + 1 }).answer id (.missing .handle) := by
  have gone : ({ s with clock := id + 1 } : Session).writer? w = Option.none := none
  have other : ({ s with clock := id + 1 } : Session).reader? w = Option.none :=
    reader?_eq_none unread
  show Session.enter _ id _ = _
  rw [enter, if_neg (by simp [other]), Session.withWriter, gone]

end Session

namespace Run
open Session

variable {config : CacheConfig} {workers : Nat} (r : Run (start config workers))
variable {id i j w : CallId} {k : Key} {b : Task} {h : Writer} {p : Parting} {y : Sink}
variable {m n N : Nat}

/-- No call has both a reader and a writer. -/
theorem unread_of_writer (hw : (r.state n).writers.get? w = some h) (le : n ≤ N) :
    (r.state N).readers.get? w = none := by
  have init : (r.state 0).keys.reader.get? w = none ∨ (r.state 0).keys.writer w = none := by
    rw [r.state_zero]
    exact .inl rfl
  have single : (r.state n).keys.reader.get? w = none ∨ (r.state n).keys.writer w = none :=
    r.kept_keys (P := fun v => v.reader.get? w = none ∨ v.writer w = none) init (Nat.zero_le n)
      fun hv hs => hs.single hv
  have absent : (r.state n).keys.reader.get? w = none := by
    refine single.resolve_right fun gone => ?_
    cases (writer_eq_none_iff.1 gone).symm.trans hw
  have role : (r.state n).keys.role w = none := role_of_writer (r.sound n) hw
  have kept : w < (r.state N).keys.clock ∧ (r.state N).keys.role w = none ∧
      (r.state N).keys.reader.get? w = none := by
    refine r.kept_keys (P := fun v => w < v.clock ∧ v.role w = none ∧ v.reader.get? w = none)
      ⟨older_of_writer (r.sound n) hw, role, absent⟩ le ?_
    rintro v v' who hv hs ⟨older, role, absent⟩
    refine ⟨Nat.lt_of_lt_of_le older hs.clock_le, hs.ended older role, ?_⟩
    cases reads : v'.reader.get? w with
    | none => rfl
    | some c => cases absent.symm.trans (hs.reader_of_ended role reads)
  exact reader_eq_none_iff.1 kept.2.2

/-- The writer has the lease of the key. -/
def Leases (r : Run (start config workers)) (w : CallId) (k : Key) (n : Nat) : Prop :=
  (r.state n).registry.slots.get? k = some (.writer w)

theorem leases_iff : r.Leases w k n ↔ (r.state n).Writes w k :=
  ⟨(r.sound n).writes_of_slot, (r.sound n).slot_of_writes⟩

theorem gone_mono (gone : (r.state n).Gone w) (le : n ≤ N) : (r.state N).Gone w :=
  r.kept (P := fun s => s.Gone w) gone
    (fun m _ gone => (gone.after (r.sound m) (r.reach m).holds (r.admitted m)).1) le

/-- How far a call has come that gives a writer up, whose sink was `y` before it. -/
inductive GivingUp (r : Run (start config workers)) (m n : Nat) (id w : CallId) (p : Parting)
    (k : Key) (y : Sink) : Prop
  /-- It has yet to move. -/
  | begun : (∀ i, m < i → i < n → r.event i ≠ .move (.call id)) →
      (r.state n).task? id = some (.closeSink w p) → (r.state n).Writes w k →
      (r.state n).sinks.get? w = some y → GivingUp r m n id w p k y
  /-- The sink is flushed and dropped, and the lease is still there. -/
  | flushed {i : Nat} : m < i → i < n → r.event i = .move (.call id) →
      (r.state i).sinks.get? w = some y → (r.state n).task? id = some (.giveBack w y.failure? p) →
      (r.state n).Writes w k → (r.state n).sinks.get? w = some y.flush.2.close →
      GivingUp r m n id w p k y
  /-- The lease is given back too. A writer that was closed has yet to be dropped. -/
  | closed {i j : Nat} {res : Result} : m < i → i < j → j < n → r.event i = .move (.call id) →
      r.event j = .move (.call id) → (r.state i).sinks.get? w = some y → r.Leases w k j →
      (r.state n).Gone w → (r.state n).sinks.get? w = some y.flush.2.close → p = .close →
      (r.state n).task? id = some (.expire (.writer w k) res) → p.Tells y res →
      GivingUp r m n id w p k y
  /-- The caller is told. The drop after a close has done nothing else. -/
  | released {i j : Nat} {res : Result} : m < i → i < j → j < n → r.event i = .move (.call id) →
      r.event j = .move (.call id) → (r.state i).sinks.get? w = some y → r.Leases w k j →
      (r.state n).Gone w → (r.state n).sinks.get? w = some y.flush.2.close →
      (r.state n).task? id = none → (r.state n).results.get? id = some res → p.Tells y res →
      (p = .close → ∃ l, j < l ∧ l < n ∧ r.event l = .move (.call id) ∧
        r.state (l + 1) = (r.state l).answer id res) →
      GivingUp r m n id w p k y

variable {r}

/-- The first move of the call flushes the sink and drops it. -/
theorem GivingUp.close (lt : m < n) (moved : r.event n = .move (.call id))
    (ht : (r.state n).task? id = some (.closeSink w p)) (writes : (r.state n).Writes w k)
    (hy : (r.state n).sinks.get? w = some y) : r.GivingUp m (n + 1) id w p k y := by
  have after : r.state (n + 1) = (r.state n).moveCloseSink id w p := by
    rw [r.state_succ, moved, Session.after, move_of_task ht]
    rfl
  have same : (r.state n).sink w = y := sink_eq hy
  refine .flushed lt (Nat.lt_succ_self n) moved hy ?_ ?_ ?_
  · rw [after, task?_moveCloseSink ht same]
  · rw [after]
    exact writes
  · rw [after, sink_moveCloseSink hy]

/-- Its second move gives the lease back. -/
theorem GivingUp.release (from_ : m < i) (upTo : i < n)
    (first : r.event i = .move (.call id)) (before : (r.state i).sinks.get? w = some y)
    (moved : r.event n = .move (.call id))
    (ht : (r.state n).task? id = some (.giveBack w y.failure? p))
    (writes : (r.state n).Writes w k) (hz : (r.state n).sinks.get? w = some y.flush.2.close) :
    r.GivingUp m (n + 1) id w p k y := by
  have hs := r.sound n
  have after : r.state (n + 1) = (r.state n).moveGiveBack id w y.failure? p := by
    rw [r.state_succ, moved, Session.after, move_of_task ht]
    rfl
  have leases := r.leases_iff.2 writes
  have tells := p.tells_report y
  have step := r.step n
  have gone : (r.state (n + 1)).Gone w := by
    have older := writes
    obtain ⟨h, hw, -⟩ := older
    refine ⟨Nat.lt_of_lt_of_le (older_of_writer hs hw) step.clock_le,
      step.ended (older_of_writer hs hw) (role_of_writer hs hw), ?_⟩
    rw [after]
    exact gone_moveGiveBack hs writes
  rw [moveGiveBack_eq hs writes] at after
  cases p with
  | drop =>
    refine .released from_ upTo (Nat.lt_succ_self n) first moved before leases gone
      ?_ ?_ ?_ tells ?_
    · rw [after]
      exact hz
    · rw [after]
      exact (task?_answer _ id).trans (if_pos rfl)
    · rw [after]
      exact Table.get?_set_self ..
    · rintro ⟨⟩
  | close =>
    refine .closed from_ upTo (Nat.lt_succ_self n) first moved before leases gone ?_ rfl ?_ tells
    · rw [after]
      exact hz
    · rw [after]
      have pending : ((({ r.state n with writers := (r.state n).writers.erase w }).freeSlot
          k).notifyKeys.task? id).isSome := by
        rw [notifyKeys, task?_wake]
        exact Option.isSome_of_eq_some ht
      exact (task?_goOn pending _ id).trans (if_pos rfl)

/-- The drop of a writer that was closed finds that nothing is left to do. -/
theorem dropped_of_closed {x : ClosedHandle} {res : Result} (moved : r.event n = .move (.call id))
    (ht : (r.state n).task? id = some (.expire x res)) :
    r.state (n + 1) = (r.state n).answer id res := by
  rw [r.state_succ, moved, Session.after, move_of_task ht]
  exact moveExpire_eq ((r.sound n).completed ht).1 res

theorem GivingUp.succ (begun : r.event m = .begin id (.part w p)) (lt : m < n)
    (stage : r.GivingUp m n id w p k y) : r.GivingUp m (n + 1) id w p k y := by
  have hs := r.sound n
  have ha := r.attentive n
  have admitted := r.admitted n
  cases stage with
  | begun idle ht writes hy =>
    by_cases own : (r.event n).caller = some id
    · exact .close lt (ha.caller_eq admitted own ht) ht writes hy
    · obtain ⟨h, hw, key⟩ := writes
      obtain ⟨writers, sinks⟩ := writer_kept hs ha admitted ht rfl hw own
      rw [← r.state_succ] at writers sinks
      refine .begun (fun i lt_i i_lt => ?_) (((r.passes n).task own).trans ht) ⟨h, writers, key⟩
        (sinks.trans hy)
      rcases Nat.lt_or_eq_of_le (Nat.le_of_lt_succ i_lt) with earlier | rfl
      · exact idle i lt_i earlier
      · intro moved
        exact own (by rw [moved]; rfl)
  | @flushed i lt_i i_lt moved first ht writes hy =>
    by_cases own : (r.event n).caller = some id
    · exact .release lt_i i_lt moved first (ha.caller_eq admitted own ht) ht writes hy
    · obtain ⟨h, hw, key⟩ := writes
      obtain ⟨writers, sinks⟩ := writer_kept hs ha admitted ht rfl hw own
      rw [← r.state_succ] at writers sinks
      exact .flushed lt_i (Nat.lt_succ_of_lt i_lt) moved first (((r.passes n).task own).trans ht)
        ⟨h, writers, key⟩ (sinks.trans hy)
  | @closed i j res lt_i lt_j j_lt moved again first leases gone hy close ht tells =>
    obtain ⟨still, sinks⟩ := gone.after hs (r.reach n).holds admitted
    rw [← r.state_succ] at still sinks
    by_cases own : (r.event n).caller = some id
    · have event := ha.caller_eq admitted own ht
      have after := dropped_of_closed event ht
      refine .released lt_i lt_j (Nat.lt_succ_of_lt j_lt) moved again first leases still
        (sinks.trans hy) ?_ ?_ tells fun _ => ⟨n, j_lt, Nat.lt_succ_self n, event, after⟩
      · rw [after]
        exact (task?_answer _ id).trans (if_pos rfl)
      · rw [after]
        exact Table.get?_set_self ..
    · exact .closed lt_i lt_j (Nat.lt_succ_of_lt j_lt) moved again first leases still
        (sinks.trans hy) close (((r.passes n).task own).trans ht) tells
  | @released i j res lt_i lt_j j_lt moved again first leases gone hy ended told tells dropped =>
    obtain ⟨still, sinks⟩ := gone.after hs (r.reach n).holds admitted
    rw [← r.state_succ] at still sinks
    have other := caller_ne_of_ended admitted (r.older_of_begin begun lt) ended
    refine .released lt_i lt_j (Nat.lt_succ_of_lt j_lt) moved again first leases still
      (sinks.trans hy) (((r.passes n).task other).trans ended) ?_ tells fun close => ?_
    · rw [r.state_succ, results_of_ne hs admitted other, told]
    · obtain ⟨l, lt_l, l_lt, event, same⟩ := dropped close
      exact ⟨l, lt_l, Nat.lt_succ_of_lt l_lt, event, same⟩

theorem givingUp (begun : r.event m = .begin id (.part w p)) (hw : (r.state m).writer? w = some h)
    (hy : (r.state m).sinks.get? w = some y) (lt : m < n) : r.GivingUp m n id w p h.key y := by
  induction lt with
  | refl =>
    have there := get?_of_writer? hw
    have after : r.state (m + 1) =
        ({ r.state m with clock := id + 1 }).call id (.closeSink w p) := by
      rw [r.state_succ, begun]
      exact begin_part (r.unread_of_writer there (Nat.le_refl m)) hw
    refine .begun (fun i lt_i i_lt => absurd i_lt (Nat.not_lt_of_le lt_i)) ?_ ?_ ?_
    · rw [after, task?_call, if_pos rfl]
    · rw [after]
      exact ⟨h, there, rfl⟩
    · rw [after]
      exact hy
  | step lt ih => exact ih.succ begun lt

/-! ## How a lease ends -/

/-- A lease ends when a call gives it back. -/
theorem exists_release (leases : r.Leases w k n) (ends : ¬ r.Leases w k (n + 1)) :
    ∃ id f p, r.event n = .move (.call id) ∧ (r.state n).task? id = some (.giveBack w f p) ∧
      r.state (n + 1) = (r.state n).moveGiveBack id w f p := by
  rw [leases_iff] at leases ends
  rw [r.state_succ] at ends
  obtain ⟨id, f, p, moved, ht⟩ := exists_giveBack (r.sound n) (r.admitted n) leases ends
  refine ⟨id, f, p, moved, ht, ?_⟩
  rw [r.state_succ, moved, after, move_of_task ht]
  rfl

/-- All who seek a key are woken then. -/
theorem woken_of_release (leases : r.Leases w k n) (ends : ¬ r.Leases w k (n + 1)) {b : Task}
    (asleep : (r.state (n + 1)).Sleeps i b) : b.seeks = false := by
  obtain ⟨id, f, p, -, -, after⟩ := exists_release leases ends
  rw [after] at asleep
  exact woken_moveGiveBack (r.sound n) (r.leases_iff.1 leases) asleep

theorem gone_of_release (leases : r.Leases w k n) (ends : ¬ r.Leases w k (n + 1)) :
    (r.state (n + 1)).Gone w := by
  obtain ⟨id, f, p, -, -, after⟩ := exists_release leases ends
  rw [leases_iff] at leases
  obtain ⟨h, hw, key⟩ := leases
  have older := older_of_writer (r.sound n) hw
  have step := r.step n
  refine ⟨Nat.lt_of_lt_of_le older step.clock_le, ?_, ?_⟩
  · exact step.ended older (role_of_writer (r.sound n) hw)
  · rw [after]
    exact gone_moveGiveBack (r.sound n) ⟨h, hw, key⟩

theorem Leases.not_gone (leases : r.Leases w k n) : ¬ (r.state n).Gone w := by
  rw [leases_iff] at leases
  obtain ⟨h, hw, -⟩ := leases
  intro gone
  cases gone.writer.symm.trans hw

/-- Who gives a lease back was asked to give the writer up. -/
theorem begun_of_giveBack {f : Option IoFailure}
    (ht : (r.state n).task? id = some (.giveBack w f p)) :
    ∃ m h, m < n ∧ r.event m = .begin id (.part w p) ∧ (r.state m).writer? w = some h := by
  obtain ⟨m, op, lt, begun⟩ := r.exists_begin ht
  obtain ⟨a, first, leads⟩ := r.task_of_begin begun lt ht
  have first : (r.state m).firstTask? id op = some (.closeSink w p) := by
    rcases Relation.ReflTransGen.cases_tail leads with rfl | ⟨b, leads, last⟩
    · cases op <;> simp [firstTask?] at first
      split at first <;> cases first
    · cases last
      rcases Relation.ReflTransGen.cases_tail leads with rfl | ⟨b, -, last⟩
      · exact first
      · cases last
  obtain ⟨b, hb⟩ := r.exists_task_of_begin begun lt ht
  rw [r.state_succ, begun] at hb
  have entry := entry { r.state m with clock := id + 1 } id op
  have same := entry.firstTask? hb
  change (r.state m).firstTask? id op = some b at same
  rw [first, Option.some.injEq] at same
  subst same
  change (Session.enter _ id op).task? id = _ at hb
  generalize Session.enter _ id op = u at entry hb
  have answered : ∀ {t : Session} {r : Result}, u ≠ t.answer id r := by
    rintro t r rfl
    simp [task?_answer] at hb
  cases entry with
  | @closeSink x q h other hw =>
    rw [task?_call, if_pos rfl] at hb
    cases hb
    exact ⟨m, h, lt, begun, hw⟩
  | openReader | openWriter | read | leave | readStore | awaitStore | load | assist =>
    rw [task?_call, if_pos rfl] at hb
    cases hb
  | _ => exact absurd rfl answered

/-- A writer that can be used has a sink that is not dropped. -/
theorem exists_sink (hw : (r.state n).writer? w = some h) :
    ∃ y, (r.state n).sinks.get? w = some y ∧ y.Ends y.flush.2.close := by
  obtain ⟨y, hy, gives⟩ := (r.reach n).equipped.writes (get?_of_writer? hw)
  refine ⟨y, hy, Sink.ends_close ?_⟩
  rw [← Bool.not_eq_true]
  intro dropped
  obtain ⟨id, f, p, ht⟩ := gives dropped
  exact absurd rfl (isAway_eq_false (isAway_of_writer? hw) ht)

/-- A lease was given back before some moment. A call was asked at `m` to give the writer up, and
has moved at `i` and at `j`. -/
structure Returned (r : Run (start config workers)) (N : Nat) (w : CallId) (k : Key) (m i j : Nat)
    (id : CallId) (p : Parting) (y : Sink) : Prop where
  begun : r.event m = .begin id (.part w p)
  order : m < i ∧ i < j ∧ j < N
  /-- First the sink is flushed and dropped, -/
  flushes : r.event i = .move (.call id) ∧ (r.state i).sinks.get? w = some y ∧
    y.Ends y.flush.2.close
  /-- which is the last thing that happens to it, -/
  sink : ∀ l, i < l → (r.state l).sinks.get? w = some y.flush.2.close
  /-- and then the lease ends, once and for good. -/
  releases : r.event j = .move (.call id)
  once : ∀ l, r.Leases w k l ∧ ¬ r.Leases w k (l + 1) ↔ l = j

theorem returned (leases : r.Leases w k n) (le : n ≤ N) (ended : ¬ r.Leases w k N) :
    ∃ m i j id p y, r.Returned N w k m i j id p y := by
  obtain ⟨j, -, lt_N, held, ends⟩ := exists_end (P := fun j => r.Leases w k j) leases ended le
  obtain ⟨id, f, p, releases, ht, -⟩ := exists_release held ends
  obtain ⟨m, h, lt, begun, hw⟩ := begun_of_giveBack ht
  obtain ⟨y, hy, finish⟩ := exists_sink hw
  have stage : ∀ l, m < l → r.GivingUp m l id w p h.key y := fun l lt => givingUp begun hw hy lt
  cases stage j lt with
  | begun _ ht' => cases ht.symm.trans ht'
  | closed _ _ _ _ _ _ _ _ _ _ ht' => cases ht'.symm.trans ht
  | released _ _ _ _ _ _ _ _ _ ended => cases ended.symm.trans ht
  | @flushed i lt_i i_lt moved first =>
    refine ⟨m, i, j, id, p, y, begun, ⟨lt_i, i_lt, lt_N⟩, ⟨moved, first, finish⟩, ?_, releases, ?_⟩
    · intro l lt_l
      cases stage l (Nat.lt_trans lt_i lt_l) with
      | begun idle => exact absurd moved (idle i lt_i lt_l)
      | flushed _ _ _ _ _ _ hy' => exact hy'
      | closed _ _ _ _ _ _ _ _ hy' => exact hy'
      | released _ _ _ _ _ _ _ _ hy' => exact hy'
    · intro l
      constructor
      · rintro ⟨leases', ends'⟩
        rcases Nat.lt_trichotomy l j with lt | same | lt
        · exact absurd (r.gone_mono (gone_of_release leases' ends') lt) held.not_gone
        · exact same
        · exact absurd (r.gone_mono (gone_of_release held ends) lt) leases'.not_gone
      · rintro rfl
        exact ⟨held, ends⟩

/-- The handle of a writer that is being given up cannot be used any more. -/
theorem GivingUp.away (stage : r.GivingUp m n id w p k y) : (r.state n).writer? w = none := by
  have away : ∀ {a}, (r.state n).task? id = some a → a.handle? = some w →
      (r.state n).writer? w = none := by
    intro a ht hx
    cases hw : (r.state n).writer? w with
    | none => rfl
    | some h => exact absurd hx (isAway_eq_false (isAway_of_writer? hw) ht)
  cases stage with
  | begun _ ht => exact away ht rfl
  | flushed _ _ _ _ ht => exact away ht rfl
  | closed _ _ _ _ _ _ _ gone | released _ _ _ _ _ _ _ gone =>
    cases hw : (r.state n).writer? w with
    | none => rfl
    | some h => cases gone.writer.symm.trans (get?_of_writer? hw)

variable (r)

/-- How writers give their leases back. -/
structure GivesBack (r : Run (start config workers)) : Prop where
  /-- When a writer is closed or dropped, its sink is flushed once more and dropped, and only then
  the lease of its key is given back, whatever the sink says. The caller is told what the flush came
  to, if it asks for it. -/
  stages : ∀ {m n id w p h}, r.event m = .begin id (.part w p) → (r.state m).writer? w = some h →
    m < n → ∃ y, (r.state m).sinks.get? w = some y ∧ y.Ends y.flush.2.close ∧
      r.GivingUp m n id w p h.key y
  /-- Until that is done the call can move, -/
  moves : ∀ {m n id w p h}, r.event m = .begin id (.part w p) → (r.state m).writer? w = some h →
    m < n → (r.state n).task? id ≠ none → (r.state n).canMove (.call id) = true
  /-- so that it is done before anybody has to wait for anything else. -/
  ends : ∀ {m n id w p h}, r.event m = .begin id (.part w p) → (r.state m).writer? w = some h →
    m < n → (r.state n).Settled → ∃ y res, (r.state m).sinks.get? w = some y ∧
      (r.state n).sinks.get? w = some y.flush.2.close ∧ (r.state n).results.get? id = some res ∧
        p.Tells y res ∧ ¬ r.Leases w h.key n
  /-- When the lease ends, the key is free, and all who wait for one are woken. -/
  frees : ∀ {n w k}, r.Leases w k n → ¬ r.Leases w k (n + 1) →
    (r.state (n + 1)).registry.slots.get? k = none ∧
      ∀ i b, (r.state (n + 1)).Sleeps i b → b.seeks = false
  /-- As long as it is free, whoever waits for it or comes to ask for it can move, and then has it.
  -/
  next : ∀ {n N w k i}, r.Leases w k n → ¬ r.Leases w k (n + 1) → n < N →
    (∀ j, n < j → j ≤ N → (r.state j).registry.slots.get? k = none) → (r.state N).Contends i k →
      (r.state N).canMove (.call i) = true ∧
        ((r.state N).registry.shutDown = false → (r.state N).Takes (.move (.call i)) i k)
  /-- So no lease is gone whose sink was not flushed after its last write and dropped. -/
  returned : ∀ {n N w k}, r.Leases w k n → n ≤ N → ¬ r.Leases w k N →
    ∃ m i j id p y, r.Returned N w k m i j id p y
  /-- The drop that follows a close does nothing but to end the call: it takes no sink, releases no
  lease and wakes nobody. -/
  dropped : ∀ {n id x res}, r.event n = .move (.call id) →
    (r.state n).task? id = some (.expire x res) → r.state (n + 1) = (r.state n).answer id res
  /-- Giving the writer up again has no effect. -/
  again : ∀ {m n id w p h id' p'}, r.event m = .begin id (.part w p) →
    (r.state m).writer? w = some h → m < n → r.event n = .begin id' (.part w p') →
      r.state (n + 1) = ({ r.state n with clock := id' + 1 }).answer id' (.missing .handle)

end Run
end SharedStream
