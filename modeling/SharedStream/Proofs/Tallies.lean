import SharedStream.Proofs.Writers

/-! # What writers count

The count of a writer and the data of its sink are what the sink has accepted, whatever it is asked
and however it answers.
-/
namespace SharedStream

/-- The attempts that the operation makes at the sink of a writer. -/
def Op.attempts (w : CallId) (t : Tally) : Op → List Attempt
  | .write x data => if x = w then [⟨data, (t.write data).1⟩] else []
  | .writeAll x data => if x = w then t.attempts data else []
  | _ => []

/-- Something is to be written by the writer. -/
def Event.WritesTo (w : CallId) (e : Event) : Prop :=
  ∃ id data, e = .begin id (.write w data) ∨ e = .begin id (.writeAll w data)

namespace Session

variable {s : Session} {id w : CallId} {e : Event} {op : Op} {h : Writer} {t : Tally}
variable {result : Result} {data : ByteArray}

/-- The attempts that an event makes at the sink of a writer. -/
def attempts (s : Session) (w : CallId) : Event → List Attempt
  | .begin _ op =>
    match s.writer? w with
    | some h => op.attempts w (s.tally w h)
    | none => []
  | .move _ => []

theorem attempts_eq_nil (other : ∀ {u result}, ¬ op.Writes w t u result) :
    op.attempts w t = [] := by
  cases op with
  | write x data =>
    refine if_neg fun own => ?_
    subst own
    exact other (.write data)
  | writeAll x data =>
    refine if_neg fun own => ?_
    subst own
    exact other (.writeAll data)
  | _ => rfl

/-- The tally gains what the attempts have brought. -/
theorem gains_of_writes {u : Tally} (writes : op.Writes w t u result) :
    t.Gains u ((op.attempts w t).flatMap Attempt.taken) := by
  cases writes with
  | write data =>
    have gains := t.gains_write data
    simpa [Op.attempts] using gains
  | writeAll data =>
    have gains := (t.writesAll_attempts data).gains
    simpa [Op.attempts] using gains
  | flush => exact t.gains_flush

theorem begin_of_writes (hw : s.writer? w = some h) (writes : op.Writes w (s.tally w h) t result) :
    s.begin id op = (({ s with clock := id + 1 }).setTally w h t).answer id result := by
  have there : ({ s with clock := id + 1 } : Session).writer? w = some h := hw
  cases writes
  all_goals
    show Session.withWriter _ id w _ = _
    rw [Session.withWriter, there]
    rfl

theorem attempts_of_writer? (hw : s.writer? w = some h) (id : CallId) (op : Op) :
    s.attempts w (.begin id op) = op.attempts w (s.tally w h) := by
  rw [attempts, hw]

theorem writesTo_of_attempts (busy : s.attempts w e ≠ []) :
    e.WritesTo w ∧ ∃ h, s.writer? w = some h := by
  cases e with
  | move a => exact absurd rfl busy
  | begin id op =>
    cases hw : s.writer? w with
    | none =>
      rw [attempts, hw] at busy
      exact absurd rfl busy
    | some h =>
      rw [attempts_of_writer? hw] at busy
      refine ⟨?_, h, rfl⟩
      cases op with
      | write x data =>
        obtain rfl : x = w := by_contra fun other => busy (if_neg other)
        exact ⟨id, data, .inl rfl⟩
      | writeAll x data =>
        obtain rfl : x = w := by_contra fun other => busy (if_neg other)
        exact ⟨id, data, .inr rfl⟩
      | _ => exact absurd rfl busy

/-- The event writes to the sink of the writer or flushes it. -/
def Employs (s : Session) (w : CallId) (e : Event) : Prop :=
  ∃ id op h t result, e = .begin id op ∧ s.writer? w = some h ∧
    op.Writes w (s.tally w h) t result

theorem attempts_of_not_employs (idle : ¬ s.Employs w e) : s.attempts w e = [] := by
  cases e with
  | move a => rfl
  | begin id op =>
    cases hw : s.writer? w with
    | none => rw [attempts, hw]
    | some h =>
      rw [attempts_of_writer? hw]
      exact attempts_eq_nil fun writes => idle ⟨id, op, h, _, _, rfl, hw, writes⟩

theorem sink_congr {u : Session} (same : u.sinks.get? w = s.sinks.get? w) :
    u.sink w = s.sink w := by
  rw [sink, same, sink]

/-- The data of a sink is what it was, with what the event has brought. -/
theorem data_after (hs : s.Sound) (equipped : s.Equipped) (admitted : s.admits e) (w : CallId) :
    octets ((s.after e).sink w).data =
      octets (s.sink w).data ++ (s.attempts w e).flatMap Attempt.taken := by
  by_cases employs : s.Employs w e
  · obtain ⟨id, op, h, t, result, rfl, hw, writes⟩ := employs
    have sink : (s.begin id op).sink w = t.sink := by
      rw [begin_of_writes hw writes]
      exact sink_eq (Table.get?_set_self ..)
    rw [attempts_of_writer? hw, after, sink, (gains_of_writes writes).data]
    rfl
  rw [attempts_of_not_employs employs, List.flatMap_nil, List.append_nil]
  cases writer_after hs admitted w with
  | same _ sinks | granted _ _ _ _ sinks | gone _ _ _ sinks => rw [sink_congr sinks]
  | asked begun _ sinks =>
    subst begun
    have absent : s.sinks.get? w = none := equipped.fresh admitted
    rw [sink_eq sinks, sink, absent]
    rfl
  | refused _ _ _ _ sinks =>
    rw [sink, sinks, sink]
    cases s.sinks.get? w <;> rfl
  | closes _ _ _ sinks =>
    rw [sink_eq sinks]
    exact congrArg octets (Sink.data_flush _)
  | used begun hw writes => exact absurd ⟨_, _, _, _, _, begun, hw, writes⟩ employs

/-- A writer counts on, unless it has just come to be. -/
theorem written_after (hs : s.Sound) (equipped : s.Equipped) (admitted : s.admits e) {h' : Writer}
    (hw : (s.after e).writers.get? w = some h') :
    (∃ h, s.writers.get? w = some h ∧
      h'.written = h.written + ((s.attempts w e).flatMap Attempt.taken).length) ∨
      h'.written = 0 ∧ octets ((s.after e).sink w).data = [] := by
  by_cases employs : s.Employs w e
  · obtain ⟨id, op, h, t, result, rfl, there, writes⟩ := employs
    rw [after, begin_of_writes there writes] at hw
    cases (Table.get?_set_self ..).symm.trans hw
    rw [attempts_of_writer? there]
    exact .inl ⟨h, get?_of_writer? there, (gains_of_writes writes).written⟩
  rw [attempts_of_not_employs employs, List.flatMap_nil, List.length_nil]
  cases writer_after hs admitted w with
  | same writers | asked _ writers | refused _ _ _ writers | closes _ _ writers =>
    exact .inl ⟨h', writers.symm.trans hw, rfl⟩
  | granted _ ht _ writers sinks =>
    cases writers.symm.trans hw
    have asks : ∃ plan : SinkPlan, s.sinks.get? w = some plan.sink :=
      ht.elim (equipped.asks · rfl) (equipped.asks · rfl)
    obtain ⟨plan, sink⟩ := asks
    rw [sink_eq (sinks.trans sink)]
    exact .inr ⟨rfl, rfl⟩
  | used begun there writes => exact absurd ⟨_, _, _, _, _, begun, there, writes⟩ employs
  | gone _ _ writers => cases writers.symm.trans hw

end Session

namespace Run
open Session

variable {config : CacheConfig} {workers : Nat} (r : Run (start config workers))
variable {id w : CallId} {op : Op} {h : Writer} {t : Tally} {result : Result} {data : ByteArray}
variable {n : Nat}

/-- What the sink of a writer was asked before some moment, and what it has answered. -/
def attempts (w : CallId) (n : Nat) : List Attempt :=
  (List.range n).flatMap fun i => (r.state i).attempts w (r.event i)

/-- What the sink of a writer has accepted before some moment. -/
def accepted (w : CallId) (n : Nat) : List UInt8 := (r.attempts w n).flatMap Attempt.taken

theorem accepted_succ (w : CallId) (n : Nat) : r.accepted w (n + 1) =
    r.accepted w n ++ ((r.state n).attempts w (r.event n)).flatMap Attempt.taken := by
  simp [accepted, attempts, List.range_succ]

theorem data_eq (w : CallId) (n : Nat) : octets ((r.state n).sink w).data = r.accepted w n := by
  induction n with
  | zero =>
    rw [r.state_zero]
    rfl
  | succ n ih =>
    rw [r.state_succ, data_after (r.sound n) (r.reach n).equipped (r.admitted n), ih, accepted_succ]

theorem written_eq (hw : (r.state n).writers.get? w = some h) :
    h.written = (r.accepted w n).length := by
  induction n generalizing h with
  | zero =>
    rw [r.state_zero] at hw
    cases hw
  | succ n ih =>
    have data := r.data_eq w (n + 1)
    rw [r.state_succ] at hw data
    rcases written_after (r.sound n) (r.reach n).equipped (r.admitted n) hw with
      ⟨before, there, counts⟩ | ⟨zero, empty⟩
    · rw [counts, ih there, accepted_succ, List.length_append]
    · rw [zero, ← data, empty, List.length_nil]

/-- What is told of a call that writes or flushes, and what it leaves. -/
theorem told_of_writes (begun : r.event n = .begin id op) (hw : (r.state n).writer? w = some h)
    (writes : op.Writes w ((r.state n).tally w h) t result) :
    (r.state (n + 1)).results.get? id = some result ∧ t.written = (r.accepted w (n + 1)).length ∧
      (r.state (n + 1)).writers.get? w = some { h with written := t.written } ∧
      r.accepted w (n + 1) =
        r.accepted w n ++ (op.attempts w ((r.state n).tally w h)).flatMap Attempt.taken := by
  have after : r.state (n + 1) =
      (({ r.state n with clock := id + 1 }).setTally w h t).answer id result := by
    rw [r.state_succ, begun]
    exact begin_of_writes hw writes
  have there : (r.state (n + 1)).writers.get? w = some { h with written := t.written } := by
    rw [after]
    exact Table.get?_set_self ..
  refine ⟨?_, r.written_eq there, there, ?_⟩
  · rw [after]
    exact Table.get?_set_self ..
  · rw [accepted_succ, begun, attempts_of_writer? hw]

/-- What a writer counts and what its sink holds. -/
structure Tallied (r : Run (start config workers)) (w : CallId) : Prop where
  /-- A writer counts what its sink has accepted, -/
  written : ∀ {n h}, (r.state n).writers.get? w = some h → h.written = (r.accepted w n).length
  /-- and this is what the sink holds. -/
  data : ∀ n, octets ((r.state n).sink w).data = r.accepted w n
  /-- A write comes to what the sink says to it. The accepted beginning of the data comes last, and
  a failure changes nothing. -/
  write : ∀ {n id data h}, r.event n = .begin id (.write w data) →
    (r.state n).writer? w = some h → ∃ result,
      (r.state (n + 1)).results.get? id = some (.wrote result (r.accepted w (n + 1)).length) ∧
      (((r.state n).sink w).write data).1 = result ∧
      (∀ {k}, result = .ok k → k ≤ data.size ∧
        r.accepted w (n + 1) = r.accepted w n ++ (octets data).take k) ∧
      ∀ {e}, result = .error e → r.accepted w (n + 1) = r.accepted w n ∧
        (r.state (n + 1)).writers.get? w = some h
  /-- A call that writes everything makes the attempts of the loop. It brings a beginning of its
  data, each byte once, and all of it if and only if it succeeds. -/
  writeAll : ∀ {n id data h}, r.event n = .begin id (.writeAll w data) →
    (r.state n).writer? w = some h → ∃ result,
      (r.state (n + 1)).results.get? id = some (.wroteAll result (r.accepted w (n + 1)).length) ∧
      (∃ t, ((r.state n).tally w h).WritesAll data ((r.state n).attempts w (r.event n)) result t) ∧
      ∃ taken rest, octets data = taken ++ rest ∧
        r.accepted w (n + 1) = r.accepted w n ++ taken ∧ (result = .ok () ↔ rest = [])
  /-- A flush is answered as the sink does, and brings nothing. -/
  flush : ∀ {n id h}, r.event n = .begin id (.flush w) → (r.state n).writer? w = some h →
    (r.state (n + 1)).results.get? id = some (.flushed ((r.state n).sink w).flush.1) ∧
      r.accepted w (n + 1) = r.accepted w n ∧ (r.state (n + 1)).writers.get? w = some h
  /-- Nothing else brings anything. -/
  other : ∀ n, ((r.event n).WritesTo w → (r.state n).writer? w = none) →
    r.accepted w (n + 1) = r.accepted w n

/-- The count of a writer and the data of its sink keep in step. -/
theorem tallied (w : CallId) : r.Tallied w where
  written := r.written_eq
  data := r.data_eq w
  write {n id data h} begun hw := by
    obtain ⟨told, total, there, accepts⟩ := r.told_of_writes begun hw (.write data)
    have gains := ((r.state n).tally w h).gains_write data
    have answers := (((r.state n).tally w h).sink_write data).2
    have fits : ∀ {k}, (((r.state n).tally w h).write data).1 = .ok k → k ≤ data.size :=
      fun ok => Sink.le_of_write (answers.symm.trans ok)
    simp only [Op.attempts, if_true, List.flatMap_singleton] at accepts
    rw [total] at told there
    generalize (((r.state n).tally w h).write data).1 = result at *
    refine ⟨result, told, answers.symm, ?_, ?_⟩
    · rintro k rfl
      exact ⟨fits rfl, accepts⟩
    · rintro e rfl
      rw [Attempt.taken_error, List.append_nil] at accepts
      refine ⟨accepts, ?_⟩
      rw [there, accepts, ← r.written_eq (get?_of_writer? hw)]
  writeAll {n id data h} begun hw := by
    obtain ⟨told, total, -, accepts⟩ := r.told_of_writes begun hw (.writeAll data)
    have runs := ((r.state n).tally w h).writesAll_attempts data
    obtain ⟨rest, split, whole⟩ := runs.exists_rest
    have made : (r.state n).attempts w (r.event n) = ((r.state n).tally w h).attempts data := by
      rw [begun, attempts_of_writer? hw]
      exact if_pos rfl
    rw [total] at told
    rw [made]
    refine ⟨_, told, ⟨_, runs⟩, _, rest, split, ?_, whole⟩
    rw [accepts, Op.attempts, if_pos rfl]
  flush {n id h} begun hw := by
    obtain ⟨told, total, there, accepts⟩ := r.told_of_writes begun hw .flush
    exact ⟨told, accepts.trans (List.append_nil _), there⟩
  other n none := by
    have idle : (r.state n).attempts w (r.event n) = [] := by
      by_contra busy
      obtain ⟨writes, h, hw⟩ := writesTo_of_attempts busy
      cases (none writes).symm.trans hw
    rw [accepted_succ, idle, List.flatMap_nil, List.append_nil]

end Run
end SharedStream
