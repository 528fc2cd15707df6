import SharedStream.Proofs.Failures
import SharedStream.Proofs.Sinks

/-! # Writers and their sinks

What an event does to one writer and its sink. A sink comes with the call that asks for its key.
Until the lease is granted, and again when it is given back, nobody has to do with it but one call.
-/
namespace SharedStream

/-- The task has to do with a writer: it is about to make one, or has the handle of one, or drops
what may have been one. -/
def Task.leases : Task → Bool
  | .seekWriter _ | .lease _ | .closeSink .. | .giveBack .. | .expire .. => true
  | _ => false

namespace Session
open Keys

variable {s t u : Session} {id w : CallId} {k : Key} {a b : Task} {e : Event} {op : Op}
variable {p : Parting} {f : Option IoFailure}

theorem sink_eq {y : Sink} (hy : s.sinks.get? w = some y) : s.sink w = y := by
  rw [sink, hy, Option.getD_some]

/-! ## Events that concern no writer -/

/-- All writers and all sinks are as they were. -/
structure Unwritten (s u : Session) : Prop where
  writers : u.writers = s.writers
  sinks : u.sinks = s.sinks

theorem Mute.unwritten (h : s.Mute u) : s.Unwritten u := ⟨h.writers, h.sinks⟩

theorem Unwritten.trans (h : s.Unwritten t) (h' : t.Unwritten u) : s.Unwritten u :=
  ⟨h'.writers.trans h.writers, h'.sinks.trans h.sinks⟩

theorem Unwritten.answer (h : s.Unwritten u) {r : Result} : s.Unwritten (u.answer id r) :=
  ⟨h.writers, h.sinks⟩

theorem Unwritten.depart (h : s.Unwritten u) (x : ClosedHandle) (r : Result) (p : Parting) :
    s.Unwritten (u.depart id x r p) := by
  cases p <;> exact ⟨h.writers, h.sinks⟩

theorem Unwritten.of_eq (writers : u.writers = s.writers) (sinks : u.sinks = s.sinks) :
    s.Unwritten u :=
  ⟨writers, sinks⟩

theorem unwritten_moved (r : Reading) (h : Reader) (o : ReadOutcome) :
    s.Unwritten (s.moved r h o) := by
  unfold Session.moved
  dsimp only
  split <;> exact .of_eq rfl rfl

theorem unwritten_moveReading (r : Reading) : s.Unwritten (s.moveReading id r) := by
  have move := s.readMove id r
  generalize s.moveReading id r = u at move ⊢
  cases move with
  | missing | refused | waits => exact .of_eq rfl rfl
  | @goesOn h o => exact { unwritten_moved r h o with }
  | @ends h o => exact { unwritten_moved r h o with }

theorem unwritten_of_load {l : Load} (load : a.load? = some l) :
    s.Unwritten (s.moveTask id a) := by
  have advanced := (mute_advanceLoad (s := s) l).unwritten
  cases a with
  | fill key l' =>
    cases load
    show s.Unwritten (s.moveFill id key l)
    unfold moveFill
    rcases hl : s.advanceLoad l with ⟨m, u⟩
    rw [hl] at advanced
    cases m <;> exact { advanced with }
  | load l' =>
    cases load
    show s.Unwritten (s.moveLoad id l)
    unfold moveLoad
    rcases hl : s.advanceLoad l with ⟨m, u⟩
    rw [hl] at advanced
    cases m <;> exact { advanced with }
  | _ => cases load

theorem unwritten_moveTask (aside : a.leases = false) : s.Unwritten (s.moveTask id a) := by
  cases a with
  | seekWriter | lease | closeSink | giveBack | expire => cases aside
  | fill key l => exact unwritten_of_load rfl
  | load l => exact unwritten_of_load rfl
  | read r => exact unwritten_moveReading r
  | seekReader key mode =>
    show s.Unwritten (s.moveSeekReader id key mode)
    unfold moveSeekReader
    split
    · exact .of_eq rfl rfl
    split <;> exact .of_eq rfl rfl
  | makeSource key mode =>
    show s.Unwritten (s.moveMakeSource id key mode)
    unfold moveMakeSource
    split
    · exact .of_eq rfl rfl
    · exact .of_eq rfl rfl
    · cases mode <;> exact .of_eq rfl rfl
  | dequeueCache key cache => exact { (mute_dequeue .registry (.cache cache)).unwritten with }
  | awaitCache key cache =>
    show s.Unwritten (s.moveAwaitCache id key cache)
    unfold moveAwaitCache
    split <;> exact .of_eq rfl rfl
  | leave reader parting =>
    show s.Unwritten (s.moveLeave id reader parting)
    unfold moveLeave
    split
    · exact .of_eq rfl rfl
    dsimp only
    split
    · refine Unwritten.depart ?_ _ _ _
      exact .of_eq rfl rfl
    split
    · exact .of_eq rfl rfl
    · refine Unwritten.depart ?_ _ _ _
      exact .of_eq rfl rfl
  | readStore store r =>
    show s.Unwritten (s.moveReadStore id store r)
    unfold moveReadStore
    split <;> exact .of_eq rfl rfl
  | standIn key i =>
    show s.Unwritten (s.moveStandIn id key i)
    unfold moveStandIn
    split <;> exact .of_eq rfl rfl
  | assist i =>
    show s.Unwritten (s.moveAssist id i)
    unfold moveAssist
    split <;> exact .of_eq rfl rfl
  | awaitStore store =>
    show s.Unwritten (s.moveAwaitStore id store)
    unfold moveAwaitStore
    split <;> exact .of_eq rfl rfl
  | makeLoad job =>
    show s.Unwritten (s.moveMakeLoad id job)
    unfold moveMakeLoad
    split <;> exact .of_eq rfl rfl
  | announce h p =>
    have same : s.Unwritten s.notifyKeys := .of_eq rfl rfl
    exact same.depart h .done p
  | register | cancelCache => exact .of_eq rfl rfl

/-! ## What becomes of one writer -/

/-- What an event does to a writer and to its sink. -/
inductive WriterChange (s : Session) (w : CallId) (e : Event) (u : Session) : Prop
  | same : u.writers.get? w = s.writers.get? w → u.sinks.get? w = s.sinks.get? w →
      WriterChange s w e u
  /-- The key of the writer is asked for, and the sink is brought along. -/
  | asked {k : Key} {plan : SinkPlan} : e = .begin w (.openWriter k plan) →
      u.writers.get? w = s.writers.get? w → u.sinks.get? w = some plan.sink → WriterChange s w e u
  /-- The key is refused. -/
  | refused {k : Key} : e = .move (.call w) → s.task? w = some (.seekWriter k) →
      u.task? w = none → u.writers.get? w = s.writers.get? w →
      u.sinks.get? w = (s.sinks.get? w).map Sink.close → WriterChange s w e u
  | granted {k : Key} : e = .move (.call w) →
      s.task? w = some (.seekWriter k) ∨ s.task? w = some (.lease k) → u.task? w = none →
      u.writers.get? w = some { key := k } → u.sinks.get? w = s.sinks.get? w → WriterChange s w e u
  /-- The sink is written to or flushed. -/
  | used {id : CallId} {op : Op} {h : Writer} {t : Tally} {result : Result} : e = .begin id op →
      s.writer? w = some h → op.Writes w (s.tally w h) t result →
      u.results.get? id = some result → u.writers.get? w = some { h with written := t.written } →
      u.sinks.get? w = some t.sink → WriterChange s w e u
  /-- The sink is flushed once more and dropped, -/
  | closes {id : CallId} {p : Parting} : e = .move (.call id) →
      s.task? id = some (.closeSink w p) → u.writers.get? w = s.writers.get? w →
      u.sinks.get? w = some (s.sink w).flush.2.close → WriterChange s w e u
  /-- and then the writer is gone. -/
  | gone {id : CallId} {f : Option IoFailure} {p : Parting} : e = .move (.call id) →
      s.task? id = some (.giveBack w f p) → u.writers.get? w = none →
      u.sinks.get? w = s.sinks.get? w → WriterChange s w e u

theorem Unwritten.change (h : s.Unwritten u) (w : CallId) (e : Event) : s.WriterChange w e u := by
  apply WriterChange.same
  · rw [h.writers]
  · rw [h.sinks]

theorem change_grant (ht : s.task? id = some (.seekWriter k) ∨ s.task? id = some (.lease k))
    (w : CallId) : s.WriterChange w (.move (.call id)) (s.grant id k) := by
  by_cases own : w = id
  · subst own
    have ended : (s.grant w k).task? w = none := (task?_answer _ w).trans (if_pos rfl)
    exact .granted rfl ht ended (Table.get?_set_self ..) rfl
  · exact .same (Table.get?_set_of_ne _ _ own) rfl

theorem change_refuse (ht : s.task? id = some (.seekWriter k)) (error : CacheError) (w : CallId) :
    s.WriterChange w (.move (.call id)) (s.refuse id error) := by
  have sinks : (s.refuse id error).sinks.get? w =
      if w = id then (s.sinks.get? w).map Sink.close else s.sinks.get? w := Table.get?_modify ..
  by_cases own : w = id
  · subst own
    have ended : (s.refuse w error).task? w = none := (task?_answer _ w).trans (if_pos rfl)
    exact .refused rfl ht ended rfl (sinks.trans (if_pos rfl))
  · exact .same rfl (sinks.trans (if_neg own))

theorem change_moveSeekWriter (ht : s.task? id = some (.seekWriter k)) (w : CallId) :
    s.WriterChange w (.move (.call id)) (s.moveSeekWriter id k) := by
  unfold moveSeekWriter
  split
  · exact change_refuse ht _ w
  split
  · exact change_grant (.inl ht) w
  · split
    · exact change_refuse ht _ w
    split
    · exact .same rfl rfl
    · exact .same rfl rfl
  all_goals exact .same rfl rfl

theorem change_moveCloseSink {x : CallId} (ht : s.task? id = some (.closeSink x p)) (w : CallId) :
    s.WriterChange w (.move (.call id)) (s.moveCloseSink id x p) := by
  have sinks : (s.moveCloseSink id x p).sinks.get? w =
      if w = x then some (s.sink x).flush.2.close else s.sinks.get? w := Table.get?_set ..
  by_cases own : w = x
  · subst own
    exact .closes rfl ht rfl (sinks.trans (if_pos rfl))
  · exact .same rfl (sinks.trans (if_neg own))

theorem change_moveGiveBack {x : CallId} (ht : s.task? id = some (.giveBack x f p)) (w : CallId) :
    s.WriterChange w (.move (.call id)) (s.moveGiveBack id x f p) := by
  unfold moveGiveBack
  split
  · exact .same rfl rfl
  · dsimp only
    by_cases own : w = x
    · subst own
      split <;> cases p <;> exact .gone rfl ht (Table.get?_erase_self ..) rfl
    · split <;> cases p <;> exact .same ((Table.get?_erase ..).trans (if_neg own)) rfl

theorem change_moveTask (hs : s.Sound) (ht : s.task? id = some a) (w : CallId) :
    s.WriterChange w (.move (.call id)) (s.moveTask id a) := by
  cases a with
  | seekWriter key => exact change_moveSeekWriter ht w
  | lease key =>
    show s.WriterChange w _ (s.moveLease id key)
    unfold moveLease
    rw [if_pos (hs.closing_of_lease ht)]
    exact change_grant (.inr ht) w
  | closeSink x p => exact change_moveCloseSink ht w
  | giveBack x f p => exact change_moveGiveBack ht w
  | expire x r =>
    show s.WriterChange w _ (s.moveExpire id x r)
    rw [moveExpire_eq (hs.completed ht).1]
    exact .same rfl rfl
  | _ => exact (unwritten_moveTask rfl).change w _

theorem Entry.change (entry : s.Entry id op u) (w : CallId) :
    s.WriterChange w (.begin id op) u := by
  cases entry with
  | @openWriter key plan =>
    by_cases own : w = id
    · subst own
      exact .asked rfl rfl (Table.get?_set_self ..)
    · exact .same rfl (Table.get?_set_of_ne _ _ own)
  | @write op x h t result told hw writes =>
    by_cases own : w = x
    · subst own
      exact .used rfl hw writes (Table.get?_set_self ..) (Table.get?_set_self ..)
        (Table.get?_set_self ..)
    · exact .same (Table.get?_set_of_ne _ _ own) (Table.get?_set_of_ne _ _ own)
  | append => exact (mute_changeStore _ (.append _)).unwritten.answer.change w _
  | finish => exact (mute_changeStore _ .finish).unwritten.answer.change w _
  | dequeue => exact (mute_dequeue ..).unwritten.answer.change w _
  | submit =>
    have sources : ∀ y, s.Unwritten { s with sources := s.sources.set id y } := fun _ =>
      .of_eq rfl rfl
    exact ((sources _).trans (mute_setPool ..).unwritten).answer.change w _
  | dropPool => exact (mute_setPool ..).unwritten.answer.change w _
  | _ => exact .same rfl rfl

theorem writer_after (hs : s.Sound) (admitted : s.admits e) (w : CallId) :
    s.WriterChange w e (s.after e) := by
  cases e with
  | begin id op =>
    cases (entry { s with clock := id + 1 } id op).change w with
    | same writers sinks => exact .same writers sinks
    | asked begun writers sinks => exact .asked begun writers sinks
    | used begun hw writes result writers sinks =>
      exact .used begun hw writes result writers sinks
    | refused moved | granted moved | closes moved | gone moved => cases moved
  | move actor =>
    cases actor with
    | worker n i => exact (mute_moveWorker n i).unwritten.change w _
    | pool n => exact (mute_dropQueue n).unwritten.change w _
    | registry => exact mute_endRegistry.unwritten.change w _
    | call id =>
      obtain ⟨a, ht⟩ := task_of_canMove admitted
      have change := change_moveTask hs ht w
      rwa [← move_of_task ht] at change

/-! ## Who has a sink -/

/-- A call that asks for a lease has a sink that nobody has used, and a writer has one that is not
dropped before its lease is about to be given back. -/
structure Equipped (s : Session) : Prop where
  fresh : ∀ {w}, s.clock ≤ w → s.sinks.get? w = none
  asks : ∀ {w a k}, s.task? w = some a → a.writes? = some k →
    ∃ plan : SinkPlan, s.sinks.get? w = some plan.sink
  writes : ∀ {w h}, s.writers.get? w = some h → ∃ y, s.sinks.get? w = some y ∧
    (y.dropped = true → ∃ id f p, s.task? id = some (.giveBack w f p))

theorem Sound.no_writer (hs : s.Sound) (ht : s.task? w = some a) (writes : a.writes? = some k) :
    s.writers.get? w = none := by
  have role : ∃ r, a.role? = some r := by cases a <;> cases writes <;> exact ⟨_, rfl⟩
  obtain ⟨r, role⟩ := role
  exact writer_eq_none_iff.1 (hs.keys.no_handle ((role_of_task ht).trans role)).2

theorem writes_of_firstTask? (first : s.firstTask? id op = some a) (writes : a.writes? = some k) :
    ∃ plan, op = .openWriter k plan := by
  cases op with
  | openWriter key plan =>
    cases first
    cases writes
    exact ⟨plan, rfl⟩
  | read x goal buf =>
    obtain ⟨h, -, rfl⟩ := Option.map_eq_some_iff.1 first
    cases writes
  | submit x plan size =>
    obtain ⟨i, -, rfl⟩ := Option.map_eq_some_iff.1 first
    cases writes
  | part x parting =>
    simp only [firstTask?, Option.some.injEq] at first
    split at first <;> subst first <;> cases writes
  | _ => cases first <;> cases writes

theorem dropped_of_writes {t t' : Tally} {result : Result} (writes : op.Writes w t t' result) :
    t'.sink.dropped = t.sink.dropped := by
  cases writes with
  | write data => exact t.dropped_write data
  | writeAll data => exact t.dropped_writeAll data
  | flush => exact t.dropped_flush

namespace Equipped
variable (h : s.Equipped) (hs : s.Sound) (ha : s.Attentive) (admitted : s.admits e)
include h hs

include admitted in
theorem fresh_after (later : (s.after e).clock ≤ w) : (s.after e).sinks.get? w = none := by
  have before : s.clock ≤ w := Nat.le_trans (step_after hs admitted).clock_le later
  have absent := h.fresh before
  cases writer_after hs admitted w with
  | same _ sinks | granted _ _ _ _ sinks | gone _ _ _ sinks => exact sinks.trans absent
  | refused _ _ _ _ sinks => rw [sinks, absent]; rfl
  | closes _ ht => exact absurd (hs.fits ht) (Nat.not_lt_of_le before)
  | @asked key plan begun =>
    subst begun
    have clock : (s.begin w (.openWriter key plan)).clock = w + 1 := (entry _ w _).clock
    rw [after, clock] at later
    omega
  | used _ hw =>
    obtain ⟨-, -, writer, -, -⟩ := hs.keys.fresh before
    cases (writer_eq_none_iff.1 writer).symm.trans (get?_of_writer? hw)

include ha admitted in
theorem asks_after (held : s.Holds) (ht : (s.after e).task? w = some b)
    (writes : b.writes? = some k) :
    ∃ plan : SinkPlan, (s.after e).sinks.get? w = some plan.sink := by
  rcases task_after hs ha admitted ht with ⟨op, rfl⟩ | ⟨a, before, same⟩
  · have first := (entry { s with clock := w + 1 } w op).firstTask? ht
    obtain ⟨plan, rfl⟩ := writes_of_firstTask? first writes
    rw [after] at ht ⊢
    rw [begin_openWriter ht]
    exact ⟨plan, Table.get?_set_self ..⟩
  · have writes : a.writes? = some k := by
      rcases same with rfl | leads
      · exact writes
      · exact leads.writes?.symm.trans writes
    have no_writer := hs.no_writer before writes
    obtain ⟨plan, sink⟩ := h.asks before writes
    cases writer_after hs admitted w with
    | same _ sinks | gone _ _ _ sinks => exact ⟨plan, sinks.trans sink⟩
    | asked _ _ sinks => exact ⟨_, sinks⟩
    | refused _ _ ended | granted _ _ ended => cases ended.symm.trans ht
    | used _ hw => cases no_writer.symm.trans (get?_of_writer? hw)
    | closes _ parts =>
      have present := held.closeSink parts
      simp [Table.contains, no_writer] at present

include ha admitted in
theorem writes_after {x : Writer} (hw : (s.after e).writers.get? w = some x) :
    ∃ y, (s.after e).sinks.get? w = some y ∧
      (y.dropped = true → ∃ id f p, (s.after e).task? id = some (.giveBack w f p)) := by
  -- A call that is about to give the lease back goes on to do so: when it moves, the writer is
  -- gone.
  have gives : ∀ {id f p}, s.task? id = some (.giveBack w f p) →
      (s.after e).task? id = some (.giveBack w f p) := by
    intro id f p ht
    by_cases own : e.caller = some id
    · have next := ha.after_of_caller admitted own ht
      rw [next] at hw
      exfalso
      revert hw
      show (s.moveGiveBack id w f p).writers.get? w ≠ some x
      unfold moveGiveBack
      split
      · next none => simp [Session.answer, none]
      · dsimp only
        split <;> cases p <;> simp [depart, goOn, Session.answer, freeSlot, notifyKeys, wake]
    · rw [(passes_after hs ha admitted).task own, ht]
  have kept : (s.after e).writers.get? w = s.writers.get? w →
      (s.after e).sinks.get? w = s.sinks.get? w → ∃ y, (s.after e).sinks.get? w = some y ∧
        (y.dropped = true → ∃ id f p, (s.after e).task? id = some (.giveBack w f p)) := by
    intro writers sinks
    obtain ⟨y, hy, dropped⟩ := h.writes (writers ▸ hw)
    refine ⟨y, sinks.trans hy, fun hd => ?_⟩
    obtain ⟨id, f, p, ht⟩ := dropped hd
    exact ⟨id, f, p, gives ht⟩
  cases writer_after hs admitted w with
  | same writers sinks => exact kept writers sinks
  | asked begun writers =>
    subst begun
    obtain ⟨-, -, writer, -, -⟩ := hs.keys.fresh (show s.clock ≤ w from admitted)
    cases (writer_eq_none_iff.1 writer).symm.trans (writers.symm.trans hw)
  | refused _ ht _ writers =>
    cases (hs.no_writer ht rfl).symm.trans (writers.symm.trans hw)
  | granted _ ht _ _ sinks =>
    have asks : ∃ plan : SinkPlan, s.sinks.get? w = some plan.sink :=
      ht.elim (h.asks · rfl) (h.asks · rfl)
    obtain ⟨plan, sink⟩ := asks
    exact ⟨plan.sink, sinks.trans sink, fun dropped => absurd dropped Bool.false_ne_true⟩
  | @used id op x t result _ hx writes _ _ sinks =>
    obtain ⟨y, hy, dropped⟩ := h.writes (get?_of_writer? hx)
    refine ⟨t.sink, sinks, fun hd => ?_⟩
    have same : (s.tally w x).sink = y := by simp [tally, Session.sink, hy]
    rw [dropped_of_writes writes, same] at hd
    obtain ⟨i, f, p, ht⟩ := dropped hd
    exact absurd rfl (isAway_eq_false (isAway_of_writer? hx) ht)
  | @closes id p moved ht writers sinks =>
    refine ⟨_, sinks, fun _ => ⟨id, ?_⟩⟩
    rw [ha.after_of_caller admitted (by rw [moved]; rfl) ht]
    exact ⟨_, p, (task?_goOn (Option.isSome_of_eq_some ht) _ id).trans (if_pos rfl)⟩
  | gone _ _ writers => cases writers.symm.trans hw

end Equipped

theorem equipped_start (config : CacheConfig) (workers : Nat) :
    (start config workers).Equipped where
  fresh _ := rfl
  asks ht := by simp [start, task?] at ht
  writes hw := by simp [start] at hw

theorem Reach.equipped {config : CacheConfig} {workers : Nat} (h : Reach (start config workers) s) :
    s.Equipped :=
  h.invariant (equipped_start config workers) fun reach equipped admitted =>
    { fresh := equipped.fresh_after reach.sound admitted
      asks := equipped.asks_after reach.sound reach.attentive admitted reach.holds
      writes := equipped.writes_after reach.sound reach.attentive admitted }

end Session
end SharedStream
