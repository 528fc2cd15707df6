import SharedStream.Proofs.Dropping

/-! # A pool that stands still

In a settled session every load that is run waits in a read. As long as none of these reads returns
the workers stay as they are, and a load that is queued is left to workers who are hired later. They
are hired for loads of readers that are being opened.
-/
namespace SharedStream

/-- It does nothing as long as the load that it may run does not go on. -/
def Worker.isStuck : Worker → Bool
  | .loading .. | .gone | .dead | .between [] | .fallen _ [] => true
  | .ready | .asleep | .woken | .denied | .between (_ :: _) | .fallen _ (_ :: _) => false

namespace Pool

variable {p q : Pool} {a : Act} {i : Nat} {w w' : Worker} {l : Load}

theorem Turn.eq_of_isStuck (h : p.Turn a i w w') (stuck : w.isStuck = true)
    (calm : ∀ l o m, a = .turn i l o m → w ≠ .loading l o) : w' = w := by
  cases h with
  | stays => rfl
  | moves l o m act => exact absurd rfl (calm l o m act)
  | takes free | sleeps free | goes free => rcases free with rfl | rfl <;> cases stuck
  | wakes | retracts | begins | sheds => cases stuck

/-- All who were there are as they were, and no newcomer has taken loads as a stand-in. -/
structure Stuck (p q : Pool) : Prop where
  kept : ∀ {i : Nat} {w}, p.staff[i]? = some w → q.staff[i]? = some w
  excused : ∀ {i : Nat} {w}, q.staff[i]? = some w → p.staff[i]? = none → w.standsIn = true →
    w = .between []

theorem Stuck.refl (p : Pool) : p.Stuck p where
  kept hw := hw
  excused hw new := by cases hw.symm.trans new

theorem Stuck.hired_pos (h : p.Stuck q) (some : 0 < p.hired) : 0 < q.hired := by
  obtain ⟨w, hw, hired⟩ := List.countP_pos_iff.1 some
  obtain ⟨i, hi⟩ := List.mem_iff_getElem?.1 hw
  exact List.countP_pos_iff.2 ⟨w, List.mem_of_getElem? (h.kept hi), hired⟩

/-- A stand-in takes nothing as long as a worker with a thread is left. -/
theorem Stuck.act (h : p.Stuck q) (stuck : ∀ w ∈ p.staff, w.isStuck = true) (some : 0 < p.hired)
    (hb : q.Balanced) (allowed : q.Allows a)
    (calm : ∀ i l o m, a = .turn i l o m → p.staff[i]? ≠ .some (.loading l o)) :
    p.Stuck (q.act a) where
  kept {i w} hw := by
    obtain ⟨w', hw', turn⟩ := turn_act allowed (h.kept hw)
    rw [hw', turn.eq_of_isStuck (stuck w (List.mem_of_getElem? hw)) ?_]
    rintro l o m act rfl
    exact calm i l o m act hw
  excused {i w'} hw' new standsIn := by
    rcases turned_act allowed hw' with ⟨w, hw, turn⟩ | ⟨j, t, -, rfl | ⟨rfl, -⟩⟩
    · cases turn with
      | stays => exact h.excused hw new standsIn
      | moves l o m =>
        rw [Worker.standsIn_after] at standsIn
        cases h.excused hw new standsIn
      | retracts act all =>
        rcases all with rfl | ⟨last, rfl⟩
        · rfl
        · have hired := h.hired_pos some
          have denied := denied_pos hw
          have workers := hb.workers_eq
          omega
      | begins | sheds => cases h.excused hw new rfl
      | takes | sleeps | goes | wakes => cases standsIn
    · cases standsIn
    · cases standsIn

end Pool

namespace Session

variable {s : Session} {id : CallId} {op : Op} {e : Event} {a : Actor} {l : Load}

/-- A read that a load waits in returns when the load moves. -/
theorem not_moves_of_silent (load : s.loadOf? a = some l) (reading : l.phase = .reading)
    (silent : s.answered l.job.source e = none) : e ≠ .move a := by
  rintro rfl
  simp [answered, readsFrom?, load, reading] at silent

/-- A read is answered to whoever runs a load that waits in it. -/
theorem loads_of_answered {c : CallId} {b : SourceAnswer} (h : s.answered c e = some b) :
    ∃ a l, e = .move a ∧ s.loadOf? a = some l ∧ l.phase = .reading ∧ l.job.source = c := by
  cases e with
  | begin => cases h
  | move a =>
    simp only [answered] at h
    split at h
    · next reads =>
      obtain ⟨l, load, own⟩ := Option.bind_eq_some_iff.1 reads
      split at own
      · next reading => exact ⟨a, l, rfl, load, reading, Option.some.inj own⟩
      · cases own
    · cases h

/-- Whoever lets something go does not touch a source. -/
theorem sources_of_letsGo (drops : LetsGo (.begin id op)) :
    (s.begin id op).sources = s.sources := by
  rcases drops with ⟨_, same⟩ | ⟨_, x, p, same⟩ <;> cases same
  · simp only [Session.begin, enter, withRegistry]
    split <;> rfl
  · simp only [Session.begin, enter]
    split
    · rfl
    unfold withWriter
    split <;> rfl

/-- In a settled session with a load in the queue all workers are stuck, and one has a thread. -/
theorem Settled.stuck (settled : s.Settled) (hb : s.registry.pool.Balanced)
    (queued : s.registry.pool.queue ≠ []) :
    (∀ w ∈ s.registry.pool.staff, w.isStuck = true) ∧ 0 < s.registry.pool.hired := by
  have pos := List.length_pos_iff.2 queued
  obtain ⟨ready, woken, denied⟩ := settled.nobody_looks .registry
  have workers := hb.workers_eq
  have attended := hb.attended
  have staffed := hb.staffed pos
  change s.registry.pool.ready = 0 at ready
  change s.registry.pool.woken = 0 at woken
  change s.registry.pool.denied = 0 at denied
  refine ⟨fun w hw => ?_, by omega⟩
  obtain ⟨i, hi⟩ := List.mem_iff_getElem?.1 hw
  have still : s.workerCanMove .registry i = false := settled (.worker .registry i)
  rw [workerCanMove, show (s.pool .registry).staff[i]? = some w from hi] at still
  cases w with
  | asleep =>
    have asleep : 0 < s.registry.pool.asleep := List.countP_pos_iff.2 ⟨_, hw, rfl⟩
    omega
  | ready | woken | denied => cases still
  | between rest | fallen _ rest =>
    cases rest with
    | nil => rfl
    | cons => cases still
  | loading | gone | dead => rfl

end Session

namespace Run
open Session

variable {config : CacheConfig} {workers : Nat} (r : Run (start config workers))
variable {c id y : CallId} {k : Key} {p : Parting} {i j m n w : Nat} {l : Load}

/-- No read that a load of the registry's pool waits in at the moment `m` returns before `n`. -/
def Calm (r : Run (start config workers)) (m n : Nat) : Prop :=
  ∀ {w l}, (r.state m).registry.pool.load? w = some l → ∀ {i}, m ≤ i → i < n →
    (r.state i).answered l.job.source (r.event i) = none

/-- Whoever comes new is hired for a load that is submitted. -/
theorem hires {v : Worker} (le : m ≤ i)
    (hw : (r.state i).registry.pool.staff[w]? = some v)
    (new : (r.state m).registry.pool.staff[w]? = none) :
    ∃ k j t, m ≤ k ∧ k < i ∧ .submit j t ∈ (r.state k).poolActs .registry (r.event k) := by
  induction le generalizing v with
  | refl => cases hw.symm.trans new
  | @step i le ih =>
    have earlier : ∀ {v}, (r.state i).registry.pool.staff[w]? = some v → ∃ k j t,
        m ≤ k ∧ k < i + 1 ∧ .submit j t ∈ (r.state k).poolActs .registry (r.event k) := by
      intro v hv
      obtain ⟨k, j, t, from_, upTo, submits⟩ := ih hv
      exact ⟨k, j, t, from_, Nat.lt_succ_of_lt upTo, submits⟩
    rcases r.pool_step .registry i with ⟨-, same⟩ | ⟨a, acts, allowed, step⟩
    · rw [show (r.state (i + 1)).registry.pool = _ from same] at hw
      exact earlier hw
    · rw [show (r.state (i + 1)).registry.pool = _ from step] at hw
      rcases Pool.turned_act allowed hw with ⟨v', hv', -⟩ | ⟨j, t, rfl, -⟩
      · exact earlier hv'
      · exact ⟨i, j, t, le, Nat.lt_succ_self i, by rw [acts]; exact List.mem_singleton_self _⟩

section
variable (settled : (r.state m).Settled)
include settled

section
variable (calm : r.Calm m n) (busy : (r.state m).registry.pool.load? w = some l)
include calm busy

/-- Such a load is where it was, -/
theorem Calm.load (from_ : m ≤ i) (upTo : i ≤ n) :
    (r.state i).loadOf? (.worker .registry w) = some l := by
  have reading := (r.busy (n := .registry) settled busy).1.1
  induction from_ with
  | refl => rwa [loadOf?_worker]
  | @step i from_ ih =>
    have load := ih (Nat.le_of_succ_le upTo)
    exact r.load_stays load (not_moves_of_silent load reading (calm busy from_ upTo))

/-- and does not move. -/
theorem Calm.idle (from_ : m ≤ i) (upTo : i < n) : r.event i ≠ .move (.worker .registry w) := by
  have reading := (r.busy (n := .registry) settled busy).1.1
  exact not_moves_of_silent (calm.load r settled busy from_ (Nat.le_of_lt upTo)) reading
    (calm busy from_ upTo)

end

/-! ## Workers -/

section
variable (queued : (r.state m).registry.pool.queue ≠ []) (calm : r.Calm m n)
include queued calm

/-- The workers of a pool with a load in its queue stay as they are. -/
theorem Calm.stuck (from_ : m ≤ i) (upTo : i ≤ n) :
    (r.state m).registry.pool.Stuck (r.state i).registry.pool := by
  obtain ⟨stuck, some⟩ := settled.stuck (r.balanced .registry m) queued
  induction from_ with
  | refl => exact .refl _
  | @step i from_ ih =>
    have before := ih (Nat.le_of_succ_le upTo)
    rcases r.pool_step .registry i with ⟨-, same⟩ | ⟨a, acts, allowed, step⟩
    · exact (show (r.state (i + 1)).registry.pool = _ from same) ▸ before
    · rw [show (r.state (i + 1)).registry.pool = _ from step]
      refine before.act stuck some (r.balanced .registry i) allowed ?_
      rintro w l o move rfl hw
      have other := calm.idle r settled (Pool.load?_of_loading hw) from_ upTo
      have cause := cause (s := r.state i) (n := .registry) (e := r.event i)
        (by rw [acts]; exact List.mem_singleton_self _)
      generalize r.event i = e at cause other
      cases cause with
      | turns => exact other rfl

end

/-! ## Opening calls -/

/-- A call that is about to give a reader up in a step was begun with the step. -/
theorem parts_of_leave (le : m ≤ n) (moves : ∀ {i}, m < i → i < n → ∃ a, r.event i = .move a)
    (ht : (r.state n).task? id = some (.leave y p)) : (r.state m).Parts (r.event m) y := by
  induction le with
  | refl =>
    rcases (r.attentive m).waits_or settled ht with waits | held
    · cases waits
    · cases held
  | @step n le ih =>
    have earlier := ih fun from_ upTo => moves from_ (Nat.lt_succ_of_lt upTo)
    rw [r.state_succ] at ht
    rcases task_after (r.sound n) (r.attentive n) (r.admitted n) ht with
      ⟨op, begun⟩ | ⟨a, before, rfl | leads⟩
    · have now : m = n := by
        by_contra other
        obtain ⟨a, event⟩ := moves (Nat.lt_of_le_of_ne le other) (Nat.lt_succ_self n)
        cases event.symm.trans begun
      subst now
      rw [begun] at ht ⊢
      have first := (entry { r.state m with clock := id + 1 } id op).firstTask? ht
      cases op with
      | part x parting =>
        simp only [firstTask?, Option.some.injEq] at first
        split at first
        · next reads =>
          cases first
          obtain ⟨h, hr⟩ := Option.isSome_iff_exists.1 reads
          exact ⟨⟨id, p, rfl⟩, h, (reader?_eq_some hr).2⟩
        · cases first
      | _ => simp [firstTask?] at first
    · exact earlier before
    · cases leads

/-- The call has queued the load of the key that it opens. It gets a reader handle or has got
it. -/
def Enters (r : Run (start config workers)) (m n : Nat) (id : CallId) : Prop :=
  (∃ k, (r.state n).task? id = some (.register k)) ∨
    (∃ k i, (r.state n).task? id = some (.standIn k i) ∧
      (r.state m).registry.pool.staff[i]? = none) ∨ (r.state n).Reads id id

section
variable (queued : (r.state m).registry.pool.queue ≠ []) (calm : r.Calm m n)
include queued calm

theorem Calm.enters_of_submits {j : Job} {t : Bool} (from_ : m ≤ i) (upTo : i < n)
    (submits : .submit j t ∈ (r.state i).poolActs .registry (r.event i)) :
    ∃ k, (r.state i).keys.role j.source = some (.makes k) ∧ r.Enters m (i + 1) j.source := by
  have stuck := calm.stuck r settled queued from_ (Nat.le_of_lt upTo)
  have cause := cause submits
  generalize event : r.event i = e at cause
  cases cause with
  | @loaded id k ht gives =>
    refine ⟨k, role_of_task ht, ?_⟩
    have task : (((r.state i).newCache id k .async).task? id).isSome := Option.isSome_of_eq_some ht
    have next : (r.state (i + 1)).task? id = some (.submitted k
        ((r.state i).registry.pool.denied? ((r.state i).source id).threaded)) := by
      rw [r.state_succ, event, Session.after, move_of_task ht, moveTask, moveMakeSource, gives]
      refine (task?_goOn (by rwa [task?_setPool]) _ _).trans ?_
      rw [if_pos rfl]
      rfl
    cases denied : (r.state i).registry.pool.denied? ((r.state i).source id).threaded with
    | none => exact .inl ⟨k, by rw [next, denied]; rfl⟩
    | some w =>
      refine .inr (.inl ⟨k, w, by rw [next, denied]; rfl, ?_⟩)
      unfold Pool.denied? at denied
      split at denied
      · cases denied
      cases denied
      by_contra old
      obtain ⟨v, hv⟩ := Option.ne_none_iff_exists'.1 old
      have lt := (List.getElem?_eq_some_iff.1 (stuck.kept hv)).1
      exact Nat.lt_irrefl _ lt

theorem Calm.enters_succ (from_ : m ≤ i) (upTo : i < n) (enters : r.Enters m i id)
    (stays : ∀ x p, (r.state i).task? x ≠ some (.leave id p)) : r.Enters m (i + 1) id := by
  have ha := r.attentive i
  have admitted := r.admitted i
  rcases enters with ⟨k, ht⟩ | ⟨k, w, ht, new⟩ | reads
  · by_cases own : (r.event i).caller = some id
    · right
      right
      rw [r.state_succ, ha.after_of_caller admitted own ht]
      exact ⟨{ cache := id }, Table.get?_set_self .., rfl⟩
    · exact .inl ⟨k, ((r.passes i).task own).trans ht⟩
  · by_cases own : (r.event i).caller = some id
    · left
      refine ⟨k, ?_⟩
      rw [r.state_succ, ha.after_of_caller admitted own ht, moveTask, moveStandIn]
      cases fallen : (r.state i).fall? .registry w with
      | none => exact (task?_goOn (Option.isSome_of_eq_some ht) _ _).trans (if_pos rfl)
      | some text =>
        -- Nobody who was hired since has become a stand-in that could give up.
        have stuck := calm.stuck r settled queued from_ (Nat.le_of_lt upTo)
        unfold fall? at fallen
        split at fallen
        · next rest hw => cases stuck.excused hw new rfl
        · cases fallen
    · exact .inr (.inl ⟨k, w, ((r.passes i).task own).trans ht, new⟩)
  · right
    right
    rw [r.state_succ]
    exact reads_of_stays (r.sound i) admitted reads stays

/-- Whoever queues a load in the step opens a reader and has its handle in the end, or is about to
get it. -/
theorem Calm.holder_of_submits (moves : ∀ {i}, m < i → i < n → ∃ a, r.event i = .move a)
    {j : Job} {t : Bool} (from_ : m ≤ i) (upTo : i < n)
    (submits : .submit j t ∈ (r.state i).poolActs .registry (r.event i)) :
    (r.state n).hasHolder = true := by
  obtain ⟨k, role, enters⟩ := calm.enters_of_submits r settled queued from_ upTo submits
  have stays : ∀ {i'}, m ≤ i' → i' ≤ n → ∀ x p,
      (r.state i').task? x ≠ some (.leave j.source p) := by
    intro i' later early x p ht
    obtain ⟨-, h, hr⟩ := r.parts_of_leave settled later
      (fun after before => moves after (Nat.lt_of_lt_of_le before early)) ht
    have reader := reader_of_handle hr
    have keys := (r.sound m).keys
    have ended := r.kept_keys (P := fun v => j.source < v.clock ∧ v.role j.source = none)
      ⟨keys.lt_clock_of_reader reader, keys.role_of_reader reader⟩ from_
      fun _ step h => ⟨Nat.lt_of_lt_of_le h.1 step.clock_le, step.ended h.1 h.2⟩
    cases ended.2.symm.trans role
  have last : ∀ {i'}, i + 1 ≤ i' → i' ≤ n → r.Enters m i' j.source := by
    intro i' later
    induction later with
    | refl => exact fun _ => enters
    | @step i' later ih =>
      intro early
      have from_ : m ≤ i' := Nat.le_trans (Nat.le_succ_of_le from_) later
      exact calm.enters_succ r settled queued from_ early (ih (Nat.le_of_lt early))
        (stays from_ (Nat.le_of_lt early))
  by_contra unused
  obtain ⟨-, readers, -, tasks⟩ := hasHolder_eq_false_iff.1 (Bool.eq_false_iff.2 unused)
  rcases last upTo (Nat.le_refl n) with ⟨k, ht⟩ | ⟨k, w, ht, -⟩ | ⟨h, hr, -⟩
  · cases tasks _ _ ht
  · cases tasks _ _ ht
  · cases (readers _).symm.trans hr

end

end

/-! ## Steps in which something is given up -/

section
variable (load : (r.state i).loadOf? (.worker .registry w) = some l) (reading : l.phase = .reading)
  (unready : ((r.state i).source l.job.source).isReady = false)
include load reading unready

theorem not_moves_of_unready : r.event i ≠ .move (.worker .registry w) := by
  intro own
  have can := r.admitted i
  rw [own] at can
  rw [loadOf?_worker] at load
  obtain ⟨o, hw⟩ := Pool.load?_eq_some load
  simp [admits, canMove, workerCanMove, hw, loadCanMove, LoadPhase.canMove, reading, unready] at can

/-- A source that has nothing to give gets nothing by a move. -/
theorem unready_succ {a : Actor} (event : r.event i = .move a) :
    ((r.state (i + 1)).source l.job.source).isReady = false := by
  have other := r.not_moves_of_unready load reading unready
  have change := r.change_source i l.job.source
  rw [Session.source] at unready ⊢
  generalize (r.state i).sources.get? l.job.source = o,
    (r.state (i + 1)).sources.get? l.job.source = o' at change unready
  cases change with
  | keeps => exact unready
  | makes begun => cases event.symm.trans begun
  | supplies f _ ready => exact (ready a event _).trans unready
  | @moves y l' moves own =>
    rw [event] at moves other
    rw [r.actor_unique load moves own] at other
    exact absurd rfl other
  | @closes y p j drops own =>
    rw [loadOf?_worker] at load
    obtain ⟨o, hw⟩ := Pool.load?_eq_some load
    have waits := drops.mem_waiting
    cases p with
    | registry =>
      have one := r.length_stages_le .registry i l.job.source
      cases (Pool.stages_of_waiting waits own one).1.symm.trans (Pool.stages_of_staff hw one)
    | separate =>
      exact absurd own.symm ((r.sound i).source_ne (Pool.mem_jobs_of_waiting waits)
        (Pool.mem_jobs_of_staff hw))

end

/-- No read returns when something is let go. -/
theorem calm_of_letsGo (settled : (r.state m).Settled) (drops : LetsGo (r.event m))
    (moves : ∀ {i}, m < i → i < n → ∃ a, r.event i = .move a) : r.Calm m n := by
  intro w l busy
  obtain ⟨reading, unready⟩ := (r.busy (n := .registry) settled busy).1
  have waits : ∀ {i}, m ≤ i → i < n → (r.state i).loadOf? (.worker .registry w) = some l ∧
      ((r.state i).source l.job.source).isReady = false := by
    intro i from_
    induction from_ with
    | refl => exact fun _ => ⟨by rwa [loadOf?_worker], unready⟩
    | @step i from_ ih =>
      intro upTo
      obtain ⟨load, unready⟩ := ih (Nat.lt_of_succ_lt upTo)
      refine ⟨r.load_stays load (r.not_moves_of_unready load reading unready), ?_⟩
      rcases Nat.eq_or_lt_of_le from_ with rfl | later
      · cases event : r.event m with
        | move a =>
          rw [event] at drops
          rcases drops with ⟨_, same⟩ | ⟨_, _, _, same⟩ <;> cases same
        | begin id op =>
          rw [event] at drops
          rw [Session.source, r.state_succ, event]
          rw [Session.after, sources_of_letsGo drops]
          exact unready
      · obtain ⟨a, event⟩ := moves later (Nat.lt_of_succ_lt upTo)
        exact r.unready_succ load reading unready event
  intro i from_ upTo
  obtain ⟨load, unready⟩ := waits from_ upTo
  cases answer : (r.state i).answered l.job.source (r.event i) with
  | none => rfl
  | some b =>
    obtain ⟨a, l', event, load', -, own⟩ := loads_of_answered answer
    rw [r.actor_unique load load' own] at event
    exact absurd event (r.not_moves_of_unready load reading unready)

end Run
end SharedStream
