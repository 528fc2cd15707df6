import SharedStream.Proofs.Calls.Settled
import SharedStream.Proofs.Exclusion
import SharedStream.Proofs.Pools.Acts
import SharedStream.Proofs.Teardown

/-! # Waiting for a key

In a settled session a call that opens a key is in progress because of that key alone: its own
source or the load of the cache that it tears down holds it up, or the slot of the key does.
-/
namespace SharedStream

namespace Task
variable {t t' : Task}

/-- The key that the call opens for reading. -/
def reads? : Task → Option Key
  | .seekReader k _ | .makeSource k _ | .fill k _ | .standIn k _ | .register k => some k
  | _ => none

/-- The key that the call opens for writing. -/
def writes? : Task → Option Key
  | .seekWriter k | .cancelCache k _ | .dequeueCache k _ | .awaitCache k _ | .lease k => some k
  | _ => none

theorem Leads.reads? (h : t.Leads t') : t'.reads? = t.reads? := by
  cases h <;> rfl

theorem Leads.writes? (h : t.Leads t') : t'.writes? = t.writes? := by
  cases h <;> rfl

/-- What is kept from task to task is kept through a call. -/
theorem eq_of_leads {α : Type} {f : Task → α} (kept : ∀ {t t'}, Leads t t' → f t' = f t)
    (h : Relation.ReflTransGen Leads t t') : f t' = f t := by
  induction h with
  | refl => rfl
  | tail _ last ih => exact (kept last).trans ih

end Task

/-! ## Loads that are no longer queued -/

namespace Session
open Keys

variable {s u : Session} {id c : CallId} {k : Key} {t : Task} {l : Load} {e : Event}

theorem exists_job_of_queued (h : .queued ∈ s.stages c) :
    ∃ j ∈ s.registry.pool.waiting, j.source = c := by
  rcases List.mem_append.1 h with pooled | called
  · rcases List.mem_append.1 pooled with waits | running
    · obtain ⟨j, hj, source⟩ := List.countP_pos_iff.1
        (Nat.pos_of_ne_zero (List.mem_replicate.1 waits).1)
      exact ⟨j, hj, by simpa using source⟩
    · obtain ⟨l, -, hl⟩ := List.mem_map.1 running
      cases hl
  · obtain ⟨t, -, ht⟩ := Option.bind_eq_some_iff.1 (Option.mem_toList.1 called)
    cases t <;> cases ht

/-- What is in a queue was there before or is the load of a call that submits it. -/
theorem mem_queue_after {n : PoolName} {j : Job} (hj : j ∈ ((s.after e).pool n).queue) :
    j ∈ (s.pool n).queue ∨ ∃ t, .submit j t ∈ s.poolActs n e := by
  rw [pool_after] at hj
  cases acts : s.poolActs n e with
  | nil =>
    rw [acts] at hj
    exact .inl hj
  | cons a rest =>
    have mem : a ∈ s.poolActs n e := by simp [acts]
    rw [poolActs_eq_singleton mem] at hj
    refine (Pool.mem_queue_act hj).imp_right ?_
    rintro ⟨t, rfl⟩
    exact ⟨t, by rw [← acts]; exact mem⟩

theorem Sound.not_queued_dequeue (hs : s.Sound) {j : Job}
    (hj : j ∈ ((s.dequeue .registry (.cache c)).pool .registry).queue) : j.source ≠ c := by
  rw [pool_dequeue] at hj
  obtain ⟨queued, other⟩ := List.mem_filter.1 hj
  rintro rfl
  have own := hs.own (Pool.mem_jobs_of_waiting (List.mem_append_left _ queued))
  simp [own.1] at other

/-- A cache that is torn down has no load in the queue once the queue was searched for it. -/
theorem Reach.not_queued {config : CacheConfig} {workers : Nat} (h : Reach (start config workers) s)
    (ht : s.task? id = some (.awaitCache k c)) {j : Job} (hj : j ∈ (s.pool .registry).queue) :
    j.source ≠ c := by
  refine h.invariant (P := fun s => ∀ id k c, s.task? id = some (.awaitCache k c) →
    ∀ j ∈ (s.pool .registry).queue, j.source ≠ c) ?_ ?_ id k c ht j hj
  · intro id k c ht
    simp [start, task?] at ht
  intro s e reach ih admitted id k c ht j hj
  have hs := reach.sound
  have ha := reach.attentive
  rcases task_or_leads hs ha admitted ht rfl with before | ⟨a, before, leads, own⟩
  · rcases mem_queue_after hj with queued | ⟨t, submits⟩
    · exact ih id k c before j queued
    · -- Whoever submits a load has no cache yet.
      cases cause submits with
      | loaded makes =>
        rintro rfl
        obtain ⟨n, cached⟩ := hs.keys.cache_of_retires (role_of_task before)
        rw [hs.keys.no_cache (.inr (role_of_task makes))] at cached
        cases cached
  · cases leads
    rw [after_of_caller hs admitted own before (role_of_task before)] at hj
    exact hs.not_queued_dequeue hj

/-! ## What holds a call up -/

theorem exists_runs_of_running {p : LoadPhase} (hs : s.Sound) (h : .running p ∈ s.stages c) :
    ∃ l, s.Runs l ∧ l.job.source = c ∧ l.phase = p := by
  rcases List.mem_append.1 h with pooled | called
  · rcases List.mem_append.1 pooled with waits | running
    · cases (List.mem_replicate.1 waits).2
    · obtain ⟨l, hl, hp⟩ := List.mem_map.1 running
      obtain ⟨hl, source⟩ := List.mem_filter.1 hl
      obtain ⟨w, hw, load⟩ := List.mem_filterMap.1 hl
      obtain ⟨i, hi⟩ := List.mem_iff_getElem?.1 hw
      obtain ⟨o, rfl⟩ : ∃ o, w = .loading l o := by
        cases w <;> cases load
        exact ⟨_, rfl⟩
      exact ⟨l, .inl ⟨.registry, i, o, hi⟩, by simpa using source, by simpa using hp⟩
  · obtain ⟨t, ht, stage⟩ := Option.bind_eq_some_iff.1 (Option.mem_toList.1 called)
    cases t with
    | fill key l =>
      have source := (hs.fits ht).2
      exact ⟨l, .inr ⟨c, _, ht, rfl⟩, source, by simpa [Task.stage?] using stage⟩
    | _ => cases stage

/-- The load waits in a read of its source. -/
def Stalls (s : Session) (l : Load) : Prop :=
  l.phase = .reading ∧ (s.source l.job.source).isReady = false

theorem stalls_iff : s.Stalls l ↔ s.loadCanMove l = false := by
  simp [Stalls, loadCanMove, LoadPhase.canMove]

theorem Attentive.stalls (ha : s.Attentive) (settled : s.Settled) (runs : s.Runs l) :
    s.Stalls l := by
  rw [stalls_iff]
  rcases runs with ⟨n, i, o, hl⟩ | ⟨id, t, ht, hl⟩
  · have still : s.workerCanMove n i = false := settled (.worker n i)
    simpa only [workerCanMove, hl] using still
  · rcases ha.waits_or settled ht with waits | held
    · cases t <;> cases hl <;> exact waits.elim
    · cases t <;> cases hl <;> exact held

/-- A stand-in is held up by a read that waits. It has `rest` to run after that. -/
def Lingers (s : Session) (n : PoolName) (i : Nat) (rest : List Job) : Prop :=
  ∃ l, (s.pool n).staff[i]? = some (.loading l (some rest)) ∧ s.Stalls l

/-- Whoever stands in for a worker goes on until a read has to wait. -/
theorem lingers_of_settled (settled : s.Settled) {n : PoolName} {i : Nat} {w : Worker}
    (hw : (s.pool n).staff[i]? = some w) (due : w.isDue = true) :
    ∃ rest, s.Lingers n i rest ∧ w.rest = rest := by
  have still : s.workerCanMove n i = false := settled (.worker n i)
  rw [workerCanMove, hw] at still
  cases w with
  | loading l o =>
    cases o with
    | none => cases due
    | some rest => exact ⟨rest, ⟨l, hw, stalls_iff.2 still⟩, rfl⟩
  | between rest =>
    cases rest with
    | nil => cases due
    | cons j rest => cases still
  | fallen text rest =>
    cases rest with
    | nil => cases due
    | cons j rest => cases still
  | denied => cases still
  | _ => cases due

theorem Reach.lingers_of_standIn {config : CacheConfig} {workers i : Nat}
    (h : Reach (start config workers) s) (settled : s.Settled)
    (ht : s.task? id = some (.standIn k i)) : ∃ rest, s.Lingers .registry i rest := by
  have still : s.taskCanMove id (.standIn k i) = false := by
    rcases h.attentive.waits_or settled ht with waits | held
    · exact waits.elim
    · exact held
  obtain ⟨w, hw, idle⟩ : ∃ w, s.registry.pool.staff[i]? = some w ∧
      (w = .denied ∨ w = .between [] ∨ w.standsIn = true) := by
    cases h.standsFor ht with
    | denied hw => exact ⟨_, hw, .inl rfl⟩
    | excused hw => exact ⟨_, hw, .inr (.inl rfl)⟩
    | takes hw standsIn => exact ⟨_, hw, .inr (.inr standsIn)⟩
  by_cases due : w.isDue = true
  · obtain ⟨rest, lingers, -⟩ := lingers_of_settled (n := .registry) settled hw due
    exact ⟨rest, lingers⟩
  · refine absurd still ?_
    have hw' : (s.pool .registry).staff[i]? = some w := hw
    rw [taskCanMove, hasStoodIn, hw']
    rcases idle with rfl | rfl | standsIn
    · exact absurd rfl due
    · simp
    · cases w with
      | between rest => cases rest <;> simp_all [Worker.isDue]
      | fallen text rest => cases rest <;> simp_all [Worker.isDue]
      | loading l o => cases o <;> simp_all [Worker.isDue, Worker.standsIn]
      | _ => cases standsIn

/-- Nobody stands in for a worker if every worker has got a thread. -/
theorem Reach.not_standIn {config : CacheConfig} {workers i : Nat}
    (h : Reach (start config workers) s) (threaded : s.registry.pool.Threaded) :
    s.task? id ≠ some (.standIn k i) := by
  intro ht
  cases h.standsFor ht with
  | denied hw => exact (threaded _ (List.mem_of_getElem? hw)).1 rfl
  | excused hw => cases (threaded _ (List.mem_of_getElem? hw)).2
  | takes hw standsIn =>
    rw [(threaded _ (List.mem_of_getElem? hw)).2] at standsIn
    cases standsIn

theorem not_lingers {n : PoolName} (threaded : (s.pool n).Threaded) {i : Nat} {rest : List Job} :
    ¬ s.Lingers n i rest := by
  rintro ⟨l, hw, -⟩
  cases (threaded _ (List.mem_of_getElem? hw)).2

/-- The slot of the key is `x`, and it is the call that answers for it. -/
structure Owns (s : Session) (id : CallId) (k : Key) (x : Slot) : Prop where
  slot : s.registry.slots.get? k = some x
  sole : ∀ j, s.keys.stake j = some (k, x) ↔ j = id

theorem Sound.owns {x : Slot} (hs : s.Sound) (stake : s.keys.stake id = some (k, x)) :
    s.Owns id k x := by
  refine ⟨hs.keys.agree.slot_eq stake, fun j => ⟨fun hj => hs.keys.agree.unique hj stake, ?_⟩⟩
  rintro rfl
  exact stake

/-- What holds up a call that builds the cache of a key. -/
inductive Held (s : Session) (id : CallId) (k : Key) : Prop
  | factory {mode : LoadMode} : s.task? id = some (.makeSource k mode) →
      (s.source id).held = true → Held s id k
  /-- A read of its source waits. -/
  | fill {l : Load} : s.task? id = some (.fill k l) → l.job.source = id → s.Stalls l → Held s id k
  /-- It runs the queue in the place of a worker that was denied a thread, and a read waits. -/
  | standIn {i : Nat} {rest : List Job} : s.task? id = some (.standIn k i) →
      s.Lingers .registry i rest → Held s id k

/-- The call builds the cache of the key, and is held up by a read or a factory of its own. -/
structure Builds (s : Session) (id : CallId) (k : Key) : Prop where
  owns : s.Owns id k .opening
  held : s.Held id k

/-- The call tears down a cache of the key whose load has not stopped: it waits in a read of its
source, or is left to a stand-in that waits in a read, or it has panicked. -/
structure Retires (s : Session) (id : CallId) (k : Key) (c : CallId) : Prop where
  owns : s.Owns id k .closing
  task : s.task? id = some (.awaitCache k c)
  key : s.keyOf c = k
  unfinished : (s.store (.cache c)).finished = false
  load : (∃ l, s.Runs l ∧ l.job.source = c ∧ s.Stalls l) ∨
    (∃ i rest, s.Lingers .registry i rest ∧ ∃ j ∈ rest, j.source = c) ∨ (s.track c).Gone

/-- Whoever seeks the key sees the same in both sessions. -/
structure SameKey (s u : Session) (k : Key) : Prop where
  shutDown : u.registry.shutDown = s.registry.shutDown
  slot : u.registry.slots.get? k = s.registry.slots.get? k
  refs : ∀ c, s.registry.slots.get? k = some (.reader c) → u.refs c = s.refs c

/-- The call finds the slot `x` of the key and has to wait. Whatever becomes of other keys, it looks
at its own and sleeps on. -/
structure Seeks (s : Session) (id : CallId) (k : Key) (t : Task) (x : Slot) : Prop where
  task : s.task? id = some t
  going : s.registry.shutDown = false
  slot : s.registry.slots.get? k = some x
  alone : ∀ u, s.SameKey u k → u.moveTask id t = u.sleep id

variable {mode : LoadMode} {x : Slot}

theorem seeks_of_taken (ht : s.task? id = some (.seekReader k mode))
    (going : s.registry.shutDown = false) (slot : s.registry.slots.get? k = some x)
    (taken : x.isTaken = true) : s.Seeks id k (.seekReader k mode) x := by
  refine ⟨ht, going, slot, fun u same => ?_⟩
  have going' : u.registry.shutDown = false := same.shutDown.trans going
  have slot' : u.registry.slots.get? k = some x := same.slot.trans slot
  show u.moveSeekReader id k mode = u.sleep id
  unfold moveSeekReader
  rw [going', slot']
  cases x with
  | reader c => cases taken
  | _ => rfl

theorem seeks_of_blocks (ht : s.task? id = some (.seekWriter k))
    (going : s.registry.shutDown = false) (slot : s.registry.slots.get? k = some x)
    (blocks : s.Blocks x) : s.Seeks id k (.seekWriter k) x := by
  refine ⟨ht, going, slot, fun u same => ?_⟩
  have going' : u.registry.shutDown = false := same.shutDown.trans going
  have slot' : u.registry.slots.get? k = some x := same.slot.trans slot
  show u.moveSeekWriter id k = u.sleep id
  unfold moveSeekWriter
  rw [going', slot']
  cases x with
  | reader c =>
    have pos : 0 < u.refs c := by
      rw [same.refs c slot]
      exact blocks
    simp only [Bool.false_eq_true, if_false]
    rw [if_neg (by omega), if_neg (by omega)]
  | _ => rfl

/-- A call that opens the key for reading waits for a read or a factory of its own, or for the slot
of the key. -/
theorem Reach.builds_or_seeks {config : CacheConfig} {workers : Nat}
    (h : Reach (start config workers) s) (settled : s.Settled) (ht : s.task? id = some t)
    (reads : t.reads? = some k) :
    s.Builds id k ∨ ∃ mode x, s.Seeks id k (.seekReader k mode) x ∧ x.isTaken = true := by
  have hs := h.sound
  have ha := h.attentive
  have role := role_of_task ht
  have state := ha.waits_or settled ht
  cases t with
  | seekReader key mode =>
    cases reads
    rcases state with ⟨going, x, slot, taken⟩ | free
    · exact .inr ⟨mode, x, seeks_of_taken ht going slot taken, taken⟩
    · cases free
  | makeSource key mode =>
    cases reads
    have owns : s.Owns id k .opening := hs.owns (by simp [stake, stakeOf, role, Task.role?])
    rcases state with waits | held
    · exact waits.elim
    · exact .inl ⟨owns, .factory ht (by simpa [taskCanMove] using held)⟩
  | fill key l =>
    cases reads
    have owns : s.Owns id k .opening := hs.owns (by simp [stake, stakeOf, role, Task.role?])
    rcases state with waits | held
    · exact waits.elim
    · exact .inl ⟨owns, .fill ht (hs.fits ht).2 (stalls_iff.2 held)⟩
  | standIn key i =>
    cases reads
    have owns : s.Owns id k .opening := hs.owns (by simp [stake, stakeOf, role, Task.role?])
    obtain ⟨rest, lingers⟩ := h.lingers_of_standIn settled ht
    exact .inl ⟨owns, .standIn ht lingers⟩
  | register key =>
    rcases state with waits | held
    · exact waits.elim
    · cases held
  | _ => cases reads

/-- A call that opens the key for writing waits for the load of the cache that it tears down or for
the slot of the key. -/
theorem Reach.retires_or_seeks {config : CacheConfig} {workers : Nat}
    (h : Reach (start config workers) s) (settled : s.Settled) (ht : s.task? id = some t)
    (writes : t.writes? = some k) :
    (∃ c, s.Retires id k c) ∨ ∃ x, s.Seeks id k (.seekWriter k) x ∧ s.Blocks x := by
  have hs := h.sound
  have ha := h.attentive
  have role := role_of_task ht
  have state := ha.waits_or settled ht
  cases t with
  | seekWriter key =>
    cases writes
    rcases state with ⟨going, x, slot, blocks⟩ | free
    · exact .inr ⟨x, seeks_of_blocks ht going slot blocks, blocks⟩
    · cases free
  | awaitCache key c =>
    cases writes
    rcases state with unfinished | free
    · obtain ⟨n, hn⟩ := hs.keys.cache_of_retires role
      have owns : s.Owns id k .closing := hs.owns (by simp [stake, stakeOf, role, Task.role?])
      have cached := cached_iff.2 ⟨k, n, hn⟩
      refine .inl ⟨c, owns, ht, keyOf_of_cache hn, unfinished, ?_⟩
      cases stages : s.stages c with
      | nil => exact .inr (.inr ⟨cached, stages⟩)
      | cons st rest =>
        have mem : st ∈ s.stages c := by simp [stages]
        cases st with
        | queued =>
          obtain ⟨j, waits, source⟩ := exists_job_of_queued mem
          rcases List.mem_append.1 waits with queued | orphan
          · exact absurd source (h.not_queued ht queued)
          · obtain ⟨w, hw, taken⟩ := List.mem_flatMap.1 orphan
            obtain ⟨i, hi⟩ := List.mem_iff_getElem?.1 hw
            have due : w.isDue = true := Worker.isDue_of_rest taken
            obtain ⟨rest, lingers, rfl⟩ := lingers_of_settled (n := .registry) settled hi due
            exact .inr (.inl ⟨i, w.rest, lingers, j, taken, source⟩)
        | running p =>
          obtain ⟨l, runs, source, -⟩ := exists_runs_of_running hs mem
          exact .inl ⟨l, runs, source, ha.stalls settled runs⟩
    · cases free
  | cancelCache | dequeueCache | lease =>
    rcases state with waits | held
    · exact waits.elim
    · cases held
  | _ => cases writes

end Session

namespace Run
open Session

variable {config : CacheConfig} {workers : Nat} (r : Run (start config workers))
variable {id c : CallId} {k : Key} {m n : Nat}

/-- Who waits for a key at a moment, and what for. -/
structure Turns (r : Run (start config workers)) (n : Nat) : Prop where
  reader : ∀ {m id k mode plan}, m < n → r.event m = .begin id (.openReader k mode plan) →
    (r.state n).calls.contains id = true →
      (r.state n).Builds id k ∨
        ∃ mode x, (r.state n).Seeks id k (.seekReader k mode) x ∧ x.isTaken = true
  writer : ∀ {m id k plan}, m < n → r.event m = .begin id (.openWriter k plan) →
    (r.state n).calls.contains id = true →
      (∃ c, (r.state n).Retires id k c) ∨
        ∃ x, (r.state n).Seeks id k (.seekWriter k) x ∧ (r.state n).Blocks x
  /-- Nobody runs loads in the place of a worker unless some worker was denied a thread. -/
  threaded : (r.state n).registry.pool.Threaded →
    (∀ id k i, (r.state n).task? id ≠ some (.standIn k i)) ∧
      ∀ i rest, ¬ (r.state n).Lingers .registry i rest

end Run

namespace Session

/-- A reader and a writer wait for a writer, and a reader of another key for its factory. -/
def contended : List Event :=
  [.begin 0 (.openWriter ⟨"a"⟩ {}), .move (.call 0), .begin 1 (.openReader ⟨"a"⟩ none {}),
    .move (.call 1), .begin 2 (.openWriter ⟨"a"⟩ {}), .move (.call 2),
    .begin 3 (.openReader ⟨"b"⟩ none { held := true }), .move (.call 3)]

end Session
end SharedStream
