import SharedStream.Proofs.LoadRuns
import SharedStream.Proofs.Loads.Stopping
import SharedStream.Proofs.Pools.Takeovers
import SharedStream.Proofs.StoreHistories

/-! # Loads under way

Where loads come from, and what becomes of a load and of its source from one moment of a run to the
next, whoever runs the load.
-/
namespace SharedStream

/-- The store for which a call of that name makes a source. -/
def Op.target? (id : CallId) : Op → Option StoreId
  | .openReader .. => some (.cache id)
  | .load x _ _ | .submit x _ _ => some (.separate x)
  | _ => none

/-- A move of a load leaves a closed source closed. -/
theorem LoadPhase.closed_step {x : Source} {y : Store} (p : LoadPhase) (n : Nat)
    (closed : x.closed = true) : (p.step n x y).source.closed = true := by
  cases p with
  | allocating =>
    simp only [LoadPhase.step]
    split
    · exact closed
    · rfl
  | checking =>
    simp only [LoadPhase.step]
    split <;> exact closed
  | beginning => exact closed
  | reading =>
    obtain ⟨place, used, rest⟩ := x.answer_snd
    rcases LoadPhase.afterRead_source y x.answer with same | shut
    · rw [LoadPhase.step, same, rest]
      exact closed
    · rw [LoadPhase.step, shut]
      rfl
  | closing => rfl
  | finishing => exact closed

/-- A load comes to its last move by closing its source. -/
theorem LoadPhase.closed_of_goesOn {x : Source} {y : Store} {p : LoadPhase} {n : Nat}
    (last : (p.step n x y).move = .goesOn .finishing) : (p.step n x y).source.closed = true := by
  cases p with
  | closing => rfl
  | beginning | finishing => cases last
  | allocating | checking =>
    simp only [LoadPhase.step] at last
    split at last <;> cases last
  | reading =>
    rcases hx : x.answer with ⟨answer, x'⟩
    rw [LoadPhase.step, hx] at last
    cases answer with
    | bytes data =>
      simp only [LoadPhase.afterRead] at last
      split at last <;> cases last
    | failed e =>
      simp only [LoadPhase.afterRead] at last
      split at last <;> cases last
    | panicked text => cases last

namespace Session

variable {s : Session} {p : PoolName} {i : Nat} {id : CallId} {a : Task}

theorem loadOf?_worker : s.loadOf? (.worker p i) = (s.pool p).load? i := by
  rw [loadOf?, Pool.load?]
  cases (s.pool p).staff[i]? with
  | none => rfl
  | some w => cases w <;> rfl

theorem loadOf?_of_task (ht : s.task? id = some a) : s.loadOf? (.call id) = a.load? := by
  rw [loadOf?_call, ht]
  rfl

/-- No call is asked to go on with a load. -/
theorem load?_of_firstTask? {op : Op} (first : s.firstTask? id op = some a) : a.load? = none := by
  cases op with
  | part handle parting =>
    cases first
    split <;> rfl
  | read | submit =>
    obtain ⟨h, -, rfl⟩ := Option.map_eq_some_iff.1 first
    rfl
  | _ => cases first <;> rfl

theorem source_of_submit {x : CallId} {plan : SourcePlan} {size : Nat}
    (gives : plan.factory = .gives)
    (present : s.stores.contains (.separate x) = true) (going : s.separate.shutDown = false) :
    (s.after (.begin id (.submit x plan size))).sources.contains id = true := by
  simp only [after, begin, enter, withStore, withPool, submit, gives, present, going]
  simp only [if_true, Bool.false_eq_true, if_false]
  split <;> simp [Table.contains, setPool, answer, call]

/-- A call begins to load what its factory has given. -/
theorem phase_of_makeSource {k : Key} {mode : LoadMode} {l : Load}
    (ht : s.task? id = some (.makeSource k mode))
    (next : (s.moveMakeSource id k mode).task? id = some (.fill k l)) : l.phase = .allocating := by
  have task : ((s.newCache id k mode).task? id).isSome := Option.isSome_of_eq_some ht
  unfold moveMakeSource at next
  cases factory : (s.source id).factory with
  | fails e => simp [factory, abandon, task?_answer] at next
  | panics text => simp [factory, abandon, task?_answer] at next
  | gives =>
    cases mode with
    | async =>
      simp only [factory] at next
      have queued := (task?_goOn (by rwa [task?_setPool]) _ _).symm.trans next
      rw [if_pos rfl] at queued
      cases denied : ((s.newCache id k .async).pool .registry).denied?
        ((s.newCache id k .async).source id).threaded <;> simp [denied, Task.submitted] at queued
    | sync =>
      simp only [factory, task?_goOn task, if_true, Option.some.injEq, Task.fill.injEq] at next
      rw [← next.2]
      rfl

end Session

namespace Run
open Session

variable {config : CacheConfig} {workers : Nat} (r : Run (start config workers))
variable {a : Actor} {b : Task} {c id : CallId} {x y : StoreId} {p : PoolName} {m n : Nat}
variable {j : Job} {l : Load} {q : LoadPhase} {k : Key} {op op' : Op}

/-! ## Where loads come from -/

/-- The source is made so that its bytes come to the store. -/
def Feeds (r : Run (start config workers)) (c : CallId) (x : StoreId) : Prop :=
  ∃ m op, r.event m = .begin c op ∧ op.target? c = some x

/-- A call begins once. -/
theorem begin_unique (h : r.event m = .begin id op) (h' : r.event n = .begin id op') : m = n := by
  have late : ∀ {m n op op'}, r.event m = .begin id op → r.event n = .begin id op' → ¬ m < n := by
    intro m n op op' h h' lt
    have admitted := r.admitted n
    rw [h'] at admitted
    exact absurd (r.older_of_begin h lt) (Nat.not_lt_of_le admitted)
  exact Nat.le_antisymm (Nat.le_of_not_lt (late h' h)) (Nat.le_of_not_lt (late h h'))

theorem Feeds.unique (h : r.Feeds c x) (h' : r.Feeds c y) : x = y := by
  obtain ⟨m, op, begun, target⟩ := h
  obtain ⟨m', op', begun', target'⟩ := h'
  obtain rfl := r.begin_unique begun begun'
  cases begun.symm.trans begun'
  exact Option.some.inj (target.symm.trans target')

/-- Whoever opens a key for reading was asked to. -/
theorem asked_of_reads (ht : (r.state n).task? id = some b) (reads : b.reads? = some k) :
    r.Feeds id (.cache id) := by
  obtain ⟨m, op, lt, begun⟩ := r.exists_begin ht
  obtain ⟨first, hf, leads⟩ := r.task_of_begin begun lt ht
  rw [Task.eq_of_leads Task.Leads.reads? leads] at reads
  refine ⟨m, op, begun, ?_⟩
  cases op with
  | openReader => rfl
  | part handle parting =>
    cases hf
    split at reads <;> cases reads
  | read | submit =>
    obtain ⟨h, -, rfl⟩ := Option.map_eq_some_iff.1 hf
    cases reads
  | _ => cases hf <;> cases reads

/-- A call that runs a load into a separate store was asked to, and it has made the source. -/
theorem asked_of_job (ht : (r.state n).task? id = some b) (job : b.job? = some j) :
    ∃ m x plan, m < n ∧ r.event m = .begin id (.load x plan j.chunkSize) ∧
      j = ⟨.separate x, id, j.chunkSize⟩ ∧
        (r.state (m + 1)).sources.contains id = true ∧
          (r.state (m + 1)).stores.contains (.separate x) = true := by
  obtain ⟨m, op, lt, begun⟩ := r.exists_begin ht
  obtain ⟨first, hf, leads⟩ := r.task_of_begin begun lt ht
  obtain ⟨b', hb'⟩ := r.exists_task_of_begin begun lt ht
  rw [Task.eq_of_leads Task.Leads.job? leads] at job
  rw [r.state_succ, begun] at hb'
  have entry := entry { r.state m with clock := id + 1 } id op
  cases op with
  | load x plan size =>
    cases hf
    cases job
    refine ⟨m, x, plan, lt, begun, rfl, ?_⟩
    rw [r.state_succ, begun]
    change (Session.enter { r.state m with clock := id + 1 } id _).task? id = _ at hb'
    change (Session.enter { r.state m with clock := id + 1 } id _).sources.contains id = true ∧
      (Session.enter { r.state m with clock := id + 1 } id _).stores.contains _ = true
    generalize Session.enter { r.state m with clock := id + 1 } id _ = u at entry hb' ⊢
    cases entry with
    | load present => exact ⟨by simp [Table.contains, call], present⟩
    | _ => simp [task?_answer] at hb'
  | part handle parting =>
    cases hf
    split at job <;> cases job
  | read | submit =>
    obtain ⟨h, -, rfl⟩ := Option.map_eq_some_iff.1 hf
    cases job
  | _ => cases hf <;> cases job

theorem feeds_of_submitted (h : j ∈ (r.ledger p n).submitted) : r.Feeds j.source j.store := by
  induction n with
  | zero => cases h
  | succ n ih =>
    rcases Ledger.submitted_enterAll h with before | ⟨t, now⟩
    · exact ih before
    · have cause := cause now
      generalize event : r.event n = e at cause
      cases cause with
      | submitted => exact ⟨n, _, event, rfl⟩
      | loaded ht => exact r.asked_of_reads ht rfl

/-- A load under way was submitted, or a call does it. -/
theorem origin_of_load (h : (r.state n).loadOf? a = some l) :
    (∃ p, l.job ∈ (r.ledger p n).submitted) ∨
      (∃ id k, (r.state n).task? id = some (.fill k l)) ∨
        ∃ id, (r.state n).task? id = some (.load l) := by
  cases a with
  | registry => cases h
  | pool p => cases h
  | worker p i =>
    rw [loadOf?_worker] at h
    exact .inl ⟨p, r.submitted_of_taken ((r.handles p).runs h)⟩
  | call id =>
    rw [loadOf?_call] at h
    obtain ⟨b, ht, load⟩ := Option.bind_eq_some_iff.1 h
    cases b with
    | fill k l' =>
      cases load
      exact .inr (.inl ⟨id, k, ht⟩)
    | load l' =>
      cases load
      exact .inr (.inr ⟨id, ht⟩)
    | _ => cases load

/-- A load under way has a source that was made for its store. -/
theorem feeds_of_load (h : (r.state n).loadOf? a = some l) :
    r.Feeds l.job.source l.job.store := by
  rcases r.origin_of_load h with ⟨p, submitted⟩ | ⟨id, k, ht⟩ | ⟨id, ht⟩
  · exact r.feeds_of_submitted submitted
  · obtain ⟨store, source⟩ := (r.sound n).fits ht
    rw [store, source]
    exact r.asked_of_reads ht rfl
  · obtain ⟨m, x, plan, -, begun, job, -⟩ := r.asked_of_job ht rfl
    rw [job]
    exact ⟨m, _, begun, rfl⟩

/-- No call has a load of a source that a worker loads from, since that was submitted. -/
theorem source_ne_of_worker {p : PoolName} {i : Nat} {id : CallId} {l' : Load}
    (busy : (r.state n).loadOf? (.worker p i) = some l)
    (calls : (r.state n).loadOf? (.call id) = some l') : l'.job.source ≠ l.job.source := by
  have hs := r.sound n
  intro same
  rw [loadOf?_worker] at busy
  rw [loadOf?_call] at calls
  obtain ⟨b, ht, load⟩ := Option.bind_eq_some_iff.1 calls
  have source := (r.reach n).source_of_load ht load
  obtain ⟨o, hw⟩ := Pool.load?_eq_some busy
  have job := Pool.mem_jobs_of_staff hw
  cases p with
  | separate =>
    rw [← source, same] at ht
    obtain ⟨i, rfl⟩ := r.assist_of_submitted (r.submitted_of_jobs job) ht
    cases load
  | registry =>
    cases b with
    | fill k f =>
      have none := (stages_eq_of_fill hs ht).1
      have runs := pool_stages_of_staff hs hw
      rw [← same, source, none] at runs
      cases runs
    | load f =>
      cases load
      exact not_apart_of_cached (hs.own job).2 (same ▸ (hs.fits ht).2)
    | _ => cases load

/-- Nobody but one call or one worker loads from a source. -/
theorem actor_unique {a' : Actor} {l' : Load} (h : (r.state n).loadOf? a = some l)
    (h' : (r.state n).loadOf? a' = some l') (same : l'.job.source = l.job.source) : a' = a := by
  cases a with
  | registry => cases h
  | pool p => cases h
  | call id =>
    cases a' with
    | registry => cases h'
    | pool p => cases h'
    | worker p i => exact absurd same.symm (r.source_ne_of_worker h' h)
    | call id' =>
      rw [loadOf?_call] at h h'
      obtain ⟨b, ht, load⟩ := Option.bind_eq_some_iff.1 h
      obtain ⟨b', ht', load'⟩ := Option.bind_eq_some_iff.1 h'
      rw [(r.reach n).source_of_load ht load, (r.reach n).source_of_load ht' load'] at same
      rw [same]
  | worker p i =>
    cases a' with
    | registry => cases h'
    | pool p => cases h'
    | call id => exact absurd same (r.source_ne_of_worker h h')
    | worker p' i' =>
      rw [loadOf?_worker] at h h'
      obtain ⟨o, hw⟩ := Pool.load?_eq_some h
      obtain ⟨o', hw'⟩ := Pool.load?_eq_some h'
      have mem := Pool.mem_jobs_of_staff hw
      have mem' := Pool.mem_jobs_of_staff hw'
      cases p <;> cases p'
      · rw [r.eq_of_taken ((r.handles .registry).runs h') ((r.handles .registry).runs h) same]
      · exact absurd same.symm ((r.sound n).source_ne mem' mem)
      · exact absurd same ((r.sound n).source_ne mem mem')
      · rw [r.eq_of_taken ((r.handles .separate).runs h') ((r.handles .separate).runs h) same]

/-! ## Sources of a run -/

theorem change_source (n : Nat) (c : CallId) : (r.state n).SourceChange (r.event n) c
    ((r.state n).sources.get? c) ((r.state (n + 1)).sources.get? c) := by
  rw [r.state_succ]
  exact source_after (r.event n) c

/-- A source goes by the name of a call that has begun. -/
theorem older_of_source (present : (r.state n).sources.contains c = true) :
    c < (r.state n).clock := by
  induction n with
  | zero => simp [r.state_zero, start, Table.contains] at present
  | succ n ih =>
    have later := (r.step n).clock_le
    have change := r.change_source n c
    rw [Table.contains] at ih present
    generalize (r.state n).sources.get? c = o, (r.state (n + 1)).sources.get? c = o'
      at change ih present
    cases change with
    | keeps => exact Nat.lt_of_lt_of_le (ih present) later
    | makes begun => exact r.older_of_begin begun (Nat.lt_succ_self n)
    | supplies | moves | closes => exact Nat.lt_of_lt_of_le (ih rfl) later

theorem sourced (present : (r.state m).sources.contains c = true) (le : m ≤ n) :
    (r.state n).sources.contains c = true := by
  induction le with
  | refl => exact present
  | @step n le ih =>
    have change := r.change_source n c
    rw [Table.contains] at ih ⊢
    generalize (r.state n).sources.get? c = o, (r.state (n + 1)).sources.get? c = o'
      at change ih ⊢
    cases change with
    | keeps => exact ih
    | makes | supplies | moves | closes => rfl

/-- A source that is there is not asked for again. -/
theorem not_begun (present : (r.state n).sources.contains c = true) : r.event n ≠ .begin c op := by
  intro begun
  have admitted := r.admitted n
  rw [begun] at admitted
  exact absurd (r.older_of_source present) (Nat.not_lt_of_le admitted)

theorem closed_mono (closed : ((r.state m).source c).closed = true) (le : m ≤ n) :
    ((r.state n).source c).closed = true := by
  induction le with
  | refl => exact closed
  | @step n le ih =>
    have present : (r.state n).sources.contains c = true := by
      rw [Session.source] at ih
      rw [Table.contains]
      cases hy : (r.state n).sources.get? c with
      | none => simp [hy] at ih
      | some y => rfl
    have change := r.change_source n c
    have once {op : Op} : r.event n ≠ .begin c op := r.not_begun present
    have own : ∀ {l : Load}, l.job.source = c →
        ((r.state n).nextStep l).source.closed = true := by
      rintro l rfl
      exact l.phase.closed_step _ ih
    rw [Session.source] at ih ⊢
    generalize (r.state n).sources.get? c = o, (r.state (n + 1)).sources.get? c = o'
      at change ih ⊢
    cases change with
    | keeps => exact ih
    | makes begun => exact absurd begun once
    | supplies f kept => exact (kept _).1.trans ih
    | moves _ source => exact own source
    | closes => rfl

/-- Only a load that is about to begin a read does so. -/
theorem reads_succ (c : CallId) (n : Nat) :
    ((r.state (n + 1)).source c).reads = ((r.state n).source c).reads ∨
      ∃ a j, r.event n = .move a ∧ (r.state n).loadOf? a = some ⟨j, .beginning⟩ ∧ j.source = c ∧
        ((r.state (n + 1)).source c).reads = ((r.state n).source c).reads + 1 := by
  have change := r.change_source n c
  have unmade : ∀ {op}, r.event n = .begin c op → ((r.state n).source c).reads = 0 := by
    intro op begun
    cases hy : (r.state n).sources.get? c with
    | none => simp [Session.source, hy]
    | some y => exact absurd begun (r.not_begun (by simp [Table.contains, hy]))
  have own : ∀ {l : Load}, l.job.source = c → ((r.state n).nextStep l).source.reads =
      ((r.state n).source c).reads + if l.phase = .beginning then 1 else 0 := by
    rintro l rfl
    exact l.phase.reads_eq _
  rw [Session.source] at unmade own ⊢
  rw [Session.source]
  generalize (r.state n).sources.get? c = o, (r.state (n + 1)).sources.get? c = o'
    at change unmade own ⊢
  cases change with
  | keeps => exact .inl rfl
  | makes begun _ unread => exact .inl (unread.trans (unmade begun).symm)
  | supplies f kept => exact .inl (kept _).2
  | @moves y l moves source =>
    have reads := own source
    by_cases begins : l.phase = .beginning
    · rw [if_pos begins] at reads
      obtain ⟨job, phase⟩ := l
      cases begins
      generalize r.event n = e at moves
      cases e with
      | begin => cases moves
      | move a => exact .inr ⟨a, job, rfl, moves, source, reads⟩
    · rw [if_neg begins] at reads
      exact .inl reads
  | closes => exact .inl rfl

theorem reads_mono (c : CallId) (le : m ≤ n) :
    ((r.state m).source c).reads ≤ ((r.state n).source c).reads := by
  induction le with
  | refl => exact Nat.le_refl _
  | @step n _ ih =>
    refine Nat.le_trans ih ?_
    rcases r.reads_succ c n with same | ⟨_, _, _, _, _, more⟩
    · exact Nat.le_of_eq same.symm
    · exact Nat.le_trans (Nat.le_succ _) (Nat.le_of_eq more.symm)

/-! ## Moves of loads -/

theorem stored (present : (r.state m).stores.contains x = true) (le : m ≤ n) :
    (r.state n).stores.contains x = true := by
  induction le with
  | refl => exact present
  | step _ ih => exact (r.passes _).toStocks.contains ih

theorem source_of_submitted (h : j ∈ (r.ledger p n).submitted) :
    (r.state n).sources.contains j.source = true := by
  induction n with
  | zero => cases h
  | succ n ih =>
    rcases Ledger.submitted_enterAll h with before | ⟨t, now⟩
    · exact r.sourced (ih before) (Nat.le_succ n)
    · have cause := cause now
      generalize event : r.event n = e at cause
      cases cause with
      | submitted gives present going =>
        rw [r.state_succ, event]
        exact source_of_submit gives present going
      | loaded ht =>
        obtain ⟨y, hy⟩ := (r.sound n).fits ht
        exact r.sourced (by simp [Table.contains, hy]) (Nat.le_succ n)

/-- A load under way has its source and its store. -/
theorem present (h : (r.state n).loadOf? a = some l) :
    (r.state n).sources.contains l.job.source = true ∧
      (r.state n).stores.contains l.job.store = true := by
  rcases r.origin_of_load h with ⟨p, submitted⟩ | ⟨id, k, ht⟩ | ⟨id, ht⟩
  · exact ⟨r.source_of_submitted submitted, r.contains_store submitted⟩
  · obtain ⟨store, source⟩ := (r.sound n).fits ht
    have cached := cached_iff.2 ⟨k, (r.sound n).keys.cache_of_builds (role_of_task ht)⟩
    obtain ⟨y, z, hy, hz, -⟩ := eq_of_track_of_stages (r.sound n) cached
    rw [store, source]
    exact ⟨by simp [Table.contains, hz], by simp [Table.contains, hy]⟩
  · obtain ⟨m, x, plan, lt, -, job, sources, stores⟩ := r.asked_of_job ht rfl
    rw [job]
    exact ⟨r.sourced sources lt, r.stored stores lt⟩

theorem carries (h : (r.state n).loadOf? a = some ⟨j, q⟩) : (r.state n).Carries a j
    { state := .goesOn q
      source := (r.state n).source j.source
      store := (r.state n).store j.store } := by
  obtain ⟨sources, stores⟩ := r.present h
  obtain ⟨z, hz⟩ := Option.isSome_iff_exists.1 sources
  obtain ⟨y, hy⟩ := Option.isSome_iff_exists.1 stores
  refine ⟨?_, ?_, h⟩
  · rw [Session.source, hz]
    rfl
  · rw [Session.store, hy]
    rfl

/-- What the next move of a load leads to. -/
structure Advances (r : Run (start config workers)) (a : Actor) (j : Job) (q : LoadPhase)
    (n : Nat) :
    Prop where
  load : (r.state (n + 1)).loadOf? a = match ((r.state n).nextStep ⟨j, q⟩).move with
    | .goesOn q => some ⟨j, q⟩
    | .ends | .panics _ => none
  source : (r.state (n + 1)).source j.source = ((r.state n).nextStep ⟨j, q⟩).source
  store : (r.state (n + 1)).store j.store =
    ((r.state n).store j.store).change ((r.state n).nextStep ⟨j, q⟩).change

theorem advances (h : (r.state n).loadOf? a = some ⟨j, q⟩) (own : r.event n = .move a) :
    r.Advances a j q n := by
  have carries := (r.carries h).move rfl
  rw [← show (r.state n).after (r.event n) = (r.state n).move a by rw [own]; rfl,
    ← r.state_succ] at carries
  obtain ⟨source, store, load⟩ := carries
  refine ⟨load, ?_, ?_⟩
  · rw [Session.source, source]
    rfl
  · rw [Session.store, store]
    rfl

/-- What is under way after a move of a load is that load, in the phase that the move led to. -/
theorem Advances.goesOn {l' : Load} (h : r.Advances a j q n)
    (after : (r.state (n + 1)).loadOf? a = some l') :
    l'.job = j ∧ ((r.state n).nextStep ⟨j, q⟩).move = .goesOn l'.phase := by
  have load := h.load
  rw [after] at load
  cases move : ((r.state n).nextStep ⟨j, q⟩).move with
  | goesOn q' =>
    rw [move] at load
    cases load
    exact ⟨rfl, rfl⟩
  | ends | panics =>
    rw [move] at load
    cases load

/-- Nobody moves a load but whoever runs it. -/
theorem load_stays (h : (r.state n).loadOf? a = some l) (other : r.event n ≠ .move a) :
    (r.state (n + 1)).loadOf? a = some l := by
  cases a with
  | registry => cases h
  | pool p => cases h
  | worker p i =>
    rw [loadOf?_worker] at h ⊢
    rcases r.pool_step p n with ⟨-, same⟩ | ⟨act, acts, allowed, step⟩
    · rwa [same]
    rw [step]
    refine (Pool.load?_act h allowed).resolve_right ?_
    rintro ⟨o, m, rfl⟩
    have mem : Pool.Act.turn i l o m ∈ (r.state n).poolActs p (r.event n) := by simp [acts]
    have cause := cause mem
    generalize r.event n = e at cause other
    cases cause with
    | turns => exact other rfl
  | call id =>
    rw [loadOf?_call] at h ⊢
    obtain ⟨b, ht, load⟩ := Option.bind_eq_some_iff.1 h
    rw [(r.passes n).task, ht]
    · exact load
    · exact fun own => other ((r.attentive n).caller_eq (r.admitted n) own ht)

/-- A load begins with its buffer. -/
theorem load_begins (idle : (r.state n).loadOf? a = none)
    (busy : (r.state (n + 1)).loadOf? a = some l) : l.phase = .allocating := by
  cases a with
  | registry => cases busy
  | pool p => cases busy
  | worker p i =>
    rw [loadOf?_worker] at idle busy
    rw [(r.begins idle busy).1]
    rfl
  | call id =>
    rw [loadOf?_call] at busy
    obtain ⟨b, hb, load⟩ := Option.bind_eq_some_iff.1 busy
    have after := hb
    rw [r.state_succ] at after
    rcases task_after (r.sound n) (r.attentive n) (r.admitted n) after with
      ⟨op, begun⟩ | ⟨b', ht, same⟩
    · rw [begun] at after
      have first := (entry { r.state n with clock := id + 1 } id op).firstTask? after
      cases (load?_of_firstTask? first).symm.trans load
    rw [loadOf?_of_task ht] at idle
    rcases same with rfl | leads
    · cases idle.symm.trans load
    have own : (r.event n).caller = some id := by
      by_contra other
      rw [(r.passes n).task other, ht] at hb
      cases hb
      cases idle.symm.trans load
    rw [(r.attentive n).after_of_caller (r.admitted n) own ht] at after
    cases leads with
    | fill k mode l' =>
      cases load
      exact phase_of_makeSource ht after
    | start job =>
      cases load
      rfl
    | filling | loading => cases idle
    | _ => cases load

/-- Before its last move a load has closed its source. -/
theorem closed_of_finishing (h : (r.state n).loadOf? a = some ⟨j, .finishing⟩) :
    ((r.state n).source j.source).closed = true := by
  induction n with
  | zero =>
    rw [r.state_zero] at h
    cases a with
    | worker p i => cases p <;> simp [loadOf?, start, pool, Registry.ofConfig, Pool.ofLimit] at h
    | _ => simp [loadOf?, start] at h
  | succ n ih =>
    cases before : (r.state n).loadOf? a with
    | none => cases r.load_begins before h
    | some l =>
      by_cases own : r.event n = .move a
      · have advances := r.advances (j := l.job) (q := l.phase) before own
        obtain ⟨rfl, last⟩ := advances.goesOn r h
        rw [advances.source]
        exact LoadPhase.closed_of_goesOn last
      · cases (r.load_stays before own).symm.trans h
        exact r.closed_mono (ih before) (Nat.le_succ n)

/-! ## Loads that wait -/

/-- What a worker goes on with is the load that it had. -/
theorem job_of_busy {i : Nat} {l' : Load} (before : (r.state n).loadOf? (.worker p i) = some l)
    (after : (r.state (n + 1)).loadOf? (.worker p i) = some l') : l'.job = l.job := by
  by_cases own : r.event n = .move (.worker p i)
  · exact ((r.advances (j := l.job) (q := l.phase) before own).goesOn r after).1
  · cases (r.load_stays before own).symm.trans after
    rfl

/-- A load that waits is not run. -/
theorem job_ne_of_waiting {i : Nat} (waits : j ∈ ((r.state n).pool p).waiting)
    (busy : ((r.state n).pool p).load? i = some l) : l.job ≠ j := by
  rintro rfl
  obtain ⟨o, hw⟩ := Pool.load?_eq_some busy
  have one := r.length_stages_le p n l.job.source
  cases (Pool.stages_of_waiting waits rfl one).1.symm.trans (Pool.stages_of_staff hw one)

/-- A load waits until somebody begins it, or until it is removed or dropped. -/
theorem waiting_succ (waits : j ∈ ((r.state n).pool p).waiting) :
    j ∈ ((r.state (n + 1)).pool p).waiting ∨
      (∃ i, (r.state (n + 1)).loadOf? (.worker p i) = some j.start) ∨
        (r.state n).Drops p j (r.event n) := by
  rcases r.pool_step p n with ⟨-, same⟩ | ⟨a, acts, allowed, step⟩
  · exact .inl (same ▸ waits)
  have mem : a ∈ (r.state n).poolActs p (r.event n) := by simp [acts]
  rcases (Pool.has_of_waiting waits).act allowed with has | ⟨queued, rfl | rfl⟩ |
    ⟨i, l, o, m, rfl, job, -⟩ | ⟨i, text, rest, rfl⟩
  · rw [← step] at has
    rcases has with queued | ⟨i, w, hw, has⟩
    · exact .inl (List.mem_append_left _ queued)
    rcases List.mem_append.1 has with taken | load
    · exact .inl (List.mem_append_right _ (Pool.mem_orphans_of_staff hw taken))
    obtain ⟨l, hl, rfl⟩ : ∃ l, w.load? = some l ∧ l.job = j := by simpa using load
    have busy : ((r.state (n + 1)).pool p).load? i = some l := by
      rw [Pool.load?, hw, Option.bind_some, hl]
    refine .inr (.inl ⟨i, ?_⟩)
    rw [loadOf?_worker, busy]
    cases before : ((r.state n).pool p).load? i with
    | none => rw [← (r.begins before busy).1]
    | some l' =>
      refine absurd ?_ (r.job_ne_of_waiting waits before)
      rw [← loadOf?_worker] at before busy
      exact (r.job_of_busy before busy).symm
  · exact .inr (.inr (.removed queued mem))
  · exact .inr (.inr (.lost queued mem))
  · exact absurd job (r.job_ne_of_waiting waits (Pool.load?_of_loading allowed))
  · exact .inr (.inr (.shed mem))

/-- The load is dropped at the moment before anybody has begun it, and its source is closed. Its
store is finished if it was removed from the queue. -/
structure Discards (r : Run (start config workers)) (p : PoolName) (j : Job) (k : Nat) : Prop where
  drops : (r.state k).Drops p j (r.event k)
  closed : ∀ {n}, k < n → ((r.state n).source j.source).closed = true
  finished : ∀ {n}, k < n →
    ((r.state n).store j.store).finished = true ∨ j ∈ (r.ledger p n).lost ∨ r.Shed p j n

theorem lost_mono (le : m ≤ n) : (r.ledger p m).lost ⊆ (r.ledger p n).lost := by
  induction le with
  | refl => exact List.Subset.refl _
  | step _ ih => exact List.Subset.trans ih Ledger.lost_subset

theorem removed_mono (le : m ≤ n) : (r.ledger p m).removed ⊆ (r.ledger p n).removed := by
  induction le with
  | refl => exact List.Subset.refl _
  | step _ ih => exact List.Subset.trans ih Ledger.removed_subset

theorem discards (drops : (r.state n).Drops p j (r.event n)) : r.Discards p j n := by
  have submitted := r.submitted_of_jobs (Pool.mem_jobs_of_waiting drops.mem_waiting)
  refine ⟨drops, fun lt => ?_, fun {n'} lt => ?_⟩
  · refine r.closed_mono ?_ lt
    rw [r.state_succ]
    exact drops.closed (r.source_of_submitted submitted)
  · cases drops with
    | removed queued cancel =>
      left
      refine (r.store_extends j.store lt).finished ?_
      rw [r.state_succ]
      exact finished_of_cancel queued (r.contains_store submitted) cancel
    | lost queued drop => exact .inr (.inl (r.lost_mono lt (r.lost_of_drop queued drop)))
    | shed act => exact .inr (.inr ⟨n, lt, sheds_of_act act⟩)

/-- A load that waits does so until somebody begins it, or until it is removed or dropped. -/
theorem waiting_onward (waits : j ∈ ((r.state m).pool p).waiting) (le : m ≤ n) :
    j ∈ ((r.state n).pool p).waiting ∨
      (∃ k i, m ≤ k ∧ k ≤ n ∧ (r.state k).loadOf? (.worker p i) = some j.start) ∨
        ∃ k, m ≤ k ∧ k < n ∧ r.Discards p j k := by
  induction le with
  | refl => exact .inl waits
  | @step n le ih =>
    rcases ih with still | ⟨k, i, from_, upTo, taken⟩ | ⟨k, from_, upTo, discards⟩
    · rcases r.waiting_succ still with later | ⟨i, taken⟩ | drops
      · exact .inl later
      · exact .inr (.inl ⟨n + 1, i, Nat.le_succ_of_le le, Nat.le_refl _, taken⟩)
      · exact .inr (.inr ⟨n, le, Nat.lt_succ_self n, r.discards drops⟩)
    · exact .inr (.inl ⟨k, i, from_, Nat.le_succ_of_le upTo, taken⟩)
    · exact .inr (.inr ⟨k, from_, Nat.lt_succ_of_lt upTo, discards⟩)

end Run
end SharedStream
