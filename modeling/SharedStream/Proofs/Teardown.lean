import SharedStream.Proofs.Exclusion
import SharedStream.Proofs.Pools.StandIns

/-! # No source is alive while a writer has the key

A cache leaves its slot only after its load has stopped, so that its source is closed by then.
-/
namespace SharedStream.Session
open Keys

variable {s : Session} {e : Event} {id c : CallId} {k : Key}

/-! ## What a call is about to do -/

theorem task_of_builds (h : s.keys.role c = some (.builds k)) :
    (∃ l, s.task? c = some (.fill k l)) ∨ (∃ i, s.task? c = some (.standIn k i)) ∨
      s.task? c = some (.register k) := by
  cases ht : s.task? c with
  | none => simp [keys, ht] at h
  | some t =>
    rw [role_of_task ht] at h
    cases t <;> cases h
    · exact .inl ⟨_, rfl⟩
    · exact .inr (.inl ⟨_, rfl⟩)
    · exact .inr (.inr rfl)

theorem task_of_retires (h : s.keys.role id = some (.retires k c)) :
    s.task? id = some (.cancelCache k c) ∨ s.task? id = some (.dequeueCache k c) ∨
      s.task? id = some (.awaitCache k c) := by
  cases ht : s.task? id with
  | none => simp [keys, ht] at h
  | some t =>
    rw [role_of_task ht] at h
    cases t <;> cases h
    · exact .inl rfl
    · exact .inr (.inl rfl)
    · exact .inr (.inr rfl)

theorem role_of_goOn {t : Task} (h : (s.task? id).isSome) :
    (s.goOn id t).keys.role id = t.role? := by
  rw [keys_goOn h]
  exact Function.update_self ..

/-- A call with something to do moves in each event that is its own. -/
theorem after_of_caller (hs : s.Sound) (admitted : s.admits e) (caller : e.caller = some id)
    {t : Task} (ht : s.task? id = some t) {r : Role} (role : s.keys.role id = some r) :
    s.after e = s.moveTask id t := by
  cases e with
  | begin i op =>
    cases caller
    have older := hs.keys.lt_clock_of_role role
    have later : s.clock ≤ id := admitted
    exact absurd older (Nat.not_lt_of_le later)
  | move a =>
    cases a <;> cases caller
    exact move_of_task ht

/-! ## How a cache is given up -/

theorem pool_moveFill (l : Load) : (s.moveFill c k l).registry.pool = s.registry.pool := by
  have pool := congrArg Registry.pool (registry_advanceLoad (s := s) (l := l))
  unfold moveFill
  rcases hl : s.advanceLoad l with ⟨m, t⟩
  rw [hl] at pool
  cases m <;> exact pool

/-- A call gives up to build a cache only when its load has panicked. -/
theorem panicked_of_fill {l : Load} (hs : s.Sound) (ht : s.task? c = some (.fill k l))
    (ended : (s.moveFill c k l).keys.role c = none)
    (cached : (s.moveFill c k l).caches.contains c = true) :
    ((s.moveFill c k l).track c).Gone ∧
      ∃ text, (s.moveFill c k l).results.get? c = some (.panicked text) := by
  obtain ⟨idle, -⟩ := stages_eq_of_fill hs ht
  have stages : (s.moveFill c k l).stages c = [] := by
    rw [stages, pool_moveFill, idle, stage_eq_none_of_role ended]
    rfl
  refine ⟨⟨cached, stages⟩, ?_⟩
  have task : ((s.advanceLoad l).2.task? c).isSome := by simp [ht]
  unfold moveFill at ended ⊢
  rcases hl : s.advanceLoad l with ⟨m, t⟩
  rw [hl] at task ended
  cases m with
  | goesOn p =>
    rw [role_of_goOn task] at ended
    cases ended
  | ends =>
    rw [role_of_goOn task] at ended
    cases ended
  | panics text => exact ⟨text, Table.get?_set_self ..⟩

/-- A call that stands in for a worker gives up to build a cache only when a load has panicked that
it has run, and then has nothing left of its own. -/
theorem panicked_of_standIn {config : CacheConfig} {workers i : Nat}
    (h : Reach (start config workers) s) (ht : s.task? c = some (.standIn k i))
    (can : s.canMove (.call c) = true) (ended : (s.moveStandIn c k i).keys.role c = none)
    (cached : (s.moveStandIn c k i).caches.contains c = true) :
    ((s.moveStandIn c k i).track c).Gone ∧
      ∃ text, (s.moveStandIn c k i).results.get? c = some (.panicked text) := by
  have stoodIn : s.hasStoodIn .registry i = true := taskCanMove_of_canMove ht can
  unfold moveStandIn at ended cached ⊢
  cases fall : s.fall? .registry i with
  | none =>
    rw [fall] at ended
    rw [role_of_goOn (Option.isSome_of_eq_some ht)] at ended
    cases ended
  | some text =>
    simp only [fall] at ended cached ⊢
    refine ⟨⟨cached, ?_⟩, text, Table.get?_set_self ..⟩
    show s.registry.pool.stages c ++ _ = []
    rw [h.stages_of_fall ht stoodIn fall, stage_eq_none_of_role ended]
    rfl

theorem current_of_register (s : Session) (c : CallId) (k : Key) :
    (s.moveRegister c k).keys.Current k c :=
  .inr (.inl (Table.get?_set_self ..))

/-- A call goes on to take the lease only when the store of the old cache is finished. -/
theorem finished_of_retires (hs : s.Sound) (admitted : s.admits e) (caller : e.caller = some id)
    (retires : s.keys.role id = some (.retires k c))
    (leases : (s.after e).keys.role id = some (.leases k)) :
    ((s.after e).track c).Gone ∧ ((s.after e).store (.cache c)).finished = true := by
  obtain ⟨n, hn⟩ := hs.keys.cache_of_retires retires
  have cached' := cached_iff.2 ⟨k, (step_after hs admitted).cached hs.keys ⟨n, hn⟩⟩
  have next := hs.after admitted
  suffices finished : ((s.after e).store (.cache c)).finished = true from
    ⟨next.gone_of_finished cached' finished, finished⟩
  rcases task_of_retires retires with ht | ht | ht
  · rw [after_of_caller hs admitted caller ht retires] at leases
    have task : ((s.cancelStore (.cache c)).task? id).isSome := Option.isSome_of_eq_some ht
    rw [moveTask, moveCancelCache, role_of_goOn task] at leases
    cases leases
  · rw [after_of_caller hs admitted caller ht retires] at leases
    rw [moveTask, moveDequeueCache, role_of_goOn (by simp [ht])] at leases
    cases leases
  · rw [after_of_caller hs admitted caller ht retires] at leases ⊢
    simp only [moveTask, moveAwaitCache] at leases ⊢
    split at leases
    · next finished =>
      rw [if_pos finished]
      exact finished
    · rw [keys_sleep, retires] at leases
      cases leases

/-- The keys are as they were after an event that is no call's, unless the registry ends. -/
theorem keys_after_of_caller (caller : e.caller = none) (going : e ≠ .move .registry) :
    (s.after e).keys = s.keys := by
  cases e with
  | begin => cases caller
  | move a =>
    cases a with
    | call => cases caller
    | worker n i => exact keys_moveWorker n i
    | pool n => exact keys_dropQueue n
    | registry => exact absurd rfl going

/-- A current cache stays current up to the end of the registry, unless its load has stopped. -/
theorem current_after {config : CacheConfig} {workers : Nat} (h : Reach (start config workers) s)
    (admitted : s.admits e) {n : Int} (hc : s.keys.cache c = some (k, n))
    (current : s.keys.Current k c) :
    (s.after e).keys.Current k c ∨ (e = .move .registry ∧ (s.after e).keys.Over) ∨
      ((s.after e).track c).Gone ∧
      (((s.after e).store (.cache c)).finished = true ∨ s.keys.role c = some (.builds k) ∧
        ∃ text, (s.after e).results.get? c = some (.panicked text)) := by
  have hs := h.sound
  have step := step_after hs admitted
  have cached := cached_iff.2 ⟨k, step.cached hs.keys ⟨n, hc⟩⟩
  rcases step.current hs.keys current with current' | ⟨caller, idle⟩ | ⟨caller, builds, ended⟩ |
    ⟨id, caller, retires, leases⟩
  · exact .inl current'
  · by_cases ends : e = .move .registry
    · exact .inr (.inl ⟨ends, idle⟩)
    · rw [keys_after_of_caller caller ends]
      exact .inl current
  · rcases task_of_builds builds with ⟨l, ht⟩ | ⟨i, ht⟩ | ht
    · rw [after_of_caller hs admitted caller ht builds] at ended cached ⊢
      obtain ⟨gone, panicked⟩ := panicked_of_fill hs ht ended cached
      exact .inr (.inr ⟨gone, .inr ⟨builds, panicked⟩⟩)
    · rw [after_of_caller hs admitted caller ht builds] at ended cached ⊢
      rw [h.attentive.caller_eq admitted caller ht] at admitted
      obtain ⟨gone, panicked⟩ := panicked_of_standIn h ht admitted ended cached
      exact .inr (.inr ⟨gone, .inr ⟨builds, panicked⟩⟩)
    · rw [after_of_caller hs admitted caller ht builds]
      exact .inl (current_of_register s c k)
  · obtain ⟨gone, finished⟩ := finished_of_retires hs admitted caller retires leases
    exact .inr (.inr ⟨gone, .inl finished⟩)

end SharedStream.Session

/-! ## Runs -/

namespace SharedStream.Session
open Keys

variable {s : Session} {e : Event} {c : CallId} {k : Key}

/-- The factory of a call that opens the key for reading gives its source in the event. -/
def Obtains (s : Session) (e : Event) (k : Key) (c : CallId) : Prop :=
  e = .move (.call c) ∧ ∃ mode, s.task? c = some (.makeSource k mode) ∧
    (s.source c).factory = .gives

/-- A load is under way. -/
def Runs (s : Session) (l : Load) : Prop :=
  (∃ n, ∃ i : Nat, ∃ o, (s.pool n).staff[i]? = some (.loading l o)) ∨
    ∃ id t, s.task? id = some t ∧ t.load? = some l

/-- The source becomes that of a cache. -/
theorem Obtains.cached (h : s.Obtains e k c) : (s.after e).keys.cache c = some (k, 0) := by
  obtain ⟨rfl, mode, ht, gives⟩ := h
  have task : ((s.newCache c k mode).task? c).isSome := Option.isSome_of_eq_some ht
  rw [after, move_of_task ht, moveTask, moveMakeSource]
  simp only [gives]
  cases mode with
  | sync =>
    rw [keys_goOn task, keys_newCache]
    exact Function.update_self ..
  | async =>
    rw [keys_goOn (by rwa [task?_setPool]), keys_setPool, keys_newCache]
    exact Function.update_self ..

theorem Sound.not_runs (hs : s.Sound) (gone : (s.track c).Gone) {l : Load} (runs : s.Runs l) :
    l.job.source ≠ c := by
  rintro rfl
  obtain ⟨cached, stages⟩ := gone
  have not_apart := not_apart_of_cached cached
  have stages : s.registry.pool.stages l.job.source = [] ∧
      ((s.task? l.job.source).bind Task.stage?).toList = [] := List.append_eq_nil_iff.1 stages
  rcases runs with ⟨n, i, o, hl⟩ | ⟨id, t, ht, hl⟩
  · cases n with
    | separate => exact not_apart (hs.foreign (Pool.mem_jobs_of_staff hl)).2
    | registry =>
      have running := Pool.stages_of_staff hl (one_of_sound hs not_apart)
      cases running.symm.trans stages.1
  · have fits := hs.fits ht
    cases t with
    | fill key l' =>
      cases hl
      obtain ⟨-, source⟩ := fits
      simp [source, ht, Task.stage?] at stages
    | load l' =>
      cases hl
      exact not_apart fits.2
    | _ => cases hl

theorem Sound.not_waiting (hs : s.Sound) (gone : (s.track c).Gone) {j : Job}
    (waits : j ∈ s.registry.pool.waiting) : j.source ≠ c := by
  rintro rfl
  obtain ⟨cached, stages⟩ := gone
  have idle := (List.append_eq_nil_iff.1 stages).1
  have one := one_of_sound hs (not_apart_of_cached cached)
  rw [(Pool.stages_of_waiting waits rfl one).1] at idle
  cases idle

end SharedStream.Session

namespace SharedStream.Run
open Session

variable {config : CacheConfig} {workers : Nat} (r : Run (Session.start config workers))
variable {c w : CallId} {k : Key} {m n N : Nat}

/-- The call that was to build the cache has panicked. -/
def Panicked (c : CallId) (n : Nat) : Prop :=
  ∃ m, m ≤ n ∧ ∃ text, (r.state m).results.get? c = some (.panicked text)

/-- The registry has ended before the moment. -/
def Ended (n : Nat) : Prop := ∃ m, m < n ∧ r.event m = .move .registry

/-- Every cache is current, unless the registry has ended or its load has stopped. -/
theorem settled (hc : ∃ x, (r.state n).keys.cache c = some (k, x)) :
    (r.state n).keys.Current k c ∨ (r.Ended n ∧ (r.state n).keys.Over) ∨
      ((r.state n).track c).Gone ∧
        (((r.state n).store (.cache c)).finished = true ∨ r.Panicked c n) := by
  induction n with
  | zero => simp [r.state_zero, Session.start, keys] at hc
  | succ n ih =>
    have hs := r.sound n
    have step := r.step n
    have admitted := r.admitted n
    have next := r.state_succ n
    obtain ⟨x, hx⟩ := hc
    cases before : (r.state n).keys.cache c with
    | none => exact .inl (.inl (step.builds_of_new hs.keys before hx))
    | some y =>
      obtain ⟨k', x'⟩ := y
      obtain ⟨x'', same⟩ := step.cached hs.keys ⟨x', before⟩
      rw [hx] at same
      cases same
      rcases ih ⟨x', before⟩ with current | ⟨⟨m, lt, ends⟩, idle⟩ | ⟨gone, finished⟩
      · have after := current_after (r.reach n) admitted before current
        rw [← next] at after
        refine after.imp_right (Or.imp ?_ ?_)
        · rintro ⟨ends, idle⟩
          exact ⟨⟨n, Nat.lt_succ_self n, ends⟩, idle⟩
        · rintro ⟨gone, finished⟩
          refine ⟨gone, finished.imp_right ?_⟩
          rintro ⟨-, text, result⟩
          exact ⟨n + 1, Nat.le_refl _, text, result⟩
      · exact .inr (.inl ⟨⟨m, Nat.lt_succ_of_lt lt, ends⟩, step.idle idle⟩)
      · -- A load that has panicked leaves its store unfinished, and so it stays.
        have rests := hs.rests_after gone admitted
        rw [← next] at rests
        refine .inr (.inr ⟨rests.gone, ?_⟩)
        rw [rests.finished]
        refine finished.imp_right ?_
        rintro ⟨m, le, panicked⟩
        exact ⟨m, by omega, panicked⟩

/-- A cache that was open to readers is current, unless the registry has ended or its store is
finished. -/
theorem settled_of_slot (slot : (r.state m).registry.slots.get? k = some (.reader c)) (le : m ≤ n) :
    (r.state n).keys.Past c ∧ (∃ x, (r.state n).keys.cache c = some (k, x)) ∧
      ((r.state n).keys.Current k c ∨ (r.state n).keys.Over ∨ ((r.state n).track c).Gone ∧
        ((r.state n).store (.cache c)).finished = true) := by
  have slot : (r.state m).keys.slot k = some (.reader c) := slot
  obtain ⟨x, hx⟩ := (r.sound m).keys.cache_of_slot slot
  have past := (r.sound m).keys.past_of_cache hx (by simp [slot])
  -- The call that built the cache is past it, so that no load of it can panic any more.
  refine r.kept (P := fun s => s.keys.Past c ∧ (∃ x, s.keys.cache c = some (k, x)) ∧
    (s.keys.Current k c ∨ s.keys.Over ∨ (s.track c).Gone ∧ (s.store (.cache c)).finished = true))
    ⟨past, ⟨x, hx⟩, .inl (.inr (.inl slot))⟩ ?_ le
  rintro i - ⟨past, ⟨x, hx⟩, settled⟩
  have hs := r.sound i
  have admitted := r.admitted i
  have step := step_after hs admitted
  refine ⟨step.past past, step.cached hs.keys ⟨x, hx⟩, ?_⟩
  rcases settled with current | idle | ⟨gone, finished⟩
  · refine (current_after (r.reach i) admitted hx current).imp_right (Or.imp And.right ?_)
    rintro ⟨gone, finished⟩
    exact ⟨gone, finished.resolve_right fun h => (past.role k).2.2 h.1⟩
  · exact .inr (.inl (step.idle idle))
  · have rests := hs.rests_after gone admitted
    exact .inr (.inr ⟨rests.gone, rests.finished.trans finished⟩)

/-- What a writer of the key can rely on. -/
structure Vacated (r : Run (Session.start config workers)) (n : Nat) (k : Key) : Prop where
  /-- Every source that was ever opened for the key is closed, -/
  closed : ∀ m c, m < n → (r.state m).Obtains (r.event m) k c →
    ((r.state n).source c).closed = true
  /-- and so it stays: no load of it is under way, nor is a read of it begun. -/
  quiet : ∀ m c N, m < n → n ≤ N → (r.state m).Obtains (r.event m) k c →
    (∀ l, (r.state N).Runs l → l.job.source ≠ c) ∧
      ((r.state N).source c).reads = ((r.state n).source c).reads
  /-- The store of every cache that readers of the key ever had is finished, -/
  finished : ∀ m c, m ≤ n → (r.state m).registry.slots.get? k = some (.reader c) →
    ((r.state n).store (.cache c)).finished = true
  /-- and so is that of any other, unless the call that was to build the cache has panicked. -/
  built : ∀ c, (r.state n).caches.contains c = true → (r.state n).keyOf c = k →
    ((r.state n).store (.cache c)).finished = true ∨ r.Panicked c n
  /-- None of them is in the queue, or in the hands of somebody who is to load it. -/
  unqueued : ∀ j, j ∈ (r.state n).registry.pool.waiting → (r.state n).keyOf j.source ≠ k

theorem not_current_of_writer (slot : (r.state n).registry.slots.get? k = some (.writer w)) :
    ¬ (r.state n).keys.Current k c ∧ ¬ (r.state n).keys.Over := by
  have hv := (r.sound n).keys
  have slot : (r.state n).keys.slot k = some (.writer w) := slot
  refine ⟨?_, fun idle => ?_⟩
  · rintro (builds | reader | ⟨id, retires⟩)
    · have opening := hv.agree.slot_eq (Keys.Valid.stake_of_opens (.inr builds))
      rw [slot] at opening
      cases opening
    · rw [slot] at reader
      cases reader
    · have closing := hv.slot_of_retires retires
      rw [slot] at closing
      cases closing
  · have free := idle.slot k
    rw [slot] at free
    cases free

theorem gone_of_writer (slot : (r.state n).registry.slots.get? k = some (.writer w))
    (hc : ∃ x, (r.state n).keys.cache c = some (k, x)) : ((r.state n).track c).Gone ∧
      (((r.state n).store (.cache c)).finished = true ∨ r.Panicked c n) := by
  obtain ⟨current, idle⟩ := r.not_current_of_writer (c := c) slot
  exact ((r.settled hc).resolve_left current).resolve_left fun ended => idle ended.2

theorem exists_cache_of_keyOf (cached : (r.state n).caches.contains c = true) :
    ∃ x, (r.state n).keys.cache c = some ((r.state n).keyOf c, x) := by
  obtain ⟨k, x, hx⟩ := cached_iff.1 cached
  exact ⟨x, by rw [keyOf_of_cache hx, hx]⟩

/-- No source of a key is alive while a writer has the key. -/
theorem vacated (slot : (r.state n).registry.slots.get? k = some (.writer w)) : r.Vacated n k := by
  have obtained : ∀ {m c}, m < n → (r.state m).Obtains (r.event m) k c →
      ((r.state n).track c).Gone := by
    intro m c lt obtains
    have first := obtains.cached
    rw [← r.state_succ] at first
    exact (r.gone_of_writer slot (r.cached_mono ⟨0, first⟩ lt)).1
  refine ⟨?_, ?_, ?_, ?_, ?_⟩
  · intro m c lt obtains
    exact (r.sound n).closed_of_gone (obtained lt obtains)
  · intro m c N lt le obtains
    have rests := r.rests (obtained lt obtains) le
    exact ⟨fun l => (r.sound N).not_runs rests.gone, rests.reads⟩
  · intro m c le reader
    obtain ⟨current, idle⟩ := r.not_current_of_writer (c := c) slot
    obtain ⟨-, -, settled⟩ := r.settled_of_slot reader le
    exact ((settled.resolve_left current).resolve_left idle).2
  · rintro c cached rfl
    exact (r.gone_of_writer slot (r.exists_cache_of_keyOf cached)).2
  · rintro j waits rfl
    have own := (r.sound n).own (Pool.mem_jobs_of_waiting waits)
    have gone := (r.gone_of_writer slot (r.exists_cache_of_keyOf own.2)).1
    exact (r.sound n).not_waiting gone waits rfl

end SharedStream.Run

namespace SharedStream.Session

/-- A cache is loaded and let go, and a writer takes its key. -/
def handOver : List Event :=
  [.begin 0 (.openReader ⟨"a"⟩ none {}), .move (.call 0), .move (.call 0), .move (.call 0)] ++
    List.replicate 7 (.move (.worker .registry 0)) ++
    [.begin 1 (.part 0 .drop), .move (.call 1), .move (.call 1), .begin 2 (.openWriter ⟨"a"⟩ {})] ++
    List.replicate 5 (.move (.call 2))

theorem vacated_handOver : ∃ plays : (start {} 1).Plays handOver,
    (Run.ofList plays).Vacated 20 ⟨"a"⟩ ∧
      ((Run.ofList plays).state 2).Obtains ((Run.ofList plays).event 2) ⟨"a"⟩ 0 := by
  have plays : (start {} 1).Plays handOver := by
    unfold Plays
    decide
  have slot : ((start {} 1).play handOver 20).registry.slots.get? ⟨"a"⟩ = some (.writer 2) := by
    decide
  have task : ((start {} 1).play handOver 2).task? 0 = some (.makeSource ⟨"a"⟩ .async) := rfl
  exact ⟨plays, (Run.ofList plays).vacated slot, rfl, .async, task, rfl⟩

end SharedStream.Session
