import SharedStream.Proofs.Loads.Stopping
import SharedStream.Proofs.Plans
import SharedStream.Proofs.Pools.Endings

/-! # Where the load of a cache is

The load of a cache that readers can find has finished, or it was submitted to the pool of the
registry. It is in the hands of the pool until it has finished, unless it panics or a stand-in drops
it.
-/
namespace SharedStream

/-- The load into a cache in the background. -/
def CacheConfig.job (config : CacheConfig) (c : CallId) : Job := ⟨.cache c, c, config.chunkSize⟩

namespace Session
open Keys

variable {s : Session} {id c : CallId} {k : Key} {a b : Task} {e : Event} {l : Load}

/-- A call that fills a cache itself goes on with that, ends or has finished the store. -/
theorem finished_of_fill (present : s.stores.contains l.job.store = true)
    (ht : s.task? c = some (.fill k l))
    (next : (s.moveFill c k l).task? c = some (.register k)) :
    ((s.moveFill c k l).store l.job.store).finished = true := by
  have task : ((s.advanceLoad l).2.task? c).isSome := by simp [ht]
  have ends := finished_of_ends present (l := l)
  unfold moveFill at next ⊢
  rcases hl : s.advanceLoad l with ⟨m, t⟩
  rw [hl] at task next ends
  cases m with
  | goesOn p => simp [task?_goOn task] at next
  | ends => exact ends rfl
  | panics text => simp [abandon, task?_answer] at next

/-- A call that fills its cache keeps its key or lets it go. -/
theorem slot_moveFill (l : Load) :
    (s.moveFill c k l).registry.slots.get? k = s.registry.slots.get? k ∨
      (s.moveFill c k l).registry.slots.get? k = none := by
  have registry := registry_advanceLoad (s := s) (l := l)
  unfold moveFill
  rcases hl : s.advanceLoad l with ⟨m, t⟩
  rw [hl] at registry
  cases m with
  | goesOn p => exact .inl (congrArg (·.slots.get? k) registry)
  | ends => exact .inl (congrArg (·.slots.get? k) registry)
  | panics text => exact .inr (Table.get?_erase_self ..)

/-- A call leaves the load to the pool when its factory has given the source. -/
theorem submits_of_makeSource {mode : LoadMode} (ht : s.task? c = some (.makeSource k mode))
    (next : (s.moveMakeSource c k mode).task? c = some b) (left : b.load? = none) :
    s.Submits .registry ⟨.cache c, c, s.registry.config.chunkSize⟩ (.move (.call c)) := by
  have task : ((s.newCache c k mode).task? c).isSome := Option.isSome_of_eq_some ht
  unfold moveMakeSource at next
  cases factory : (s.source c).factory with
  | fails e => simp [factory, abandon, task?_answer] at next
  | panics text => simp [factory, abandon, task?_answer] at next
  | gives =>
    cases mode with
    | sync =>
      rw [factory] at next
      have fills := (task?_goOn task _ _).symm.trans next
      rw [if_pos rfl] at fills
      cases fills
      cases left
    | async => exact ⟨rfl, rfl, ⟨k, ht⟩, factory⟩

/-- A load in the hands of the pool is the only one of its source. -/
theorem stages_of_pool (hs : s.Sound) (apart : ¬ s.keys.Apart c) {st : Stage}
    (pooled : s.registry.pool.stages c = [st]) : s.stages c = [st] := by
  have one : (s.stages c).length ≤ 1 := (hs.track apart).one
  rw [stages, pooled] at one ⊢
  rw [List.length_append, List.length_singleton] at one
  rw [List.append_right_eq_self, ← List.length_eq_zero_iff]
  omega

theorem pool_stages_of_staff {i : Nat} {o : Option (List Job)} (hs : s.Sound)
    (hw : s.registry.pool.staff[i]? = some (.loading l o)) :
    s.registry.pool.stages l.job.source = [.running l.phase] := by
  have own := (hs.own (Pool.mem_jobs_of_staff hw)).2
  exact Pool.stages_of_staff hw (one_of_sound hs (not_apart_of_cached own))

theorem stages_of_staff {i : Nat} {o : Option (List Job)} (hs : s.Sound)
    (hw : s.registry.pool.staff[i]? = some (.loading l o)) :
    s.stages l.job.source = [.running l.phase] := by
  have own := (hs.own (Pool.mem_jobs_of_staff hw)).2
  exact stages_of_pool hs (not_apart_of_cached own) (pool_stages_of_staff hs hw)

theorem stages_of_waiting {j : Job} (hs : s.Sound) (waits : j ∈ s.registry.pool.waiting) :
    s.stages j.source = [.queued] := by
  have apart := not_apart_of_cached (hs.own (Pool.mem_jobs_of_waiting waits)).2
  exact stages_of_pool hs apart (Pool.stages_of_waiting waits rfl (one_of_sound hs apart)).1

end Session

namespace Run
open Session Keys

variable {config : CacheConfig} {workers : Nat} (r : Run (start config workers))
variable {c : CallId} {k : Key} {m n : Nat}

/-- The cache needs nobody to load it any more but the pool of the registry. -/
def Loads (r : Run (start config workers)) (n : Nat) (c : CallId) : Prop :=
  ((r.state n).store (.cache c)).finished = true ∨
    config.job c ∈ (r.ledger .registry n).submitted

theorem Loads.succ (h : r.Loads n c) (cached : (r.state n).caches.contains c = true) :
    r.Loads (n + 1) c := by
  refine h.imp (fun finished => ?_) fun submitted => Ledger.submitted_subset submitted
  obtain ⟨y, -, hy, -⟩ := eq_of_track_of_stages (r.sound n) cached
  exact (r.passes n).toStocks.finished (Option.isSome_of_eq_some hy) finished

theorem cached_of_builds (builds : (r.state n).keys.role c = some (.builds k)) :
    (r.state n).caches.contains c = true :=
  cached_iff.2 ⟨k, (r.sound n).keys.cache_of_builds builds⟩

/-- A call that builds a cache and does not fill it itself has left that to the pool, or is through
with it. -/
theorem loads_of_builds {b : Task} (ht : (r.state n).task? c = some b)
    (builds : b.role? = some (.builds k)) (left : b.load? = none) : r.Loads n c := by
  induction n generalizing b with
  | zero => simp [r.state_zero, start, task?] at ht
  | succ n ih =>
    have hs := r.sound n
    have ha := r.attentive n
    have further : b.isFirst = false := by cases b <;> first | rfl | cases builds
    rcases task_or_leads hs ha (r.admitted n) (r.state_succ n ▸ ht) further with
      before | ⟨a, before, leads, own⟩
    · have role := role_of_task before
      rw [builds] at role
      exact (ih before builds left).succ r (r.cached_of_builds role)
    have after : r.state (n + 1) = (r.state n).moveTask c a := by
      rw [r.state_succ, ha.after_of_caller (r.admitted n) own before]
    have event := ha.caller_eq (r.admitted n) own before
    cases leads with
    | queue | standIn =>
      rw [after] at ht
      have submits := submits_of_makeSource before ht left
      rw [r.config_eq] at submits
      exact .inr (r.submitted_of_submits (Nat.lt_succ_self n) (event ▸ submits))
    | stoodIn key i =>
      cases builds
      have cached := r.cached_of_builds (role_of_task before)
      exact (ih before rfl rfl).succ r cached
    | filled key l =>
      left
      have store := (hs.fits before).1
      have cached := r.cached_of_builds (role_of_task before)
      obtain ⟨y, -, hy, -⟩ := eq_of_track_of_stages hs cached
      have present : (r.state n).stores.contains l.job.store = true := by
        rw [store]
        exact Option.isSome_of_eq_some hy
      rw [after] at ht ⊢
      rw [← store]
      exact finished_of_fill present before ht
    | fill | filling => cases left
    | _ => cases builds

theorem loads_of_slot (slot : (r.state n).registry.slots.get? k = some (.reader c)) :
    r.Loads n c := by
  induction n with
  | zero => simp [r.state_zero, start, Registry.ofConfig] at slot
  | succ n ih =>
    rcases (r.step n).reader_of_after slot with before | ⟨own, builds, -⟩
    · exact (ih before).succ r (cached_iff.2 ⟨k, (r.sound n).keys.cache_of_slot before⟩)
    · rcases task_of_builds builds with ⟨l, ht⟩ | ⟨i, ht⟩ | ht
      · -- A call that fills its cache is not through with it.
        exfalso
        have opening : (r.state n).keys.slot k = some .opening :=
          (r.sound n).keys.agree.slot_eq (Valid.stake_of_opens (.inr builds))
        have after := (r.attentive n).after_of_caller (r.admitted n) own ht
        rw [r.state_succ, after] at slot
        rcases slot_moveFill (s := r.state n) l with same | free
        · cases (same.trans opening).symm.trans slot
        · cases free.symm.trans slot
      · exact (r.loads_of_builds ht rfl rfl).succ r (r.cached_of_builds builds)
      · exact (r.loads_of_builds ht rfl rfl).succ r (r.cached_of_builds builds)

/-- As long as the registry goes on, the load of such a cache has finished, or the pool has it,
unless it has panicked or was dropped. -/
theorem place_of_loads (loads : r.Loads n c) (going : ¬ (r.state n).keys.Over) :
    ((r.state n).store (.cache c)).finished = true ∨
      (r.state n).registry.pool.Has (config.job c) ∨ r.Killed .registry (config.job c) n ∨
        r.Shed .registry (config.job c) n := by
  rcases loads with finished | submitted
  · exact .inl finished
  rcases r.fate submitted with has | finished | killed | shed | lost
  · exact .inr (.inl has)
  · exact .inl finished
  · exact .inr (.inr (.inl killed))
  · exact .inr (.inr (.inr shed))
  · exact absurd ((r.reach n).over (r.deserted_of_lost (List.ne_nil_of_mem lost)).down) going

/-- The load of a cache that readers can find has finished, or the pool has it, unless it has
panicked or was dropped. -/
theorem place_of_slot (slot : (r.state n).registry.slots.get? k = some (.reader c)) :
    ((r.state n).store (.cache c)).finished = true ∨
      (r.state n).registry.pool.Has (config.job c) ∨ r.Killed .registry (config.job c) n ∨
        r.Shed .registry (config.job c) n := by
  refine r.place_of_loads (r.loads_of_slot slot) fun idle => ?_
  cases (idle.slot k).symm.trans slot

/-- No read of a source has begun before its load is taken up. -/
theorem unread (own : ¬ (r.state n).keys.Apart c) : ((r.state n).track c).Unread := by
  induction n with
  | zero =>
    intro _ x hx
    simp [r.state_zero, start, Session.track] at hx
  | succ n ih =>
    have before : ¬ (r.state n).keys.Apart c :=
      fun apart => own ((r.step n).apart (r.sound n).keys apart)
    exact (ih before).step ((r.sound n).track before) ((r.onward n).track before)

/-! ## Loads that are asked to stop -/

variable {i : Nat} {y : Store} {b : SourceAnswer}

theorem asked_step (asked : Track.Asked y i ((r.state n).track c)) :
    Track.Step ((r.state n).answered c (r.event n)) ((r.state n).track c)
      ((r.state (n + 1)).track c) :=
  (r.onward n).track (not_apart_of_cached asked.cached)

/-- A load that was asked to stop adds nothing to its store, and begins no read that was not due. -/
theorem asked (asked : Track.Asked y i ((r.state m).track c)) (le : m ≤ n) :
    Track.Asked y i ((r.state n).track c) := by
  induction le with
  | refl => exact asked
  | step _ ih => exact ih.step (r.asked_step ih)

/-- A load waits in a read until that returns. -/
theorem waits (waits : Track.Waits y i ((r.state m).track c)) (le : m ≤ n)
    (silent : ∀ j, m ≤ j → j < n → (r.state j).answered c (r.event j) = none) :
    Track.Waits y i ((r.state n).track c) := by
  induction le with
  | refl => exact waits
  | @step n le ih =>
    have before := ih fun j from_ upTo => silent j from_ (Nat.lt_succ_of_lt upTo)
    have step := (r.onward n).track (not_apart_of_cached before.cached)
    rw [silent n le (Nat.lt_succ_self n)] at step
    exact before.step step

theorem winding (asked : Track.Asked y i ((r.state m).track c)) (le : m ≤ n)
    (winding : ((r.state m).track c).Winding) : ((r.state n).track c).Winding := by
  induction le with
  | refl => exact winding
  | step le ih =>
    have asked := r.asked asked le
    exact (asked.winding_step ih (r.asked_step asked)).2

/-- In a settled session it has ended if it waits for nothing. -/
theorem ended_of_winding (asked : Track.Asked y i ((r.state n).track c))
    (winding : ((r.state n).track c).Winding) (settled : (r.state n).Settled) :
    ((r.state n).store (.cache c)).finished = true ∧ ((r.state n).source c).closed = true := by
  have finished : ((r.state n).store (.cache c)).finished = true := by
    rcases winding with ⟨-, y', hy, finished⟩ | ⟨p, running, winds⟩
    · rw [Session.store, show (r.state n).stores.get? (.cache c) = some y' from hy]
      exact finished
    · have mem : .running p ∈ (r.state n).stages c := by
        rw [show (r.state n).stages c = [.running p] from running]
        exact List.mem_singleton_self _
      obtain ⟨l, runs, -, rfl⟩ := exists_runs_of_running (r.sound n) mem
      rw [((r.attentive n).stalls settled runs).1] at winds
      cases winds
  exact ⟨finished, (r.sound n).closed_of_gone ((r.sound n).gone_of_finished asked.cached finished)⟩

/-- It waits on for the answer to its last read, -/
theorem awaits (asked : Track.Asked y i ((r.state m).track c))
    (awaits : ((r.state m).track c).Awaits) (le : m ≤ n)
    (silent : ∀ i, m ≤ i → i < n → (r.state i).answered c (r.event i) = none) :
    ((r.state n).track c).Awaits := by
  induction le with
  | refl => exact awaits
  | @step n le ih =>
    have asked := r.asked asked le
    have before := ih fun i from_ upTo => silent i from_ (Nat.lt_succ_of_lt upTo)
    rcases asked.awaits_step before (r.asked_step asked) with ⟨-, still⟩ | ⟨b, answer, -⟩
    · exact still
    · cases (silent n le (Nat.lt_succ_self n)).symm.trans answer

/-- and when it has the answer it goes to its end. -/
theorem winding_of_returns (asked : Track.Asked y i ((r.state n).track c))
    (awaits : ((r.state n).track c).Awaits)
    (answer : (r.state n).answered c (r.event n) = some b) (returns : b.returns = true) :
    ((r.state (n + 1)).track c).Winding := by
  rcases asked.awaits_step awaits (r.asked_step asked) with ⟨none, -⟩ | ⟨b', answer', winding⟩
  · cases answer.symm.trans none
  · cases answer.symm.trans answer'
    exact winding returns

end Run
end SharedStream
