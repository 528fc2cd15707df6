import SharedStream.Proofs.Pools.Caches

/-! # Loads that stand-ins take over

The loads of a pool are taken by workers or by calls that stand in for workers. What a stand-in has
taken it keeps for good, and if it gives up, its own load is among that.
-/
namespace SharedStream

namespace Pool

variable {p : Pool}

theorem Threaded.orphans (h : p.Threaded) : p.orphans = [] := by
  refine List.flatMap_eq_nil_iff.2 fun w hw => ?_
  have own := (h w hw).2
  cases w with
  | loading l o =>
    cases o with
    | none => rfl
    | some rest => cases own
  | between | fallen => cases own
  | _ => rfl

end Pool

namespace Run
open Session Pool

variable {config : CacheConfig} {workers : Nat} (r : Run (start config workers))
variable {n : PoolName} {m m' : Nat} {c : CallId} {k : Key} {i i' : Nat} {j j' : Job} {w : Worker}

/-- A load is taken once. -/
theorem eq_of_taken (h : (i, j) ∈ (r.ledger n m).taken) (h' : (i', j') ∈ (r.ledger n m).taken)
    (same : j.source = j'.source) : i = i' := by
  have agrees := r.agrees n m
  have job : j = j' := List.inj_on_of_nodup_map agrees.distinct (r.submitted_of_taken h)
    (r.submitted_of_taken h') same
  have distinct : ((r.ledger n m).taken.map Prod.snd).Nodup := by
    have all := agrees.perm.nodup_iff.2 (.of_map _ agrees.distinct)
    exact (List.nodup_append.1 (List.nodup_append.1 (List.nodup_append.1 all).2.1).1).1
  exact congrArg Prod.fst (List.inj_on_of_nodup_map distinct h h' job)

theorem taken_mono (le : m ≤ m') : (r.ledger n m).taken ⊆ (r.ledger n m').taken := by
  induction le with
  | refl => exact List.Subset.refl _
  | step _ ih => exact List.Subset.trans ih Ledger.taken_subset

/-- A call that stands in for a worker has taken the load of the source from the queue. -/
def TakenOver (r : Run (start config workers)) (n : PoolName) (c : CallId) (m : Nat) : Prop :=
  ∃ i j w, (i, j) ∈ (r.ledger n m).taken ∧ j.source = c ∧
    ((r.state m).pool n).staff[i]? = some w ∧ w.standsIn = true

theorem TakenOver.mono (h : r.TakenOver n c m) (le : m ≤ m') : r.TakenOver n c m' := by
  obtain ⟨i, j, w, taken, source, hw, standsIn⟩ := h
  have granted : w ≠ .denied := by
    rintro rfl
    cases standsIn
  obtain ⟨w', hw', -, same⟩ := r.standsIn_kept hw granted le
  exact ⟨i, j, w', r.taken_mono le taken, source, hw', same.trans standsIn⟩

theorem not_takenOver (threaded : ((r.state m).pool n).Threaded) : ¬ r.TakenOver n c m := by
  rintro ⟨i, j, w, -, -, hw, standsIn⟩
  cases (threaded w (List.mem_of_getElem? hw)).2.symm.trans standsIn

theorem not_takenOver_of_queue (queued : j ∈ ((r.state m).pool n).queue) :
    ¬ r.TakenOver n j.source m := by
  rintro ⟨i, j', w, taken, source, -⟩
  exact (r.agrees n m).source_ne taken queued source.symm

theorem takenOver_iff (hw : ((r.state m).pool n).staff[i]? = some w)
    (taken : (i, j) ∈ (r.ledger n m).taken) :
    r.TakenOver n j.source m ↔ w.standsIn = true := by
  constructor
  · rintro ⟨i', j', w', taken', source, hw', standsIn⟩
    cases r.eq_of_taken taken taken' source.symm
    cases hw.symm.trans hw'
    exact standsIn
  · exact fun standsIn => ⟨i, j, w, taken, rfl, hw, standsIn⟩

/-! ## The load of a stand-in -/

/-- The last worker that is counted was denied its thread: its stand-in takes the queue. -/
theorem takenOver_of_retract (hi : ((r.state m).pool n).staff[i]? = some .denied)
    (acts : (r.state m).poolActs n (r.event m) = [.retract i])
    (last : ((r.state m).pool n).workers - 1 = 0) (queued : j ∈ ((r.state m).pool n).queue) :
    r.TakenOver n j.source (m + 1) := by
  refine ⟨i, j, .between ((r.state m).pool n).queue, ?_, rfl, ?_, rfl⟩
  · rw [r.ledger_succ acts]
    refine List.mem_append_right _ ?_
    rw [if_pos last]
    exact List.mem_map_of_mem queued
  · have lt := (List.getElem?_eq_some_iff.1 hi).1
    rw [r.pool_succ, acts]
    show (((r.state m).pool n).retract i).staff[i]? = _
    unfold Pool.retract
    dsimp only
    rw [if_pos last]
    exact List.getElem?_set_self lt

/-- What becomes of a call at the next moment that is about to stand in for a worker. -/
theorem takenOver_of_denied (ht : (r.state m).task? c = some (.standIn k i))
    (hi : ((r.state m).pool .registry).staff[i]? = some .denied)
    (hw : ((r.state (m + 1)).pool .registry).staff[i]? = some w) :
    w = .denied ∨ w = .between [] ∨ r.TakenOver .registry c (m + 1) := by
  rcases r.pool_step .registry m with ⟨-, same⟩ | ⟨a, acts, allowed, step⟩
  · rw [same, hi] at hw
    exact .inl (Option.some.inj hw).symm
  obtain ⟨w', hw', turn⟩ := turn_act allowed hi
  rw [step, hw'] at hw
  obtain rfl : w' = w := Option.some.inj hw
  cases turn with
  | stays => exact .inl rfl
  | takes free | sleeps free | goes free => rcases free with free | free <;> cases free
  | @retracts rest act all =>
    rcases all with rfl | ⟨last, rfl⟩
    · exact .inr (.inl rfl)
    subst act
    right
    right
    -- The call has a queue to take, since there is no worker that could have its load.
    have load : 0 < ((r.state m).pool .registry).hired ∨
        ∃ j ∈ ((r.state m).pool .registry).queue, j.source = c := by
      cases (r.reach m).standsFor ht with
      | denied _ load => exact load.imp_right And.right
      | excused other => cases hi.symm.trans other
      | takes other standsIn =>
        cases hi.symm.trans other
        cases standsIn
    have workers := (r.balanced .registry m).workers_eq
    have some := denied_pos hi
    obtain ⟨j, queued, rfl⟩ := load.resolve_left (by omega)
    exact r.takenOver_of_retract hi acts last queued

/-- What becomes of a stand-in at the next moment. -/
theorem takenOver_succ (ht : (r.state m).task? c = some (.standIn k i)) {v : Worker}
    (hv : ((r.state m).pool .registry).staff[i]? = some v)
    (now : v = .denied ∨ v = .between [] ∨ r.TakenOver .registry c m)
    (hw : ((r.state (m + 1)).pool .registry).staff[i]? = some w) :
    w = .denied ∨ w = .between [] ∨ r.TakenOver .registry c (m + 1) := by
  rcases now with rfl | rfl | takenOver
  · exact r.takenOver_of_denied ht hv hw
  · rcases r.pool_step .registry m with ⟨-, same⟩ | ⟨a, -, allowed, step⟩
    · rw [same, hv] at hw
      exact .inr (.inl (Option.some.inj hw).symm)
    · obtain ⟨w', hw', turn⟩ := turn_act allowed hv
      rw [step, hw'] at hw
      cases hw
      cases turn with
      | stays => exact .inr (.inl rfl)
      | takes free | sleeps free | goes free => rcases free with free | free <;> cases free
  · exact .inr (.inr (takenOver.mono r (Nat.le_succ m)))

/-- A call that has just queued its load is excused, since it has taken nothing yet. -/
theorem excused_of_submits {mode : LoadMode}
    (before : (r.state m).task? c = some (.makeSource k mode))
    (own : (r.event m).caller = some c)
    (ht : (r.state (m + 1)).task? c = some (.standIn k i))
    (hw : ((r.state (m + 1)).pool .registry).staff[i]? = some w) : w = .denied ∨ w = .between [] := by
  have event := (r.attentive m).caller_eq (r.admitted m) own before
  have after := (r.attentive m).after_of_caller (r.admitted m) own before
  have task : ((r.state m).moveMakeSource c k mode).task? c = some (.standIn k i) := by
    rw [← ht, r.state_succ, after]
    rfl
  obtain ⟨j, submits, source⟩ : ∃ j, (r.state m).Submits .registry j (r.event m) ∧ j.source = c :=
    ⟨_, event ▸ submits_of_makeSource before task rfl, rfl⟩
  have queue := ((r.handles .registry).submits submits).2
  cases (r.reach (m + 1)).standsFor ht with
  | denied hv => exact .inl (Option.some.inj (hw.symm.trans hv))
  | excused hv => exact .inr (Option.some.inj (hw.symm.trans hv))
  | takes _ _ keeps =>
    have queued : j ∈ ((r.state (m + 1)).pool .registry).queue := by simp [queue]
    exact absurd source (keeps.queue queued)

/-- A call that stands in for a worker is excused, or it has taken its own load over. -/
theorem excused_or_takenOver (ht : (r.state m).task? c = some (.standIn k i))
    (hw : ((r.state m).pool .registry).staff[i]? = some w) :
    w = .denied ∨ w = .between [] ∨ r.TakenOver .registry c m := by
  induction m generalizing w with
  | zero => simp [r.state_zero, start, task?] at ht
  | succ m ih =>
    rcases task_or_leads (r.sound m) (r.attentive m) (r.admitted m) (r.state_succ m ▸ ht) rfl with
      before | ⟨a, before, leads, own⟩
    · obtain ⟨v, hv⟩ : ∃ v, ((r.state m).pool .registry).staff[i]? = some v := by
        cases (r.reach m).standsFor before with
        | denied hv | excused hv | takes hv => exact ⟨_, hv⟩
      exact r.takenOver_succ before hv (ih before hv) hw
    · cases leads
      exact (r.excused_of_submits before own ht hw).imp_right .inl

/-- A call that gives up as a stand-in has taken its own load over. -/
theorem takenOver_of_fall (ht : (r.state m).task? c = some (.standIn k i)) {text : String}
    (fall : (r.state m).fall? .registry i = some text) : r.TakenOver .registry c m := by
  unfold fall? at fall
  split at fall
  · next text rest hw =>
    rcases r.excused_or_takenOver ht hw with same | same | takenOver
    · cases same
    · cases same
    · exact takenOver
  · cases fall

end Run
end SharedStream
