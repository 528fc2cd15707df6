import SharedStream.Proofs.Calls.Settled
import SharedStream.Proofs.Pools.Balance

/-! # Pools along runs

What happens to a pool in a run is allowed when it happens, so that whatever the acts keep holds at
every moment.
-/
namespace SharedStream

namespace Session
open Pool

variable {s : Session} {n : PoolName} {e : Event}

theorem shutDown_act {p : Pool} {a : Act} (h : (p.act a).shutDown = true) :
    p.shutDown = true ∨ a = .shutdown := by
  cases a with
  | shutdown => exact .inr rfl
  | submit =>
    simp only [act, Pool.submit] at h
    split at h
    · exact .inl h
    · split at h <;> exact .inl h
  | look i =>
    simp only [act, Pool.look] at h
    split at h <;> split at h <;> first | exact .inl h | (split at h <;> exact .inl h)
  | retract i =>
    simp only [act, Pool.retract] at h
    split at h <;> exact .inl h
  | _ => exact .inl h

theorem shutDown_acts {p : Pool} {as : List Act} (h : (p.acts as).shutDown = true) :
    p.shutDown = true ∨ .shutdown ∈ as := by
  induction as generalizing p with
  | nil => exact .inl h
  | cons a as ih =>
    rcases ih h with down | mem
    · rcases shutDown_act down with down | rfl
      · exact .inl down
      · exact .inr List.mem_cons_self
    · exact .inr (List.mem_cons_of_mem a mem)

theorem poolActs_of_submit {j : Job} {threaded : Bool} (h : .submit j threaded ∈ s.poolActs n e) :
    s.poolActs n e = [.submit j threaded] :=
  poolActs_eq_singleton h

theorem poolActs_of_drop (h : .drop ∈ s.poolActs n e) : s.poolActs n e = [.drop] :=
  poolActs_eq_singleton h

/-- A registry whose pool is dropped is used no more. -/
theorem Reach.over {config : CacheConfig} {workers : Nat} (h : Reach (start config workers) s)
    (down : (s.pool .registry).shutDown = true) : s.keys.Over := by
  refine h.invariant (P := fun s => (s.pool .registry).shutDown = true → s.keys.Over) ?_ ?_ down
  · intro down
    cases down
  intro s e reach ih admitted down
  have step := step_after reach.sound admitted
  rw [pool_after] at down
  rcases shutDown_acts down with before | now
  · exact step.idle (ih before)
  · cases cause now with
    | ended stage => exact step.idle (reach.sound.halts.disused (by simp [stage]))

theorem Reach.allows_of_mem {config : CacheConfig} {workers : Nat}
    (h : Reach (start config workers) s) (admitted : s.admits e) {a : Act}
    (ha : a ∈ s.poolActs n e) : (s.pool n).Allows a := by
  cases cause ha with
  | submitted _ _ going => exact going
  | @loaded id k ht =>
    -- The registry has not ended, since somebody still opens a reader.
    by_contra down
    have none := (h.over (by simpa [Allows] using down)).role id
    rw [role_of_task ht] at none
    cases none
  | looks hw | turns hw | retracts hw | takesUp hw | sheds hw => exact hw
  | abandoned =>
    have can : ((s.pool n).isAbandoned && !(s.pool n).queue.isEmpty) = true := admitted
    simp only [Bool.and_eq_true] at can
    exact can.1
  | _ => exact trivial

/-- Whatever happens to a pool is allowed. -/
theorem Reach.allows {config : CacheConfig} {workers : Nat} (h : Reach (start config workers) s)
    (admitted : s.admits e) : (s.pool n).AllowsAll (s.poolActs n e) := by
  cases as : s.poolActs n e with
  | nil => trivial
  | cons a rest =>
    have mem : a ∈ s.poolActs n e := by simp [as]
    rw [← as, poolActs_eq_singleton mem]
    exact ⟨h.allows_of_mem admitted mem, trivial⟩

/-- A pool stays as it is, or something happens to it that is allowed. -/
theorem Reach.pool_step {config : CacheConfig} {workers : Nat} (h : Reach (start config workers) s)
    (admitted : s.admits e) : (s.poolActs n e = [] ∧ (s.after e).pool n = s.pool n) ∨
      ∃ a, s.poolActs n e = [a] ∧ (s.pool n).Allows a ∧ (s.after e).pool n = (s.pool n).act a := by
  have allowed := h.allows (n := n) admitted
  rw [pool_after]
  cases as : s.poolActs n e with
  | nil => exact .inl ⟨rfl, rfl⟩
  | cons a rest =>
    have mem : a ∈ s.poolActs n e := by simp [as]
    have single : a :: rest = [a] := as ▸ poolActs_eq_singleton mem
    rw [as, single] at allowed
    rw [single]
    exact .inr ⟨a, rfl, allowed.1, rfl⟩

/-- What is kept by whatever happens to a pool holds in every session. -/
theorem Reach.kept_pool {config : CacheConfig} {workers : Nat} {P : Pool → Prop}
    (h : Reach (start config workers) s) (init : P ((start config workers).pool n))
    (step : ∀ {p : Pool} {a}, P p → p.Allows a → P (p.act a)) : P (s.pool n) := by
  refine h.invariant (P := fun s => P (s.pool n)) init fun {s e} reach ih admitted => ?_
  rw [pool_after]
  exact acts_keep step ih (reach.allows admitted)

theorem Reach.balanced {config : CacheConfig} {workers : Nat} (h : Reach (start config workers) s)
    (n : PoolName) : (s.pool n).Balanced := by
  refine h.kept_pool ?_ act_balanced
  cases n with
  | registry => exact balanced_ofLimit _
  | separate => exact balanced_ofLimit _

end Session

namespace Run
open Session

variable {config : CacheConfig} {workers : Nat} (r : Run (start config workers))
variable {n : PoolName} {m : Nat}

theorem pool_succ (n : PoolName) (m : Nat) : (r.state (m + 1)).pool n =
    ((r.state m).pool n).acts ((r.state m).poolActs n (r.event m)) := by
  rw [r.state_succ, pool_after]

theorem allows (n : PoolName) (m : Nat) :
    ((r.state m).pool n).AllowsAll ((r.state m).poolActs n (r.event m)) :=
  (r.reach m).allows (r.admitted m)

theorem pool_step (n : PoolName) (m : Nat) :
    ((r.state m).poolActs n (r.event m) = [] ∧
      (r.state (m + 1)).pool n = (r.state m).pool n) ∨
    ∃ a, (r.state m).poolActs n (r.event m) = [a] ∧ ((r.state m).pool n).Allows a ∧
      (r.state (m + 1)).pool n = ((r.state m).pool n).act a := by
  rw [r.state_succ]
  exact (r.reach m).pool_step (r.admitted m)

theorem balanced (n : PoolName) (m : Nat) : ((r.state m).pool n).Balanced :=
  (r.reach m).balanced n

end Run
end SharedStream
