import Mathlib.Data.List.Nodup
import Mathlib.Data.List.Perm.Basic
import SharedStream.Proofs.Pools.Conservation

/-! # What becomes of loads

The loads that were submitted to a pool, and what has become of each: a worker has taken it, it was
removed, or it went with the pool. Whatever happens to the pool, a load is in one place only, and
those that are not removed leave the queue in the order in which they came.
-/
namespace SharedStream

structure Ledger where
  submitted : List Job := []
  /-- The loads that workers or stand-ins took, each with who took it. -/
  taken : List (Nat × Job) := []
  removed : List Job := []
  /-- The loads that went with the pool. -/
  lost : List Job := []

namespace Pool

variable {p : Pool} {a : Act} {i k : Nat} {w : Worker} {l : Load} {j : Job}

theorem load?_eq_some (h : p.load? i = some l) : ∃ o, p.staff[i]? = some (.loading l o) := by
  obtain ⟨w, hw, load⟩ := Option.bind_eq_some_iff.1 h
  cases w <;> cases load
  exact ⟨_, hw⟩

theorem load?_of_loading {o : Option (List Job)} (h : p.staff[i]? = some (.loading l o)) :
    p.load? i = some l := by
  rw [load?, h]
  rfl

theorem job_of_load? (h : p.load? i = some l) :
    ∃ w, p.staff[i]? = some w ∧ l.job ∈ workerJobs w := by
  obtain ⟨o, hw⟩ := load?_eq_some h
  exact ⟨_, hw, by simp [workerJobs, Worker.load?]⟩

theorem queue_act_look (p : Pool) (i : Nat) :
    p.queue.take 1 ++ (p.act (.look i)).queue = p.queue := by
  obtain ⟨q, looks, -, queue, -⟩ := p.act_look i
  rw [looks, ← queue]
  unfold Pool.look
  split
  · next more => simp [more]
  · next none => split <;> simp [none]

theorem queue_retract (p : Pool) (i : Nat) :
    (p.retract i).queue = if p.workers - 1 = 0 then [] else p.queue := by
  unfold Pool.retract
  dsimp only
  split <;> rfl

/-- A worker begins only the first load of the queue, and a stand-in only the first that it has
taken. -/
theorem begins_act (allowed : p.Allows a) (idle : p.load? i = none)
    (busy : (p.act a).load? i = some l) : l = l.job.start ∧
      ((a = .look i ∧ ∃ rest, p.queue = l.job :: rest ∧ (p.act a).queue = rest) ∨
        ∃ rest, a = .next i l.job rest ∧ p.staff[i]? = some (.between (l.job :: rest))) := by
  obtain ⟨o, hw'⟩ := load?_eq_some busy
  rcases turned_act allowed hw' with ⟨w, hw, turn⟩ | ⟨j, t, -, before | ⟨before, -⟩⟩
  · generalize new : Worker.loading l o = w' at turn
    cases turn with
    | stays =>
      rw [load?_of_loading (new ▸ hw)] at idle
      cases idle
    | takes free look queued =>
      cases new
      subst look
      have taken := p.queue_act_look i
      rw [queued] at taken
      exact ⟨rfl, .inl ⟨rfl, _, queued, by simpa using taken⟩⟩
    | moves l' o' m =>
      rw [load?_of_loading hw] at idle
      cases idle
    | begins j rest act =>
      cases new
      exact ⟨rfl, .inr ⟨rest, act, hw⟩⟩
    | wakes | sleeps | goes | retracts | sheds => cases new
  · cases before
  · cases before

theorem not_isAbandoned (hw : p.staff[i]? = some w) (busy : w.isOut = false) :
    p.isAbandoned = false := by
  rw [← Bool.not_eq_true]
  intro h
  have all := (Bool.and_eq_true_iff.1 h).2
  rw [List.all_eq_true.1 all w (List.mem_of_getElem? hw)] at busy
  cases busy

/-- Nothing happens to those who have nothing left to do. -/
theorem staff_act_of_isAbandoned (h : p.isAbandoned = true) (allowed : p.Allows a) :
    (p.act a).staff = p.staff := by
  have down := (Bool.and_eq_true_iff.1 h).1
  have none : ∀ {i : Nat} {w : Worker}, p.staff[i]? = some w → w.isOut = false → False := by
    intro i w hw busy
    rw [not_isAbandoned hw busy] at h
    cases h
  cases a with
  | submit j t => cases down.symm.trans allowed
  | look i =>
    obtain ⟨w, hw, free⟩ := exists_free allowed
    rcases free with rfl | rfl <;> exact (none hw rfl).elim
  | turn i l o m => exact (none allowed rfl).elim
  | retract i => exact (none allowed rfl).elim
  | next i j rest => exact (none allowed rfl).elim
  | shed i text j rest => exact (none allowed rfl).elim
  | cancel | drop => rfl
  | shutdown =>
    refine (List.map_congr_left fun w hw => ?_).trans (List.map_id p.staff)
    obtain ⟨i, hi⟩ := List.mem_iff_getElem?.1 hw
    split
    · next asleep => exact (none hi (by rw [asleep]; rfl)).elim
    · rfl

theorem shutDown_mono (down : p.shutDown = true) (a : Act) : (p.act a).shutDown = true := by
  cases a with
  | submit j t =>
    simp only [act, Pool.submit]
    split
    · exact down
    · split <;> exact down
  | look i =>
    obtain ⟨q, looks, -, -, same, -⟩ := p.act_look i
    rw [looks]
    unfold Pool.look
    rw [← same] at down
    split
    · exact down
    · split <;> exact down
  | retract i =>
    simp only [act, Pool.retract]
    split <;> exact down
  | shutdown => rfl
  | _ => exact down

theorem isAbandoned_act (h : p.isAbandoned = true) (allowed : p.Allows a) :
    (p.act a).isAbandoned = true := by
  rw [isAbandoned, staff_act_of_isAbandoned h allowed]
  obtain ⟨down, all⟩ := Bool.and_eq_true_iff.1 h
  exact Bool.and_eq_true_iff.2 ⟨shutDown_mono down a, all⟩

/-- A pool that was dropped with nothing queued gets no load any more. -/
theorem queue_eq_nil_act (down : p.shutDown = true) (none : p.queue = []) (allowed : p.Allows a) :
    (p.act a).queue = [] := by
  refine List.eq_nil_iff_forall_not_mem.2 fun j hj => ?_
  rcases mem_queue_act hj with queued | ⟨t, rfl⟩
  · rw [none] at queued
    cases queued
  · cases down.symm.trans allowed

/-- A worker goes only when there is nothing left to do. -/
theorem gone_act (allowed : p.Allows a) (h : .gone ∈ (p.act a).staff) :
    .gone ∈ p.staff ∨ p.shutDown = true ∧ p.queue = [] := by
  obtain ⟨k, hk⟩ := List.mem_iff_getElem?.1 h
  rcases turned_act allowed hk with ⟨w, hw, turn⟩ | ⟨j, t, -, before | ⟨before, -⟩⟩
  · generalize new : Worker.gone = w' at turn
    cases turn with
    | stays =>
      subst new
      exact .inl (List.mem_of_getElem? hw)
    | goes _ down none => exact .inr ⟨down, none⟩
    | moves l o m => cases o <;> cases m <;> cases new
    | wakes | takes | sleeps | retracts | begins | sheds => cases new
  · cases before
  · cases before

/-- The queue of a pool is left only when loads have killed all its workers, and that is all that it
may have unless one was denied a thread. -/
theorem Balanced.dead_of_isAbandoned (h : p.Balanced) (abandoned : p.isAbandoned = true)
    (stayed : p.gone = 0) (queued : p.queue ≠ []) :
    0 < p.dead ∧ (p.Threaded → p.dead = p.maxWorkers) := by
  have out := List.all_eq_true.1 (Bool.and_eq_true_iff.1 abandoned).2
  have none : ∀ f : Worker → Bool, (∀ w, f w = true → w.isOut = false) →
      p.staff.countP f = 0 := by
    intro f busy
    refine List.countP_eq_zero.2 fun w hw hf => ?_
    cases (out w hw).symm.trans (busy w hf)
  have ready : p.ready = 0 := none _ (by simp [Worker.isOut])
  have asleep : p.asleep = 0 := none _ (by simp [Worker.isOut])
  have woken : p.woken = 0 := none _ (by simp [Worker.isOut])
  have denied : p.denied = 0 := none _ (by simp [Worker.isOut])
  have loads : p.loads = [] := by
    refine List.filterMap_eq_nil_iff.2 fun w hw => ?_
    have := out w hw
    cases w <;> first | rfl | cases this
  have some := List.length_pos_iff.2 queued
  have all := p.length_staff
  have inline := p.inline_le_loads
  rw [loads, List.length_nil] at all inline
  obtain ⟨workers, -, -, -, cap, -, served, staffed, -⟩ := h
  have here := staffed some
  refine ⟨by omega, fun threaded => ?_⟩
  obtain ⟨-, standIns, -⟩ := threaded.counts
  omega

end Pool

namespace Ledger
open Pool

variable {L : Ledger} {p : Pool} {a : Act} {j : Job} {i : Nat} {v w : Worker}

/-- What is written down when something happens to the pool. -/
def enter (L : Ledger) (p : Pool) : Act → Ledger
  | .submit j _ => { L with submitted := L.submitted ++ [j] }
  | .look i => { L with taken := L.taken ++ (p.queue.take 1).map (Prod.mk i) }
  | .retract i =>
    { L with taken := L.taken ++ if p.workers - 1 = 0 then p.queue.map (Prod.mk i) else [] }
  | .cancel x => { L with removed := L.removed ++ p.queuedFor x }
  | .drop => { L with lost := L.lost ++ p.queue }
  | .turn .. | .next .. | .shed .. | .shutdown => L

def enterAll (L : Ledger) (p : Pool) : List Act → Ledger
  | [] => L
  | a :: as => (L.enter p a).enterAll (p.act a) as

/-- What is written down agrees with the pool. -/
structure Agrees (L : Ledger) (p : Pool) : Prop where
  /-- No source is submitted twice. -/
  distinct : (L.submitted.map Job.source).Nodup
  removed : L.removed.Nodup ∧ L.removed ⊆ L.submitted
  /-- Whatever is not removed leaves the queue in the order of submission. -/
  order : L.submitted.filter (· ∉ L.removed) = L.taken.map Prod.snd ++ L.lost ++ p.queue
  /-- Everybody has to do with what he took. -/
  runs : ∀ {i w j}, p.staff[i]? = some w → j ∈ workerJobs w → (i, j) ∈ L.taken
  /-- A worker goes only when there is nothing left to do. -/
  goes : .gone ∈ p.staff → p.shutDown = true ∧ p.queue = []
  /-- A load is lost only when the pool was dropped and loads had killed all its workers. -/
  lost : L.lost ≠ [] → p.isAbandoned = true ∧ 0 < p.dead ∧ (p.Threaded → p.dead = p.maxWorkers)

/-- Each load is in one place, once. -/
theorem Agrees.perm (h : L.Agrees p) :
    (L.removed ++ (L.taken.map Prod.snd ++ L.lost ++ p.queue)).Perm L.submitted := by
  rw [← h.order]
  have distinct : L.submitted.Nodup := .of_map _ h.distinct
  refine (List.perm_ext_iff_of_nodup ?_ distinct).2 fun j => ?_
  · refine List.Nodup.append h.removed.1 (distinct.filter _) fun j removed kept => ?_
    simp [removed] at kept
  · have sub : j ∈ L.removed → j ∈ L.submitted := fun h' => h.removed.2 h'
    simp only [List.mem_append, List.mem_filter, decide_eq_true_eq]
    tauto

theorem Agrees.nodup_queue (h : L.Agrees p) : p.queue.Nodup := by
  have all := h.perm.nodup_iff.2 (.of_map _ h.distinct)
  exact (List.nodup_append.1 (List.nodup_append.1 all).2.1).2.1

theorem Agrees.queue_subset (h : L.Agrees p) : p.queue ⊆ L.submitted := by
  intro j hj
  apply h.perm.subset
  simp [hj]

theorem Agrees.not_removed (h : L.Agrees p) (hj : j ∈ p.queue) : j ∉ L.removed := by
  intro removed
  have kept : j ∈ L.submitted.filter (· ∉ L.removed) := by
    rw [h.order]
    exact List.mem_append_right _ hj
  simp [removed] at kept

/-- No load that is queued has left the queue. -/
theorem Agrees.disjoint (h : L.Agrees p) :
    (L.taken.map Prod.snd ++ L.lost).Disjoint p.queue := by
  have kept : (L.submitted.filter (· ∉ L.removed)).Nodup :=
    (List.Nodup.of_map _ h.distinct).filter _
  rw [h.order] at kept
  exact List.disjoint_of_nodup_append kept

/-- The source of a load that is queued is no source of a load that was taken. -/
theorem Agrees.source_ne {j' : Job} (h : L.Agrees p) (taken : (i, j) ∈ L.taken)
    (queued : j' ∈ p.queue) : j'.source ≠ j.source := by
  have all := (h.perm.map Job.source).nodup_iff.2 h.distinct
  rw [List.map_append, List.map_append] at all
  have apart := List.disjoint_of_nodup_append (List.nodup_append.1 all).2.1
  intro same
  refine apart (a := j.source) ?_ ?_
  · exact List.mem_map_of_mem (List.mem_append_left _ (List.mem_map_of_mem taken))
  · exact same ▸ List.mem_map_of_mem queued

/-! ## What each act keeps -/

theorem filter_dequeue (x : StoreId) :
    p.queue.filter (· ∉ p.queuedFor x) = (p.dequeue x).queue := by
  refine List.filter_congr fun j hj => ?_
  simp [queuedFor, hj]

/-- What is removed leaves the others in their order. -/
theorem Agrees.order_cancel (h : L.Agrees p) (x : StoreId) :
    L.submitted.filter (· ∉ L.removed ++ p.queuedFor x) =
      L.taken.map Prod.snd ++ L.lost ++ (p.dequeue x).queue := by
  have sub : p.queuedFor x ⊆ p.queue := List.filter_subset_self _
  calc L.submitted.filter (· ∉ L.removed ++ p.queuedFor x)
    _ = (L.submitted.filter (· ∉ L.removed)).filter (· ∉ p.queuedFor x) := by
      rw [List.filter_filter]
      refine List.filter_congr fun j _ => ?_
      simp [Bool.and_comm]
    _ = (L.taken.map Prod.snd ++ L.lost).filter (· ∉ p.queuedFor x) ++
        p.queue.filter (· ∉ p.queuedFor x) := by rw [h.order, List.filter_append]
    _ = L.taken.map Prod.snd ++ L.lost ++ (p.dequeue x).queue := by
      rw [filter_dequeue, List.filter_eq_self.2]
      intro j hj
      simpa using fun hx => h.disjoint hj (sub hx)

/-- As long as somebody has something to do, nothing is lost. -/
theorem Agrees.lost_eq_nil (h : L.Agrees p) (hw : p.staff[i]? = some w) (busy : w.isOut = false) :
    L.lost = [] := by
  by_contra lost
  have abandoned := (h.lost lost).1
  rw [not_isAbandoned hw busy] at abandoned
  cases abandoned

theorem Agrees.submitted_act (h : L.Agrees p)
    (fresh : ∀ j t, a = .submit j t → j.source ∉ L.submitted.map Job.source) :
    ((L.enter p a).submitted.map Job.source).Nodup := by
  cases a with
  | submit j t =>
    show ((L.submitted ++ [j]).map Job.source).Nodup
    rw [List.map_append, List.map_singleton]
    exact h.distinct.append (List.nodup_singleton _) (by simpa using fresh j t rfl)
  | _ => exact h.distinct

theorem Agrees.removed_act (h : L.Agrees p) :
    (L.enter p a).removed.Nodup ∧ (L.enter p a).removed ⊆ (L.enter p a).submitted := by
  cases a with
  | submit j t => exact ⟨h.removed.1, fun j' hj' => List.mem_append_left _ (h.removed.2 hj')⟩
  | cancel x =>
    have sub : p.queuedFor x ⊆ p.queue := List.filter_subset_self _
    refine ⟨h.removed.1.append (h.nodup_queue.filter _) fun j removed hj => ?_, ?_⟩
    · exact h.not_removed (sub hj) removed
    · exact List.append_subset.2 ⟨h.removed.2, fun j hj => h.queue_subset (sub hj)⟩
  | _ => exact h.removed

/-- Whoever takes a load takes the first of the queue, or all of it. -/
theorem Agrees.order_act (h : L.Agrees p) (allowed : p.Allows a)
    (fresh : ∀ j t, a = .submit j t → j.source ∉ L.submitted.map Job.source) :
    (L.enter p a).submitted.filter (· ∉ (L.enter p a).removed) =
      (L.enter p a).taken.map Prod.snd ++ (L.enter p a).lost ++ (p.act a).queue := by
  have order := h.order
  have snd : ∀ {i : Nat} {js : List Job}, (js.map (Prod.mk i)).map Prod.snd = js := by
    intro i js
    rw [List.map_map]
    exact List.map_id js
  cases a with
  | submit j t =>
    have kept : j ∉ L.removed :=
      fun removed => fresh j t rfl (List.mem_map_of_mem (h.removed.2 removed))
    show (L.submitted ++ [j]).filter (· ∉ L.removed) = _
    rw [List.filter_append, order]
    simp [kept, enter, act]
  | look i =>
    obtain ⟨w, hw, free⟩ := exists_free allowed
    have here : L.lost = [] := h.lost_eq_nil hw (by rcases free with rfl | rfl <;> rfl)
    show L.submitted.filter (· ∉ L.removed) =
      (L.taken ++ (p.queue.take 1).map (Prod.mk i)).map Prod.snd ++ L.lost ++ _
    rw [order, here, List.map_append, snd, List.append_nil, List.append_nil, List.append_assoc,
      p.queue_act_look i]
  | retract i =>
    have here : L.lost = [] := h.lost_eq_nil allowed rfl
    show L.submitted.filter (· ∉ L.removed) =
      (L.taken ++ if p.workers - 1 = 0 then p.queue.map (Prod.mk i) else []).map Prod.snd ++
        L.lost ++ (p.retract i).queue
    rw [order, here, List.map_append, List.append_nil, List.append_nil, List.append_assoc,
      p.queue_retract i]
    split
    · rw [snd, List.append_nil]
    · rfl
  | cancel x => exact h.order_cancel x
  | drop =>
    show L.submitted.filter (· ∉ L.removed) = L.taken.map Prod.snd ++ (L.lost ++ p.queue) ++ []
    rw [order, List.append_nil, List.append_assoc]
  | turn | next | shed | shutdown => exact order

theorem taken_subset_enter (L : Ledger) (p : Pool) (a : Act) : L.taken ⊆ (L.enter p a).taken := by
  cases a with
  | look | retract => exact List.subset_append_left ..
  | _ => exact List.Subset.refl _

theorem Agrees.runs_act (h : L.Agrees p) (allowed : p.Allows a)
    (hw' : (p.act a).staff[i]? = some w) (hj : j ∈ workerJobs w) :
      (i, j) ∈ (L.enter p a).taken := by
  have grows := taken_subset_enter L p a
  rcases turned_act allowed hw' with ⟨v, hv, turn⟩ | ⟨j', t, -, rfl | ⟨rfl, -⟩⟩
  · rcases turn.jobs hj with before | ⟨-, rfl, rest, queued⟩ | ⟨rfl, last, queued⟩
    · exact grows (h.runs hv before)
    · exact List.mem_append_right _ (by simp [queued])
    · exact List.mem_append_right _ (by simpa [last] using queued)
  · cases hj
  · cases hj

theorem Agrees.lost_act (h : L.Agrees p) (hb : p.Balanced) (allowed : p.Allows a)
    (lost : (L.enter p a).lost ≠ []) : (p.act a).isAbandoned = true ∧ 0 < (p.act a).dead ∧
      ((p.act a).Threaded → (p.act a).dead = (p.act a).maxWorkers) := by
  suffices before : p.isAbandoned = true ∧ 0 < p.dead ∧ (p.Threaded → p.dead = p.maxWorkers) by
    obtain ⟨abandoned, dead⟩ := before
    have same := staff_act_of_isAbandoned abandoned allowed
    refine ⟨isAbandoned_act abandoned allowed, ?_⟩
    rwa [Pool.dead, Pool.Threaded, same, maxWorkers_act]
  by_cases before : L.lost = []
  · cases a with
    | drop =>
      have queued : p.queue ≠ [] := by simpa [enter, before] using lost
      have stayed : p.gone = 0 := List.countP_eq_zero.2 fun w hw gone =>
        queued (h.goes (of_decide_eq_true gone ▸ hw)).2
      exact ⟨allowed, hb.dead_of_isAbandoned allowed stayed queued⟩
    | _ => exact absurd before lost
  · exact h.lost before

theorem Agrees.act (h : L.Agrees p) (hb : p.Balanced) (allowed : p.Allows a)
    (fresh : ∀ j t, a = .submit j t → j.source ∉ L.submitted.map Job.source) :
    (L.enter p a).Agrees (p.act a) where
  distinct := h.submitted_act fresh
  removed := h.removed_act
  order := h.order_act allowed fresh
  runs hw hj := h.runs_act allowed hw hj
  goes gone := by
    have before : p.shutDown = true ∧ p.queue = [] := (gone_act allowed gone).elim h.goes id
    exact ⟨shutDown_mono before.1 a, queue_eq_nil_act before.1 before.2 allowed⟩
  lost lost := h.lost_act hb allowed lost

theorem Agrees.acts {as : List Act} (h : L.Agrees p) (hb : p.Balanced) (allowed : p.AllowsAll as)
    (fresh : ∀ j t, .submit j t ∈ as →
      as = [.submit j t] ∧ j.source ∉ L.submitted.map Job.source) :
    (L.enterAll p as).Agrees (p.acts as) := by
  induction as generalizing L p with
  | nil => exact h
  | cons a as ih =>
    refine ih (h.act hb allowed.1 ?_) (act_balanced hb allowed.1) allowed.2 ?_
    · rintro j t rfl
      exact (fresh j t List.mem_cons_self).2
    · intro j t hj
      have alone := (fresh j t (List.mem_cons_of_mem a hj)).1
      simp_all

theorem submitted_enterAll {as : List Act} (h : j ∈ (L.enterAll p as).submitted) :
    j ∈ L.submitted ∨ ∃ t, .submit j t ∈ as := by
  induction as generalizing L p with
  | nil => exact .inl h
  | cons a as ih =>
    rcases ih h with before | later
    · cases a with
      | submit j' t =>
        rcases List.mem_append.1 before with before | now
        · exact .inl before
        · rw [List.mem_singleton.1 now]
          exact .inr ⟨t, List.mem_cons_self⟩
      | _ => exact .inl before
    · obtain ⟨t, later⟩ := later
      exact .inr ⟨t, List.mem_cons_of_mem a later⟩

theorem removed_enterAll {as : List Act} (h : j ∈ (L.enterAll p as).removed) :
    j ∈ L.removed ∨ .cancel j.store ∈ as := by
  induction as generalizing L p with
  | nil => exact .inl h
  | cons a as ih =>
    rcases ih h with before | later
    · cases a with
      | cancel x =>
        refine (List.mem_append.1 before).imp_right fun now => ?_
        rw [of_decide_eq_true (List.mem_filter.1 now).2]
        exact List.mem_cons_self
      | _ => exact .inl before
    · exact .inr (List.mem_cons_of_mem a later)

/-- What no entry takes back is not taken back. -/
theorem subset_enterAll {α : Type} {f : Ledger → List α}
    (grows : ∀ (L : Ledger) p a, f L ⊆ f (L.enter p a)) {as : List Act} :
    f L ⊆ f (L.enterAll p as) := by
  induction as generalizing L p with
  | nil => exact List.Subset.refl _
  | cons a as ih => exact List.Subset.trans (grows L p a) ih

theorem submitted_subset {as : List Act} : L.submitted ⊆ (L.enterAll p as).submitted := by
  refine subset_enterAll (f := submitted) fun L p a => ?_
  cases a with
  | submit j t => exact List.subset_append_left ..
  | _ => exact List.Subset.refl _

theorem removed_subset {as : List Act} : L.removed ⊆ (L.enterAll p as).removed := by
  refine subset_enterAll (f := removed) fun L p a => ?_
  cases a with
  | cancel x => exact List.subset_append_left ..
  | _ => exact List.Subset.refl _

theorem taken_subset {as : List Act} : L.taken ⊆ (L.enterAll p as).taken :=
  subset_enterAll (f := Ledger.taken) taken_subset_enter

theorem lost_subset {as : List Act} : L.lost ⊆ (L.enterAll p as).lost := by
  refine subset_enterAll (f := lost) fun L p a => ?_
  cases a with
  | drop => exact List.subset_append_left ..
  | _ => exact List.Subset.refl _

theorem lost_enterAll {as : List Act} (h : j ∈ (L.enterAll p as).lost) :
    j ∈ L.lost ∨ .drop ∈ as := by
  induction as generalizing L p with
  | nil => exact .inl h
  | cons a as ih =>
    rcases ih h with before | later
    · cases a with
      | drop => exact .inr List.mem_cons_self
      | _ => exact .inl before
    · exact .inr (List.mem_cons_of_mem a later)

theorem agrees_ofLimit (n : Nat) : Agrees {} (ofLimit n) := by
  constructor <;> simp [ofLimit]

end Ledger
end SharedStream
