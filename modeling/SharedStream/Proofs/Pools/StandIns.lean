import SharedStream.Proofs.Keys.Shut
import SharedStream.Proofs.Pools.Events

/-! # Calls that stand in for workers

A call that has queued a load stands in for a worker if no thread could be had for one. It is
excused as long as another worker is counted; otherwise it takes the queue, and what it has taken
stays in its hands until it has been run or dropped. Its own load is among that, so that nothing of
it is left when the call gives up.
-/
namespace SharedStream

namespace Worker

/-- It has got a thread and has not gone. -/
def isHired : Worker → Bool
  | .ready | .asleep | .woken | .loading _ none | .dead => true
  | .loading _ (some _) | .gone | .denied | .between _ | .fallen .. => false

/-- A call has yet to do something in its place. -/
def isDue : Worker → Bool
  | .denied | .loading _ (some _) | .between (_ :: _) | .fallen _ (_ :: _) => true
  | .ready | .asleep | .woken | .loading _ none | .gone | .dead | .between []
  | .fallen _ [] => false

theorem isDue_of_rest {w : Worker} {j : Job} (h : j ∈ w.rest) : w.isDue = true := by
  cases w with
  | loading l o =>
    cases o with
    | none => cases h
    | some rest => rfl
  | between rest | fallen _ rest =>
    cases rest with
    | nil => cases h
    | cons => rfl
  | _ => cases h

end Worker

namespace Pool

variable {p : Pool} {a : Act} {i k : Nat} {w w' : Worker} {j : Job} {c : CallId}

/-! ## What an act makes of a worker -/

/-- What an act can make of worker `k`. -/
inductive Turn (p : Pool) (a : Act) (k : Nat) : Worker → Worker → Prop
  | stays {w : Worker} : Turn p a k w w
  | wakes : Turn p a k .asleep .woken
  | takes {w : Worker} {j : Job} {rest : List Job} : Free w → a = .look k → p.queue = j :: rest →
      Turn p a k w (.loading j.start none)
  | sleeps {w : Worker} : Free w → Turn p a k w .asleep
  | goes {w : Worker} : Free w → p.shutDown = true → p.queue = [] → Turn p a k w .gone
  | moves (l : Load) (o : Option (List Job)) (m : LoadMove) : a = .turn k l o m →
      Turn p a k (.loading l o) (.after l o m)
  | retracts {rest : List Job} : a = .retract k →
      rest = [] ∨ p.workers - 1 = 0 ∧ rest = p.queue → Turn p a k .denied (.between rest)
  | begins (j : Job) (rest : List Job) : a = .next k j rest →
      Turn p a k (.between (j :: rest)) (.loading j.start (some rest))
  | sheds (text : String) (j : Job) (rest : List Job) : a = .shed k text j rest →
      Turn p a k (.fallen text (j :: rest)) (.fallen text rest)

namespace Turn

/-- Nobody becomes a stand-in but for a worker that was denied a thread. -/
theorem standsIn_eq (h : p.Turn a k w w') (granted : w ≠ .denied) :
    w' ≠ .denied ∧ w'.standsIn = w.standsIn := by
  cases h with
  | stays => exact ⟨granted, rfl⟩
  | wakes => exact ⟨by simp, rfl⟩
  | takes free | sleeps free | goes free => rcases free with rfl | rfl <;> exact ⟨by simp, rfl⟩
  | moves l o m =>
    refine ⟨?_, Worker.standsIn_after l o m⟩
    cases o <;> cases m <;> simp [Worker.after]
  | retracts => exact absurd rfl granted
  | begins | sheds => exact ⟨by simp, rfl⟩

theorem standsIn (h : p.Turn a k w w') (hw : w.standsIn = true) : w'.standsIn = true := by
  have granted : w ≠ .denied := by
    rintro rfl
    cases hw
  exact (h.standsIn_eq granted).2.trans hw

theorem isHired (h : p.Turn a k w w') (hw : w.isHired = true) (going : p.shutDown = false) :
    w'.isHired = true := by
  cases h with
  | stays => exact hw
  | wakes | takes | sleeps => rfl
  | goes _ down _ => cases going.symm.trans down
  | moves l o m =>
    cases o with
    | none => cases m <;> rfl
    | some rest => cases hw
  | retracts | begins | sheds => cases hw

theorem isDue (h : p.Turn a k w w') (hw : w'.isDue = true) : w.isDue = true := by
  cases h with
  | stays => exact hw
  | moves l o m =>
    cases o with
    | none => cases m <;> cases hw
    | some rest => rfl
  | retracts | begins | sheds => rfl
  | wakes | takes | sleeps | goes => cases hw

/-- What somebody has to do with he had before, or it was in the queue: a worker takes the first of
it, and a stand-in all. -/
theorem jobs (h : p.Turn a k w w') (hj : j ∈ workerJobs w') : j ∈ workerJobs w ∨
    (w'.isHired = true ∧ a = .look k ∧ ∃ rest, p.queue = j :: rest) ∨
      a = .retract k ∧ p.workers - 1 = 0 ∧ j ∈ p.queue := by
  cases h with
  | stays => exact .inl hj
  | @takes _ j' rest _ look queued =>
    obtain rfl : j = j' := by simpa [workerJobs, Worker.rest, Worker.load?, Job.start] using hj
    exact .inr (.inl ⟨rfl, look, rest, queued⟩)
  | moves l o m =>
    left
    rw [workerJobs, Worker.rest_after] at hj
    refine List.mem_append.2 ((List.mem_append.1 hj).imp_right fun hj => ?_)
    obtain ⟨l', hl', rfl⟩ : ∃ l', (Worker.after l o m).load? = some l' ∧ l'.job = j := by
      simpa using hj
    simp [Worker.job_of_after hl', Worker.load?]
  | @retracts rest act all =>
    have mem : j ∈ rest := by simpa [workerJobs, Worker.rest, Worker.load?] using hj
    rcases all with rfl | ⟨last, rfl⟩
    · cases mem
    · exact .inr (.inr ⟨act, last, mem⟩)
  | begins =>
    left
    simpa [workerJobs, Worker.rest, Worker.load?, Job.start, or_comm] using hj
  | sheds text j' rest =>
    left
    have mem : j ∈ rest := by simpa [workerJobs, Worker.rest, Worker.load?] using hj
    simp [workerJobs, Worker.rest, mem]
  | wakes | sleeps | goes => cases hj

theorem mem_queue (h : p.Turn a k w w') (hj : j ∈ workerJobs w') :
    j ∈ workerJobs w ∨ j ∈ p.queue := by
  rcases h.jobs hj with before | ⟨-, -, rest, queued⟩ | ⟨-, -, queued⟩
  · exact .inl before
  · exact .inr (queued ▸ List.mem_cons_self)
  · exact .inr queued

theorem granted_iff (h : p.Turn a k w w') :
    w' ≠ .denied ∧ w'.standsIn = false ↔ w ≠ .denied ∧ w.standsIn = false := by
  by_cases denied : w = .denied
  · subst denied
    cases h with
    | stays => rfl
    | takes free | sleeps free | goes free => rcases free with free | free <;> cases free
    | retracts => simp [Worker.standsIn]
  · obtain ⟨granted, same⟩ := h.standsIn_eq denied
    simp [denied, granted, same]

end Turn

theorem turn_wakeOne {staff : List Worker} (h : staff[k]? = some w) :
    ∃ w', (wakeOne staff)[k]? = some w' ∧ p.Turn a k w w' := by
  suffices h : ∃ w', (wakeOne staff)[k]? = some w' ∧ (w' = w ∨ w = .asleep ∧ w' = .woken) by
    obtain ⟨w', hw', rfl | ⟨rfl, rfl⟩⟩ := h
    · exact ⟨w', hw', .stays⟩
    · exact ⟨.woken, hw', .wakes⟩
  induction staff generalizing k with
  | nil => simp at h
  | cons v staff ih =>
    cases k with
    | zero =>
      cases h
      cases w <;> simp [wakeOne]
    | succ k =>
      have next := ih (k := k) (by simpa using h)
      cases v <;> first | exact next | exact ⟨w, by simpa [wakeOne] using h, .inl rfl⟩

/-- One worker comes to be another, and the others stay. -/
theorem turn_set {q : Pool} {v v' : Worker} (hi : p.staff[i]? = some v)
    (staff : q.staff = p.staff.set i v') (turn : p.Turn a i v v') (h : p.staff[k]? = some w) :
    ∃ w', q.staff[k]? = some w' ∧ p.Turn a k w w' := by
  rw [staff]
  by_cases same : k = i
  · subst same
    cases hi.symm.trans h
    exact ⟨v', List.getElem?_set_self (List.getElem?_eq_some_iff.1 hi).1, turn⟩
  · exact ⟨w, (List.getElem?_set_ne (Ne.symm same)).trans h, .stays⟩

theorem turn_look {v : Worker} (hi : p.staff[i]? = some v) (free : Free v) {q : Pool}
    (staff : q.staff = p.staff) (queue : q.queue = p.queue) (down : q.shutDown = p.shutDown)
    (h : p.staff[k]? = some w) :
    ∃ w', (q.look i).staff[k]? = some w' ∧ p.Turn (.look i) k w w' := by
  unfold Pool.look
  split
  · next j rest more =>
    exact turn_set hi (congrArg (·.set i (.loading j.start none)) staff)
      (.takes free rfl (queue ▸ more)) h
  · next none =>
    split
    · next gone =>
      exact turn_set hi (congrArg (·.set i .gone) staff) (.goes free (down ▸ gone) (queue ▸ none)) h
    · exact turn_set hi (congrArg (·.set i .asleep) staff) (.sleeps free) h

theorem turn_act (allowed : p.Allows a) (h : p.staff[k]? = some w) :
    ∃ w', (p.act a).staff[k]? = some w' ∧ p.Turn a k w w' := by
  cases a with
  | submit j t =>
    simp only [act, Pool.submit]
    split
    · exact turn_wakeOne h
    split
    · have lt := (List.getElem?_eq_some_iff.1 h).1
      exact ⟨w, (List.getElem?_append_left lt).trans h, .stays⟩
    · exact ⟨w, h, .stays⟩
  | look i =>
    obtain ⟨v, hv, free⟩ := exists_free allowed
    obtain ⟨q, looks, staff, queue, down, -⟩ := p.act_look i
    rw [looks]
    exact turn_look hv free staff queue down h
  | turn i l o m => exact turn_set allowed rfl (.moves l o m rfl) h
  | retract i =>
    simp only [act, Pool.retract]
    split
    · next last => exact turn_set allowed rfl (.retracts rfl (.inr ⟨last, rfl⟩)) h
    · exact turn_set allowed rfl (.retracts rfl (.inl rfl)) h
  | next i j rest => exact turn_set allowed rfl (.begins j rest rfl) h
  | shed i text j rest => exact turn_set allowed rfl (.sheds text j rest rfl) h
  | cancel | drop => exact ⟨w, h, .stays⟩
  | shutdown =>
    refine ⟨if w = .asleep then .woken else w, by simp [act, Pool.shutdown, h], ?_⟩
    split
    · next asleep =>
      rw [asleep]
      exact .wakes
    · exact .stays

theorem length_act (other : ∀ j t, a ≠ .submit j t) : (p.act a).staff.length = p.staff.length := by
  cases a with
  | submit j t => exact absurd rfl (other j t)
  | look i =>
    obtain ⟨q, looks, staff, -⟩ := p.act_look i
    rw [looks, ← staff]
    unfold Pool.look
    split
    · exact List.length_set
    · split <;> exact List.length_set
  | retract i =>
    simp only [act, Pool.retract]
    split <;> exact List.length_set
  | turn | next | shed => exact List.length_set
  | cancel | drop => rfl
  | shutdown => exact List.length_map ..

theorem staff_submit {t : Bool} (denied : p.denied? t = some i) :
    (p.submit j t).staff = p.staff ++ [.denied] ∧ i = p.staff.length := by
  unfold denied? at denied
  split at denied
  · cases denied
  next room =>
  simp only [Bool.or_eq_true, decide_eq_true_eq, not_or, Bool.not_eq_true] at room
  refine ⟨?_, (Option.some.inj denied).symm⟩
  rw [Pool.submit]
  dsimp only
  rw [if_neg (by omega), if_pos (by omega), room.1.1]
  rfl

/-- Whoever is there after an act was there before, or was hired for the load that is submitted. -/
theorem turned_act (allowed : p.Allows a) (h : (p.act a).staff[k]? = some w') :
    (∃ w, p.staff[k]? = some w ∧ p.Turn a k w w') ∨
      ∃ j t, a = .submit j t ∧ (w' = .ready ∨ w' = .denied ∧ p.denied? t = some k) := by
  cases before : p.staff[k]? with
  | some w =>
    obtain ⟨w'', hw'', turn⟩ := turn_act allowed before
    cases hw''.symm.trans h
    exact .inl ⟨w, rfl, turn⟩
  | none =>
    right
    have le := List.getElem?_eq_none_iff.1 before
    have lt := (List.getElem?_eq_some_iff.1 h).1
    cases a with
    | submit j t =>
      refine ⟨j, t, rfl, ?_⟩
      simp only [act, Pool.submit] at h lt
      split at h
      · next some =>
        rw [if_pos some, length_wakeOne] at lt
        omega
      next none =>
      rw [if_neg none] at lt
      split at h
      · next room =>
        rw [if_pos room, List.length_append, List.length_singleton] at lt
        have last : k = p.staff.length := by omega
        subst last
        rw [List.getElem?_concat_length] at h
        cases t with
        | true => exact .inl (Option.some.inj h).symm
        | false =>
          refine .inr ⟨(Option.some.inj h).symm, ?_⟩
          simp only [denied?, Bool.false_or, Bool.or_eq_true, decide_eq_true_eq]
          rw [if_neg (by omega)]
      · next full =>
        rw [if_neg full] at lt
        exact absurd lt (Nat.not_lt_of_le le)
    | _ =>
      rw [length_act (by simp)] at lt
      omega

theorem threaded_act (allowed : p.Allows a) :
    (p.act a).Threaded ↔ p.Threaded ∧ ∀ {j t}, a = .submit j t → p.denied? t = none := by
  constructor
  · intro all
    refine ⟨fun w hw => ?_, ?_⟩
    · obtain ⟨k, hk⟩ := List.mem_iff_getElem?.1 hw
      obtain ⟨w', hw', turn⟩ := turn_act allowed hk
      exact turn.granted_iff.1 (all w' (List.mem_of_getElem? hw'))
    · rintro j t rfl
      by_contra some
      obtain ⟨i, denied⟩ := Option.ne_none_iff_exists'.1 some
      refine (all .denied ?_).1 rfl
      show _ ∈ (p.submit j t).staff
      rw [(staff_submit denied).1]
      exact List.mem_append_right _ List.mem_cons_self
  · rintro ⟨all, spawns⟩ w' hw'
    obtain ⟨k, hk⟩ := List.mem_iff_getElem?.1 hw'
    rcases turned_act allowed hk with ⟨w, hw, turn⟩ | ⟨j, t, rfl, rfl | ⟨rfl, denied⟩⟩
    · exact turn.granted_iff.2 (all w (List.mem_of_getElem? hw))
    · exact ⟨by simp, rfl⟩
    · cases denied.symm.trans (spawns rfl)

theorem mem_queue_act (queued : j ∈ (p.act a).queue) : j ∈ p.queue ∨ ∃ t, a = .submit j t := by
  cases a with
  | submit j' t =>
    rw [act, queue_submit, List.mem_append, List.mem_singleton] at queued
    refine queued.imp_right ?_
    rintro rfl
    exact ⟨t, rfl⟩
  | look i =>
    left
    obtain ⟨q, looks, -, queue, -⟩ := p.act_look i
    rw [looks] at queued
    rw [← queue]
    unfold Pool.look at queued
    split at queued
    · next first rest more =>
      rw [more]
      exact List.mem_cons_of_mem first queued
    · split at queued <;> exact queued
  | retract i =>
    left
    simp only [act, Pool.retract] at queued
    split at queued
    · cases queued
    · exact queued
  | cancel x => exact .inl (List.mem_filter.1 queued).1
  | drop => cases queued
  | turn | next | shed | shutdown => exact .inl queued

/-- The load is queued, or somebody has to do with it. -/
def Has (p : Pool) (j : Job) : Prop :=
  j ∈ p.queue ∨ ∃ (i : Nat) (w : Worker), p.staff[i]? = some w ∧ j ∈ workerJobs w

/-- A load leaves the queue when it is taken, removed or dropped with the queue. -/
theorem queue_act (queued : j ∈ p.queue) (allowed : p.Allows a) :
    (p.act a).Has j ∨ a = .cancel j.store ∨ a = .drop := by
  cases a with
  | submit j' t => exact .inl (.inl (by simp [act, queued]))
  | look i =>
    left
    obtain ⟨w, hw, -⟩ := exists_free allowed
    have place := (List.getElem?_eq_some_iff.1 hw).1
    obtain ⟨q, looks, staff, queue, -⟩ := p.act_look i
    rw [← queue] at queued
    rw [← staff] at place
    rw [looks]
    unfold Pool.look
    split
    · next first rest more =>
      rw [more] at queued
      rcases List.mem_cons.1 queued with rfl | rest
      · refine .inr ⟨i, .loading j.start none, List.getElem?_set_self place, ?_⟩
        simp [workerJobs, Worker.load?, Job.start]
      · exact .inl rest
    · next none =>
      rw [none] at queued
      cases queued
  | retract i =>
    left
    have place := (List.getElem?_eq_some_iff.1 (show p.staff[i]? = some .denied from allowed)).1
    simp only [act, Pool.retract]
    split
    · exact .inr ⟨i, .between p.queue, List.getElem?_set_self place, List.mem_append_left _ queued⟩
    · exact .inl queued
  | cancel x =>
    by_cases store : j.store = x
    · exact .inr (.inl (store ▸ rfl))
    · exact .inl (.inl (List.mem_filter.2 ⟨queued, by simpa using store⟩))
  | drop => exact .inr (.inr rfl)
  | turn | next | shed | shutdown => exact .inl (.inl queued)

/-! ## Who is counted -/

def hired (p : Pool) : Nat := p.staff.countP Worker.isHired

theorem length_staff_eq_hired (p : Pool) :
    p.staff.length = p.hired + p.denied + p.gone + p.standIns := by
  unfold hired denied gone standIns
  induction p.staff with
  | nil => rfl
  | cons w staff ih =>
    cases w with
    | loading l o =>
      cases o <;> simp [List.countP_cons, Worker.isHired, Worker.standsIn] <;> omega
    | _ =>
      simp [List.countP_cons, Worker.isHired, Worker.standsIn]
      omega

theorem Balanced.workers_eq (h : p.Balanced) : p.workers = p.hired + p.denied := by
  have all := p.length_staff_eq_hired
  have workers := h.workers
  omega

/-- A worker that was denied a thread is not the last that is counted if another was denied one. -/
theorem Balanced.one_lt_workers (h : p.Balanced) (hi : p.staff[i]? = some .denied)
    (hk : p.staff[k]? = some .denied) (ne : k ≠ i) : 1 < p.workers := by
  have count := (replaced (q := p.setWorker i .gone) hi rfl).denied
  have still : (p.setWorker i .gone).staff[k]? = some .denied :=
    (List.getElem?_set_ne (Ne.symm ne)).trans hk
  have some : 0 < (p.setWorker i .gone).denied :=
    List.countP_pos_iff.2 ⟨_, List.mem_of_getElem? still, by simp⟩
  have workers := h.workers_eq
  simp only [reduceCtorEq, if_false, if_true] at count
  omega

theorem denied_pos (hi : p.staff[i]? = some .denied) : 0 < p.denied :=
  List.countP_pos_iff.2 ⟨_, List.mem_of_getElem? hi, by simp⟩

/-! ## What a call has in its hands -/

/-- Nobody has to do with a load of the source unless it waits in the queue. -/
def Untouched (p : Pool) (c : CallId) : Prop :=
  ∀ {k : Nat} {w : Worker}, p.staff[k]? = some w → ∀ {j}, j ∈ workerJobs w → j.source ≠ c

/-- Nobody but worker `i` has to do with a load of the source, and none waits in the queue. -/
structure Keeps (p : Pool) (i : Nat) (c : CallId) : Prop where
  queue : ∀ {j}, j ∈ p.queue → j.source ≠ c
  staff : ∀ {k : Nat} {w : Worker}, p.staff[k]? = some w →
    ∀ {j}, j ∈ workerJobs w → j.source = c → k = i

/-- How far the call `c` has come that stands in for worker `i`. -/
inductive StandsFor (p : Pool) (i : Nat) (c : CallId) : Prop
  /-- It is about to subtract the worker. Its load is queued, or there is a worker with a thread. -/
  | denied : p.staff[i]? = some .denied →
      0 < p.hired ∨ p.Untouched c ∧ (∃ j ∈ p.queue, j.source = c) → StandsFor p i c
  /-- There is another worker. -/
  | excused : p.staff[i]? = some (.between []) → StandsFor p i c
  /-- It has taken the queue. -/
  | takes {w : Worker} : p.staff[i]? = some w → w.standsIn = true → p.Keeps i c → StandsFor p i c

theorem denied_of_submitted {k : Key} {d : Option Nat} (h : Task.submitted k d = .standIn k i) :
    d = some i := by
  cases d with
  | none => cases h
  | some i' =>
    cases h
    rfl

theorem Untouched.standsFor {t : Bool} (h : p.Untouched j.source)
    (denied : p.denied? t = some i) : (p.submit j t).StandsFor i j.source := by
  obtain ⟨staff, rfl⟩ := staff_submit (j := j) denied
  have queued : j ∈ (p.submit j t).queue := by simp
  refine .denied (by rw [staff, List.getElem?_concat_length])
    (.inr ⟨fun {k w} hw {j'} hj => ?_, j, queued, rfl⟩)
  rw [staff] at hw
  by_cases old : k < p.staff.length
  · rw [List.getElem?_append_left old] at hw
    exact h hw hj
  · rw [List.getElem?_append_right (Nat.le_of_not_lt old)] at hw
    obtain rfl : w = .denied := by
      cases last : k - p.staff.length with
      | zero =>
        rw [last] at hw
        exact (Option.some.inj hw).symm
      | succ => simp [last] at hw
    cases hj

variable (hb : p.Balanced) (allowed : p.Allows a)
include allowed

theorem hired_act (some : 0 < p.hired) (going : p.shutDown = false) : 0 < (p.act a).hired := by
  obtain ⟨w, hw, hired⟩ := List.countP_pos_iff.1 some
  obtain ⟨k, hk⟩ := List.mem_iff_getElem?.1 hw
  obtain ⟨w', hw', turn⟩ := turn_act allowed hk
  exact List.countP_pos_iff.2 ⟨w', List.mem_of_getElem? hw', turn.isHired hired going⟩

theorem Keeps.act (h : p.Keeps i c) (fresh : ∀ j t, a = .submit j t → j.source ≠ c) :
    (p.act a).Keeps i c where
  queue queued := by
    rcases mem_queue_act queued with before | ⟨t, now⟩
    · exact h.queue before
    · exact fresh _ t now
  staff {k w'} hw' {j} hj source := by
    rcases turned_act allowed hw' with ⟨w, hw, turn⟩ | ⟨j', t, -, rfl | ⟨rfl, -⟩⟩
    · rcases turn.mem_queue hj with before | queued
      · exact h.staff hw before source
      · exact absurd source (h.queue queued)
    · cases hj
    · cases hj

include hb

/-- A load leaves the queue to a worker with a thread, since the stand-in for another one would be
excused. -/
theorem Untouched.act (h : p.Untouched c) (hi : p.staff[i]? = some .denied)
    (other : a ≠ .retract i) : 0 < (p.act a).hired ∨ (p.act a).Untouched c := by
  by_cases some : 0 < (p.act a).hired
  · exact .inl some
  right
  intro k w' hw' j hj
  rcases turned_act allowed hw' with ⟨w, hw, turn⟩ | ⟨j', t, -, rfl | ⟨rfl, -⟩⟩
  · rcases turn.jobs hj with before | ⟨hired, -⟩ | ⟨rfl, last, -⟩
    · exact h hw before
    · exact absurd (List.countP_pos_iff.2 ⟨w', List.mem_of_getElem? hw', hired⟩) some
    · have ne : k ≠ i := fun same => other (by rw [same])
      have more := hb.one_lt_workers hi allowed ne
      omega
  · cases hj
  · cases hj

/-- A load that is not removed stays in the queue unless a worker takes it. -/
theorem Untouched.queue_act (h : p.Untouched c) (hi : p.staff[i]? = some .denied)
    (other : a ≠ .retract i) (going : p.shutDown = false) (queued : j ∈ p.queue)
    (source : j.source = c) (kept : a ≠ .cancel j.store) :
    0 < (p.act a).hired ∨ (p.act a).Untouched c ∧ ∃ j ∈ (p.act a).queue, j.source = c := by
  refine (h.act hb allowed hi other).imp_right fun untouched => ⟨untouched, ?_⟩
  rcases Pool.queue_act queued allowed with (still | ⟨k, w, hw, taken⟩) | rfl | rfl
  · exact ⟨j, still, source⟩
  · exact absurd source (untouched hw taken)
  · exact absurd rfl kept
  · have down := (Bool.and_eq_true_iff.1 allowed).1
    cases going.symm.trans down

theorem StandsFor.act (h : p.StandsFor i c) (going : p.shutDown = false)
    (fresh : ∀ j t, a = .submit j t → j.source ≠ c)
    (kept : ∀ j ∈ p.queue, j.source = c → a ≠ .cancel j.store) : (p.act a).StandsFor i c := by
  cases h with
  | denied hi load =>
    by_cases own : a = .retract i
    · subst own
      have lt := (List.getElem?_eq_some_iff.1 hi).1
      simp only [Pool.act, Pool.retract]
      split
      · next last =>
        have workers := hb.workers_eq
        have some := denied_pos hi
        have untouched : p.Untouched c := (load.resolve_left (by omega)).1
        refine .takes (List.getElem?_set_self lt) rfl ⟨fun hj => (List.not_mem_nil hj).elim, ?_⟩
        intro k w hw j hj source
        by_contra ne
        rw [List.getElem?_set_ne (Ne.symm ne)] at hw
        exact untouched hw hj source
      · exact .excused (List.getElem?_set_self lt)
    · obtain ⟨w, hw, turn⟩ := turn_act allowed hi
      cases turn with
      | stays =>
        refine .denied hw ?_
        rcases load with some | ⟨untouched, j, queued, source⟩
        · exact .inl (hired_act allowed some going)
        · exact untouched.queue_act hb allowed hi own going queued source (kept j queued source)
      | retracts act => exact absurd act own
      | takes free | sleeps free | goes free => rcases free with free | free <;> cases free
  | excused hi =>
    obtain ⟨w, hw, turn⟩ := turn_act allowed hi
    cases turn with
    | stays => exact .excused hw
    | takes free | sleeps free | goes free => rcases free with free | free <;> cases free
  | takes hi standsIn keeps =>
    obtain ⟨w, hw, turn⟩ := turn_act allowed hi
    exact .takes hw (turn.standsIn standsIn) (keeps.act allowed fresh)

end Pool

namespace Session
open Pool

variable {config : CacheConfig} {workers : Nat} {s : Session} {e : Event} {id i : Nat} {k : Key}

/-! ## In sessions -/

theorem hasStoodIn_iff {n : PoolName} : s.hasStoodIn n i = true ↔
    ∃ w, (s.pool n).staff[i]? = some w ∧ w.standsIn = true ∧ workerJobs w = [] := by
  unfold hasStoodIn
  split
  · next hw => simp [hw, Worker.standsIn, workerJobs, Worker.rest, Worker.load?]
  · next hw => simp [hw, Worker.standsIn, workerJobs, Worker.rest, Worker.load?]
  · next other none =>
    simp only [Bool.false_eq_true, false_iff]
    rintro ⟨w, hw, standsIn, idle⟩
    cases w with
    | between rest => exact other (by simpa [workerJobs, Worker.rest, Worker.load?, hw] using idle)
    | fallen text rest =>
      exact none text (by simpa [workerJobs, Worker.rest, Worker.load?, hw] using idle)
    | loading l o => simp [workerJobs, Worker.load?] at idle
    | _ => cases standsIn

theorem not_isDue_of_hasStoodIn {n : PoolName} {w : Worker} (h : s.hasStoodIn n i = true)
    (hw : (s.pool n).staff[i]? = some w) : w.isDue = false := by
  unfold hasStoodIn at h
  rw [hw] at h
  split at h
  · next same =>
    cases same
    rfl
  · next same =>
    cases same
    rfl
  · cases h

/-- A load is not removed while the call goes on that builds its cache. -/
theorem Sound.not_cancel {j : Job} (hs : s.Sound) (mem : j ∈ s.registry.pool.jobs)
    (builds : s.keys.role j.source = some (.builds k)) :
    .cancel j.store ∉ s.poolActs .registry e := by
  intro removed
  rw [(hs.own mem).1] at removed
  cases cause removed with
  | retired ht =>
    have retires := role_of_task ht
    obtain ⟨n, hn⟩ := hs.keys.cache_of_retires retires
    obtain ⟨n', hn'⟩ := hs.keys.cache_of_builds builds
    cases hn.symm.trans hn'
    have opening := hs.keys.agree.slot_eq (Keys.Valid.stake_of_opens (.inr builds))
    have closing := hs.keys.agree.slot_eq (Keys.stake_eq_closing_iff.2 (.inl ⟨_, retires⟩))
    cases opening.symm.trans closing
  | stopped stage =>
    have none := (hs.halts.disused (by simp [stage])).role j.source
    cases none.symm.trans builds

/-- A call begins to stand in for a worker when it has queued its load. -/
theorem standsFor_of_makeSource {mode : LoadMode} (hs : s.Sound)
    (ht : s.task? id = some (.makeSource k mode))
    (next : (s.moveMakeSource id k mode).task? id = some (.standIn k i)) :
    (s.moveMakeSource id k mode).registry.pool.StandsFor i id := by
  have task : ((s.newCache id k mode).task? id).isSome := Option.isSome_of_eq_some ht
  unfold moveMakeSource at next ⊢
  cases factory : (s.source id).factory with
  | fails e => simp [factory, abandon, task?_answer] at next
  | panics text => simp [factory, abandon, task?_answer] at next
  | gives =>
    cases mode with
    | sync => simp [factory, task?_goOn task] at next
    | async =>
      have role : s.keys.role id = some (.makes k) := role_of_task ht
      have uncached := (uncached_of_makes hs role).1
      have untouched : s.registry.pool.Untouched id := by
        rintro c w hw j hj rfl
        rw [(hs.own (mem_jobs_of_worker hw hj)).2] at uncached
        cases uncached
      rw [factory] at next
      have submitted : Task.submitted k (s.registry.pool.denied? (s.source id).threaded) =
          .standIn k i := by
        rw [task?_goOn (by rwa [task?_setPool]), if_pos rfl] at next
        exact Option.some.inj next
      exact untouched.standsFor (denied_of_submitted submitted)

/-- A call that stands in for a worker has come as far with that as it can have. -/
theorem Reach.standsFor (h : Reach (start config workers) s)
    (ht : s.task? id = some (.standIn k i)) : s.registry.pool.StandsFor i id := by
  refine h.invariant (P := fun s => ∀ id k i, s.task? id = some (.standIn k i) →
    s.registry.pool.StandsFor i id) ?_ ?_ id k i ht
  · intro id k i ht
    cases ht
  intro s e reach ih admitted id k i ht
  have hs := reach.sound
  have ha := reach.attentive
  rcases task_or_leads hs ha admitted ht rfl with before | ⟨a, before, leads, own⟩
  · have pool : (s.after e).registry.pool = _ := pool_after (s := s) (n := .registry) e
    have allowed := reach.allows (n := .registry) admitted
    have going : s.registry.pool.shutDown = false := by
      by_contra down
      have none := (reach.over (eq_true_of_ne_false down)).role id
      rw [role_of_task before] at none
      cases none
    rw [pool]
    cases acts : s.poolActs .registry e with
    | nil => exact ih id k i before
    | cons act rest =>
      have mem : act ∈ s.poolActs .registry e := by simp [acts]
      rw [poolActs_eq_singleton mem] at allowed
      rw [← acts, poolActs_eq_singleton mem]
      have stands := ih id k i before
      refine stands.act (reach.balanced .registry) allowed.1 going ?_ ?_
      · rintro j t rfl
        cases cause mem with
        | loaded other =>
          rintro rfl
          cases before.symm.trans other
      · rintro j queued rfl rfl
        exact hs.not_cancel (mem_jobs_of_queue queued) (role_of_task before) mem
  · rw [ha.after_of_caller admitted own before] at ht ⊢
    cases leads with
    | standIn => exact standsFor_of_makeSource hs before ht

/-- What is left to be done in the place of a worker is left to a call. -/
theorem Reach.exists_standIn {w : Worker} (h : Reach (start config workers) s)
    (hw : s.registry.pool.staff[i]? = some w) (due : w.isDue = true) :
    ∃ id k, s.task? id = some (.standIn k i) := by
  refine h.invariant (P := fun s => ∀ i w, s.registry.pool.staff[i]? = some w → w.isDue = true →
    ∃ id k, s.task? id = some (.standIn k i)) ?_ ?_ i w hw due
  · intro i w hw
    simp [start, Registry.ofConfig, ofLimit] at hw
  intro s e reach ih admitted i w' hw' due
  have hs := reach.sound
  have ha := reach.attentive
  have kept : ∀ {w}, s.registry.pool.staff[i]? = some w → w.isDue = true →
      ∃ id k, (s.after e).task? id = some (.standIn k i) := by
    intro w hw due
    obtain ⟨id, k, ht⟩ := ih i w hw due
    refine ⟨id, k, ?_⟩
    by_cases own : e.caller = some id
    · rw [ha.caller_eq admitted own ht] at admitted
      have stoodIn : s.hasStoodIn .registry i = true := taskCanMove_of_canMove ht admitted
      rw [not_isDue_of_hasStoodIn stoodIn hw] at due
      cases due
    · rw [(passes_after hs ha admitted).task own, ht]
  have pool : (s.after e).registry.pool = _ := pool_after (s := s) (n := .registry) e
  have allowed := reach.allows (n := .registry) admitted
  rw [pool] at hw'
  cases acts : s.poolActs .registry e with
  | nil =>
    rw [acts] at hw'
    exact kept hw' due
  | cons act rest =>
    have mem : act ∈ s.poolActs .registry e := by simp [acts]
    rw [poolActs_eq_singleton mem] at allowed hw'
    rcases turned_act allowed.1 hw' with ⟨w, hw, turn⟩ | ⟨j, t, rfl, rfl | ⟨rfl, denied⟩⟩
    · exact kept hw (turn.isDue due)
    · cases due
    · cases cause mem with
      | @loaded id k ht gives =>
        refine ⟨id, k, ?_⟩
        have task : ((s.newCache id k .async).task? id).isSome := Option.isSome_of_eq_some ht
        rw [Session.after, move_of_task ht, moveTask, moveMakeSource, gives]
        refine (task?_goOn (by rwa [task?_setPool]) _ _).trans ?_
        rw [if_pos rfl]
        exact congrArg (fun d => some (Task.submitted k d)) denied

/-- Whoever gives up as a stand-in has nothing left of his own load. -/
theorem Reach.stages_of_fall (h : Reach (start config workers) s)
    (ht : s.task? id = some (.standIn k i)) (stoodIn : s.hasStoodIn .registry i = true)
    {text : String} (fall : s.fall? .registry i = some text) : s.registry.pool.stages id = [] := by
  obtain ⟨w, hw, -, idle⟩ := hasStoodIn_iff.1 stoodIn
  cases h.standsFor ht with
  | denied hi =>
    cases hi.symm.trans hw
    simp [fall?, pool, hi] at fall
  | excused hi => simp [fall?, pool, hi] at fall
  | takes hi _ keeps =>
    refine stages_eq_nil fun hj source => ?_
    rcases worker_of_mem_jobs hj with queued | ⟨c, w', hw', mem⟩
    · exact keeps.queue queued source
    · cases keeps.staff hw' mem source
      cases hw.symm.trans hw'
      rw [idle] at mem
      cases mem

end Session

namespace Run
open Session

variable {config : CacheConfig} {workers : Nat} (r : Run (start config workers))
variable {n : PoolName} {m : Nat}

/-- The pool has got a thread for each worker that it hired before the moment. -/
def Spawns (r : Run (start config workers)) (n : PoolName) (m : Nat) : Prop :=
  ∀ {i}, i < m → ∀ {j t}, .submit j t ∈ (r.state i).poolActs n (r.event i) →
    ((r.state i).pool n).denied? t = none

/-- Nobody is denied a thread, nor stands in for one who was, but for a spawn that failed. -/
theorem threaded_iff : ((r.state m).pool n).Threaded ↔ r.Spawns n m := by
  induction m with
  | zero =>
    have nobody : ((r.state 0).pool n).staff = [] := by
      rw [r.state_zero]
      cases n <;> rfl
    simp [Pool.Threaded, nobody, Spawns]
  | succ m ih =>
    have split : r.Spawns n (m + 1) ↔ r.Spawns n m ∧
        ∀ {j t}, .submit j t ∈ (r.state m).poolActs n (r.event m) →
          ((r.state m).pool n).denied? t = none := by
      refine ⟨fun spawns => ⟨fun lt => spawns (Nat.lt_succ_of_lt lt), spawns (Nat.lt_succ_self m)⟩,
        fun ⟨spawns, last⟩ i lt => ?_⟩
      rcases Nat.lt_succ_iff_lt_or_eq.1 lt with before | rfl
      · exact spawns before
      · exact last
    rw [split, ← ih]
    rcases r.pool_step n m with ⟨acts, same⟩ | ⟨a, acts, allowed, step⟩
    · simp [acts, same]
    · rw [step, Pool.threaded_act allowed, acts]
      simp only [List.mem_singleton, eq_comm]

end Run
end SharedStream
