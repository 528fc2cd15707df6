import Mathlib.Logic.Relation
import SharedStream.Proofs.Calls.Events

/-! # Calls in progress

When a session is settled, a call is in progress only because it has to wait. What a call does
follows from what it was asked to do.
-/
namespace SharedStream

/-- Whether operations begin with the task. -/
def Task.isFirst : Task → Bool
  | .seekReader .. | .seekWriter _ | .read _ | .leave .. | .closeSink .. | .readStore ..
  | .awaitStore _ | .makeLoad _ | .assist _ => true
  | _ => false

namespace Session

variable {s u : Session} {id c : CallId} {k : Key} {a b : Task} {e : Event} {op : Op}

/-! ## Settled sessions -/

/-- A call that cannot move has to wait, or somebody is about to tell it to look again, or
something outside the session holds it up. -/
theorem Attentive.attends_or (ha : s.Attentive) (ht : s.task? id = some a)
    (still : s.canMove (.call id) = false) : s.Attends a ∨ s.taskCanMove id a = false := by
  obtain ⟨call, hc, rfl⟩ := Option.map_eq_some_iff.1 ht
  simp only [canMove, hc, Bool.and_eq_false_iff] at still
  refine still.imp_left fun asleep => ha.attends (i := id) ?_
  rw [Sleeps, hc, ← asleep]

theorem Attentive.not_announcing (ha : s.Attentive) (settled : s.Settled) : ¬ s.Announcing := by
  rintro ⟨i, h, p, hi⟩
  rcases ha.attends_or hi (settled (.call i)) with (waits | ⟨seeks, -⟩) | free
  · exact waits
  · cases seeks
  · cases free

theorem Attentive.waits_or (ha : s.Attentive) (settled : s.Settled) (ht : s.task? id = some a) :
    s.Waits a ∨ s.taskCanMove id a = false := by
  refine (ha.attends_or ht (settled (.call id))).imp_left fun attends => ?_
  rcases attends with waits | ⟨-, announcing⟩
  · exact waits
  · exact absurd announcing (ha.not_announcing settled)

/-- A call whose wait is over can move. -/
theorem Attentive.canMove (ha : s.Attentive) (ht : s.task? id = some a) (past : ¬ s.Attends a)
    (free : s.taskCanMove id a = true) : s.canMove (.call id) = true := by
  by_contra still
  rcases ha.attends_or ht (by simpa using still) with attends | held
  · exact past attends
  · rw [free] at held
    cases held

theorem taskCanMove_of_canMove (ht : s.task? id = some a) (can : s.canMove (.call id) = true) :
    s.taskCanMove id a = true := by
  obtain ⟨call, hc, rfl⟩ := Option.map_eq_some_iff.1 ht
  simp only [Session.canMove, hc, Bool.and_eq_true] at can
  exact can.2

/-- A call in progress moves in each event that is its own. -/
theorem Attentive.caller_eq (ha : s.Attentive) (admitted : s.admits e)
    (caller : e.caller = some id) (ht : s.task? id = some a) : e = .move (.call id) := by
  cases e with
  | begin i op =>
    cases caller
    exact absurd (ha.begun ht) (Nat.not_lt_of_le admitted)
  | move actor =>
    cases actor <;> cases caller
    rfl

theorem Attentive.after_of_caller (ha : s.Attentive) (admitted : s.admits e)
    (caller : e.caller = some id) (ht : s.task? id = some a) : s.after e = s.moveTask id a := by
  rw [ha.caller_eq admitted caller ht, Session.after, move_of_task ht]

/-- A call that has ended has no event of its own any more. -/
theorem caller_ne_of_ended (admitted : s.admits e) (later : id < s.clock)
    (none : s.task? id = none) : e.caller ≠ some id := by
  intro own
  cases e with
  | begin i op =>
    cases own
    exact absurd later (Nat.not_lt_of_le admitted)
  | move actor =>
    cases actor <;> cases own
    obtain ⟨a, ht⟩ := task_of_canMove admitted
    rw [none] at ht
    cases ht

/-! ## What a call was asked to do -/

/-- The task with which a call for the operation begins, if it does not end at once. -/
def firstTask? (s : Session) (id : CallId) : Op → Option Task
  | .openReader k mode _ => some (.seekReader k (mode.getD s.registry.config.loadMode))
  | .openWriter k _ => some (.seekWriter k)
  | .read x goal buf => (s.reader? x).map fun h =>
    .read { reader := x, cache := h.cache, goal := goal, buf := buf }
  | .part x parting =>
    some (if (s.reader? x).isSome then .leave x parting else .closeSink x parting)
  | .readStore x request => some (.readStore (.separate x) request)
  | .awaitStore x => some (.awaitStore (.separate x))
  | .load x _ n => some (.makeLoad ⟨.separate x, id, n⟩)
  | .submit _ plan _ => (s.separate.denied? plan.threaded).map .assist
  | _ => none

theorem Entry.firstTask? (h : s.Entry id op u) (hu : u.task? id = some b) :
    s.firstTask? id op = some b := by
  have answered : ∀ {t : Session} {r : Result}, u ≠ t.answer id r := by
    rintro t r rfl
    simp [task?_answer] at hu
  cases h with
  | read hr =>
    rw [task?_call, if_pos rfl] at hu
    rw [Session.firstTask?, hr, Option.map_some, hu]
  | leave reads =>
    rw [task?_call, if_pos rfl] at hu
    rw [Session.firstTask?, if_pos reads, hu]
  | closeSink other =>
    rw [task?_call, if_pos rfl] at hu
    rw [Session.firstTask?, if_neg (by simp [other]), hu]
  | openReader | openWriter | readStore | awaitStore | load =>
    rwa [task?_call, if_pos rfl] at hu
  | assist _ _ denied =>
    rw [task?_call, if_pos rfl] at hu
    rw [Session.firstTask?, denied, Option.map_some, hu]
  | _ => exact absurd rfl answered

theorem isFirst_of_firstTask? (first : s.firstTask? id op = some b) : b.isFirst = true := by
  cases op with
  | read | submit =>
    obtain ⟨_, -, rfl⟩ := Option.map_eq_some_iff.1 first
    rfl
  | part =>
    simp only [firstTask?] at first
    split at first <;> cases first <;> rfl
  | _ => cases first <;> rfl

/-- A call that is in a task with which no operation begins was in it before, or has moved. -/
theorem task_or_leads (hs : s.Sound) (ha : s.Attentive) (admitted : s.admits e)
    (ht : (s.after e).task? id = some b) (further : b.isFirst = false) :
    s.task? id = some b ∨ ∃ a, s.task? id = some a ∧ a.Leads b ∧ e.caller = some id := by
  by_cases own : e.caller = some id
  · rcases task_after hs ha admitted ht with ⟨op, rfl⟩ | ⟨a, before, rfl | leads⟩
    · have first := (entry { s with clock := id + 1 } id op).firstTask? ht
      rw [isFirst_of_firstTask? first] at further
      cases further
    · exact .inl before
    · exact .inr ⟨a, before, leads, own⟩
  · exact .inl (((passes_after hs ha admitted).task own).symm.trans ht)

end Session

namespace Run
open Session

variable {config : CacheConfig} {workers : Nat} (r : Run (start config workers))
variable {id : CallId} {b : Task} {op : Op} {m n : Nat}

theorem attentive (n : Nat) : (r.state n).Attentive := (r.reach n).attentive

theorem passes (n : Nat) : (r.state n).Passes (r.event n).caller (r.state (n + 1)) := by
  rw [r.state_succ]
  exact passes_after (r.sound n) (r.attentive n) (r.admitted n)

theorem older_of_begin (begun : r.event m = .begin id op) (lt : m < n) :
    id < (r.state n).clock := by
  refine r.kept_keys (P := fun v => id < v.clock) ?_ lt fun _ hs h =>
    Nat.lt_of_lt_of_le h hs.clock_le
  rw [r.state_succ, begun]
  show id < (Session.enter _ id op).clock
  rw [(entry _ id op).clock]
  exact Nat.lt_succ_self id

/-- A call that has begun had the same task before, or comes to the new one from it. -/
theorem task_before (begun : r.event m = .begin id op) (lt : m < n)
    (task : (r.state (n + 1)).task? id = some b) :
    ∃ a, (r.state n).task? id = some a ∧ (b = a ∨ a.Leads b) := by
  have admitted := r.admitted n
  rw [r.state_succ] at task
  refine (task_after (r.sound n) (r.attentive n) admitted task).resolve_left ?_
  rintro ⟨op', again⟩
  rw [again] at admitted
  exact absurd (r.older_of_begin begun lt) (Nat.not_lt_of_le admitted)

/-- A call in progress has come to its task from the one with which it began. -/
theorem task_of_begin (begun : r.event m = .begin id op) (lt : m < n)
    (task : (r.state n).task? id = some b) :
    ∃ a, (r.state m).firstTask? id op = some a ∧ Relation.ReflTransGen Task.Leads a b := by
  induction lt generalizing b with
  | refl =>
    rw [r.state_succ, begun] at task
    exact ⟨b, (entry { r.state m with clock := id + 1 } id op).firstTask? task, .refl⟩
  | @step n lt ih =>
    obtain ⟨a, ha, same⟩ := r.task_before begun lt task
    obtain ⟨first, hf, leads⟩ := ih ha
    refine ⟨first, hf, ?_⟩
    rcases same with rfl | more
    · exact leads
    · exact leads.tail more

/-- A call in progress has been so from its beginning. -/
theorem exists_task_of_begin (begun : r.event m = .begin id op) (lt : m < n)
    (task : (r.state n).task? id = some b) : ∃ a, (r.state (m + 1)).task? id = some a := by
  induction lt generalizing b with
  | refl => exact ⟨b, task⟩
  | @step n lt ih =>
    obtain ⟨a, ha, -⟩ := r.task_before begun lt task
    exact ih ha

/-- A call in progress was begun. -/
theorem exists_begin (task : (r.state n).task? id = some b) :
    ∃ m op, m < n ∧ r.event m = .begin id op := by
  induction n generalizing b with
  | zero => simp [r.state_zero, start, task?] at task
  | succ n ih =>
    rw [r.state_succ] at task
    rcases task_after (r.sound n) (r.attentive n) (r.admitted n) task with ⟨op, begun⟩ | ⟨a, ha, -⟩
    · exact ⟨n, op, Nat.lt_succ_self n, begun⟩
    · obtain ⟨m, op, lt, begun⟩ := ih ha
      exact ⟨m, op, Nat.lt_succ_of_lt lt, begun⟩

/-- Whoever asks for a store itself asks for one that belongs to no cache. -/
theorem separate_of_waits {x : StoreId} (ht : (r.state n).task? id = some b)
    (waits : b = .awaitStore x ∨ ∃ q, b = .readStore x q) : ∃ y, x = .separate y := by
  obtain ⟨m, op, lt, begun⟩ := r.exists_begin ht
  obtain ⟨a, first, leads⟩ := r.task_of_begin begun lt ht
  rcases Relation.ReflTransGen.cases_tail leads with rfl | ⟨a', -, last⟩
  · rcases waits with rfl | ⟨q, rfl⟩
    · cases op <;> simp [firstTask?] at first
      · split at first <;> cases first
      · exact ⟨_, first.symm⟩
    · cases op <;> simp [firstTask?] at first
      · split at first <;> cases first
      · exact ⟨_, first.1.symm⟩
  · rcases waits with rfl | ⟨q, rfl⟩ <;> cases last

end Run
end SharedStream
