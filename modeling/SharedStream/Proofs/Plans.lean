import SharedStream.Proofs.Answers
import SharedStream.Proofs.Bystanders
import SharedStream.Proofs.Teardown

/-! # What was asked for stands

The configuration of a registry and the factory of a source are given once. Nothing changes them,
and nothing but the end of the registry marks it as ended.
-/
namespace SharedStream

/-- A load changes nothing about the factory of its source. -/
theorem LoadPhase.factory_step {x : Source} {y : Store} (p : LoadPhase) (n : Nat) :
    (p.step n x y).source.factory = x.factory := by
  cases p with
  | allocating | checking =>
    simp only [LoadPhase.step]
    split <;> rfl
  | reading =>
    obtain ⟨place, used, rest⟩ := x.answer_snd
    rcases LoadPhase.afterRead_source y x.answer with same | closed
    · rw [LoadPhase.step, same, rest]
    · rw [LoadPhase.step, closed, rest, Source.close]
  | beginning | closing | finishing => rfl

namespace Session

variable {s t u : Session} {new : CallId → Prop} {n : PoolName} {id c : CallId} {k : Key}
variable {a : Task} {e : Event} {l : Load}

/-- The registry works as it was made, and all sources but new ones have the factory that they
had. -/
structure Stands (s : Session) (new : CallId → Prop) (u : Session) : Prop where
  config : u.registry.config = s.registry.config
  ending : u.registry.ending = s.registry.ending
  factory : ∀ {c}, ¬ new c → (u.source c).factory = (s.source c).factory

namespace Stands

theorem of_eq (config : u.registry.config = s.registry.config)
    (ending : u.registry.ending = s.registry.ending) (sources : u.sources = s.sources) :
    s.Stands new u :=
  ⟨config, ending, fun _ => by rw [source, sources, source]⟩

theorem of_bystands (h : s.Bystands u) : s.Stands new u := .of_eq h.config h.ending h.sources

theorem refl (s : Session) : s.Stands new s := ⟨rfl, rfl, fun _ => rfl⟩

theorem trans (h : s.Stands new t) (h' : t.Stands new u) : s.Stands new u :=
  ⟨h'.config.trans h.config, h'.ending.trans h.ending,
    fun old => (h'.factory old).trans (h.factory old)⟩

/-- A call that goes on or ends changes nothing else. -/
theorem calls (h : s.Stands new t) (calls : Table CallId Call) (results : Table CallId Result) :
    s.Stands new { t with calls := calls, results := results } :=
  ⟨h.config, h.ending, h.factory⟩

end Stands

theorem stands_modifySource {f : Source → Source} (kept : ∀ y, (f y).factory = y.factory) :
    s.Stands new (s.modifySource id f) := by
  refine ⟨rfl, rfl, fun {c} _ => ?_⟩
  simp only [source, modifySource, Table.get?_modify]
  split
  · cases s.sources.get? c with
    | none => rfl
    | some y => exact kept y
  · rfl

theorem stands_setSource (y : Source) (own : new id) :
    s.Stands new { s with sources := s.sources.set id y } := by
  refine ⟨rfl, rfl, fun {c} old => ?_⟩
  have ne : c ≠ id := fun same => old (same ▸ own)
  simp [source, Table.get?_set, ne]

theorem stands_setPool (p : Pool) : s.Stands new (s.setPool n p) := by
  cases n <;> exact .of_eq rfl rfl rfl

theorem stands_changeStore (x : StoreId) (change : StoreChange) :
    s.Stands new (s.changeStore x change) := by
  obtain ⟨stores, calls, changed⟩ := changeStore_eq (s := s) x change
  rw [changed]
  exact .of_eq rfl rfl rfl

theorem stands_advanceLoad (l : Load) : s.Stands new (s.advanceLoad l).2 := by
  refine .trans (t := s.modifySource l.job.source fun _ => (s.nextStep l).source) ?_
    (stands_changeStore ..)
  refine ⟨rfl, rfl, fun {c} _ => ?_⟩
  simp only [source, modifySource, Table.get?_modify]
  split
  · next same =>
    subst same
    cases hx : s.sources.get? l.job.source with
    | none => rfl
    | some x =>
      have same : s.source l.job.source = x := by simp [source, hx]
      simp only [Option.map_some, Option.getD_some, nextStep, same]
      exact l.phase.factory_step _
  · rfl

theorem stands_closeSources (jobs : List Job) :
    s.Stands new (jobs.foldl (fun s job => s.modifySource job.source Source.close) s) := by
  induction jobs generalizing s with
  | nil => exact .refl s
  | cons j jobs ih =>
    have closed : s.Stands new (s.modifySource j.source Source.close) :=
      stands_modifySource fun _ => rfl
    exact closed.trans ih

theorem stands_dequeue (x : StoreId) : s.Stands new (s.dequeue n x) := by
  unfold Session.dequeue
  split
  · exact .refl s
  · exact ((stands_setPool _).trans (stands_closeSources _)).trans (stands_changeStore x .finish)

/-! ## Moves -/

theorem stands_moveTask : s.Stands new (s.moveTask id a) := by
  cases a with
  | seekReader key mode =>
    have opened : s.Stands new ((s.setSlot key .opening).modifySource id Source.build) :=
      .trans (t := s.setSlot key .opening) (.of_eq rfl rfl rfl) (stands_modifySource fun _ => rfl)
    show s.Stands new (s.moveSeekReader id key mode)
    unfold moveSeekReader
    split
    · exact .of_eq rfl rfl rfl
    split
    · exact opened.calls _ _
    all_goals exact .of_eq rfl rfl rfl
  | makeSource key mode =>
    show s.Stands new (s.moveMakeSource id key mode)
    unfold moveMakeSource
    split
    · exact .of_eq rfl rfl rfl
    · exact .of_eq rfl rfl rfl
    · cases mode <;> exact .of_eq rfl rfl rfl
  | fill key l => exact (stands_advanceLoad l).trans (.of_bystands (bystands_of_load rfl))
  | load l => exact (stands_advanceLoad l).trans (.of_bystands (bystands_of_load rfl))
  | cancelCache => exact .of_eq rfl rfl rfl
  | dequeueCache key cache =>
    exact (stands_dequeue (n := .registry) (.cache cache)).trans (.of_eq rfl rfl rfl)
  | _ => exact .of_bystands (bystands_moveTask rfl)

theorem stands_moveWorker (i : Nat) : s.Stands new (s.moveWorker n i) := by
  have move := s.workerMove n i
  generalize s.moveWorker n i = u at move ⊢
  cases move with
  | still => exact .refl s
  | look | retract | next => exact stands_setPool _
  | @shed _ j => exact (stands_closeSources [j]).trans (stands_setPool _)
  | load => exact (stands_advanceLoad _).trans (stands_setPool _)

/-! ## Operations and events -/

theorem Entry.stands {op : Op} (h : s.Entry id op u) : s.Stands (· = id) u := by
  have source : ∀ y, s.Stands (· = id) { s with sources := s.sources.set id y } :=
    fun y => stands_setSource y rfl
  cases h with
  | openReader | load | unsourced | submit | assist => exact (source _).trans (.of_eq rfl rfl rfl)
  | supply source f kept =>
    exact (stands_modifySource fun y => (kept y).2.2).trans (.of_eq rfl rfl rfl)
  | append => exact (stands_changeStore _ (.append _)).trans (.of_eq rfl rfl rfl)
  | @finish y => exact (stands_changeStore (.separate y) .finish).trans (.of_eq rfl rfl rfl)
  | dequeue => exact (stands_dequeue _).trans (.of_eq rfl rfl rfl)
  | dropPool => exact (stands_setPool _).trans (.of_eq rfl rfl rfl)
  | _ => exact .of_eq rfl rfl rfl

/-- The calls that begin in the event. -/
def Begins (e : Event) (c : CallId) : Prop := ∃ op, e = .begin c op

theorem stands_after (going : e ≠ .move .registry) : s.Stands (Begins e) (s.after e) := by
  cases e with
  | begin id op =>
    have stands := (entry { s with clock := id + 1 } id op).stands
    refine ⟨stands.config, stands.ending, fun old => stands.factory fun same => ?_⟩
    exact old ⟨op, same ▸ rfl⟩
  | move actor =>
    cases actor with
    | call id =>
      cases ht : s.task? id with
      | none =>
        have absent : s.calls.get? id = none := by simpa [task?] using ht
        rw [after, move, absent]
        exact .refl s
      | some a =>
        rw [after, move_of_task ht]
        exact stands_moveTask
    | worker n i => exact stands_moveWorker i
    | pool n => exact (stands_setPool _).trans (stands_closeSources _)
    | registry => exact absurd rfl going

theorem config_endRegistry : s.endRegistry.registry.config = s.registry.config := by
  unfold endRegistry
  split
  · rfl
  · rfl
  · next cache _ _ =>
    exact (stands_dequeue (.cache cache) : s.Stands (fun _ => False) _).config
  · rfl
  · rfl

theorem factory_endRegistry : (s.endRegistry.source c).factory = (s.source c).factory := by
  unfold endRegistry
  split
  · rfl
  · rfl
  · next cache _ _ =>
    exact (stands_dequeue (.cache cache) : s.Stands (fun _ => False) _).factory not_false
  · rfl
  · rfl

theorem ended_endRegistry : s.endRegistry.registry.ended = true := by
  unfold endRegistry
  split
  · rfl
  · rfl
  · rfl
  · rfl
  · next gone => simp [Registry.ended, gone]

end Session

namespace Run
open Session

variable {config : CacheConfig} {workers : Nat} (r : Run (start config workers))
variable {c : CallId} {m n : Nat}

theorem config_eq (n : Nat) : (r.state n).registry.config = config := by
  induction n with
  | zero =>
    rw [r.state_zero]
    rfl
  | succ n ih =>
    refine .trans ?_ ih
    rw [r.state_succ]
    by_cases ends : r.event n = .move .registry
    · rw [ends]
      exact config_endRegistry
    · exact (stands_after ends).config

/-- A source keeps the factory that it was asked for with. -/
theorem factory_eq (older : c < (r.state m).clock) (le : m ≤ n) :
    ((r.state n).source c).factory = ((r.state m).source c).factory := by
  suffices h : c < (r.state n).clock ∧
      ((r.state n).source c).factory = ((r.state m).source c).factory from h.2
  refine r.kept (P := fun s => c < s.clock ∧ (s.source c).factory = ((r.state m).source c).factory)
    ⟨older, rfl⟩ (fun i _ h => ?_) le
  obtain ⟨older, same⟩ := h
  have admitted := r.admitted i
  refine ⟨Nat.lt_of_lt_of_le older (step_after (r.sound i) admitted).clock_le, ?_⟩
  rw [← same]
  by_cases ends : r.event i = .move .registry
  · rw [ends]
    exact factory_endRegistry
  · refine (stands_after ends).factory ?_
    rintro ⟨op, begun⟩
    rw [begun] at admitted
    exact absurd older (Nat.not_lt_of_le admitted)

/-- Once the registry has ended it stays so, and it has ended by a move of its own. -/
theorem ended_iff : (r.state n).registry.ended = true ↔ r.Ended n := by
  induction n with
  | zero => simp [r.state_zero, start, Registry.ofConfig, Registry.ended, Ended]
  | succ n ih =>
    have split : r.Ended (n + 1) ↔ r.Ended n ∨ r.event n = .move .registry := by
      constructor
      · rintro ⟨m, lt, ends⟩
        rcases Nat.lt_succ_iff_lt_or_eq.1 lt with lt | rfl
        · exact .inl ⟨m, lt, ends⟩
        · exact .inr ends
      · rintro (⟨m, lt, ends⟩ | ends)
        · exact ⟨m, Nat.lt_succ_of_lt lt, ends⟩
        · exact ⟨n, Nat.lt_succ_self n, ends⟩
    rw [split, ← ih, r.state_succ]
    by_cases ends : r.event n = .move .registry
    · simp [ends, after, move, ended_endRegistry]
    · simp [ends, Registry.ended, (stands_after ends).ending]

end Run
end SharedStream
