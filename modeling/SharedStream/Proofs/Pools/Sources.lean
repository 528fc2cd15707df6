import SharedStream.Proofs.Pools.Handling

/-! # What happens to a source

A source is closed by the moves of its own load, or with a queue from which its load is removed.
Only the moves of its load begin reads of it.
-/
namespace SharedStream

namespace Session
open Pool

variable {s t u : Session} {gone : CallId → Prop} {n : PoolName} {id c : CallId} {k : Key}
variable {x : StoreId} {a : Task} {e : Event} {j : Job} {l : Load} {o o' : Option Source}

/-- The load that moves in the event. -/
def movesLoad? (s : Session) : Event → Option Load
  | .begin .. => none
  | .move a => s.loadOf? a

/-- A load moves with its call or with its worker. -/
theorem movesLoad?_cases (h : s.movesLoad? e = some l) :
    (∃ id a, e = .move (.call id) ∧ s.task? id = some a ∧ a.load? = some l) ∨
      ∃ n i o, e = .move (.worker n i) ∧ (s.pool n).staff[i]? = some (.loading l o) := by
  cases e with
  | begin id op => cases h
  | move a =>
    cases a with
    | call id =>
      obtain ⟨call, hc, load⟩ := Option.bind_eq_some_iff.1 h
      exact .inl ⟨id, call.task, rfl, by simp [task?, hc], load⟩
    | worker n i =>
      simp only [movesLoad?, loadOf?] at h
      split at h
      · next hw =>
        cases h
        exact .inr ⟨n, i, _, rfl, hw⟩
      · cases h
    | pool | registry => cases h

/-- The load leaves the pool in the event, and nobody has begun it. -/
inductive Drops (s : Session) (n : PoolName) (j : Job) (e : Event) : Prop
  | removed : j ∈ (s.pool n).queue → .cancel j.store ∈ s.poolActs n e → Drops s n j e
  /-- The queue goes with its pool. -/
  | lost : j ∈ (s.pool n).queue → .drop ∈ s.poolActs n e → Drops s n j e
  /-- A stand-in that has fallen drops what it has taken. -/
  | shed {i : Nat} {text : String} {rest : List Job} : .shed i text j rest ∈ s.poolActs n e →
      Drops s n j e

/-- What becomes of a source in an event. -/
inductive SourceChange (s : Session) (e : Event) (c : CallId) : Option Source → Option Source → Prop
  | keeps {o : Option Source} : SourceChange s e c o o
  /-- The source is asked for. -/
  | makes {o : Option Source} {y : Source} {op : Op} : e = .begin c op → y.closed = false →
      y.reads = 0 → SourceChange s e c o (some y)
  /-- It is built, or somebody from outside has it give more or wait no more. -/
  | supplies {y : Source} (f : Source → Source) :
      (∀ z, (f z).closed = z.closed ∧ (f z).reads = z.reads) →
      (∀ a, e = .move a → ∀ z, (f z).isReady = z.isReady) →
      SourceChange s e c (some y) (some (f y))
  | moves {y : Source} {l : Load} : s.movesLoad? e = some l → l.job.source = c →
      SourceChange s e c (some y) (some (s.nextStep l).source)
  /-- Its load is dropped. -/
  | closes {y : Source} {n : PoolName} {j : Job} : s.Drops n j e → j.source = c →
      SourceChange s e c (some y) (some y.close)

/-! ## Changes of the table of sources -/

theorem SourceChange.of_eq (sources : u.sources = s.sources) :
    s.SourceChange e c (s.sources.get? c) (u.sources.get? c) := by
  rw [sources]
  exact .keeps

theorem SourceChange.of_set {y : Source} (sources : u.sources = s.sources.set id y)
    (new : c = id → s.SourceChange e c (s.sources.get? c) (some y)) :
    s.SourceChange e c (s.sources.get? c) (u.sources.get? c) := by
  rw [sources, Table.get?_set]
  split
  · next own => exact new own
  · exact .keeps

theorem SourceChange.of_modify {f : Source → Source} (sources : u.sources = s.sources.modify id f)
    (own : ∀ y, c = id → s.SourceChange e c (some y) (some (f y))) :
    s.SourceChange e c (s.sources.get? c) (u.sources.get? c) := by
  rw [sources, Table.get?_modify]
  split
  · next same =>
    cases s.sources.get? c with
    | none => exact .keeps
    | some y => exact own y same
  · exact .keeps

/-- The source is closed if its load is removed, and stays as it is otherwise. -/
theorem SourceChange.of_removed {removed : Prop} [Decidable removed]
    (closed : u.sources.get? c =
      if removed then (s.sources.get? c).map Source.close else s.sources.get? c)
    (drops : removed → ∃ n j, s.Drops n j e ∧ j.source = c) :
    s.SourceChange e c (s.sources.get? c) (u.sources.get? c) := by
  rw [closed]
  split
  · next mem =>
    obtain ⟨n, j, drops, source⟩ := drops mem
    cases s.sources.get? c with
    | none => exact .keeps
    | some y => exact .closes drops source
  · exact .keeps

theorem SourceChange.of_advance (moves : s.movesLoad? e = some l)
    (sources : u.sources = (s.advanceLoad l).2.sources) :
    s.SourceChange e c (s.sources.get? c) (u.sources.get? c) :=
  .of_modify (sources.trans sources_advanceLoad) fun _ own => .moves moves own.symm

/-- Whoever searches a queue closes the sources of the loads that he removes. -/
theorem SourceChange.of_dequeue (sources : u.sources = (s.dequeue n x).sources)
    (drops : ∀ j ∈ (s.pool n).queue, j.store = x → s.Drops n j e) :
    s.SourceChange e c (s.sources.get? c) (u.sources.get? c) := by
  refine .of_removed (by rw [sources, (cancels_dequeue s n x).source]) ?_
  rintro ⟨j, hj, source⟩
  obtain ⟨queued, store⟩ := List.mem_filter.1 hj
  exact ⟨n, j, drops j queued (by simpa using store), source⟩

theorem sources_changeStore (y : StoreId) (change : StoreChange) :
    (s.changeStore y change).sources = s.sources := by
  obtain ⟨stores, calls, changed⟩ := changeStore_eq (s := s) y change
  rw [changed]

theorem sources_setPool (p : Pool) : (s.setPool n p).sources = s.sources := by
  cases n <;> rfl

/-! ## Moves -/

/-- What a call does to sources by its task: it has its own built, or it runs a load, or it has a
load removed from the queue. -/
theorem sources_moveTask (unbuilt : ∀ k mode, a ≠ .seekReader k mode) (idle : a.load? = none)
    (kept : ∀ k d, a ≠ .dequeueCache k d) : (s.moveTask id a).sources = s.sources := by
  cases a with
  | seekReader key mode => exact absurd rfl (unbuilt key mode)
  | fill | load => cases idle
  | dequeueCache key cache => exact absurd rfl (kept key cache)
  | makeSource key mode =>
    show (s.moveMakeSource id key mode).sources = s.sources
    unfold moveMakeSource
    split
    · rfl
    · rfl
    · cases mode <;> rfl
  | cancelCache => rfl
  | _ => exact (bystands_moveTask rfl).sources

theorem movesLoad?_call (ht : s.task? id = some a) :
    s.movesLoad? (.move (.call id)) = a.load? := by
  obtain ⟨call, hc, rfl⟩ := Option.map_eq_some_iff.1 ht
  simp [movesLoad?, loadOf?, hc]

theorem source_moveTask (ht : s.task? id = some a) :
    s.SourceChange (.move (.call id)) c (s.sources.get? c) ((s.moveTask id a).sources.get? c) := by
  cases load : a.load? with
  | some l => exact .of_advance ((movesLoad?_call ht).trans load) (bystands_of_load load).sources
  | none =>
    cases a with
    | seekReader key mode =>
      show s.SourceChange _ c _ ((s.moveSeekReader id key mode).sources.get? c)
      unfold moveSeekReader
      split
      · exact .keeps
      split
      · exact .of_modify rfl fun _ _ =>
          .supplies Source.build (fun _ => ⟨rfl, rfl⟩) fun _ _ _ => rfl
      all_goals exact .keeps
    | dequeueCache key cache =>
      refine .of_dequeue (n := .registry) (x := .cache cache) rfl fun j queued store =>
        .removed queued ?_
      simp [poolActs, ht, taskActs, store]
    | fill | load => cases load
    | _ => exact .of_eq (sources_moveTask (by simp) load (by simp))

theorem source_moveWorker (i : Nat) : s.SourceChange (.move (.worker n i)) c (s.sources.get? c)
    ((s.moveWorker n i).sources.get? c) := by
  have move := s.workerMove n i
  generalize s.moveWorker n i = u at move ⊢
  cases move with
  | still => exact .keeps
  | look | retract | next => exact .of_eq (sources_setPool _)
  | @shed text j rest idle hw =>
    have sheds : Act.shed i text j rest ∈ s.poolActs n (.move (.worker n i)) := by
      simp [poolActs, workerActs, hw]
    have drops : s.Drops n j (.move (.worker n i)) := .shed sheds
    refine .of_modify (f := Source.close) (sources_setPool _) fun y own => ?_
    exact .closes drops own.symm
  | load moves => exact .of_advance moves (sources_setPool _)

theorem get?_dropQueue (n : PoolName) (c : CallId) : (s.dropQueue n).sources.get? c =
    if ∃ j ∈ (s.pool n).queue, j.source = c then (s.sources.get? c).map Source.close
    else s.sources.get? c := by
  rw [dropQueue, get?_closeSources, sources_setPool]

/-- The end of a registry closes the sources of the loads that it removes. -/
theorem source_endRegistry : s.SourceChange (.move .registry) c (s.sources.get? c)
    (s.endRegistry.sources.get? c) := by
  unfold endRegistry
  split
  · exact .keeps
  · exact .keeps
  · next cache rest stage =>
    refine .of_dequeue (n := .registry) (x := .cache cache) rfl fun j queued store =>
      .removed queued ?_
    simp [poolActs, stage, store]
  · exact .keeps
  · exact .keeps

/-! ## Operations -/

theorem Entry.source {op : Op} (h : s.Entry id op u)
    (drops : ∀ j ∈ s.separate.queue, .cancel j.store ∈ s.opActs .separate id op →
      s.Drops .separate j e) (begins : e = .begin id op) :
    s.SourceChange e c (s.sources.get? c) (u.sources.get? c) := by
  have made : ∀ {y : Source}, y.closed = false → y.reads = 0 → c = id →
      s.SourceChange e c (s.sources.get? c) (some y) := by
    rintro y fresh unread rfl
    exact .makes begins fresh unread
  cases h with
  | openReader | load | unsourced | submit | assist => exact .of_set rfl (made rfl rfl)
  | supply source f kept =>
    refine .of_modify rfl fun _ _ => .supplies f (fun z => ⟨(kept z).1, (kept z).2.1⟩) ?_
    rintro a rfl
    cases begins
  | append => exact .of_eq (sources_changeStore _ (.append _))
  | @finish y => exact .of_eq (sources_changeStore (.separate y) .finish)
  | @dequeue y going present =>
    refine .of_dequeue (n := .separate) (x := .separate y) rfl fun j queued store => ?_
    exact drops j queued (by simp [opActs, present, going, store])
  | _ => exact .keeps

/-! ## All events -/

/-- That time goes on makes no difference. -/
theorem Drops.of_tick {op : Op}
    (h : ({ s with clock := id + 1 } : Session).Drops n j (.begin id op)) :
    s.Drops n j (.begin id op) := by
  cases h with
  | removed queued act => exact .removed queued act
  | lost queued act => exact .lost queued act
  | shed act => exact .shed act

theorem SourceChange.of_tick {op : Op}
    (h : ({ s with clock := id + 1 } : Session).SourceChange (.begin id op) c o o') :
    s.SourceChange (.begin id op) c o o' := by
  cases h with
  | keeps => exact .keeps
  | makes begins fresh unread => exact .makes begins fresh unread
  | supplies f kept ready => exact .supplies f kept ready
  | moves moves => cases moves
  | closes drops own => exact .closes (s := s) drops.of_tick own

/-- In every event a source is changed in one of these ways. -/
theorem source_after (e : Event) (c : CallId) :
    s.SourceChange e c (s.sources.get? c) ((s.after e).sources.get? c) := by
  cases e with
  | begin id op =>
    have change := (entry { s with clock := id + 1 } id op).source (e := .begin id op) (c := c)
      (fun j queued acts => .removed queued acts) rfl
    exact change.of_tick
  | move actor =>
    cases actor with
    | call id =>
      cases ht : s.task? id with
      | none =>
        have absent : s.calls.get? id = none := by simpa [task?] using ht
        exact .of_eq (by simp [after, move, absent])
      | some a =>
        rw [after, move_of_task ht]
        exact source_moveTask ht
    | worker n i => exact source_moveWorker i
    | pool n =>
      refine .of_removed (get?_dropQueue n c) ?_
      rintro ⟨j, queued, source⟩
      exact ⟨n, j, .lost queued (by simp [poolActs]), source⟩
    | registry => exact source_endRegistry

/-- The source is that of a load that moves in the event, or is dropped. -/
def Touches (s : Session) (e : Event) (c : CallId) : Prop :=
  (∃ l, s.movesLoad? e = some l ∧ l.job.source = c) ∨ ∃ n j, s.Drops n j e ∧ j.source = c

/-- No source has been closed since but those of `gone`. -/
def Seals (s : Session) (gone : CallId → Prop) (u : Session) : Prop :=
  ∀ c, (u.source c).closed = true → (s.source c).closed = true ∨ gone c

/-- An event closes only the source of the load that moves, or of one that is dropped. -/
theorem seals_after (e : Event) : s.Seals (s.Touches e) (s.after e) := by
  intro c closed
  have change := s.source_after e c
  unfold source at closed ⊢
  generalize s.sources.get? c = o, (s.after e).sources.get? c = o' at change closed
  cases change with
  | keeps => exact .inl closed
  | makes _ fresh => exact absurd (fresh.symm.trans closed) (by simp)
  | supplies f kept => exact .inl ((kept _).1.symm.trans closed)
  | moves moves own => exact .inr (.inl ⟨_, moves, own⟩)
  | closes drops own => exact .inr (.inr ⟨_, _, drops, own⟩)

end Session
end SharedStream
