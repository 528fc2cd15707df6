import SharedStream.Proofs.Pools.Acts

/-! # Modes

A cache keeps the mode in which it is loaded as long as it is there.
-/
namespace SharedStream

/-- The task is about a cache: it looks for one, makes one, reads, gives a reader up or drops it. -/
def Task.cares : Task → Bool
  | .seekReader .. | .makeSource .. | .register _ | .read _ | .leave .. | .expire .. => true
  | _ => false

namespace Session

variable {s t u : Session} {n : PoolName} {id c : CallId} {k : Key} {a : Task} {e : Event}
variable {l : Load}

/-- All caches keep the mode in which they are loaded. -/
structure Modes (s u : Session) : Prop where
  mode : ∀ {c x}, s.caches.get? c = some x → ∃ x', u.caches.get? c = some x' ∧ x'.mode = x.mode

theorem Modes.of_eq (caches : u.caches = s.caches) : s.Modes u :=
  ⟨fun hx => ⟨_, caches ▸ hx, rfl⟩⟩

theorem Modes.trans (h : s.Modes t) (h' : t.Modes u) : s.Modes u := by
  refine ⟨fun hx => ?_⟩
  obtain ⟨y, hy, same⟩ := h.mode hx
  obtain ⟨z, hz, same'⟩ := h'.mode hy
  exact ⟨z, hz, same'.trans same⟩

theorem modes_modify (c : CallId) (f : Cache → Cache) (kept : ∀ x, (f x).mode = x.mode) :
    s.Modes { s with caches := s.caches.modify c f } := by
  refine ⟨fun {d} x hx => ?_⟩
  show ∃ x', (s.caches.modify c f).get? d = some x' ∧ _
  rw [Table.get?_modify, hx]
  split
  · exact ⟨f x, rfl, kept x⟩
  · exact ⟨x, rfl, rfl⟩

theorem modes_touch (c : CallId) : s.Modes (s.touch c) :=
  modes_modify c (fun x => { x with lastAccess := s.clock }) fun _ => rfl

theorem modes_addRefs (c : CallId) (z : Int) : s.Modes (s.addRefs c z) :=
  modes_modify c (fun x => { x with refs := x.refs + z }) fun _ => rfl

theorem modes_attach (c : CallId) : s.Modes (s.attach id c) :=
  ((modes_addRefs c 1).trans (modes_touch c)).trans (.of_eq rfl)

theorem caches_setPool (p : Pool) : (s.setPool n p).caches = s.caches := by
  cases n <;> rfl

theorem caches_changeStore (x : StoreId) (change : StoreChange) :
    (s.changeStore x change).caches = s.caches := by
  obtain ⟨stores, calls, changed⟩ := changeStore_eq (s := s) x change
  rw [changed]

theorem caches_dequeue (x : StoreId) : (s.dequeue n x).caches = s.caches := by
  unfold Session.dequeue
  split
  · rfl
  · next j jobs _ =>
    obtain ⟨sources, closed⟩ :=
      closeSources_eq (s := s.setPool n ((s.pool n).dequeue x)) (j :: jobs)
    dsimp only
    rw [closed]
    exact caches_setPool _

theorem caches_endRegistry : s.endRegistry.caches = s.caches := by
  unfold endRegistry
  split
  · rfl
  · rfl
  · exact caches_dequeue _
  · rfl
  · rfl

theorem caches_depart (x : ClosedHandle) (r : Result) (p : Parting) :
    (s.depart id x r p).caches = s.caches := by
  cases p <;> rfl

theorem modes_moveReading (r : Reading) : s.Modes (s.moveReading id r) := by
  have move := s.readMove id r
  generalize s.moveReading id r = u at move
  have moved : ∀ {h : Reader} {o : ReadOutcome}, s.Modes (s.moved r h o) := by
    intro h o
    unfold Session.moved
    dsimp only
    split
    · exact .of_eq rfl
    · have cursor : s.Modes { s with readers := s.readers.set r.reader (advanced r h o) } :=
        .of_eq rfl
      exact cursor.trans (modes_touch r.cache)
  cases move with
  | missing | refused | waits => exact .of_eq rfl
  | goesOn => exact moved.trans (.of_eq rfl)
  | ends => exact moved.trans (.of_eq rfl)

theorem modes_moveMakeSource (mode : LoadMode) (fresh : s.caches.get? id = none) :
    s.Modes (s.moveMakeSource id k mode) := by
  have made : s.Modes (s.newCache id k mode) := by
    refine ⟨fun {c} x hx => ?_⟩
    have ne : c ≠ id := by
      rintro rfl
      cases fresh.symm.trans hx
    exact ⟨x, (Table.get?_set_of_ne _ _ ne).trans hx, rfl⟩
  unfold moveMakeSource
  split
  · exact .of_eq rfl
  · exact .of_eq rfl
  · cases mode with
    | sync => exact made.trans (.of_eq rfl)
    | async => exact made.trans (.of_eq rfl)

theorem modes_moveLeave (reader : CallId) (p : Parting) : s.Modes (s.moveLeave id reader p) := by
  unfold moveLeave
  split
  · exact .of_eq rfl
  dsimp only
  split
  · exact .of_eq (caches_depart ..)
  · next h _ _ =>
    have erased : s.Modes { s with readers := s.readers.erase reader } := .of_eq rfl
    have left := erased.trans (modes_addRefs h.cache (-1))
    split
    · exact left.trans (.of_eq rfl)
    · exact left.trans (.of_eq (caches_depart ..))

theorem modes_settleHandle (x : ClosedHandle) : s.Modes (s.settleHandle x) := by
  cases x with
  | reader cache released =>
    simp only [settleHandle]
    split
    · exact .of_eq rfl
    split
    · exact (modes_addRefs cache (-1)).trans (.of_eq rfl)
    · exact modes_addRefs cache (-1)
  | writer writer key =>
    simp only [settleHandle]
    split
    · exact .of_eq rfl
    split <;> exact .of_eq rfl

/-- A call that is not about a cache leaves the caches alone. -/
theorem caches_moveTask (aside : a.cares = false) : (s.moveTask id a).caches = s.caches := by
  cases a with
  | seekReader | makeSource | register | read | leave | expire => cases aside
  | dequeueCache k c => exact caches_dequeue (s := s) (.cache c)
  | seekWriter k =>
    show (s.moveSeekWriter id k).caches = s.caches
    unfold moveSeekWriter
    split
    · rfl
    split
    · rfl
    · split
      · rfl
      split <;> rfl
    all_goals rfl
  | fill k l =>
    have same := caches_advanceLoad (s := s) (l := l)
    show (s.moveFill id k l).caches = s.caches
    unfold moveFill
    rcases hl : s.advanceLoad l with ⟨m, t⟩
    rw [hl] at same
    cases m <;> exact same
  | load l =>
    have same := caches_advanceLoad (s := s) (l := l)
    show (s.moveLoad id l).caches = s.caches
    unfold moveLoad
    rcases hl : s.advanceLoad l with ⟨m, t⟩
    rw [hl] at same
    cases m <;> exact same
  | awaitCache k c =>
    show (s.moveAwaitCache id k c).caches = s.caches
    unfold moveAwaitCache
    split <;> rfl
  | lease k =>
    show (s.moveLease id k).caches = s.caches
    unfold moveLease
    split <;> rfl
  | giveBack w f p =>
    show (s.moveGiveBack id w f p).caches = s.caches
    unfold moveGiveBack
    split
    · rfl
    dsimp only
    split
    · exact caches_depart ..
    · exact caches_depart ..
  | announce h p => exact caches_depart ..
  | readStore x r =>
    show (s.moveReadStore id x r).caches = s.caches
    unfold moveReadStore
    split <;> rfl
  | standIn k i =>
    show (s.moveStandIn id k i).caches = s.caches
    unfold moveStandIn
    split <;> rfl
  | assist i =>
    show (s.moveAssist id i).caches = s.caches
    unfold moveAssist
    split <;> rfl
  | awaitStore x =>
    show (s.moveAwaitStore id x).caches = s.caches
    unfold moveAwaitStore
    split <;> rfl
  | makeLoad j =>
    show (s.moveMakeLoad id j).caches = s.caches
    unfold moveMakeLoad
    split <;> rfl
  | cancelCache | closeSink => rfl

theorem modes_moveTask (fresh : ∀ k mode, a = .makeSource k mode → s.caches.get? id = none) :
    s.Modes (s.moveTask id a) := by
  by_cases aside : a.cares = false
  · exact .of_eq (caches_moveTask aside)
  cases a with
  | makeSource k mode => exact modes_moveMakeSource mode (fresh k mode rfl)
  | read r => exact modes_moveReading r
  | leave reader p => exact modes_moveLeave reader p
  | expire x r => exact (modes_settleHandle x).trans (.of_eq rfl)
  | register k =>
    exact .trans (t := (s.setSlot k (.reader id)).notifyKeys) (.of_eq rfl) (modes_attach id)
  | seekReader k mode =>
    show s.Modes (s.moveSeekReader id k mode)
    unfold moveSeekReader
    split
    · exact .of_eq rfl
    split
    · exact .of_eq rfl
    · exact modes_attach _
    all_goals exact .of_eq rfl
  | _ => exact absurd rfl aside

theorem caches_enter (op : Op) : (s.enter id op).caches = s.caches := by
  have entry := s.entry id op
  generalize s.enter id op = u at entry
  cases entry with
  | @append x data => exact caches_changeStore (.separate x) (.append data)
  | @finish x => exact caches_changeStore (.separate x) .finish
  | @dequeue x => exact caches_dequeue (.separate x)
  | _ => rfl

theorem modes_after (hs : s.Sound) : s.Modes (s.after e) := by
  cases e with
  | begin id op => exact .of_eq (caches_enter (s := { s with clock := id + 1 }) op)
  | move a =>
    cases a with
    | registry => exact .of_eq caches_endRegistry
    | pool n =>
      obtain ⟨sources, dropped⟩ := closeSources_eq
        (s := s.setPool n { s.pool n with queue := [] }) (s.pool n).queue
      refine .of_eq (Eq.trans (congrArg Session.caches dropped) ?_)
      exact caches_setPool _
    | worker n i =>
      have move := s.workerMove n i
      show s.Modes (s.moveWorker n i)
      generalize s.moveWorker n i = u at move
      cases move with
      | still => exact .of_eq rfl
      | look | retract | next | shed => exact .of_eq (caches_setPool _)
      | load => exact .of_eq ((caches_setPool _).trans caches_advanceLoad)
    | call id =>
      cases ht : s.task? id with
      | none =>
        have absent : s.calls.get? id = none := Option.map_eq_none_iff.1 ht
        exact .of_eq (by simp only [after, move, absent])
      | some a =>
        rw [after, move_of_task ht]
        refine modes_moveTask fun k mode same => ?_
        subst same
        have uncached : s.keys.cache id = none := hs.keys.no_cache (.inr (role_of_task ht))
        exact Option.map_eq_none_iff.1 uncached

end Session
end SharedStream
