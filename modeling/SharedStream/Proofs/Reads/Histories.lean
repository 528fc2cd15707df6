import SharedStream.Proofs.Reads.Asides

/-! # Histories of twins

What becomes of twins in the long run. Histories are taken both as scenarios, in which each step
runs until nobody can move, and as deeds in any order. The calls that go by the position that does
not show are no calls like others: each is done at one go in both sessions, and what it comes to
does not show.
-/
namespace SharedStream
open Session

variable {config : CacheConfig} {workers : Nat}
variable {v : View} {s s' t t' u : Session} {id A x : CallId} {op : Op} {e : Event}

theorem Op.GoesBy.reads (h : op.GoesBy A) : op.Reads A := by
  cases op with
  | read => exact h.1
  | skip => exact h
  | _ => exact h.elim

/-- The operation reads at a position of its own. -/
def Op.ReadsAt (reader : CallId) : Op → Prop
  | .read r (.absolute ..) _ => r = reader
  | _ => False

theorem Op.ReadsAt.reads (h : op.ReadsAt A) : op.Reads A ∧ ¬ op.GoesBy A := by
  cases op with
  | read r goal buf =>
    cases goal with
    | absolute => exact ⟨h, fun goes => by cases goes.2⟩
    | _ => exact h.elim
  | _ => exact h.elim

namespace Session

/-! ## Views -/

/-- What may differ if only one session has the call `x` and it moves the handle on: the position of
the handle, what this call comes to, the results of the calls in `asked` that go by the position,
and the positions in the results of those that read through the handle. -/
def View.past (A x : CallId) (asked : List (CallId × Op)) : View where
  reader := some A
  hides id := id = x ∨ ∃ op, (id, op) ∈ asked ∧ op.GoesBy A
  blurs id := ∃ op, (id, op) ∈ asked ∧ op.Reads A

/-- All shows but the result of the call. -/
def View.but (x : CallId) : View where
  reader := none
  hides id := id = x
  blurs _ := False

/-- The view fits the operations: what goes by the position that does not show does not show. -/
def View.Meets (v : View) (A : CallId) (asked : List (CallId × Op)) : Prop :=
  v.reader = some A ∧ ∀ {id op}, (id, op) ∈ asked →
    (op.GoesBy A → v.hides id) ∧ (op.Reads A → v.blurs id)

theorem View.past_meets (A x : CallId) (asked : List (CallId × Op)) :
    (View.past A x asked).Meets A asked :=
  ⟨rfl, fun mem => ⟨fun goes => .inr ⟨_, mem, goes⟩, fun reads => ⟨_, mem, reads⟩⟩⟩

theorem View.past_covers (A x : CallId) (asked : List (CallId × Op)) :
    (View.past A x asked).Covers (View.but x) :=
  ⟨.inl rfl, fun own => .inl own, fun none => none.elim⟩

theorem View.Meets.tail {d : CallId × Op} {asked : List (CallId × Op)}
    (h : v.Meets A (d :: asked)) : v.Meets A asked :=
  ⟨h.1, fun mem => h.2 (List.mem_cons_of_mem _ mem)⟩

theorem View.Meets.allows {asked : List (CallId × Op)} (h : v.Meets A ((id, op) :: asked))
    (other : ¬ op.GoesBy A) : v.Allows (.begin id op) := by
  obtain ⟨reader, shown⟩ := h
  have shown : (op.GoesBy A → v.hides id) ∧ (op.Reads A → v.blurs id) := shown List.mem_cons_self
  cases op with
  | read r goal buf =>
    intro own
    obtain rfl : A = r := Option.some.inj (reader.symm.trans own)
    refine ⟨?_, shown.2 rfl⟩
    cases forward : goal.moves with
    | false => rfl
    | true => exact absurd ⟨rfl, forward⟩ other
  | skip r len =>
    intro own
    obtain rfl : A = r := Option.some.inj (reader.symm.trans own)
    exact absurd rfl other
  | _ => trivial

theorem View.allows_of_none (none : v.reader = none) (e : Event) : v.Allows e := by
  have shown : ∀ {r}, v.reader ≠ some r := by simp [none]
  cases e with
  | move => trivial
  | begin id op =>
    cases op with
    | read | skip => exact fun own => absurd own shown
    | _ => trivial

theorem View.Fits.of_twin (fits : v.Fits s) (h : s.Twin v t) : v.Fits t :=
  fun i r ht own => fits i r ((h.task i).symm.trans ht) own

/-- As long as a handle can be used, nobody reads through it. -/
theorem View.fits_of_usable (reader : v.reader = some A) (usable : (s.reader? A).isSome) :
    v.Fits s := by
  intro id r ht own
  obtain rfl : A = r.reader := Option.some.inj (reader.symm.trans own)
  have away : s.isAway r.reader = true := by
    obtain ⟨y, hy, task⟩ := Option.map_eq_some_iff.1 ht
    exact Table.any_iff.2 ⟨id, y, hy, by simp [task, Task.handle?]⟩
  simp [Session.reader?, away] at usable

/-- Whoever reads through a handle that cannot be used hears so at once. -/
theorem twin_of_missing (ha : s.Attentive) (later : s.clock ≤ x) (reads : op.Reads A)
    (missing : s.reader? A = none) : s.Twin (.but x) (s.begin x op) := by
  have ticked : s.Twin (.but x) { s with clock := x + 1 } :=
    (Twin.refl _ s).setClock s.clock (x + 1)
  have none : ({ s with clock := x + 1 } : Session).reader? A = none := missing
  have begun :
      s.begin x op = ({ s with clock := x + 1 } : Session).answer x (.missing .handle) := by
    cases op with
    | read r goal buf =>
      obtain rfl : r = A := reads
      rw [begin, enter, withReader, none]
    | skip r len =>
      obtain rfl : r = A := reads
      rw [begin, enter, withReader, none]
    | _ => exact reads.elim
  have absent : s.calls.get? x = Option.none := get?_calls_of_later ha later
  rw [begun]
  exact ticked.answer_right absent rfl _

/-! ## Scenarios -/

/-- The session after a list of steps. -/
def steps (s : Session) : List (CallId × Op) → Session
  | [] => s
  | (id, op) :: ds => (s.step id op).steps ds

/-- Each step is asked for later than all that come before it. -/
def InOrder (s : Session) : List (CallId × Op) → Prop
  | [] => True
  | (id, op) :: ds => s.clock ≤ id ∧ (s.step id op).InOrder ds

/-- Each step is asked for later than all that come before it and runs until nobody can move, and
no step that goes by the position of the handle blocks. -/
def Smooth (s : Session) (A : CallId) : List (CallId × Op) → Prop
  | [] => True
  | (id, op) :: ds => s.clock ≤ id ∧ (s.step id op).Settled ∧
      (op.GoesBy A → (s.step id op).task? id = none) ∧ (s.step id op).Smooth A ds

theorem Smooth.inOrder {ds : List (CallId × Op)} (h : s.Smooth A ds) : s.InOrder ds := by
  induction ds generalizing s with
  | nil => trivial
  | cons d ds ih =>
    obtain ⟨later, -, -, rest⟩ := h
    exact ⟨later, ih rest⟩

theorem Twin.steps_of_none {ds : List (CallId × Op)} (h : s.Twin v t)
    (reach : Reach (start config workers) s) (none : v.reader = none) (order : s.InOrder ds) :
    (s.steps ds).Twin v (t.steps ds) := by
  induction ds generalizing s t with
  | nil => exact h
  | cons d ds ih =>
    obtain ⟨id, op⟩ := d
    obtain ⟨later, rest⟩ := order
    have next := h.step reach (.of_none none s) later (View.allows_of_none none (.begin id op))
    exact ih next.1 (reach.step op later) rest

theorem Twin.steps {ds : List (CallId × Op)} (h : s.Twin v t)
    (reach : Reach (start config workers) s) (reach' : Reach (start config workers) t)
    (fits : v.Fits s) (settled : s.Settled) (meets : v.Meets A ds) (smooth : s.Smooth A ds)
    (smooth' : t.Smooth A ds) : (s.steps ds).Twin v (t.steps ds) := by
  induction ds generalizing s t with
  | nil => exact h
  | cons d ds ih =>
    obtain ⟨id, op⟩ := d
    obtain ⟨later, next, ended, rest⟩ := smooth
    obtain ⟨later', -, ended', rest'⟩ := smooth'
    have twins : (s.step id op).Twin v (t.step id op) ∧ v.Fits (s.step id op) := by
      by_cases goes : op.GoesBy A
      -- The two calls may take different numbers of moves, so each is compared with its beginning.
      · have hidden := (meets.2 List.mem_cons_self).1 goes
        have left := twin_of_step reach.attentive later goes.reads hidden (fun _ => meets.1)
          settled (ended goes)
        have right := twin_of_step reach'.attentive later' goes.reads hidden (fun _ => meets.1)
          (h.settled.2 settled) (ended' goes)
        exact ⟨left.symm.trans (h.trans right), fits.of_twin left⟩
      · exact h.step reach fits later (meets.allows goes)
    exact ih twins.1 (reach.step op later) (reach'.step op later') twins.2 next meets.tail rest
      rest'

/-! ## Histories -/

/-- Something that happens, or an operation that is done at one go. -/
inductive Deed where
  | event (e : Event)
  | whole (id : CallId) (op : Op)

namespace Deed

/-- The operation that is asked for. -/
def asked? : Deed → Option (CallId × Op)
  | .event (.begin id op) | .whole id op => some (id, op)
  | .event (.move _) => none

/-- What goes by the position of the handle is done at one go. -/
def Spares (A : CallId) : Deed → Prop
  | .event (.begin _ op) => ¬ op.GoesBy A
  | .event (.move _) => True
  | .whole _ op => op.GoesBy A

end Deed

/-- The deeds lead from one session to another one. -/
inductive Undergoes : Session → List Deed → Session → Prop
  | refl {s : Session} : Undergoes s [] s
  | event {s t : Session} {e : Event} {ds : List Deed} :
      s.admits e → Undergoes (s.after e) ds t → Undergoes s (.event e :: ds) t
  | whole {s t u : Session} {id : CallId} {op : Op} {ds : List Deed} :
      s.clock ≤ id → s.Does id op u → Undergoes u ds t → Undergoes s (.whole id op :: ds) t

/-- Each operation is asked for later than all that come before it, and none blocks that is to be
done at one go. -/
def Unblocked (s : Session) : List Deed → Prop
  | [] => True
  | .event (.begin id op) :: ds => s.clock ≤ id ∧ (s.begin id op).Unblocked ds
  | .event (.move a) :: ds => (s.move a).Unblocked ds
  | .whole id op :: ds => s.clock ≤ id ∧ ∃ t, s.Does id op t ∧ t.Unblocked ds

/-- The deed leaves twins of twins. -/
def View.Takes (v : View) : Deed → Prop
  | .event e => v.Allows e
  | .whole id op => v.reader = none ∨ ∃ A, v.reader = some A ∧ op.GoesBy A ∧ v.hides id

theorem View.takes_of_none (none : v.reader = none) (d : Deed) : v.Takes d := by
  cases d with
  | event e => exact View.allows_of_none none e
  | whole => exact .inl none

theorem View.Meets.takes {d : Deed} {asked : List (CallId × Op)} (h : v.Meets A asked)
    (spares : d.Spares A) (mem : ∀ y, d.asked? = some y → y ∈ asked) : v.Takes d := by
  rcases d with ⟨⟨id, op⟩ | a⟩ | ⟨id, op⟩
  · have meets : v.Meets A [(id, op)] :=
      ⟨h.1, fun own => h.2 (mem _ (congrArg some (List.mem_singleton.1 own).symm))⟩
    exact meets.allows spares
  · trivial
  · exact .inr ⟨A, h.1, spares, (h.2 (mem _ rfl)).1 spares⟩

theorem Finishes.reach (h : Finishes id s t) (reach : Reach (start config workers) s) :
    Reach (start config workers) t := by
  induction h with
  | ended => exact reach
  | move can _ ih => exact ih (reach.move can)

theorem Does.reach (h : s.Does id op t) (reach : Reach (start config workers) s)
    (later : s.clock ≤ id) : Reach (start config workers) t :=
  Finishes.reach h (reach.begin id op later)

theorem Twin.finishes (h : s.Twin v t) (none : v.reader = none) (finishes : Finishes id s s') :
    ∃ t', Finishes id t t' ∧ s'.Twin v t' := by
  induction finishes generalizing t with
  | ended ended => exact ⟨t, .ended ((h.task id).trans ended), h⟩
  | @move s _ can _ ih =>
    have moved : (s.move (.call id)).Twin v (t.move (.call id)) :=
      h.after (.of_none none s) (View.allows_of_none none (.move (.call id)))
    obtain ⟨t', finishes, twin⟩ := ih moved
    exact ⟨t', .move ((h.canMove _).trans can) finishes, twin⟩

theorem Twin.does (h : s.Twin v t) (takes : v.Takes (.whole id op)) (ha : s.Attentive)
    (ha' : t.Attentive) (later : s.clock ≤ id) (later' : t.clock ≤ id) (does : s.Does id op s')
    (does' : t.Does id op t') (fits : v.Fits s) : s'.Twin v t' ∧ v.Fits s' := by
  rcases takes with none | ⟨A, reader, goes, hidden⟩
  · have begun : (s.begin id op).Twin v (t.begin id op) :=
      h.after (.of_none none s) (View.allows_of_none none (.begin id op))
    obtain ⟨_, finishes, twin⟩ := begun.finishes none does
    rw [finishes.unique does']
    exact ⟨twin, .of_none none s'⟩
  · have left := does.twin ha later goes.reads hidden fun _ => reader
    have right := does'.twin ha' later' goes.reads hidden fun _ => reader
    exact ⟨left.symm.trans (h.trans right), fits.of_twin left⟩

theorem Twin.undergoes {ds : List Deed} (h : s.Twin v t)
    (reach : Reach (start config workers) s) (reach' : Reach (start config workers) t)
    (fits : v.Fits s) (takes : ∀ d ∈ ds, v.Takes d) (undergoes : s.Undergoes ds s')
    (free : t.Unblocked ds) : ∃ t', t.Undergoes ds t' ∧ s'.Twin v t' := by
  induction undergoes generalizing t with
  | refl => exact ⟨t, .refl, h⟩
  | @event s _ e ds admitted _ ih =>
    have allows : v.Allows e := takes _ List.mem_cons_self
    have next : (s.after e).Twin v (t.after e) := h.after fits allows
    have fits' : v.Fits (s.after e) := fits.after reach.sound reach.attentive admitted allows
    have rest : t.admits e ∧ (t.after e).Unblocked ds := by
      cases e with
      | begin id op => exact free
      | move a => exact ⟨(h.canMove a).trans admitted, free⟩
    obtain ⟨t', undergoes, twin⟩ := ih next (reach.after admitted) (reach'.after rest.1) fits'
      (fun d mem => takes d (List.mem_cons_of_mem _ mem)) rest.2
    exact ⟨t', .event rest.1 undergoes, twin⟩
  | whole later does _ ih =>
    obtain ⟨later', w, does', rest⟩ := free
    obtain ⟨next, fits'⟩ := h.does (takes _ List.mem_cons_self) reach.attentive reach'.attentive
      later later' does does' fits
    obtain ⟨t', undergoes, twin⟩ := ih next (does.reach reach later) (does'.reach reach' later')
      fits' (fun d mem => takes d (List.mem_cons_of_mem _ mem)) rest
    exact ⟨t', .whole later' does' undergoes, twin⟩

end Session
end SharedStream
