import SharedStream.Proofs.Keys.Moves

/-! # Operations as steps of keys

Whatever is asked for is one step of the keys at its beginning.
-/
namespace SharedStream.Session
open Function Keys

variable {s t : Session} {id : CallId}

theorem keys_setSource (x : Source) :
    ({ s with sources := s.sources.set id x }).keys =
      { s.keys with built := update s.keys.built id x.built } := by
  refine Keys.ext rfl rfl rfl rfl rfl rfl ?_ rfl
  funext i
  by_cases hi : i = id <;> simp [keys, source, Table.get?_set, hi]

/-- What an operation has done before it ends or goes on as a call. -/
structure Entered (s : Session) (id : CallId) (t : Session) : Prop where
  later : s.clock ≤ id
  keys_eq : ∃ b kept, t.keys = { s.keys with
    clock := id + 1, built := update s.keys.built id b, held := s.keys.held && kept }

namespace Entered

theorem of_keys (hv : s.keys.Valid) (later : s.clock ≤ id)
    (h : t.keys = { s.keys with clock := id + 1 }) : s.Entered id t := by
  obtain ⟨-, -, -, -, built⟩ := hv.fresh later
  refine ⟨later, false, true, ?_⟩
  rw [h, update_eq_self_iff.2 built.symm, Bool.and_true]

theorem congr (h : s.Entered id t) {t' : Session} (same : t'.keys = t.keys) : s.Entered id t' :=
  ⟨h.later, by rw [same]; exact h.keys_eq⟩

theorem setSource (h : s.Entered id t) (x : Source) :
    s.Entered id { t with sources := t.sources.set id x } := by
  obtain ⟨later, b, kept, hb⟩ := h
  exact ⟨later, x.built, kept, by rw [keys_setSource, hb, update_idem]⟩

theorem step_answer (h : s.Entered id t) (r : Result) :
    s.keys.Step (some id) (t.answer id r).keys := by
  obtain ⟨later, b, kept, hb⟩ := h
  rw [keys_answer, hb]
  exact .enter id none b kept later (by simp)

theorem step_call (h : s.Entered id t) {task : Task} (hr : task.role? = none) :
    s.keys.Step (some id) (t.call id task).keys := by
  obtain ⟨later, b, kept, hb⟩ := h
  rw [keys_call, hb, hr]
  exact .enter id none b kept later (by simp)

theorem step_seek (later : s.clock ≤ id) (held : s.held = true) {k : Key} {task : Task}
    (hr : task.role? = some (.seeks k))
    (ht : t.keys = { s.keys with clock := id + 1, built := update s.keys.built id false }) :
    s.keys.Step (some id) (t.call id task).keys := by
  have enter := Step.enter (v := s.keys) id task.role? false true later fun r h => by
    rw [hr] at h
    cases h
    exact ⟨⟨k, rfl⟩, rfl, held⟩
  rw [Bool.and_true] at enter
  rwa [keys_call, ht]

end Entered

theorem keys_skip {r : CallId} {h : Reader} (hr : s.readers.get? r = some h) (id : CallId)
    (len : Nat) :
    ∃ (t : Session) (res : Result), s.skip id r h len = t.answer id res ∧ t.keys = s.keys :=
  ⟨_, _, rfl, keys_moveCursor hr _⟩

theorem keys_setTally {w : CallId} {h : Writer} (hw : s.writers.get? w = some h) (t : Tally) :
    (s.setTally w h t).keys = s.keys := by
  have same : update s.keys.writer w (some h.key) = s.keys.writer := by
    rw [update_eq_self_iff]
    simp [keys, hw]
  refine (keys_setWriter (s := { s with sinks := s.sinks.set w t.sink })
    { h with written := t.written }).trans ?_
  exact Keys.ext rfl rfl rfl rfl same rfl rfl rfl

theorem get?_of_reader? {r : CallId} {h : Reader} (hr : s.reader? r = some h) :
    s.readers.get? r = some h := by
  unfold reader? at hr
  split at hr
  · cases hr
  · exact hr

theorem get?_of_writer? {w : CallId} {h : Writer} (hw : s.writer? w = some h) :
    s.writers.get? w = some h := by
  unfold writer? at hw
  split at hw
  · cases hw
  · exact hw

/-! ## What an operation may need -/

namespace Entered
variable (h : s.Entered id t)
include h

theorem withRegistry {u : Session} (hu : t.held = true → s.keys.Step (some id) u.keys) :
    s.keys.Step (some id) (t.withRegistry id u).keys := by
  unfold Session.withRegistry
  split
  · next held => exact hu held
  · exact h.step_answer _

theorem withPool {u : Session} (hu : s.keys.Step (some id) u.keys) :
    s.keys.Step (some id) (t.withPool id u).keys := by
  unfold Session.withPool
  split
  · exact h.step_answer _
  · exact hu

theorem withStore (store : CallId) {f : StoreId → Session}
    (hf : ∀ x, s.keys.Step (some id) (f x).keys) :
    s.keys.Step (some id) (t.withStore id store f).keys := by
  unfold Session.withStore
  split
  · exact hf _
  · exact h.step_answer _

theorem withSource (source : CallId) {f : Source → Source} (hf : ∀ x, (f x).built = x.built) :
    s.keys.Step (some id) (t.withSource id source f).keys := by
  unfold Session.withSource
  split
  · exact (h.congr (keys_modifySource hf)).step_answer _
  · exact h.step_answer _

theorem withReader (reader : CallId) {f : Reader → Session}
    (hf : ∀ x, t.readers.get? reader = some x → s.keys.Step (some id) (f x).keys) :
    s.keys.Step (some id) (t.withReader id reader f).keys := by
  unfold Session.withReader
  split
  · next x hx => exact hf x (get?_of_reader? hx)
  · exact h.step_answer _

theorem withWriter (writer : CallId) {f : Writer → Session}
    (hf : ∀ x, t.writers.get? writer = some x → s.keys.Step (some id) (f x).keys) :
    s.keys.Step (some id) (t.withWriter id writer f).keys := by
  unfold Session.withWriter
  split
  · next x hx => exact hf x (get?_of_writer? hx)
  · exact h.step_answer _

theorem step_submit (x : StoreId) (plan : SourcePlan) (chunkSize : Nat) :
    s.keys.Step (some id) (t.submit id x plan chunkSize).keys := by
  have entered := h.setSource plan.source.build
  unfold Session.submit
  cases plan.factory with
  | gives =>
    dsimp only
    split
    · exact (entered.congr (keys_setPool ..)).step_call rfl
    · exact (entered.congr (keys_setPool ..)).step_answer _
  | fails e => exact entered.step_answer _
  | panics text => exact entered.step_answer _

end Entered

/-- Every operation is a step of the keys. -/
theorem step_begin (op : Op) (hv : s.keys.Valid) (later : s.clock ≤ id) :
    s.keys.Step (some id) (s.begin id op).keys := by
  have plain : s.Entered id { s with clock := id + 1 } := .of_keys hv later rfl
  have built : update s.keys.built id false = s.keys.built :=
    update_eq_self_iff.2 (hv.fresh later).2.2.2.2.symm
  unfold begin
  cases op with
  | openReader key mode plan =>
    refine plain.withRegistry fun held => Entered.step_seek later held (k := key) rfl ?_
    rw [keys_setSource]
    rfl
  | openWriter key plan =>
    refine plain.withRegistry fun held => Entered.step_seek later held (k := key) rfl ?_
    rw [built]
    rfl
  | shutdown =>
    exact plain.withRegistry fun _ => (plain.congr (keys_notifyKeys ..)).step_answer .done
  | dropRegistry =>
    have dropped : s.Entered id { s with clock := id + 1, held := false } :=
      ⟨later, false, false, by rw [built, Bool.and_false]; rfl⟩
    exact plain.withRegistry fun _ => dropped.step_answer .done
  | read reader goal buf => exact plain.withReader reader fun _ _ => plain.step_call rfl
  | skip reader len =>
    refine plain.withReader reader fun x hx => ?_
    obtain ⟨t, res, eq, same⟩ := keys_skip hx id len
    rw [eq]
    exact (plain.congr same).step_answer _
  | write writer data =>
    exact plain.withWriter writer fun x hx => (plain.congr (keys_setTally hx _)).step_answer _
  | writeAll writer data =>
    exact plain.withWriter writer fun x hx => (plain.congr (keys_setTally hx _)).step_answer _
  | flush writer =>
    exact plain.withWriter writer fun x hx => (plain.congr (keys_setTally hx _)).step_answer _
  | part handle parting =>
    simp only [enter]
    split
    · exact plain.step_call rfl
    · exact plain.withWriter handle fun _ _ => plain.step_call rfl
  | feed source items => exact plain.withSource source fun _ => rfl
  | ungate source => exact plain.withSource source fun _ => rfl
  | release source => exact plain.withSource source fun _ => rfl
  | newStore => exact (plain.congr rfl).step_answer .done
  | append store data =>
    exact plain.withStore store fun x => (plain.congr (keys_appendTo ..)).step_answer _
  | finish store =>
    exact plain.withStore store fun x => (plain.congr (keys_finishStore ..)).step_answer _
  | cancel store => exact plain.withStore store fun x => (plain.congr rfl).step_answer .done
  | readStore store r => exact plain.withStore store fun x => plain.step_call rfl
  | awaitStore store => exact plain.withStore store fun x => plain.step_call rfl
  | load store plan chunkSize =>
    exact plain.withStore store fun x => (plain.setSource plan.source.build).step_call rfl
  | submit store plan chunkSize =>
    exact plain.withStore store fun x => plain.withPool (plain.step_submit x plan chunkSize)
  | dequeue store =>
    exact plain.withStore store fun x =>
      plain.withPool ((plain.congr (keys_dequeue ..)).step_answer _)
  | dropPool => exact plain.withPool ((plain.congr (keys_setPool ..)).step_answer _)

end SharedStream.Session
