import SharedStream.Proofs.Loads.Events

/-! # Loads when something is asked for

Whatever is asked for leaves the loads of the registry alone at its beginning.
-/
namespace SharedStream.Session
open Function Keys

variable {s u : Session} {id c : CallId}

theorem task?_changeStore (x : StoreId) (change : StoreChange) (i : CallId) :
    (s.changeStore x change).task? i = s.task? i := by
  cases change with
  | none => rfl
  | append data => exact task?_appendTo ..
  | finish => exact task?_wake ..

namespace QuietMove
variable (h : s.QuietMove u)
include h

theorem setSource (later : s.clock ≤ id) {x : Source} (open_ : x.closed = false)
    (unread : x.reads = 0) : s.QuietMove { u with sources := u.sources.set id x } := by
  refine ⟨⟨h.pool, h.cached, h.store, fun c hc => ?_, h.taken, h.ending⟩, h.separate, h.task⟩
  simp only [Table.get?_set]
  split
  · next hid => exact .inr ⟨hid ▸ later, x, rfl, open_, unread⟩
  · exact h.source c hc

theorem changeStore (i : CallId) (change : StoreChange) :
    s.QuietMove (u.changeStore (.separate i) change) := by
  have stores := fun c => get?_changeStore (s := u) (.separate i) (.cache c) change
  have task := fun j => task?_changeStore (s := u) (.separate i) change j
  obtain ⟨table, calls, changed⟩ := changeStore_eq (s := u) (.separate i) change
  rw [changed] at stores task ⊢
  refine ⟨⟨h.pool, h.cached, fun c => ?_, h.source, h.taken, h.ending⟩, h.separate, fun j => ?_⟩
  · rw [stores c, if_neg (by simp), h.store c]
  · rw [task, h.task]

theorem cancelStore (i : CallId) : s.QuietMove (u.cancelStore (.separate i)) := by
  refine ⟨⟨h.pool, h.cached, fun c => ?_, h.source, h.taken, h.ending⟩, h.separate, h.task⟩
  rw [← h.store c]
  simp [Session.cancelStore, Table.get?_modify]

theorem newStore (i : CallId) : s.QuietMove { u with stores := u.stores.set (.separate i) {} } := by
  refine ⟨⟨h.pool, h.cached, fun c => ?_, h.source, h.taken, h.ending⟩, h.separate, h.task⟩
  rw [← h.store c]
  simp [Table.get?_set]

theorem dequeue (separate : u.separate = s.separate)
    (foreign : ∀ {j}, j ∈ s.separate.queue → s.Foreign j) (i : CallId) :
    s.QuietMove (u.dequeue .separate (.separate i)) := by
  unfold Session.dequeue
  split
  · exact h
  next j rest hjobs =>
  have removed : s.QuietMove (u.setPool .separate ((u.pool .separate).dequeue (.separate i))) :=
    h.setSeparate fun hj => separate ▸ Pool.mem_jobs_dequeue hj
  have queued : ∀ {j'}, j' ∈ j :: rest → s.Foreign j' := by
    intro j' hj
    rw [← hjobs] at hj
    exact foreign (separate ▸ (List.mem_filter.1 hj).1)
  exact (removed.closeSources queued).changeStore i .finish

end QuietMove

/-! ## What an operation may need -/

/-- A beginning that leaves the loads alone up to the end of the call or its first move. -/
structure QuietEntry (s : Session) (id : CallId) (u : Session) : Prop extends s.QuietMove u where
  valid : s.keys.Valid
  later : s.clock ≤ id

namespace QuietEntry

theorem answer (h : s.QuietEntry id u) (r : Result) : s.Onward (fun _ => none) (u.answer id r) :=
  h.toQuietMove.ends h.valid (stage_eq_none_of_role (h.valid.fresh h.later).1) r

theorem call (h : s.QuietEntry id u) {t : Task} (still : t.stage? = none)
    (fits : (u.call id t).Fits id t) : s.Onward (fun _ => none) (u.call id t) :=
  h.toQuietMove.call h.valid h.later still fits

variable (h : s.QuietEntry id u)
include h

theorem congr {u' : Session} (same : s.QuietMove u → s.QuietMove u') : s.QuietEntry id u' :=
  ⟨same h.toQuietMove, h.valid, h.later⟩

theorem withRegistry {f : Session} (hf : s.Onward (fun _ => none) f) :
    s.Onward (fun _ => none) (u.withRegistry id f) := by
  unfold Session.withRegistry
  split
  · exact hf
  · exact h.answer _

theorem withPool {f : Session} (hf : s.Onward (fun _ => none) f) :
    s.Onward (fun _ => none) (u.withPool id f) := by
  unfold Session.withPool
  split
  · exact h.answer _
  · exact hf

theorem withStore (store : CallId) {f : StoreId → Session}
    (hf : ∀ x, x = .separate store → s.Onward (fun _ => none) (f x)) :
    s.Onward (fun _ => none) (u.withStore id store f) := by
  unfold Session.withStore
  split
  · exact hf _ rfl
  · exact h.answer _

theorem withSource (source : CallId) {f : Source → Source} (hf : Track.Supplied f) :
    s.Onward (fun _ => none) (u.withSource id source f) := by
  unfold Session.withSource
  split
  · exact (h.congr fun q => q.modifySource source hf).answer _
  · exact h.answer _

theorem withReader (reader : CallId) {f : Reader → Session}
    (hf : ∀ x, u.readers.get? reader = some x → s.Onward (fun _ => none) (f x)) :
    s.Onward (fun _ => none) (u.withReader id reader f) := by
  unfold Session.withReader
  split
  · next x hx => exact hf x (get?_of_reader? hx)
  · exact h.answer _

theorem withWriter (writer : CallId) {f : Writer → Session}
    (hf : ∀ x, u.writer? writer = some x → s.Onward (fun _ => none) (f x)) :
    s.Onward (fun _ => none) (u.withWriter id writer f) := by
  unfold Session.withWriter
  split
  · next x hx => exact hf x hx
  · exact h.answer _

theorem setTally (w : CallId) (x : Writer) (r : Result) {t : Tally}
    (kept : t.sink.dropped = (u.sink w).dropped) :
    s.Onward (fun _ => none) ((u.setTally w x t).answer id r) := by
  have taken : ∀ {i}, u.isOpen i = false → (u.setTally w x t).isOpen i = false := by
    intro i closed
    by_cases hi : i = w
    · subst hi
      simpa [Session.setTally, isOpen, sink, kept] using closed
    · simpa [Session.setTally, isOpen, sink, Table.get?_set, hi] using closed
  have quiet : s.QuietEntry id (u.setTally w x t) := h.congr fun q =>
    ⟨⟨q.pool, q.cached, q.store, q.source, fun old closed => taken (q.taken old closed), q.ending⟩,
      q.separate, q.task⟩
  exact quiet.answer r

end QuietEntry

theorem apart_of_keys (hv : s.keys.Valid) (h : s.Entered id u) {t : Session}
    (ht : t.keys = { u.keys with role := update u.keys.role id none }) : t.keys.Apart id := by
  obtain ⟨later, b, kept, hb⟩ := h
  rw [ht, hb]
  exact ⟨Nat.lt_succ_self id, by simp, (hv.fresh later).2.2.2.1⟩

theorem Onward.submitted {j : Job} {p : Pool} {v : Session} (h : s.Onward (fun _ => none) v)
    (jobs : ∀ {j'}, j' ∈ p.jobs → j' = j ∨ j' ∈ s.separate.jobs)
    (foreign : (v.setPool .separate p).Foreign j) (ending : v.registry.ending = s.registry.ending) :
    s.Onward (fun _ => none) (v.setPool .separate p) := by
  refine ⟨h.track, h.own, fun hj => ?_, h.fits, h.taken, .inl ending⟩
  rcases jobs hj with rfl | hj
  · exact .inr foreign
  · exact .inl hj

theorem onward_submit (h : s.QuietEntry id u) (entered : s.Entered id u)
    (separate : u.separate = s.separate) (i : CallId) (plan : SourcePlan) (n : Nat) :
    s.Onward (fun _ => none) (u.submit id (.separate i) plan n) := by
  have source := h.congr fun q => q.setSource h.later (x := plan.source.build) rfl rfl
  unfold submit
  cases plan.factory with
  | fails e => exact source.answer _
  | panics text => exact source.answer _
  | gives =>
    have jobs : ∀ {t j'}, j' ∈ (u.separate.submit ⟨.separate i, id, n⟩ t).jobs →
        j' = ⟨.separate i, id, n⟩ ∨ j' ∈ s.separate.jobs :=
      fun hj => separate ▸ Pool.mem_jobs_submit hj
    have apart := fun {t : Session} => apart_of_keys (t := t) h.valid
      (entered.setSource plan.source.build)
    dsimp only
    split
    · refine (source.call (t := .assist _) rfl trivial).submitted jobs ⟨⟨i, rfl⟩, apart ?_⟩ h.ending
      rw [keys_setPool, keys_call]
      rfl
    · refine (source.answer .done).submitted jobs ⟨⟨i, rfl⟩, apart ?_⟩ h.ending
      rw [keys_setPool, keys_answer]

theorem fits_read (hv : s.keys.Valid) (later : s.clock ≤ id) {r : CallId} {h : Reader}
    (hr : s.readers.get? r = some h) {goal : Goal} {buf : ByteArray} :
    (({ s with clock := id + 1 } : Session).call id
      (.read { reader := r, cache := h.cache, goal := goal, buf := buf })).Fits id
        (.read { reader := r, cache := h.cache, goal := goal, buf := buf }) := by
  have reads := reader_of_handle hr
  have older := hv.lt_clock_of_reader reads
  have ended := hv.role_of_reader reads
  refine ⟨Nat.lt_succ_of_lt (Nat.lt_of_lt_of_le older later), ?_, ?_⟩
  · rw [keys_call]
    show update s.keys.role id none r = none
    simp [update_apply, ended]
  · intro c hc
    rw [keys_call] at hc
    have same : s.keys.reader.get? r = some c := hc
    rw [reads] at same
    exact (Option.some.inj same).symm

/-- Whatever is asked for leaves the loads alone at its beginning. -/
theorem onward_begin (op : Op) (hs : s.Sound) (later : s.clock ≤ id) :
    s.Onward (fun _ => none) (s.begin id op) := by
  have plain : s.QuietEntry id { s with clock := id + 1 } :=
    ⟨⟨.of_eq rfl (fun _ => rfl) rfl rfl rfl rfl, fun hj => hj, fun _ => rfl⟩, hs.keys, later⟩
  have entered : s.Entered id { s with clock := id + 1 } := .of_keys hs.keys later rfl
  unfold begin
  cases op with
  | openReader key mode plan =>
    have source := plain.congr fun q => q.setSource later (x := plan.source) rfl rfl
    exact plain.withRegistry (source.call rfl ⟨plan.source, Table.get?_set_self ..⟩)
  | openWriter key plan =>
    have sinks := plain.congr fun q => q.sinks (x := s.sinks.set id plan.sink) ?_
    · exact plain.withRegistry (sinks.call rfl trivial)
    · intro w old closed
      have other : w ≠ id := by omega
      simpa [isOpen, sink, Table.get?_set, other] using closed
  | shutdown =>
    have quiet : s.QuietEntry id ({ s with clock := id + 1 } : Session).shutdown := by
      refine ⟨⟨.of_eq rfl (fun _ => rfl) rfl rfl rfl rfl, fun hj => hj, fun i => ?_⟩, hs.keys,
        later⟩
      exact task?_wake ..
    exact plain.withRegistry (quiet.answer .done)
  | dropRegistry =>
    have quiet : s.QuietEntry id { s with clock := id + 1, held := false } :=
      ⟨⟨.of_eq rfl (fun _ => rfl) rfl rfl rfl rfl, fun hj => hj, fun _ => rfl⟩, hs.keys, later⟩
    exact plain.withRegistry (quiet.answer .done)
  | read reader goal buf =>
    refine plain.withReader reader fun x hx => ?_
    exact plain.call rfl (fits_read hs.keys later hx)
  | skip reader len =>
    exact plain.withReader reader fun x _ => (plain.congr fun q => q.readers _).answer _
  | write writer data =>
    exact plain.withWriter writer fun x _ => plain.setTally writer x _ (Tally.dropped_write ..)
  | writeAll writer data =>
    exact plain.withWriter writer fun x _ => plain.setTally writer x _ (Tally.dropped_writeAll ..)
  | flush writer =>
    exact plain.withWriter writer fun x _ => plain.setTally writer x _ (Tally.dropped_flush _)
  | part handle parting =>
    simp only [enter]
    split
    · exact plain.call rfl trivial
    · refine plain.withWriter handle fun x hx => plain.call rfl ?_
      have writes : s.keys.writer handle = some x.key := by simp [keys, get?_of_writer? hx]
      exact Nat.lt_succ_of_lt (Nat.lt_of_lt_of_le (hs.keys.lt_clock_of_writer writes) later)
  | feed source items => exact plain.withSource source fun _ => ⟨rfl, rfl⟩
  | ungate source => exact plain.withSource source fun _ => ⟨rfl, rfl⟩
  | release source => exact plain.withSource source fun _ => ⟨rfl, rfl⟩
  | newStore => exact (plain.congr fun q => q.newStore id).answer .done
  | append store data =>
    simp only [enter]
    refine plain.withStore store ?_
    rintro _ rfl
    exact (plain.congr fun q => q.changeStore store (.append data)).answer _
  | finish store =>
    simp only [enter]
    refine plain.withStore store ?_
    rintro _ rfl
    exact (plain.congr fun q => q.changeStore store .finish).answer .done
  | cancel store =>
    simp only [enter]
    refine plain.withStore store ?_
    rintro _ rfl
    exact (plain.congr fun q => q.cancelStore store).answer .done
  | readStore store r =>
    simp only [enter]
    refine plain.withStore store ?_
    rintro _ rfl
    exact plain.call rfl trivial
  | awaitStore store =>
    simp only [enter]
    refine plain.withStore store ?_
    rintro _ rfl
    exact plain.call rfl trivial
  | load store plan n =>
    have source := plain.congr fun q => q.setSource later (x := plan.source.build) rfl rfl
    simp only [enter]
    refine plain.withStore store ?_
    rintro _ rfl
    refine source.call rfl ⟨⟨store, rfl⟩, ?_⟩
    exact apart_of_keys hs.keys (entered.setSource plan.source.build) (keys_call _)
  | submit store plan n =>
    simp only [enter]
    refine plain.withStore store ?_
    rintro _ rfl
    refine plain.withPool ?_
    exact onward_submit plain entered rfl store plan n
  | dequeue store =>
    have foreign : ∀ {j}, j ∈ s.separate.queue → s.Foreign j :=
      fun hj => hs.foreign (Pool.mem_jobs_of_queue hj)
    simp only [enter]
    refine plain.withStore store ?_
    rintro _ rfl
    refine plain.withPool ?_
    exact (plain.congr fun q => q.dequeue rfl foreign store).answer _
  | dropPool =>
    refine plain.withPool ((plain.congr fun q => q.setSeparate fun hj => ?_).answer _)
    rwa [Pool.jobs, Pool.waiting_shutdown, Pool.loads_shutdown] at hj

end SharedStream.Session
