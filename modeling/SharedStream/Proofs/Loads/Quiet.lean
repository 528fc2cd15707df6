import SharedStream.Proofs.Sound

/-! # Events that leave the loads alone

Most events do nothing to the loads of the registry: they answer calls, change slots and handles, or
have to do with stores and pools that belong to no registry.
-/
namespace SharedStream.Session
open Keys

variable {s u : Session} {id : CallId} {t t' : Task}

/-- A change of a session that leaves the loads and stores of the registry alone, and of its sources
at most supplies one or begins one. -/
structure Quiet (s u : Session) : Prop where
  pool : u.registry.pool = s.registry.pool
  cached : ∀ c, u.caches.contains c = s.caches.contains c
  store : ∀ c, u.stores.get? (.cache c) = s.stores.get? (.cache c)
  source : ∀ c, ¬ s.keys.Apart c →
    (∃ f, Track.Supplied f ∧ u.sources.get? c = (s.sources.get? c).map f) ∨
      s.clock ≤ c ∧ ∃ x, u.sources.get? c = some x ∧ x.closed = false ∧ x.reads = 0
  taken : ∀ {w}, w < s.clock → s.isOpen w = false → u.isOpen w = false
  ending : u.registry.ending = s.registry.ending

theorem isOpen_of_eq (sinks : u.sinks = s.sinks) (w : CallId) : u.isOpen w = s.isOpen w := by
  rw [isOpen, sink, sinks, isOpen, sink]

theorem Quiet.of_eq (pool : u.registry.pool = s.registry.pool)
    (caches : ∀ c, u.caches.contains c = s.caches.contains c) (stores : u.stores = s.stores)
    (sources : u.sources = s.sources) (sinks : u.sinks = s.sinks)
    (ending : u.registry.ending = s.registry.ending) : s.Quiet u where
  pool := pool
  cached := caches
  store c := by rw [stores]
  source c _ := .inl ⟨id, fun x => ⟨rfl, rfl⟩, by simp [sources]⟩
  taken _ closed := (isOpen_of_eq sinks _).trans closed
  ending := ending

theorem Quiet.refl (s : Session) : s.Quiet s := .of_eq rfl (fun _ => rfl) rfl rfl rfl rfl

theorem stage_eq_none_of_role (h : s.keys.role id = none) :
    (s.task? id).bind Task.stage? = none := by
  cases ht : s.task? id with
  | none => rfl
  | some t =>
    rw [role_of_task ht] at h
    cases t <;> first | rfl | cases h

theorem Quiet.onward (h : s.Quiet u) (hv : s.keys.Valid)
    (foreign : ∀ {j}, j ∈ u.separate.jobs → j ∈ s.separate.jobs ∨ u.Foreign j)
    (stage : ∀ c, (u.task? c).bind Task.stage? = (s.task? c).bind Task.stage?)
    (fits : ∀ {i t}, u.task? i = some t → s.task? i = some t ∨ u.Fits i t) :
    s.Onward (fun _ => none) u where
  own hj := .inl (h.pool ▸ hj)
  foreign := foreign
  fits := fits
  taken := h.taken
  halts := .inl h.ending
  track {c} hc := by
    have stages : u.stages c = s.stages c := by rw [stages, stages, h.pool, stage c]
    rcases h.source c hc with ⟨f, hf, source⟩ | ⟨fresh, x, hx, open_, unread⟩
    · have same : u.track c = { s.track c with source := (s.track c).source.map f } := by
        simp [track, h.cached, h.store, stages, source]
      rw [same]
      exact (Track.Silent.supply f hf).step
    · have uncached : s.caches.contains c = false := by
        rw [← Bool.not_eq_true, cached_iff]
        rintro ⟨k, n, hn⟩
        simp [(hv.fresh fresh).2.2.2.1] at hn
      have same : u.track c = { s.track c with source := some x } := by
        simp [track, h.cached, h.store, stages, hx]
      rw [same]
      exact (Track.Silent.enter x uncached open_ unread).step

/-! ## Moves of calls -/

/-- The part of a move before its call goes on or ends. -/
structure QuietMove (s u : Session) : Prop extends s.Quiet u where
  separate : ∀ {j}, j ∈ u.separate.jobs → j ∈ s.separate.jobs
  task : ∀ i, u.task? i = s.task? i

namespace QuietMove

theorem refl (s : Session) : s.QuietMove s := ⟨.refl s, fun hj => hj, fun _ => rfl⟩

theorem ends (h : s.QuietMove u) (hv : s.keys.Valid)
    (idle : (s.task? id).bind Task.stage? = none) (r : Result) :
    s.Onward (fun _ => none) (u.answer id r) := by
  have quiet : s.Quiet (u.answer id r) := ⟨h.pool, h.cached, h.store, h.source, h.taken, h.ending⟩
  refine quiet.onward hv (fun hj => .inl (h.separate hj)) ?_ ?_
  · intro c
    rw [task?_answer, h.task]
    split
    · next hc => rw [hc, idle]; rfl
    · rfl
  · intro i t' ht'
    rw [task?_answer, h.task] at ht'
    split at ht'
    · cases ht'
    · exact .inl ht'

theorem answer (h : s.QuietMove u) (hv : s.keys.Valid) (ht : s.task? id = some t)
    (still : t.stage? = none) (r : Result) : s.Onward (fun _ => none) (u.answer id r) :=
  h.ends hv (by simp [ht, still]) r

theorem goesOn (h : s.QuietMove u) (hv : s.keys.Valid)
    (idle : (s.task? id).bind Task.stage? = none) {u' : Session} (quiet : s.Quiet u')
    (separate : u'.separate = u.separate)
    (task : ∀ i, u'.task? i = if i = id then some t' else u.task? i) (still : t'.stage? = none)
    (fits : u'.Fits id t') : s.Onward (fun _ => none) u' := by
  refine quiet.onward hv (fun hj => .inl (h.separate (separate ▸ hj))) ?_ ?_
  · intro c
    rw [task, h.task]
    split
    · next hc => rw [hc, idle]; exact still
    · rfl
  · intro i t'' ht'
    rw [task, h.task] at ht'
    split at ht'
    · next hi =>
      cases ht'
      exact .inr (hi ▸ fits)
    · exact .inl ht'

theorem goOn (h : s.QuietMove u) (hv : s.keys.Valid) (ht : s.task? id = some t)
    (still : t.stage? = none) (still' : t'.stage? = none) (fits : (u.goOn id t').Fits id t') :
    s.Onward (fun _ => none) (u.goOn id t') :=
  h.goesOn hv (by simp [ht, still]) ⟨h.pool, h.cached, h.store, h.source, h.taken, h.ending⟩ rfl
    (task?_goOn (by simp [h.task, ht]) t') still' fits

theorem call (h : s.QuietMove u) (hv : s.keys.Valid) (later : s.clock ≤ id)
    (still : t.stage? = none) (fits : (u.call id t).Fits id t) :
    s.Onward (fun _ => none) (u.call id t) :=
  h.goesOn hv (stage_eq_none_of_role (hv.fresh later).1)
    ⟨h.pool, h.cached, h.store, h.source, h.taken, h.ending⟩ rfl (task?_call t) still fits

theorem sleep (h : s.QuietMove u) (hv : s.keys.Valid) :
    s.Onward (fun _ => none) (u.sleep id) := by
  have quiet : s.Quiet (u.sleep id) := ⟨h.pool, h.cached, h.store, h.source, h.taken, h.ending⟩
  have task : ∀ i, (u.sleep id).task? i = s.task? i := fun i => (task?_sleep i).trans (h.task i)
  exact quiet.onward hv (fun hj => .inl (h.separate hj)) (fun c => by rw [task])
    fun ht => .inl (by rwa [task] at ht)

/-! ### Parts of moves -/

theorem setSlot (h : s.QuietMove u) (k : Key) (x : Slot) : s.QuietMove (u.setSlot k x) :=
  ⟨⟨h.pool, h.cached, h.store, h.source, h.taken, h.ending⟩, h.separate, h.task⟩

theorem freeSlot (h : s.QuietMove u) (k : Key) : s.QuietMove (u.freeSlot k) :=
  ⟨⟨h.pool, h.cached, h.store, h.source, h.taken, h.ending⟩, h.separate, h.task⟩

theorem notifyKeys (h : s.QuietMove u) : s.QuietMove u.notifyKeys :=
  ⟨⟨h.pool, h.cached, h.store, h.source, h.taken, h.ending⟩, h.separate,
    fun i => (task?_wake ..).trans (h.task i)⟩

theorem caches (h : s.QuietMove u) (c : CallId) (f : Cache → Cache) :
    s.QuietMove { u with caches := u.caches.modify c f } := by
  refine ⟨⟨h.pool, fun i => ?_, h.store, h.source, h.taken, h.ending⟩, h.separate, h.task⟩
  rw [← h.cached i]
  by_cases hi : i = c <;> simp [Table.contains, Table.get?_modify, hi]

theorem addRefs (h : s.QuietMove u) (c : CallId) (n : Int) : s.QuietMove (u.addRefs c n) :=
  h.caches c _

theorem touch (h : s.QuietMove u) (c : CallId) : s.QuietMove (u.touch c) := h.caches c _

theorem readers (h : s.QuietMove u) (x : Table CallId Reader) :
    s.QuietMove { u with readers := x } :=
  ⟨⟨h.pool, h.cached, h.store, h.source, h.taken, h.ending⟩, h.separate, h.task⟩

theorem writers (h : s.QuietMove u) (x : Table CallId Writer) :
    s.QuietMove { u with writers := x } :=
  ⟨⟨h.pool, h.cached, h.store, h.source, h.taken, h.ending⟩, h.separate, h.task⟩

theorem sinks (h : s.QuietMove u) {x : Table CallId Sink}
    (taken : ∀ {w}, w < s.clock → u.isOpen w = false →
      ({ u with sinks := x } : Session).isOpen w = false) : s.QuietMove { u with sinks := x } :=
  ⟨⟨h.pool, h.cached, h.store, h.source, fun old closed => taken old (h.taken old closed),
    h.ending⟩,
    h.separate, h.task⟩

theorem modifySource (h : s.QuietMove u) (c : CallId) {f : Source → Source}
    (hf : Track.Supplied f) : s.QuietMove (u.modifySource c f) := by
  refine ⟨⟨h.pool, h.cached, h.store, fun i hi => ?_, h.taken, h.ending⟩, h.separate, h.task⟩
  simp only [Session.modifySource, Table.get?_modify]
  split
  · rcases h.source i hi with ⟨g, hg, source⟩ | ⟨fresh, x, hx, open_, unread⟩
    · refine .inl ⟨f ∘ g, fun x => ?_, by simp [source]⟩
      exact ⟨(hf (g x)).1.trans (hg x).1, (hf (g x)).2.trans (hg x).2⟩
    · exact .inr ⟨fresh, f x, by simp [hx], (hf x).1.trans open_, (hf x).2.trans unread⟩
  · exact h.source i hi

theorem attach (h : s.QuietMove u) (hv : s.keys.Valid) (ht : s.task? id = some t)
    (still : t.stage? = none) (c : CallId) : s.Onward (fun _ => none) (u.attach id c) :=
  (((h.addRefs c 1).touch c).readers _).answer hv ht still _

theorem abandon (h : s.QuietMove u) (hv : s.keys.Valid) (ht : s.task? id = some t)
    (still : t.stage? = none) (k : Key) (r : Result) :
    s.Onward (fun _ => none) (u.abandon id k r) :=
  (h.freeSlot k).notifyKeys.answer hv ht still r

theorem grant (h : s.QuietMove u) (hv : s.keys.Valid) (ht : s.task? id = some t)
    (still : t.stage? = none) (k : Key) : s.Onward (fun _ => none) (u.grant id k) :=
  ((h.setSlot k _).notifyKeys.writers _).answer hv ht still _

theorem refuse (h : s.QuietMove u) (hv : s.keys.Valid) (ht : s.task? id = some t)
    (still : t.stage? = none) (e : CacheError) : s.Onward (fun _ => none) (u.refuse id e) := by
  refine QuietMove.answer (h.sinks ?_) hv ht still _
  intro w _ closed
  by_cases hw : w = id
  · subst hw
    cases hs : u.sinks.get? w with
    | none => simp [isOpen, sink, hs] at closed
    | some x => simp [isOpen, sink, Table.get?_modify, hs, Sink.close]
  · simpa [isOpen, sink, Table.get?_modify, hw] using closed

/-- A call that drops its handle next does not bring anything about any more. -/
theorem role_goOn (h : s.QuietMove u) (ht : s.task? id = some t) {w : CallId}
    (ended : s.keys.role w = none) (idle : t'.role? = none) :
    (u.goOn id t').keys.role w = none := by
  have present : (u.task? id).isSome := by simp [h.task, ht]
  have task := task?_goOn present t'
  simp only [keys, task, h.task]
  split
  · exact idle
  · exact ended

theorem parted (h : s.QuietMove u) (ht : s.task? id = some t) (clock : u.clock = s.clock)
    {x : ClosedHandle} {r : Result} (parted : s.Parted x) :
    (u.goOn id (.expire x r)).Parted x := by
  cases x with
  | reader => exact parted
  | writer w key =>
    obtain ⟨old, ended, closed⟩ := parted
    exact ⟨clock ▸ old, h.role_goOn ht ended rfl, h.taken old closed⟩

/-- The call goes on to drop its handle, or ends. -/
theorem depart (h : s.QuietMove u) (hv : s.keys.Valid) (ht : s.task? id = some t)
    (still : t.stage? = none) (clock : u.clock = s.clock) {x : ClosedHandle} {r : Result}
    {p : Parting} (parted : s.Parted x) (told : r.violation? = none) :
    s.Onward (fun _ => none) (u.depart id x r p) := by
  cases p with
  | close => exact h.goOn hv ht still rfl ⟨h.parted ht clock parted, told⟩
  | drop => exact h.answer hv ht still r

end QuietMove
end SharedStream.Session
