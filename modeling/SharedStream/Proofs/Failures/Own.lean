import SharedStream.Proofs.Failures.Others
import SharedStream.Proofs.Flights

/-! # Moves of a call that fails

What a call does on its way to a failure: it takes a free key, makes a cache and loads it, and in
the end frees the key again. Nobody else would see a difference without it.
-/
namespace SharedStream

/-- The key that the call tries to open, as long as it may still fail. -/
def Task.tries? : Task → Option Key
  | .seekReader k _ | .makeSource k _ | .fill k _ | .seekWriter k => some k
  | _ => none

theorem Task.tries?_submitted (k : Key) (d : Option Nat) : (submitted k d).tries? = none := by
  cases d <;> rfl

theorem Task.Leads.tries {a b : Task} {k : Key} (leads : a.Leads b) (tries : b.tries? = some k) :
    a.tries? = some k := by
  cases leads <;> first | exact tries | cases tries

/-- The key that the operation opens. -/
def Op.opens? : Op → Option Key
  | .openReader k _ _ | .openWriter k _ => some k
  | _ => none

namespace Session
open Keys

variable {s t u : Session} {id i c : CallId} {o : Option Key} {k : Key} {a b : Task} {l : Load}

/-! ## What nobody else knows of -/

theorem role_of_tries (ht : s.task? id = some a) (tries : a.tries? = some k) :
    ∃ x, s.keys.role id = some x := by
  rw [role_of_task ht]
  cases a <;> first | exact ⟨_, rfl⟩ | cases tries

theorem foreign_of_tries (ht : s.task? id = some a) (tries : a.tries? = some k) {j : Job}
    (foreign : s.Foreign j) : j.source ≠ id ∧ j.store ≠ .cache id := by
  obtain ⟨⟨y, store⟩, apart⟩ := foreign
  refine ⟨?_, by simp [store]⟩
  rintro rfl
  obtain ⟨x, role⟩ := role_of_tries ht tries
  exact not_apart_of_role role apart

section
variable (hs : s.Sound) (ht : s.task? id = some a) (tries : a.tries? = some k)
include hs ht tries

/-- A call that may still fail has a cache only if it fills it itself. -/
theorem fill_of_cached {k' : Key} {n : Int} (cached : s.keys.cache id = some (k', n)) :
    ∃ l, a = .fill k' l := by
  have role := role_of_task ht
  cases a with
  | seekReader | seekWriter => cases cached.symm.trans (hs.keys.no_cache (.inl role))
  | makeSource => cases cached.symm.trans (hs.keys.no_cache (.inr role))
  | fill key l =>
    obtain ⟨n', hc⟩ := hs.keys.cache_of_builds role
    cases cached.symm.trans hc
    exact ⟨l, rfl⟩
  | _ => cases tries

theorem slot_ne_of_tries (k' : Key) : s.keys.slot k' ≠ some (.reader id) := by
  intro slot
  obtain ⟨n, cached⟩ := hs.keys.cache_of_slot slot
  obtain ⟨l, rfl⟩ := fill_of_cached hs ht tries cached
  cases slot.symm.trans (hs.keys.agree.slot_eq (opening_of_works ht rfl))

theorem cache_ne_of_tries {x : CallId} {h : Reader} (hx : s.readers.get? x = some h) :
    h.cache ≠ id := by
  rintro rfl
  obtain ⟨k', slot⟩ := hs.keys.slot_of_reader (reader_of_handle hx)
  exact slot_ne_of_tries hs ht tries k' slot

/-- The call itself has the only load of its cache. -/
theorem loading_of_tries {n : PoolName} {rest : Option (List Job)}
    (loading : (s.pool n).staff[i]? = some (.loading l rest)) :
    l.job.source ≠ id ∧ l.job.store ≠ .cache id := by
  cases n with
  | separate => exact foreign_of_tries ht tries (hs.foreign (Pool.mem_jobs_of_staff loading))
  | registry =>
    obtain ⟨store, source⟩ := hs.own (Pool.mem_jobs_of_staff loading)
    have other : l.job.source ≠ id := by
      rintro rfl
      obtain ⟨k', n', hc⟩ := cached_iff.1 source
      obtain ⟨l', rfl⟩ := fill_of_cached hs ht tries hc
      have one := one_of_sound hs (not_apart_of_cached source)
      have running := Pool.stages_of_staff loading one
      cases running.symm.trans (stages_eq_of_fill hs ht).1
    exact ⟨other, by rw [store]; simpa using other⟩

end

/-! ## On the way to a failure -/

namespace Without
variable (h : s.Without id o u)
include h

theorem setSource_left (x : Source) :
    ({ s with sources := s.sources.set id x }).Without id o u :=
  { h with sources := h.sources.set_left x }

theorem setSink_left (x : Sink) : ({ s with sinks := s.sinks.set id x }).Without id o u :=
  { h with
    sinks := fun c other => by
      rw [Table.get?_set_of_ne _ _ other, h.sinks c other] }

theorem call_left (a : Task) : (s.call id a).Without id o u :=
  { h with
    call := fun i other => by
      rw [Session.call, Table.get?_set_of_ne _ _ other]
      exact h.call i other }

theorem goOn_left (a : Task) : (s.goOn id a).Without id o u :=
  { h with
    call := fun i other => by
      rw [Session.goOn, Table.get?_modify, if_neg other]
      exact h.call i other }

theorem dropSink_left : (s.dropSink id).Without id o u :=
  { h with sinks := h.sinks.modify_left Sink.close }

theorem newCache_left (k : Key) (mode : LoadMode) : (s.newCache id k mode).Without id o u :=
  { h with
    stores := h.stores.set_left {}
    cache := fun c => by
      have before := h.cache c
      rw [Session.newCache, Table.get?_set]
      split at before
      · next own => rw [before, if_pos own]
      · next other => rw [if_neg other, if_neg other, before] }

/-- Whoever is not woken is the same. -/
theorem wake_left {p : Task → Bool}
    (unheard : ∀ i a, i ≠ id → s.task? i = some a → p a = false) : (s.wake p).Without id o u :=
  { h with
    call := fun i other => by
      obtain ⟨awake, call⟩ := h.call i other
      refine ⟨awake, ?_⟩
      rw [get?_wake, call]
      cases hc : s.calls.get? i with
      | none => rfl
      | some c =>
        have asleep : p c.task = false := unheard i c.task other (by rw [task?, hc]; rfl)
        simp [asleep] }

theorem advanceLoad_left (source : l.job.source = id) (store : l.job.store = .cache id)
    (unheard : ∀ i a, i ≠ id → s.task? i = some a → a.awaits (.cache id) = false) :
    (s.advanceLoad l).2.Without id o u := by
  have read : (s.modifySource l.job.source fun _ => (s.nextStep l).source).Without id o u := by
    rw [source]
    exact { h with sources := h.sources.modify_left _ }
  have written : ∀ f : Store → Store, ({ s with
      sources := s.sources.modify l.job.source fun _ => (s.nextStep l).source
      stores := s.stores.modify l.job.store f }).Without id o u := by
    intro f
    rw [store]
    exact { read with stores := read.stores.modify_left f }
  show ((s.modifySource l.job.source fun _ => (s.nextStep l).source).changeStore l.job.store
    (s.nextStep l).change).Without id o u
  cases (s.nextStep l).change with
  | none => exact read
  | finish =>
    rw [Session.changeStore, Session.finishStore, Session.notifyStore, store]
    exact (store ▸ written _).wake_left unheard
  | append data =>
    rw [Session.changeStore, Session.appendTo]
    split
    · rw [Session.notifyStore, store]
      exact (store ▸ written _).wake_left unheard
    · exact read

end Without

/-- A call takes its key when that is free. -/
theorem Without.claim (h : s.Without id none u) (free : s.registry.slots.get? k = none) :
    (s.setSlot k .opening).Without id (some k) u :=
  { h with
    slot := fun k' => by
      rw [h.slot, Session.setSlot, Registry.setSlot, Table.get?_set, if_neg (by simp)]
      by_cases own : k = k'
      · subst own
        rw [if_pos rfl, free]
      · rw [if_neg (by simpa using own), if_neg (Ne.symm own)] }

theorem Clear.unheard (clear : s.Clear id o) {i : CallId} {a : Task} (other : i ≠ id)
    (ht : s.task? i = some a) : a.awaits (.cache id) = false := by
  have shuns := clear.task other ht
  cases a with
  | awaitCache key c => simpa [Task.awaits, Task.Shuns] using shuns
  | read r => simpa [Task.awaits, Task.Shuns] using shuns
  | readStore x r => simpa [Task.awaits, Task.Shuns] using shuns
  | awaitStore x => simpa [Task.awaits, Task.Shuns] using shuns
  | _ => rfl

/-! ## Moves of the call itself -/

theorem not_task?_answer {r : Result} : (s.answer id r).task? id ≠ some b := by
  simp [task?_answer]

theorem eq_of_goOn {b' : Task} (ht : s.task? id = some a)
    (after : (s.goOn id b').task? id = some b) : b' = b := by
  rw [task?_goOn (Option.isSome_of_eq_some ht), if_pos rfl] at after
  exact Option.some.inj after

namespace Without

theorem own_sleep (h : s.Without id a.works? u) (ht : s.task? id = some a)
    (after : (s.sleep id).task? id = some b) : (s.sleep id).Without id b.works? u := by
  cases ht.symm.trans ((task?_sleep id).symm.trans after)
  exact h.sleep_left

theorem own_seekReader {mode : LoadMode} (h : s.Without id none u)
    (ht : s.task? id = some (.seekReader k mode)) :
    (s.moveSeekReader id k mode).task? id = some b →
      (s.moveSeekReader id k mode).Without id b.works? u := by
  unfold Session.moveSeekReader
  split
  · exact fun after => absurd after not_task?_answer
  split
  · next free =>
    intro after
    obtain rfl := eq_of_goOn ht after
    have claimed := Without.claim h free
    have built : ((s.setSlot k .opening).modifySource id Source.build).Without id (some k) u :=
      { claimed with sources := claimed.sources.modify_left Source.build }
    exact built.goOn_left _
  · exact fun after => absurd after not_task?_answer
  all_goals exact h.own_sleep ht

theorem own_makeSource {mode : LoadMode} {k' : Key} (h : s.Without id (some k) u)
    (ht : s.task? id = some (.makeSource k mode)) (tries : b.tries? = some k') :
    (s.moveMakeSource id k mode).task? id = some b →
      (s.moveMakeSource id k mode).Without id b.works? u := by
  have made := h.newCache_left k mode
  unfold Session.moveMakeSource
  split
  · exact fun after => absurd after not_task?_answer
  · exact fun after => absurd after not_task?_answer
  · cases mode with
    | sync =>
      intro after
      obtain rfl := eq_of_goOn ht after
      exact made.goOn_left _
    | async =>
      intro after
      obtain rfl := eq_of_goOn ht after
      rw [Task.tries?_submitted] at tries
      cases tries

theorem own_fill {k' : Key} (h : s.Without id (some k) u) (clear : s.Clear id o) (hs : s.Sound)
    (ht : s.task? id = some (.fill k l)) (tries : b.tries? = some k') :
    (s.moveFill id k l).task? id = some b → (s.moveFill id k l).Without id b.works? u := by
  obtain ⟨store, source⟩ := hs.fits ht
  have loaded := h.advanceLoad_left source store fun i a => clear.unheard
  have task : (s.advanceLoad l).2.task? id = some (.fill k l) := by rw [task?_advanceLoad, ht]
  unfold Session.moveFill
  rcases hl : s.advanceLoad l with ⟨m, t⟩
  rw [hl] at loaded task
  intro after
  cases m with
  | goesOn p =>
    obtain rfl := eq_of_goOn task after
    exact loaded.goOn_left _
  | ends =>
    obtain rfl := eq_of_goOn task after
    cases tries
  | panics text => exact absurd after not_task?_answer

theorem own_seekWriter {k' : Key} (h : s.Without id none u)
    (ht : s.task? id = some (.seekWriter k)) (tries : b.tries? = some k') :
    (s.moveSeekWriter id k).task? id = some b →
      (s.moveSeekWriter id k).Without id b.works? u := by
  unfold Session.moveSeekWriter
  split
  · exact fun after => absurd after not_task?_answer
  split
  · exact fun after => absurd after not_task?_answer
  · split
    · exact fun after => absurd after not_task?_answer
    split
    · intro after
      obtain rfl := eq_of_goOn ht after
      cases tries
    · exact h.own_sleep ht
  all_goals exact h.own_sleep ht

/-- A move of the call itself makes no difference as long as it tries to open its key. -/
theorem own (h : s.Without id a.works? u) (clear : s.Clear id a.works?) (hs : s.Sound)
    (ht : s.task? id = some a) (before : a.tries? = some k)
    (after : (s.moveTask id a).task? id = some b) (tries : b.tries? = some k) :
    (s.moveTask id a).Without id b.works? u := by
  cases a with
  | seekReader key mode => exact h.own_seekReader ht after
  | makeSource key mode => exact h.own_makeSource ht tries after
  | fill key l => exact h.own_fill clear hs ht tries after
  | seekWriter key => exact h.own_seekWriter ht tries after
  | _ => cases before

end Without

/-! ## The beginning of the call -/

/-- Nobody opens a key without a handle of the registry. -/
theorem held_of_begin {op : Op} (opens : op.opens? = some k)
    (ht : (s.begin id op).task? id = some a) : s.held = true := by
  by_contra gone
  have missing : s.begin id op = ({ s with clock := id + 1 }).answer id (.missing .registry) := by
    cases op with
    | openReader | openWriter => exact if_neg gone
    | _ => cases opens
  rw [missing] at ht
  exact not_task?_answer ht

/-- A call that opens a reader has brought its source along, if it is in progress at all. -/
theorem begin_openReader {mode : Option LoadMode} {plan : SourcePlan}
    (ht : (s.begin id (.openReader k mode plan)).task? id = some a) :
    s.begin id (.openReader k mode plan) =
      ({ s with clock := id + 1, sources := s.sources.set id plan.source }).call id
        (.seekReader k (mode.getD s.registry.config.loadMode)) :=
  if_pos (held_of_begin rfl ht)

theorem begin_openWriter {plan : SinkPlan}
    (ht : (s.begin id (.openWriter k plan)).task? id = some a) :
    s.begin id (.openWriter k plan) =
      ({ s with clock := id + 1, sinks := s.sinks.set id plan.sink }).call id (.seekWriter k) :=
  if_pos (held_of_begin rfl ht)

/-- A call that has begun has brought a source or a sink along and nothing else. -/
theorem without_begin (hs : s.Sound) (ha : s.Attentive) (later : s.clock ≤ id) {op : Op}
    (opens : op.opens? = some k) (ht : (s.begin id op).task? id = some a) :
    (s.begin id op).Without id a.works? s := by
  have absent : s.calls.get? id = none := by
    cases hc : s.calls.get? id with
    | none => rfl
    | some c =>
      have older := ha.begun (show s.task? id = some c.task by rw [task?, hc]; rfl)
      exact absurd older (Nat.not_lt_of_le later)
  have uncached : s.caches.get? id = none := by
    have none := (hs.keys.fresh later).2.2.2.1
    exact Option.map_eq_none_iff.1 none
  have plain : ({ s with clock := id + 1 }).Without id none s :=
    { Without.refl absent uncached with clock := Nat.le_succ_of_le later }
  cases op with
  | openReader key mode plan =>
    have begun := begin_openReader ht
    rw [begun] at ht ⊢
    rw [task?_call, if_pos rfl] at ht
    cases ht
    exact (plain.setSource_left plan.source).call_left _
  | openWriter key plan =>
    have begun := begin_openWriter ht
    rw [begun] at ht ⊢
    rw [task?_call, if_pos rfl] at ht
    cases ht
    exact (plain.setSink_left plan.sink).call_left _
  | _ => cases opens

/-- A call that waits for its key to write leaves everything as it is. -/
theorem moveSeekWriter_eq_sleep (ht : s.task? id = some (.seekWriter k))
    (still : (s.moveSeekWriter id k).task? id = some (.seekWriter k)) :
    s.moveSeekWriter id k = s.sleep id := by
  revert still
  unfold moveSeekWriter
  split
  · simp [refuse, task?_answer]
  split
  · simp [grant, task?_answer]
  · split
    · simp [refuse, task?_answer]
    split
    · have task : ((s.setSlot k .closing).task? id).isSome := Option.isSome_of_eq_some ht
      simp [task?_goOn task]
    · exact fun _ => rfl
  all_goals exact fun _ => rfl

end Session
end SharedStream
