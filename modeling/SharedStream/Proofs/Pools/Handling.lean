import SharedStream.Proofs.Pools.Ledger

/-! # Every load is handled once

What becomes of the loads that are submitted to a pool in a run: each is queued, or was taken by one
worker, or was removed once, and those that are taken are taken in the order in which they came. A
load is lost only if the pool is dropped after loads have killed all its workers.
-/
namespace SharedStream

namespace Session
open Pool

variable {s u : Session} {n : PoolName} {x : StoreId} {id c : CallId} {e : Event} {j : Job}

/-! ## Submitting a load -/

/-- The event submits the load to the pool. -/
def Submits (s : Session) (n : PoolName) (j : Job) : Event → Prop
  | .begin id (.submit y plan size) => n = .separate ∧ j = ⟨.separate y, id, size⟩ ∧
      plan.factory = .gives ∧ s.stores.contains (.separate y) = true ∧ s.separate.shutDown = false
  | .move (.call id) => n = .registry ∧ j = ⟨.cache id, id, s.registry.config.chunkSize⟩ ∧
      (∃ k, s.task? id = some (.makeSource k .async)) ∧ (s.source id).factory = .gives
  | _ => False

theorem Submits.poolActs (h : s.Submits n j e) : ∃ t, s.poolActs n e = [.submit j t] := by
  cases e with
  | begin id op =>
    cases op with
    | submit y plan size =>
      obtain ⟨rfl, rfl, gives, present, going⟩ := h
      exact ⟨plan.threaded, by simp [Session.poolActs, opActs, gives, present, going]⟩
    | _ => exact h.elim
  | move a =>
    cases a with
    | call id =>
      obtain ⟨rfl, rfl, ⟨k, ht⟩, gives⟩ := h
      exact ⟨(s.source id).threaded, by simp [Session.poolActs, ht, taskActs, gives]⟩
    | _ => exact h.elim

/-! ## Removing the loads of a store -/

/-- The queue of the pool was searched for the loads of the store. -/
structure Cancels (s : Session) (n : PoolName) (x : StoreId) (u : Session) : Prop where
  /-- The other loads stay in the queue in their order, and workers keep theirs. -/
  pool : u.pool n = (s.pool n).dequeue x
  others : ∀ {m}, m ≠ n → u.pool m = s.pool m
  /-- The sources of the loads that are removed are closed. -/
  source : ∀ c, u.sources.get? c =
    if ∃ j ∈ (s.pool n).queuedFor x, j.source = c then (s.sources.get? c).map Source.close
    else s.sources.get? c
  /-- The store is finished if a load is removed, and the others stay as they are. -/
  store : ∀ y, u.stores.get? y =
    if y = x ∧ (s.pool n).queuedFor x ≠ [] then (s.stores.get? y).map Store.finish
    else s.stores.get? y

theorem cancels_dequeue (s : Session) (n : PoolName) (x : StoreId) :
    s.Cancels n x (s.dequeue n x) := by
  refine ⟨pool_dequeue x, fun other => pool_dequeue_of_ne (Ne.symm other) x, ?_, ?_⟩
  · intro c
    unfold Session.dequeue
    split
    · next none => simp [none]
    · next j jobs some =>
      have sources : (s.setPool n ((s.pool n).dequeue x)).sources = s.sources := by
        cases n <;> rfl
      rw [some]
      exact (get?_closeSources (j :: jobs)).trans (by rw [sources])
  · intro y
    unfold Session.dequeue
    split
    · next none => simp [none]
    · next j jobs some =>
      obtain ⟨sources, closed⟩ :=
        closeSources_eq (s := s.setPool n ((s.pool n).dequeue x)) (j :: jobs)
      have stores : (s.setPool n ((s.pool n).dequeue x)).stores = s.stores := by
        cases n <;> rfl
      have finished := get?_changeStore (s := { s.setPool n ((s.pool n).dequeue x) with
        sources := sources }) x y .finish
      dsimp only
      rw [closed, some]
      refine finished.trans ?_
      by_cases hy : y = x <;> simp [hy, stores, Store.change]

/-- The event removes the loads of the store from the queue of the pool. -/
def Searches (s : Session) (n : PoolName) (x : StoreId) : Event → Prop
  | .begin _ (.dequeue y) => n = .separate ∧ x = .separate y ∧
      s.stores.contains (.separate y) = true ∧ s.separate.shutDown = false
  | .move (.call id) => ∃ k c, n = .registry ∧ x = .cache c ∧ s.task? id = some (.dequeueCache k c)
  | .move .registry => ∃ c rest, n = .registry ∧ x = .cache c ∧
      s.registry.ending = .dequeue c rest
  | _ => False

theorem after_dequeue {y : CallId} (present : s.stores.contains (.separate y) = true)
    (going : s.separate.shutDown = false) : s.after (.begin id (.dequeue y)) =
      (({ s with clock := id + 1 } : Session).dequeue .separate (.separate y)).answer id
        (.flag !(s.separate.queuedFor (.separate y)).isEmpty) := by
  simp [after, begin, enter, withStore, withPool, present, going]

theorem Searches.poolActs (h : s.Searches n x e) : s.poolActs n e = [.cancel x] := by
  cases e with
  | begin id op =>
    cases op with
    | dequeue y =>
      obtain ⟨rfl, rfl, present, going⟩ := h
      simp [Session.poolActs, opActs, present, going]
    | _ => exact h.elim
  | move a =>
    cases a with
    | call id =>
      obtain ⟨k, c, rfl, rfl, ht⟩ := h
      simp [Session.poolActs, ht, taskActs]
    | registry =>
      obtain ⟨c, rest, rfl, rfl, stage⟩ := h
      simp [Session.poolActs, stage]
    | _ => exact h.elim

theorem Searches.cancels (h : s.Searches n x e) : s.Cancels n x (s.after e) := by
  cases e with
  | begin id op =>
    cases op with
    | dequeue y =>
      obtain ⟨rfl, rfl, present, going⟩ := h
      rw [after_dequeue present going]
      have cancels := cancels_dequeue { s with clock := id + 1 } .separate (.separate y)
      exact ⟨cancels.pool, fun other => cancels.others other, cancels.source, cancels.store⟩
    | _ => exact h.elim
  | move a =>
    cases a with
    | call id =>
      obtain ⟨k, c, rfl, rfl, ht⟩ := h
      have cancels := cancels_dequeue s .registry (.cache c)
      rw [after, move_of_task ht]
      exact ⟨cancels.pool, fun other => cancels.others other, cancels.source, cancels.store⟩
    | registry =>
      obtain ⟨c, rest, rfl, rfl, stage⟩ := h
      have cancels := cancels_dequeue s .registry (.cache c)
      simp only [after, move, endRegistry, stage]
      refine ⟨cancels.pool, fun {m} other => ?_, cancels.source, cancels.store⟩
      rw [← cancels.others other]
      cases m with
      | registry => exact absurd rfl other
      | separate => rfl
    | _ => exact h.elim

/-! ## No source is submitted twice -/

/-- The source is not given to the pool any more. -/
def Given (s : Session) (c : CallId) : PoolName → Prop
  | .registry => s.caches.contains c = true
  | .separate => c < s.clock

theorem Given.after (h : s.Given c n) (hs : s.Sound) (admitted : s.admits e) :
    (s.after e).Given c n := by
  have step := step_after hs admitted
  cases n with
  | registry =>
    obtain ⟨k, cached⟩ := cached_iff.1 h
    exact cached_iff.2 ⟨k, step.cached hs.keys cached⟩
  | separate => exact Nat.lt_of_lt_of_le h step.clock_le

theorem given_of_submit {t : Bool} (hs : s.Sound) (admitted : s.admits e)
    (h : .submit j t ∈ s.poolActs n e) : ¬ s.Given j.source n ∧ (s.after e).Given j.source n := by
  cases cause h with
  | @submitted id x plan size =>
    have clock : (s.after (.begin id (.submit x plan size))).clock = id + 1 :=
      (entry { s with clock := id + 1 } id _).clock
    refine ⟨Nat.not_lt_of_le admitted, ?_⟩
    show id < _
    rw [clock]
    exact Nat.lt_succ_self id
  | @loaded id k ht gives =>
    have uncached := (uncached_of_makes hs (role_of_task ht)).1
    refine ⟨by simp [Given, uncached], ?_⟩
    show Table.contains _ id = true
    rw [after, move_of_task ht, moveTask, moveMakeSource, gives]
    simp [Table.contains, goOn, setPool, newCache]

end Session

namespace Run
open Session

variable {config : CacheConfig} {workers : Nat} (r : Run (start config workers))
variable {n : PoolName} {m : Nat} {x : StoreId}

/-- What has become of the loads of the pool in the first `m` moments. -/
def ledger (r : Run (start config workers)) (n : PoolName) : Nat → Ledger
  | 0 => {}
  | m + 1 =>
    (r.ledger n m).enterAll ((r.state m).pool n) ((r.state m).poolActs n (r.event m))

theorem given {j : Job} (h : j ∈ (r.ledger n m).submitted) : (r.state m).Given j.source n := by
  induction m with
  | zero => cases h
  | succ m ih =>
    rw [r.state_succ]
    rcases Ledger.submitted_enterAll h with before | ⟨t, now⟩
    · exact (ih before).after (r.sound m) (r.admitted m)
    · exact (given_of_submit (r.sound m) (r.admitted m) now).2

theorem agrees (n : PoolName) (m : Nat) : (r.ledger n m).Agrees ((r.state m).pool n) := by
  induction m with
  | zero =>
    rw [r.state_zero, pool_start]
    exact Ledger.agrees_ofLimit _
  | succ m ih =>
    rw [r.pool_succ]
    refine ih.acts (r.balanced n m) (r.allows n m) fun j t hj => ⟨poolActs_of_submit hj, ?_⟩
    intro again
    obtain ⟨j', hj', source⟩ := List.mem_map.1 again
    have given := r.given hj'
    rw [source] at given
    exact (given_of_submit (r.sound m) (r.admitted m) hj).1 given

theorem ledger_succ {a : Pool.Act} (acts : (r.state m).poolActs n (r.event m) = [a]) :
    r.ledger n (m + 1) = (r.ledger n m).enter ((r.state m).pool n) a := by
  rw [ledger, acts]
  rfl

/-- A load that is begun was the first of the queue, or of what a stand-in has taken. -/
theorem begins {i : Nat} {l : Load} (idle : ((r.state m).pool n).load? i = none)
    (busy : ((r.state (m + 1)).pool n).load? i = some l) : l = l.job.start ∧
      ((∃ rest, (r.state m).poolActs n (r.event m) = [.look i] ∧
        ((r.state m).pool n).queue = l.job :: rest ∧ ((r.state (m + 1)).pool n).queue = rest) ∨
      ∃ rest, (r.state m).poolActs n (r.event m) = [.next i l.job rest] ∧
        ((r.state m).pool n).staff[i]? = some (.between (l.job :: rest)) ∧
          ((r.state (m + 1)).pool n).queue = ((r.state m).pool n).queue) := by
  rcases r.pool_step n m with ⟨-, same⟩ | ⟨a, acts, allowed, step⟩
  · rw [same, idle] at busy
    cases busy
  · rw [step] at busy ⊢
    obtain ⟨first, ⟨rfl, rest, queued, left⟩ | ⟨rest, rfl, between⟩⟩ :=
      Pool.begins_act allowed idle busy
    · exact ⟨first, .inl ⟨rest, acts, queued, left⟩⟩
    · exact ⟨first, .inr ⟨rest, acts, between, rfl⟩⟩

theorem removed_succ (searches : (r.state m).Searches n x (r.event m)) :
    (r.ledger n (m + 1)).removed = (r.ledger n m).removed ++ ((r.state m).pool n).queuedFor x := by
  rw [r.ledger_succ searches.poolActs]
  rfl

/-- The pool was dropped after loads had killed all its workers. -/
structure Deserted (r : Run (start config workers)) (n : PoolName) (m : Nat) : Prop where
  down : ((r.state m).pool n).shutDown = true
  some : 0 < (r.faults n m).length
  /-- Those are all that it may have, unless a worker was denied a thread. -/
  all : ((r.state m).pool n).Threaded →
    (r.faults n m).length = ((r.state m).pool n).maxWorkers

/-- A load is lost only with such a pool. -/
theorem deserted_of_lost (lost : (r.ledger n m).lost ≠ []) : r.Deserted n m := by
  obtain ⟨abandoned, some, all⟩ := (r.agrees n m).lost lost
  have struck := r.struck n m
  have parts := ((r.state m).pool n).struck_eq
  refine ⟨(Bool.and_eq_true_iff.1 abandoned).1, by omega, fun threaded => ?_⟩
  have fallen := threaded.fallen
  have dead := all threaded
  omega

/-- How the loads that are submitted to a pool are handled. -/
structure Handles (r : Run (start config workers)) (n : PoolName) : Prop where
  submits : ∀ {m j}, (r.state m).Submits n j (r.event m) →
    (r.ledger n (m + 1)).submitted = (r.ledger n m).submitted ++ [j] ∧
      ((r.state (m + 1)).pool n).queue = ((r.state m).pool n).queue ++ [j]
  /-- A source is submitted once only, so that no two loads are the same. -/
  distinct : ∀ m, ((r.ledger n m).submitted.map Job.source).Nodup
  /-- Every load is in one place, and in no other. -/
  perm : ∀ m, ((r.ledger n m).removed ++ ((r.ledger n m).taken.map Prod.snd ++
    (r.ledger n m).lost ++ ((r.state m).pool n).queue)).Perm (r.ledger n m).submitted
  /-- Those that are not removed leave the queue in the order of submission. -/
  order : ∀ m, (r.ledger n m).submitted.filter (· ∉ (r.ledger n m).removed) =
    (r.ledger n m).taken.map Prod.snd ++ (r.ledger n m).lost ++ ((r.state m).pool n).queue
  runs : ∀ {m i l}, ((r.state m).pool n).load? i = some l → (i, l.job) ∈ (r.ledger n m).taken
  /-- A stand-in has taken what waits in its hands. -/
  keeps : ∀ {m i w j}, ((r.state m).pool n).staff[i]? = some w → j ∈ w.rest →
    (i, j) ∈ (r.ledger n m).taken
  /-- A worker begins the load that it takes. -/
  begins : ∀ {m i l}, ((r.state m).pool n).load? i = none →
    ((r.state (m + 1)).pool n).load? i = some l → l = l.job.start ∧
      ((∃ rest, ((r.state m).pool n).queue = l.job :: rest ∧
        ((r.state (m + 1)).pool n).queue = rest ∧
          (r.ledger n (m + 1)).taken = (r.ledger n m).taken ++ [(i, l.job)]) ∨
      -- If a worker was denied a thread, its stand-in goes on with what it has taken before.
      ¬ ((r.state m).pool n).Threaded ∧ ∃ rest,
        ((r.state m).pool n).staff[i]? = some (.between (l.job :: rest)) ∧
          ((r.state (m + 1)).pool n).queue = ((r.state m).pool n).queue ∧
            (r.ledger n (m + 1)).taken = (r.ledger n m).taken)
  /-- A worker goes only when nothing is queued and nothing will be. -/
  goes : ∀ {m}, .gone ∈ ((r.state m).pool n).staff →
    ((r.state m).pool n).shutDown = true ∧ ((r.state m).pool n).queue = []
  /-- A load is lost only with a pool that is dropped after loads have killed all its workers. -/
  lost : ∀ {m}, (r.ledger n m).lost ≠ [] → r.Deserted n m
  /-- Whoever searches the queue for a store, as a registry that ends does for each of its caches,
  removes the loads of that store and no others. -/
  searched : ∀ (s : Session) (x : StoreId), s.Cancels n x (s.dequeue n x)
  cancels : ∀ {m x}, (r.state m).Searches n x (r.event m) →
    (r.state m).Cancels n x (r.state (m + 1)) ∧
      (r.ledger n (m + 1)).removed =
        (r.ledger n m).removed ++ ((r.state m).pool n).queuedFor x
  /-- The sources of loads that workers took are not closed by that. -/
  spares : ∀ {m x i j}, (r.state m).Searches n x (r.event m) → (i, j) ∈ (r.ledger n m).taken →
    (r.state (m + 1)).sources.get? j.source = (r.state m).sources.get? j.source
  answers : ∀ {m id y}, (r.state m).Searches n (.separate y) (r.event m) →
    r.event m = .begin id (.dequeue y) → (r.state (m + 1)).results.get? id =
      some (.flag (!(((r.state m).pool n).queuedFor (.separate y)).isEmpty))

theorem handles (n : PoolName) : r.Handles n where
  submits {m j} submits := by
    obtain ⟨t, acts⟩ := submits.poolActs
    rw [r.pool_succ, r.ledger_succ acts, acts]
    exact ⟨rfl, Pool.queue_submit j⟩
  distinct m := (r.agrees n m).distinct
  perm m := (r.agrees n m).perm
  order m := (r.agrees n m).order
  runs load := by
    obtain ⟨w, hw, mem⟩ := Pool.job_of_load? load
    exact (r.agrees n _).runs hw mem
  keeps hw mem := (r.agrees n _).runs hw (List.mem_append_left _ mem)
  begins {m i l} idle busy := by
    obtain ⟨first, ⟨rest, acts, queued, left⟩ | ⟨rest, acts, between, same⟩⟩ := r.begins idle busy
    · refine ⟨first, .inl ⟨rest, queued, left, ?_⟩⟩
      rw [r.ledger_succ acts]
      simp [Ledger.enter, queued]
    · refine ⟨first, .inr ⟨fun all => ?_, rest, between, same, ?_⟩⟩
      · cases (all _ (List.mem_of_getElem? between)).2
      · rw [r.ledger_succ acts]
        rfl
  goes {m} gone := (r.agrees n m).goes gone
  lost lost := r.deserted_of_lost lost
  searched s x := cancels_dequeue s n x
  cancels {m x} searches := by
    rw [r.state_succ]
    exact ⟨searches.cancels, r.removed_succ searches⟩
  spares {m x i j} searches taken := by
    rw [r.state_succ, searches.cancels.source, if_neg]
    rintro ⟨j', queued, source⟩
    exact (r.agrees n m).source_ne taken (List.mem_of_mem_filter queued) source
  answers {m id y} searches asked := by
    rw [asked] at searches
    obtain ⟨rfl, -, present, going⟩ := searches
    rw [r.state_succ, asked, after_dequeue present going]
    exact Table.get?_set_self ..

end Run

namespace Session

/-- The only worker of a pool dies of a load, a load is submitted, and the pool is dropped. -/
def forsaken : List Event :=
  [.begin 0 .newStore, .begin 1 .newStore,
    .begin 2 (.submit 0 { script := [.panic "x"] } 8), .move (.worker .separate 0),
    .move (.worker .separate 0), .move (.worker .separate 0), .move (.worker .separate 0),
    .move (.worker .separate 0), .begin 3 (.submit 1 { script := [.data ⟨#[1]⟩ none] } 8),
    .begin 4 .dropPool, .move (.pool .separate)]

/-- The load that was queued is neither queued nor taken nor removed any more: its source was closed
without a read, and its store is not finished. -/
theorem lost_forsaken : ∃ plays : (start {} 1).Plays forsaken,
    ((Run.ofList plays).state 11).Settled ∧
      ((Run.ofList plays).ledger .separate 11).submitted =
        [⟨.separate 0, 2, 8⟩, ⟨.separate 1, 3, 8⟩] ∧
      ((Run.ofList plays).ledger .separate 11).taken = [(0, ⟨.separate 0, 2, 8⟩)] ∧
      ((Run.ofList plays).ledger .separate 11).removed = [] ∧
      (((Run.ofList plays).state 11).pool .separate).queue = [] ∧
      (((Run.ofList plays).state 11).source 3).closed = true ∧
      (((Run.ofList plays).state 11).source 3).reads = 0 ∧
      (((Run.ofList plays).state 11).store (.separate 1)).finished = false := by
  have plays : (start {} 1).Plays forsaken := by
    unfold Plays
    decide
  have settled : ((start {} 1).play forsaken 11).Settled := by
    rw [settled_iff]
    decide
  refine ⟨plays, settled, ?_, ?_, ?_, ?_, ?_, ?_, ?_⟩ <;> rfl

end Session
end SharedStream
