import SharedStream.Proofs.Pools.Sources

/-! # What becomes of a load in the end

A load that was submitted is queued, run or in the hands of a stand-in until its store is finished,
unless it panics or is dropped: with its queue, or by a stand-in in whose hands another load has
panicked.
-/
namespace SharedStream

namespace Pool

variable {p : Pool} {a : Act} {i k : Nat} {j : Job} {l : Load} {w w' : Worker}

/-- Whoever has to do with a load goes on with it until it ends, or panics, or is dropped. -/
theorem Turn.leaves (h : p.Turn a k w w') (mem : j ∈ workerJobs w) : j ∈ workerJobs w' ∨
    (∃ l o m, a = .turn k l o m ∧ w = .loading l o ∧ l.job = j ∧ m.stage? = none) ∨
      ∃ text rest, a = .shed k text j rest := by
  cases h with
  | stays => exact .inl mem
  | takes free | sleeps free | goes free => rcases free with rfl | rfl <;> cases mem
  | wakes | retracts => cases mem
  | moves l o m turn =>
    rcases List.mem_append.1 mem with rest | own
    · left
      rw [workerJobs, Worker.rest_after]
      exact List.mem_append_left _ rest
    · obtain rfl : j = l.job := by simpa [Worker.load?] using own
      cases stage : m.stage? with
      | none => exact .inr (.inl ⟨l, o, m, turn, rfl, rfl, stage⟩)
      | some st =>
        left
        obtain ⟨p, rfl⟩ : ∃ p, m = .goesOn p := by cases m <;> first | exact ⟨_, rfl⟩ | cases stage
        cases o <;> simp [workerJobs, Worker.after, Worker.load?]
  | begins j' rest =>
    left
    simpa [workerJobs, Worker.rest, Worker.load?, Job.start, or_comm] using mem
  | sheds text j' rest act =>
    have mem : j = j' ∨ j ∈ rest := by simpa [workerJobs, Worker.rest, Worker.load?] using mem
    rcases mem with rfl | rest
    · exact .inr (.inr ⟨text, _, act⟩)
    · exact .inl (List.mem_append_left _ rest)

/-- Nobody moves a load but whoever runs it. -/
theorem load?_act (busy : p.load? i = some l) (allowed : p.Allows a) :
    (p.act a).load? i = some l ∨ ∃ o m, a = .turn i l o m := by
  obtain ⟨o, hw⟩ := load?_eq_some busy
  obtain ⟨w', hw', turn⟩ := turn_act allowed hw
  cases turn with
  | stays => exact .inl (load?_of_loading hw')
  | moves l o m act => exact .inr ⟨o, m, act⟩
  | takes free | sleeps free | goes free => rcases free with free | free <;> cases free

theorem has_of_waiting (h : j ∈ p.waiting) : p.Has j := by
  refine (List.mem_append.1 h).imp_right fun orphan => ?_
  obtain ⟨w, hw, taken⟩ := List.mem_flatMap.1 orphan
  obtain ⟨i, hi⟩ := List.mem_iff_getElem?.1 hw
  exact ⟨i, w, hi, List.mem_append_left _ taken⟩

/-- The ways in which a load leaves a pool. -/
theorem Has.act (h : p.Has j) (allowed : p.Allows a) : (p.act a).Has j ∨
    (j ∈ p.queue ∧ (a = .cancel j.store ∨ a = .drop)) ∨
      (∃ i l o m, a = .turn i l o m ∧ l.job = j ∧ m.stage? = none) ∨
        ∃ i text rest, a = .shed i text j rest := by
  rcases h with queued | ⟨i, w, hw, mem⟩
  · exact (queue_act queued allowed).imp_right fun gone => .inl ⟨queued, gone⟩
  obtain ⟨w', hw', turn⟩ := turn_act allowed hw
  rcases turn.leaves mem with still | ⟨l, o, m, act, -, rest⟩ | ⟨text, rest, act⟩
  · exact .inl (.inr ⟨i, w', hw', still⟩)
  · exact .inr (.inr (.inl ⟨i, l, o, m, act, rest⟩))
  · exact .inr (.inr (.inr ⟨i, text, rest, act⟩))

end Pool

namespace Session
open Pool

variable {s u : Session} {n : PoolName} {c : CallId} {x : StoreId} {e : Event} {j : Job} {l : Load}

/-! ## Removed loads -/

theorem searches_of_cancel (h : .cancel x ∈ s.poolActs n e) : s.Searches n x e := by
  cases cause h with
  | dequeued =>
    simp only [poolActs, opActs] at h
    split at h
    · next open_ => exact ⟨rfl, rfl, open_.2⟩
    · cases h
  | retired ht => exact ⟨_, _, rfl, rfl, ht⟩
  | stopped stage => exact ⟨_, _, rfl, rfl, stage⟩

/-- The store of a load that is removed is finished. -/
theorem Cancels.finished (h : s.Cancels n x u) (queued : j ∈ (s.pool n).queue) (own : j.store = x)
    (present : s.stores.contains x = true) : (u.store x).finished = true := by
  obtain ⟨y, hy⟩ := Option.isSome_iff_exists.1 present
  have mem : j ∈ (s.pool n).queuedFor x := List.mem_filter.2 ⟨queued, by simp [own]⟩
  rw [Session.store, h.store, if_pos ⟨rfl, List.ne_nil_of_mem mem⟩, hy]
  rfl

theorem Stocks.contains (h : s.Stocks u) (present : s.stores.contains x = true) :
    u.stores.contains x = true := by
  obtain ⟨y, hy⟩ := Option.isSome_iff_exists.1 present
  obtain ⟨y', hy', -⟩ := h.grows hy
  exact Option.isSome_iff_exists.2 ⟨y', hy'⟩

theorem Stocks.finished (h : s.Stocks u) (present : s.stores.contains x = true)
    (finished : (s.store x).finished = true) : (u.store x).finished = true := by
  obtain ⟨y, hy⟩ := Option.isSome_iff_exists.1 present
  obtain ⟨y', hy', grows⟩ := h.grows hy
  rw [Session.store, hy] at finished
  rw [Session.store, hy']
  exact (grows.finished finished).1

theorem finished_of_cancel (queued : j ∈ (s.pool n).queue)
    (present : s.stores.contains j.store = true) (h : .cancel j.store ∈ s.poolActs n e) :
    ((s.after e).store j.store).finished = true :=
  (searches_of_cancel h).cancels.finished queued rfl present

theorem sources_shed {i : Nat} {text : String} {rest : List Job}
    (hw : (s.pool n).staff[i]? = some (.fallen text (j :: rest))) :
    (s.after (.move (.worker n i))).sources = s.sources.modify j.source Source.close := by
  rw [Session.after, Session.move, moveWorker, hw]
  cases n <;> rfl

/-- The source of a load that is dropped is closed. -/
theorem Drops.closed (h : s.Drops n j e) (present : s.sources.contains j.source = true) :
    ((s.after e).source j.source).closed = true := by
  obtain ⟨y, hy⟩ := Option.isSome_iff_exists.1 present
  suffices h : (s.after e).sources.get? j.source = some y.close by
    rw [source, h]
    rfl
  cases h with
  | removed queued cancel =>
    rw [(searches_of_cancel cancel).cancels.source, if_pos, hy]
    · rfl
    · exact ⟨j, List.mem_filter.2 ⟨queued, by simp⟩, rfl⟩
  | lost queued drop =>
    have cause := cause drop
    cases cause with
    | abandoned =>
      show (s.dropQueue n).sources.get? j.source = _
      rw [get?_dropQueue, if_pos ⟨j, queued, rfl⟩, hy]
      rfl
  | shed act =>
    have cause := cause act
    cases cause with
    | sheds hw => rw [sources_shed hw, Table.get?_modify, if_pos rfl, hy, Option.map_some]

/-! ## Loads that end -/

/-- A load that ends has finished its store. -/
theorem finished_of_ends (present : s.stores.contains l.job.store = true)
    (ends : (s.advanceLoad l).1 = .ends) :
    ((s.advanceLoad l).2.store l.job.store).finished = true := by
  obtain ⟨y, hy⟩ := Option.isSome_iff_exists.1 present
  have change : (s.nextStep l).change = .finish := LoadPhase.change_of_ends ends
  rw [store, get?_advanceLoad, if_pos rfl, hy, change]
  rfl

/-- The load panics in the event: it kills its worker, or makes a stand-in fall. -/
def Kills (s : Session) (n : PoolName) (j : Job) (e : Event) : Prop :=
  ∃ i l, e = .move (.worker n i) ∧ (s.pool n).load? i = some l ∧ l.job = j ∧
    (s.loadFault? l).isSome = true

/-- A stand-in that has fallen drops the load in the event. -/
def Sheds (s : Session) (n : PoolName) (j : Job) (e : Event) : Prop :=
  ∃ i text rest, e = .move (.worker n i) ∧ (s.pool n).staff[i]? = some (.fallen text (j :: rest))

theorem sheds_of_act {i : Nat} {text : String} {rest : List Job}
    (h : .shed i text j rest ∈ s.poolActs n e) : s.Sheds n j e := by
  cases cause h with
  | sheds hw => exact ⟨i, text, rest, rfl, hw⟩

/-- What becomes of a load in an event. -/
theorem Reach.fate_after {config : CacheConfig} {workers : Nat}
    (reach : Reach (start config workers) s)
    (admitted : s.admits e) (h : (s.pool n).Has j) (present : s.stores.contains j.store = true) :
    ((s.after e).pool n).Has j ∨ ((s.after e).store j.store).finished = true ∨ s.Kills n j e ∨
      s.Sheds n j e ∨ j ∈ (s.pool n).queue ∧ .drop ∈ s.poolActs n e := by
  rcases reach.pool_step (n := n) admitted with ⟨-, same⟩ | ⟨a, acts, allowed, step⟩
  · exact .inl (same ▸ h)
  have mem : a ∈ s.poolActs n e := by simp [acts]
  rw [step]
  rcases h.act allowed with has | ⟨queued, rfl | rfl⟩ | ⟨i, l, o, m, rfl, rfl, over_⟩ |
    ⟨i, text, rest, rfl⟩
  · exact .inl has
  · exact .inr (.inl (finished_of_cancel queued present mem))
  · exact .inr (.inr (.inr (.inr ⟨queued, mem⟩)))
  · right
    cases cause mem with
    | turns loading =>
      have busy : (s.pool n).load? i = some l := load?_of_loading loading
      cases m : (s.advanceLoad l).1 with
      | goesOn p =>
        rw [m] at over_
        cases over_
      | panics text =>
        have fault : (s.loadFault? l).isSome = true := by
          rw [← panics_turn i l o, m]
          rfl
        exact .inr (.inl ⟨i, l, rfl, busy, rfl, fault⟩)
      | ends =>
        left
        have stores : (s.after (.move (.worker n i))).stores = (s.advanceLoad l).2.stores := by
          rw [Session.after, Session.move, moveWorker, loading]
          cases n <;> rfl
        rw [store, stores]
        exact finished_of_ends present m
  · exact .inr (.inr (.inr (.inl (sheds_of_act mem))))

end Session

namespace Run
open Session

variable {config : CacheConfig} {workers : Nat} (r : Run (start config workers))
variable {n : PoolName} {m m' i : Nat} {j : Job} {w : Worker}

/-- The load has panicked before the moment. -/
def Killed (r : Run (start config workers)) (n : PoolName) (j : Job) (m : Nat) : Prop :=
  ∃ i, i < m ∧ (r.state i).Kills n j (r.event i)

/-- A stand-in that had fallen has dropped the load before the moment. -/
def Shed (r : Run (start config workers)) (n : PoolName) (j : Job) (m : Nat) : Prop :=
  ∃ i, i < m ∧ (r.state i).Sheds n j (r.event i)

/-- Whoever was not denied a thread stays a worker or a stand-in. -/
theorem standsIn_kept (hw : ((r.state m).pool n).staff[i]? = some w) (granted : w ≠ .denied)
    (le : m ≤ m') : ∃ w', ((r.state m').pool n).staff[i]? = some w' ∧ w' ≠ .denied ∧
      w'.standsIn = w.standsIn := by
  induction le with
  | refl => exact ⟨w, hw, granted, rfl⟩
  | @step m' _ ih =>
    obtain ⟨v, hv, granted, same⟩ := ih
    rcases r.pool_step n m' with ⟨-, kept⟩ | ⟨a, -, allowed, step⟩
    · exact ⟨v, kept ▸ hv, granted, same⟩
    · obtain ⟨v', hv', turn⟩ := Pool.turn_act allowed hv
      have next := turn.standsIn_eq granted
      exact ⟨v', step ▸ hv', next.1, next.2.trans same⟩

theorem not_shed (threaded : ((r.state m).pool n).Threaded) : ¬ r.Shed n j m := by
  rintro ⟨k, lt, i, text, rest, -, hw⟩
  obtain ⟨w, hw, -, same⟩ := r.standsIn_kept hw (by simp) (Nat.le_of_lt lt)
  cases same.symm.trans (threaded w (List.mem_of_getElem? hw)).2

/-- Its store is there. -/
theorem contains_store (h : j ∈ (r.ledger n m).submitted) :
    (r.state m).stores.contains j.store = true := by
  induction m with
  | zero => cases h
  | succ m ih =>
    rcases Ledger.submitted_enterAll h with before | ⟨t, now⟩
    · exact (r.passes m).toStocks.contains (ih before)
    · have cause := cause now
      generalize event : r.event m = e at cause
      cases cause with
      | submitted _ present => exact (r.passes m).toStocks.contains present
      | @loaded id k ht gives =>
        rw [r.state_succ, event, after, move_of_task ht, moveTask, moveMakeSource, gives]
        simp [Table.contains, goOn, setPool, newCache]

/-- The queue is lost when it goes with its pool. -/
theorem lost_of_drop (queued : j ∈ ((r.state m).pool n).queue)
    (drop : .drop ∈ (r.state m).poolActs n (r.event m)) : j ∈ (r.ledger n (m + 1)).lost := by
  have dropped : (r.ledger n (m + 1)).lost =
      (r.ledger n m).lost ++ ((r.state m).pool n).queue := by
    rw [r.ledger_succ (poolActs_of_drop drop)]
    rfl
  exact dropped ▸ List.mem_append_right _ queued

/-- A load is in the hands of its pool until its store is finished, unless it panics or is
dropped. -/
theorem fate (h : j ∈ (r.ledger n m).submitted) : ((r.state m).pool n).Has j ∨
    ((r.state m).store j.store).finished = true ∨ r.Killed n j m ∨ r.Shed n j m ∨
      j ∈ (r.ledger n m).lost := by
  induction m with
  | zero => cases h
  | succ m ih =>
    rcases Ledger.submitted_enterAll h with before | ⟨t, now⟩
    · have present := r.contains_store before
      have lost : (r.ledger n m).lost ⊆ (r.ledger n (m + 1)).lost := Ledger.lost_subset
      rcases ih before with has | finished | ⟨i, lt, kills⟩ | ⟨i, lt, sheds⟩ | gone
      · have fate := (r.reach m).fate_after (r.admitted m) has present
        rw [← r.state_succ] at fate
        rcases fate with has | finished | kills | sheds | ⟨queued, drop⟩
        · exact .inl has
        · exact .inr (.inl finished)
        · exact .inr (.inr (.inl ⟨m, Nat.lt_succ_self m, kills⟩))
        · exact .inr (.inr (.inr (.inl ⟨m, Nat.lt_succ_self m, sheds⟩)))
        · exact .inr (.inr (.inr (.inr (r.lost_of_drop queued drop))))
      · exact .inr (.inl ((r.passes m).toStocks.finished present finished))
      · exact .inr (.inr (.inl ⟨i, Nat.lt_succ_of_lt lt, kills⟩))
      · exact .inr (.inr (.inr (.inl ⟨i, Nat.lt_succ_of_lt lt, sheds⟩)))
      · exact .inr (.inr (.inr (.inr (lost gone))))
    · left
      rw [r.pool_succ, poolActs_of_submit now]
      exact .inl ((Pool.queue_submit j).symm ▸ List.mem_append_right _ List.mem_cons_self)

end Run
end SharedStream
