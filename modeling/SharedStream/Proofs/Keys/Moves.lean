import SharedStream.Proofs.Keys.Parts
import SharedStream.Proofs.Keys.Steps
import SharedStream.Proofs.Readings
import SharedStream.Proofs.Loads.Phases

/-! # Moves and operations as steps of keys

Each move of a session, and each operation at its beginning, is one step of its keys.
-/
namespace SharedStream.Session
open Function Keys

variable {s : Session} {id c : CallId} {k : Key}

/-! ## Moves that leave the keys alone -/

theorem role_of_task {t : Task} (h : s.task? id = some t) : s.keys.role id = t.role? := by
  simp [keys, h]

theorem step_answer (h : s.keys.role id = none) (r : Result) :
    s.keys.Step (some id) (s.answer id r).keys := by
  have same : update s.keys.role id none = s.keys.role := update_eq_self_iff.2 h.symm
  rw [keys_answer, same]
  exact .quiet

theorem keys_goOn_eq {t t' : Task} (h : s.task? id = some t) (same : t'.role? = t.role?) :
    (s.goOn id t').keys = s.keys := by
  have roles : update s.keys.role id t'.role? = s.keys.role :=
    update_eq_self_iff.2 (by rw [role_of_task h, same])
  rw [keys_goOn (by simp [h]), roles]

theorem step_goOn {t t' : Task} (h : s.task? id = some t) (same : t'.role? = t.role?) :
    s.keys.Step (some id) (s.goOn id t').keys :=
  keys_goOn_eq h same ▸ .quiet

@[simp] theorem keys_advanceLoad (l : Load) : (s.advanceLoad l).2.keys = s.keys := by
  simp only [advanceLoad, keys_changeStore]
  refine Keys.ext rfl rfl rfl rfl rfl rfl ?_ rfl
  funext i
  simp only [keys, built_modifySource, LoadPhase.step_built]
  split
  · next hi => rw [hi.1]
  · rfl

theorem task?_appendTo (x : StoreId) (data : ByteArray) (i : CallId) :
    (s.appendTo x data).task? i = s.task? i := by
  unfold appendTo
  split
  · exact task?_wake ..
  · rfl

@[simp] theorem task?_advanceLoad (l : Load) (i : CallId) :
    (s.advanceLoad l).2.task? i = s.task? i := by
  simp only [advanceLoad]
  cases (l.phase.step l.job.chunkSize (s.source l.job.source) (s.store l.job.store)).change with
  | none => rfl
  | finish => exact task?_wake ..
  | append data => exact task?_appendTo ..

@[simp] theorem task?_setPool (n : PoolName) (p : Pool) (i : CallId) :
    (s.setPool n p).task? i = s.task? i := by
  cases n <;> rfl

theorem task?_closeSources (jobs : List Job) (i : CallId) :
    (jobs.foldl (fun s job => s.modifySource job.source Source.close) s).task? i = s.task? i := by
  induction jobs generalizing s with
  | nil => rfl
  | cons j jobs ih => exact ih

@[simp] theorem task?_dequeue (n : PoolName) (x : StoreId) (i : CallId) :
    (s.dequeue n x).task? i = s.task? i := by
  unfold dequeue
  split
  · rfl
  · exact (task?_wake ..).trans ((task?_closeSources ..).trans (task?_setPool ..))

/-! ## Opening readers -/

theorem step_moveSeekReader {mode : LoadMode} (h : s.task? id = some (.seekReader k mode))
    (hv : s.keys.Valid) (source : s.sources.contains id) :
    s.keys.Step (some id) (s.moveSeekReader id k mode).keys := by
  have seeks := role_of_task h
  unfold moveSeekReader
  split
  · rw [keys_answer]
    exact .refuse seeks
  split
  · next free =>
    have task : ((s.setSlot k .opening).modifySource id Source.build).task? id =
        some (.seekReader k mode) := h
    rw [keys_goOn (by simp [task]),
      keys_build (show (s.setSlot k .opening).sources.contains id from source),
      keys_setSlot]
    exact .claim seeks free
  · next c open_ =>
    obtain ⟨n, hn⟩ := hv.cache_of_slot open_
    rw [keys_attach hn]
    exact .attach seeks open_ hn
  all_goals exact keys_sleep ▸ .quiet

theorem step_moveMakeSource {mode : LoadMode} (h : s.task? id = some (.makeSource k mode)) :
    s.keys.Step (some id) (s.moveMakeSource id k mode).keys := by
  have makes := role_of_task h
  unfold moveMakeSource
  split
  · rw [keys_abandon]
    exact .abandon (.inl makes)
  · rw [keys_abandon]
    exact .abandon (.inl makes)
  · have task : (s.newCache id k mode).task? id = some (.makeSource k mode) := h
    cases mode with
    | sync =>
      dsimp only
      rw [keys_goOn (by simp [task]), keys_newCache]
      exact .build makes
    | async =>
      dsimp only
      rw [keys_goOn (by simp [task]), keys_setPool, keys_newCache, Task.role?_submitted]
      exact .build makes

theorem step_moveFill {l : Load} (h : s.task? id = some (.fill k l)) :
    s.keys.Step (some id) (s.moveFill id k l).keys := by
  have builds := role_of_task h
  have task : (s.advanceLoad l).2.task? id = some (.fill k l) := by rw [task?_advanceLoad, h]
  unfold moveFill
  rw [← keys_advanceLoad l]
  rcases hm : (s.advanceLoad l) with ⟨m, s'⟩
  rw [hm] at task
  cases m with
  | goesOn p => exact step_goOn task rfl
  | ends => exact step_goOn task rfl
  | panics text =>
    dsimp only
    rw [keys_abandon]
    exact .abandon (.inr (role_of_task task))

theorem step_moveRegister (h : s.task? id = some (.register k)) (hv : s.keys.Valid) :
    s.keys.Step (some id) (s.moveRegister id k).keys := by
  have builds := role_of_task h
  have cache := (hv.count_of_builds builds).1
  have open_ : ((s.setSlot k (.reader id)).notifyKeys).keys =
      { s.keys with slot := update s.keys.slot k (some (.reader id)) } := by
    rw [keys_notifyKeys, keys_setSlot]
  unfold moveRegister
  rw [keys_attach (k := k) (n := 0) (by rw [open_]; exact cache), open_]
  exact .register builds

/-! ## Leasing keys to writers -/

theorem refs_eq_of_cache {n : Int} (h : s.keys.cache c = some (k, n)) : s.refs c = n := by
  obtain ⟨x, hx, hkn⟩ := Option.map_eq_some_iff.1 h
  cases hkn
  simp [refs, hx]

theorem step_moveSeekWriter (h : s.task? id = some (.seekWriter k)) (hv : s.keys.Valid) :
    s.keys.Step (some id) (s.moveSeekWriter id k).keys := by
  have seeks := role_of_task h
  unfold moveSeekWriter
  split
  · rw [keys_refuse]
    exact .refuse seeks
  split
  · next free =>
    rw [keys_grant]
    exact .grant (.inl ⟨seeks, free⟩)
  · next c open_ =>
    obtain ⟨n, hn⟩ := hv.cache_of_slot open_
    rw [refs_eq_of_cache hn]
    split
    · rw [keys_refuse]
      exact .refuse seeks
    split
    · next zero =>
      have task : (s.setSlot k .closing).task? id = some (.seekWriter k) := h
      rw [keys_goOn (by simp [task]), keys_setSlot]
      exact .retire seeks open_ (zero ▸ hn)
    · exact keys_sleep ▸ .quiet
  all_goals exact keys_sleep ▸ .quiet

theorem step_moveAwaitCache (h : s.task? id = some (.awaitCache k c)) :
    s.keys.Step (some id) (s.moveAwaitCache id k c).keys := by
  unfold moveAwaitCache
  split
  · rw [keys_goOn (by simp [h])]
    exact .retired (role_of_task h)
  · exact keys_sleep ▸ .quiet

theorem step_moveLease (h : s.task? id = some (.lease k)) (hv : s.keys.Valid) :
    s.keys.Step (some id) (s.moveLease id k).keys := by
  have leases := role_of_task h
  have stake : s.keys.stake id = some (k, .closing) := by
    simp [stake, stakeOf, leases, Task.role?]
  have closing : s.registry.slots.get? k = some .closing := hv.agree.slot_eq stake
  unfold moveLease
  rw [if_pos closing, keys_grant]
  exact .grant (.inr leases)

/-! ## Giving handles up -/

theorem reader_of_handle {r : CallId} {h : Reader} (hr : s.readers.get? r = some h) :
    s.keys.reader.get? r = some h.cache := by
  simp [keys, hr]

/-- Whatever reads from a cache is counted. -/
theorem refs_pos (hv : s.keys.Valid) {r : CallId} {h : Reader} (hr : s.readers.get? r = some h) :
    ∃ k n, s.keys.cache h.cache = some (k, n) ∧ s.refs h.cache = n ∧ 0 < n := by
  have reads := reader_of_handle hr
  obtain ⟨k, hk⟩ := hv.slot_of_reader reads
  obtain ⟨n, hn⟩ := hv.cache_of_slot hk
  have count : 0 < s.keys.reader.countP (· = h.cache) :=
    Table.countP_pos_iff.2 ⟨r, h.cache, reads, by simp⟩
  have := hv.refs_eq hn
  exact ⟨k, n, hn, refs_eq_of_cache hn, by omega⟩

/-- The lease of a writer is in the slot of its key. -/
theorem slot_of_writer (hv : s.keys.Valid) {w : CallId} {h : Writer}
    (hw : s.writers.get? w = some h) : s.registry.slots.get? h.key = some (.writer w) :=
  hv.agree.slot_eq (hv.stake_of_writer (by simp [keys, hw]))

theorem keys_eraseReader (r : CallId) :
    ({ s with readers := s.readers.erase r }).keys =
      { s.keys with reader := s.keys.reader.erase r } :=
  Keys.ext rfl rfl rfl (s.readers.map_erase r fun _ h => h.cache) rfl rfl rfl rfl

theorem keys_eraseWriter (w : CallId) :
    ({ s with writers := s.writers.erase w }).keys =
      { s.keys with writer := update s.keys.writer w none } := by
  refine Keys.ext rfl rfl rfl rfl ?_ rfl rfl rfl
  funext i
  by_cases hi : i = w <;> simp [keys, Table.get?_erase, hi]

theorem step_moveLeave {r : CallId} {p : Parting} (h : s.task? id = some (.leave r p))
    (hv : s.keys.Valid) : s.keys.Step (some id) (s.moveLeave id r p).keys := by
  have role := role_of_task h
  unfold moveLeave
  split
  · exact step_answer role _
  · next handle hr =>
    obtain ⟨k, n, hn, refs, pos⟩ := refs_pos hv hr
    have less : (({ s with readers := s.readers.erase r }).addRefs handle.cache (-1)).keys =
        { s.keys with
          cache := update s.keys.cache handle.cache (some (k, n - 1))
          reader := s.keys.reader.erase r } := by
      rw [keys_addRefs (k := k) (n := n) (by rw [keys_eraseReader]; exact hn), keys_eraseReader]
      rfl
    have same : update s.keys.role id none = s.keys.role := update_eq_self_iff.2 role.symm
    have task : (({ s with readers := s.readers.erase r }).addRefs handle.cache (-1)).task? id =
        some (.leave r p) := h
    dsimp only
    rw [if_neg (by omega)]
    split
    · rw [keys_goOn (by simp [task]), less]
      simp only [Task.role?, same]
      exact .leave (reader_of_handle hr) hn
    · rw [keys_depart (by simp [task]), less]
      simp only [same]
      exact .leave (reader_of_handle hr) hn

theorem step_moveGiveBack {w : CallId} {f : Option IoFailure} {p : Parting}
    (h : s.task? id = some (.giveBack w f p)) (hv : s.keys.Valid) :
    s.keys.Step (some id) (s.moveGiveBack id w f p).keys := by
  have role := role_of_task h
  unfold moveGiveBack
  split
  · exact step_answer role _
  · next handle hw =>
    have writes : s.keys.writer w = some handle.key := by simp [keys, hw]
    have same : update s.keys.role id none = s.keys.role := update_eq_self_iff.2 role.symm
    have task : ((({ s with writers := s.writers.erase w }).freeSlot handle.key).notifyKeys).task?
        id = some (.giveBack w f p) := (task?_wake ..).trans h
    dsimp only
    rw [if_pos (slot_of_writer hv hw), keys_depart (by simp [task]), keys_notifyKeys, keys_freeSlot,
      keys_eraseWriter]
    simp only [same]
    exact .giveBack writes

/-! ## Reading and loading -/

theorem keys_moveCursor {r : CallId} {h : Reader} (hr : s.readers.get? r = some h)
    (cursor : Cursor) :
    ({ s with readers := s.readers.set r { h with cursor := cursor } }).keys = s.keys := by
  rw [keys_setReader, Table.set_eq_self (reader_of_handle hr)]

theorem keys_moved {r : Reading} {h : Reader} (hr : s.readers.get? r.reader = some h)
    (o : ReadOutcome) : (s.moved r h o).keys = s.keys := by
  have cursor := keys_moveCursor hr (advanced r h o).cursor
  unfold moved
  dsimp only
  split
  · exact cursor
  · exact keys_touch.trans cursor

theorem task?_moved (r : Reading) (h : Reader) (o : ReadOutcome) (i : CallId) :
    (s.moved r h o).task? i = s.task? i := by
  rw [task?, calls_moved, task?]

theorem step_moveReading {r : Reading} (h : s.task? id = some (.read r)) :
    s.keys.Step (some id) (s.moveReading id r).keys := by
  have role := role_of_task h
  have move := s.readMove id r
  generalize s.moveReading id r = u at move ⊢
  cases move with
  | missing => exact step_answer role _
  | refused => exact step_answer role _
  | waits => exact keys_sleep ▸ .quiet
  | @goesOn handle o buf r' hr =>
    rw [← keys_moved hr o]
    exact step_goOn ((task?_moved ..).trans h) rfl
  | @ends handle o buf result hr =>
    rw [← keys_moved hr o]
    exact step_answer (by rwa [keys_moved hr o]) _

theorem step_moveStandIn {i : Nat} (h : s.task? id = some (.standIn k i)) :
    s.keys.Step (some id) (s.moveStandIn id k i).keys := by
  unfold moveStandIn
  split
  · rw [keys_abandon]
    exact .abandon (.inr (role_of_task h))
  · exact step_goOn h rfl

theorem step_moveLoad {l : Load} (h : s.task? id = some (.load l)) :
    s.keys.Step (some id) (s.moveLoad id l).keys := by
  have task : (s.advanceLoad l).2.task? id = some (.load l) := by rw [task?_advanceLoad, h]
  unfold moveLoad
  rw [← keys_advanceLoad l]
  rcases hm : (s.advanceLoad l) with ⟨m, s'⟩
  rw [hm] at task
  cases m with
  | goesOn p => exact step_goOn task rfl
  | ends => exact step_answer (role_of_task task) _
  | panics text => exact step_answer (role_of_task task) _

@[simp] theorem keys_moveWorker (n : PoolName) (i : Nat) : (s.moveWorker n i).keys = s.keys := by
  unfold moveWorker
  split
  · exact keys_setPool ..
  · exact keys_setPool ..
  · dsimp only
    rw [keys_setPool, keys_advanceLoad]
  · exact keys_setPool ..
  · exact keys_setPool ..
  · rw [keys_setPool]
    exact keys_modifySource fun _ => rfl
  all_goals rfl

@[simp] theorem keys_dropQueue (n : PoolName) : (s.dropQueue n).keys = s.keys := by
  simp only [dropQueue, keys_closeSources, keys_setPool]

/-! ## The end of the registry -/

@[simp] theorem keys_setEnding (e : Ending) : (s.setEnding e).keys = s.keys := rfl

/-- The end of the registry begins by freeing all keys. -/
theorem keys_endRegistry : s.endRegistry.keys =
    if s.registry.ending = .ahead then { s.keys with slot := fun _ => none } else s.keys := by
  unfold endRegistry
  split
  · next ahead =>
    rw [if_pos ahead]
    rfl
  · next h => rw [h, if_neg (by simp), keys_setEnding, keys_cancelStore]
  · next h => rw [h, if_neg (by simp), keys_setEnding, keys_dequeue]
  · next h => rw [h, if_neg (by simp), keys_setEnding, keys_setPool]
  · next h => rw [h, if_neg (by simp)]

theorem holdsRegistry_of_role {t : Task} {r : Role} (h : t.role? = some r) :
    t.holdsRegistry = true := by
  cases t <;> first | rfl | cases h

theorem hasHolder_eq_false_iff : s.hasHolder = false ↔
    s.held = false ∧ (∀ i, s.readers.get? i = none) ∧ (∀ i, s.writers.get? i = none) ∧
      ∀ i t, s.task? i = some t → t.holdsRegistry = false := by
  have calls : (s.calls.any fun c => c.task.holdsRegistry) = false ↔
      ∀ i t, s.task? i = some t → t.holdsRegistry = false := by
    rw [← Bool.not_eq_true, Table.any_iff]
    constructor
    · intro none i t ht
      obtain ⟨call, hc, rfl⟩ := Option.map_eq_some_iff.1 ht
      by_contra holds
      exact none ⟨i, call, hc, by simpa using holds⟩
    · rintro none ⟨i, call, hc, holds⟩
      cases (none i call.task (by simp [task?, hc])).symm.trans holds
  simp only [hasHolder, Bool.or_eq_false_iff, Bool.not_eq_false', Table.isEmpty_iff, calls,
    and_assoc]

theorem role_eq_none_of_unused (h : s.hasHolder = false) (i : CallId) : s.keys.role i = none := by
  obtain ⟨-, -, -, calls⟩ := hasHolder_eq_false_iff.1 h
  cases ht : s.task? i with
  | none => simp [keys, ht]
  | some t =>
    cases hr : t.role? with
    | none => simp [keys, ht, hr]
    | some r =>
      have := holdsRegistry_of_role hr
      rw [calls i t ht] at this
      cases this

theorem unused_of_canMove (can : s.canMove .registry = true) (ahead : s.registry.ending = .ahead) :
    s.hasHolder = false := by
  simpa [canMove, ahead] using can

theorem step_endRegistry (can : s.canMove .registry = true) :
    s.keys.Step none s.endRegistry.keys := by
  rw [keys_endRegistry]
  split
  · next ahead =>
    have unused := unused_of_canMove can ahead
    obtain ⟨held, readers, writers, -⟩ := hasHolder_eq_false_iff.1 unused
    refine .finish held ?_ ?_ (role_eq_none_of_unused unused)
    · intro i
      simp [keys, readers]
    · intro i
      simp [keys, writers]
  · exact .quiet

/-! ## All moves -/

theorem step_moveTask {t : Task} (h : s.task? id = some t) (hv : s.keys.Valid)
    (source : ∀ k mode, t = .seekReader k mode → s.sources.contains id = true)
    (completed : ∀ x r, t = .expire x r → s.Completed x) :
    s.keys.Step (some id) (s.moveTask id t).keys := by
  have role := role_of_task h
  cases t with
  | seekReader key mode => exact step_moveSeekReader h hv (source key mode rfl)
  | makeSource key mode => exact step_moveMakeSource h
  | fill key l => exact step_moveFill h
  | standIn key i => exact step_moveStandIn h
  | register key => exact step_moveRegister h hv
  | seekWriter key => exact step_moveSeekWriter h hv
  | cancelCache key cache =>
    have task : (s.cancelStore (.cache cache)).task? id = some (.cancelCache key cache) := h
    rw [← keys_cancelStore (s := s) (.cache cache)]
    exact step_goOn task rfl
  | dequeueCache key cache =>
    have task : (s.dequeue .registry (.cache cache)).task? id = some (.dequeueCache key cache) := by
      rw [task?_dequeue, h]
    rw [← keys_dequeue (s := s) .registry (.cache cache)]
    exact step_goOn task rfl
  | awaitCache key cache => exact step_moveAwaitCache h
  | lease key => exact step_moveLease h hv
  | read r => exact step_moveReading h
  | leave reader parting => exact step_moveLeave h hv
  | announce reader parting =>
    have task : s.notifyKeys.task? id = some (.announce reader parting) := (task?_wake ..).trans h
    have same : update s.keys.role id none = s.keys.role := update_eq_self_iff.2 role.symm
    simp only [moveTask, moveAnnounce]
    rw [keys_depart (by simp [task]), keys_notifyKeys, same]
    exact .quiet
  | closeSink writer parting =>
    simp only [moveTask, moveCloseSink, takeSink]
    exact step_goOn (s := { s with sinks := _ }) h rfl
  | giveBack writer flush parting => exact step_moveGiveBack h hv
  | expire x r =>
    simp only [moveTask]
    rw [moveExpire_eq (completed x r rfl)]
    exact step_answer role _
  | readStore store r =>
    simp only [moveTask, moveReadStore]
    split
    · exact step_answer role _
    · exact keys_sleep ▸ .quiet
    · exact step_answer role _
  | awaitStore store =>
    simp only [moveTask, moveAwaitStore]
    split
    · exact step_answer role _
    · exact keys_sleep ▸ .quiet
  | makeLoad job =>
    simp only [moveTask, moveMakeLoad]
    split
    · exact step_goOn h rfl
    · exact step_answer role _
    · exact step_answer role _
  | load l => exact step_moveLoad h
  | assist i =>
    simp only [moveTask, moveAssist]
    split <;> exact step_answer role _

theorem move_of_task {x : Task} (ht : s.task? id = some x) :
    s.move (.call id) = s.moveTask id x := by
  obtain ⟨call, hc, rfl⟩ := Option.map_eq_some_iff.1 ht
  simp [move, hc]

/-- Every move is a step of the keys. -/
theorem step_move {a : Actor} (hv : s.keys.Valid) (can : s.canMove a = true)
    (source : ∀ id k mode, s.task? id = some (.seekReader k mode) → s.sources.contains id = true)
    (completed : ∀ id x r, s.task? id = some (.expire x r) → s.Completed x) :
    s.keys.Step a.caller (s.move a).keys := by
  cases a with
  | call id =>
    simp only [move]
    split
    · next c hc =>
      have h : s.task? id = some c.task := by simp [task?, hc]
      exact step_moveTask h hv (fun k mode ht => source id k mode (by rw [h, ht]))
        fun x r ht => completed id x r (by rw [h, ht])
    · exact .quiet
  | worker n i =>
    simp only [move, keys_moveWorker]
    exact .quiet
  | pool n =>
    simp only [move, keys_dropQueue]
    exact .quiet
  | registry =>
    exact step_endRegistry can

end SharedStream.Session
