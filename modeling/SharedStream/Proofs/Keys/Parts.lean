import SharedStream.Proofs.Keys

/-! # Keys under the operations of a session

One equation for each operation of which the moves of a session consist: what it does to the keys.
-/
namespace SharedStream.Session
open Function

variable {s : Session} {id c : CallId} {k : Key}

/-! ## Tasks -/

theorem task?_call (t : Task) (i : CallId) :
    (s.call id t).task? i = if i = id then some t else s.task? i := by
  by_cases h : i = id <;> simp [task?, call, Table.get?_set, h]

theorem task?_goOn (h : (s.task? id).isSome) (t : Task) (i : CallId) :
    (s.goOn id t).task? i = if i = id then some t else s.task? i := by
  simp only [task?, Option.isSome_map, goOn, Table.get?_modify] at h ⊢
  by_cases hi : i = id
  · subst hi
    obtain ⟨c, hc⟩ := Option.isSome_iff_exists.1 h
    simp [hc]
  · simp [hi]

@[simp] theorem task?_sleep (i : CallId) : (s.sleep id).task? i = s.task? i := by
  by_cases h : i = id <;> simp [task?, sleep, Table.get?_modify, h, Function.comp_def]

theorem task?_answer (r : Result) (i : CallId) :
    (s.answer id r).task? i = if i = id then none else s.task? i := by
  by_cases h : i = id <;> simp [task?, answer, Table.get?_erase, h]

@[simp] theorem task?_wake (p : Task → Bool) (i : CallId) : (s.wake p).task? i = s.task? i := by
  cases h : s.calls.get? i with
  | none => simp [task?, wake, h]
  | some c =>
    simp only [task?, wake, Table.get?_map, h, Option.map_some]
    split <;> rfl

/-! ## Calls -/

theorem keys_role_eq {s t : Session} (h : ∀ i, t.task? i = s.task? i) :
    t.keys.role = s.keys.role := by
  funext i
  simp only [keys, h]

theorem keys_role_update {s t : Session} {x : Option Task}
    (h : ∀ i, t.task? i = if i = id then x else s.task? i) :
    t.keys.role = update s.keys.role id (x.bind Task.role?) := by
  funext i
  by_cases hi : i = id <;> simp [keys, h, update_apply, hi]

theorem keys_call (t : Task) :
    (s.call id t).keys = { s.keys with role := update s.keys.role id t.role? } :=
  Keys.ext rfl rfl rfl rfl rfl (keys_role_update (task?_call t)) rfl rfl

theorem keys_goOn (h : (s.task? id).isSome) (t : Task) :
    (s.goOn id t).keys = { s.keys with role := update s.keys.role id t.role? } :=
  Keys.ext rfl rfl rfl rfl rfl (keys_role_update (task?_goOn h t)) rfl rfl

@[simp] theorem keys_sleep : (s.sleep id).keys = s.keys :=
  Keys.ext rfl rfl rfl rfl rfl (keys_role_eq task?_sleep) rfl rfl

theorem keys_answer (r : Result) :
    (s.answer id r).keys = { s.keys with role := update s.keys.role id none } :=
  Keys.ext rfl rfl rfl rfl rfl (keys_role_update (task?_answer r)) rfl rfl

@[simp] theorem keys_wake (p : Task → Bool) : (s.wake p).keys = s.keys :=
  Keys.ext rfl rfl rfl rfl rfl (keys_role_eq (task?_wake p)) rfl rfl

@[simp] theorem keys_notifyKeys : s.notifyKeys.keys = s.keys := keys_wake _

@[simp] theorem keys_notifyStore (x : StoreId) : (s.notifyStore x).keys = s.keys := keys_wake _

/-! ## Slots and pools -/

theorem keys_setSlot (x : Slot) :
    (s.setSlot k x).keys = { s.keys with slot := update s.keys.slot k (some x) } := by
  refine Keys.ext rfl ?_ rfl rfl rfl rfl rfl rfl
  funext k'
  simp [keys, setSlot, Registry.setSlot, Table.get?_set, update_apply]

theorem keys_freeSlot :
    (s.freeSlot k).keys = { s.keys with slot := update s.keys.slot k none } := by
  refine Keys.ext rfl ?_ rfl rfl rfl rfl rfl rfl
  funext k'
  simp [keys, freeSlot, Registry.freeSlot, Table.get?_erase, update_apply]

@[simp] theorem keys_setPool (n : PoolName) (p : Pool) : (s.setPool n p).keys = s.keys := by
  cases n <;> rfl

/-! ## Sources and stores -/

theorem built_modifySource (f : Source → Source) (i : CallId) :
    ((s.modifySource id f).source i).built =
      if i = id ∧ s.sources.contains id then (f (s.source id)).built else (s.source i).built := by
  by_cases hi : i = id
  · subst hi
    cases h : s.sources.get? i <;>
      simp [source, modifySource, Table.contains, Table.get?_modify, h]
  · simp [source, modifySource, Table.get?_modify, hi]

@[simp] theorem keys_modifySource {f : Source → Source} (h : ∀ x, (f x).built = x.built) :
    (s.modifySource id f).keys = s.keys := by
  refine Keys.ext rfl rfl rfl rfl rfl rfl ?_ rfl
  funext i
  simp only [keys, built_modifySource, h]
  split
  · next hi => rw [hi.1]
  · rfl

theorem keys_build (h : s.sources.contains id) :
    (s.modifySource id Source.build).keys =
      { s.keys with built := update s.keys.built id true } := by
  refine Keys.ext rfl rfl rfl rfl rfl rfl ?_ rfl
  funext i
  by_cases hi : i = id <;> simp [keys, built_modifySource, h, hi, Source.build]

@[simp] theorem keys_finishStore (x : StoreId) : (s.finishStore x).keys = s.keys := by
  simp only [finishStore, keys_notifyStore]
  rfl

@[simp] theorem keys_cancelStore (x : StoreId) : (s.cancelStore x).keys = s.keys := rfl

@[simp] theorem keys_appendTo (x : StoreId) (data : ByteArray) :
    (s.appendTo x data).keys = s.keys := by
  unfold appendTo
  split
  · simp only [keys_notifyStore]
    rfl
  · rfl

@[simp] theorem keys_changeStore (x : StoreId) (change : StoreChange) :
    (s.changeStore x change).keys = s.keys := by
  cases change <;> simp [changeStore]

theorem keys_closeSources (jobs : List Job) :
    (jobs.foldl (fun s job => s.modifySource job.source Source.close) s).keys = s.keys := by
  induction jobs generalizing s with
  | nil => rfl
  | cons j jobs ih =>
    rw [List.foldl_cons, ih]
    exact keys_modifySource fun _ => rfl

@[simp] theorem keys_dequeue (n : PoolName) (x : StoreId) : (s.dequeue n x).keys = s.keys := by
  unfold dequeue
  split
  · rfl
  · rw [keys_finishStore, keys_closeSources, keys_setPool]

@[simp] theorem keys_dropSink : (s.dropSink id).keys = s.keys := rfl

/-! ## Caches and handles -/

@[simp] theorem keys_touch : (s.touch c).keys = s.keys := by
  refine Keys.ext rfl rfl ?_ rfl rfl rfl rfl rfl
  funext i
  by_cases hi : i = c <;>
    simp [keys, touch, Table.get?_modify, hi, Option.map_map, Function.comp_def]

theorem keys_addRefs {n : Int} (h : s.keys.cache c = some (k, n)) (m : Int) :
    (s.addRefs c m).keys = { s.keys with cache := update s.keys.cache c (some (k, n + m)) } := by
  refine Keys.ext rfl rfl ?_ rfl rfl rfl rfl rfl
  funext i
  by_cases hi : i = c
  · subst hi
    obtain ⟨x, hx, hkn⟩ := Option.map_eq_some_iff.1 h
    cases hkn
    simp [keys, addRefs, Table.get?_modify, hx]
  · simp [keys, addRefs, Table.get?_modify, hi]

theorem keys_setReader (h : Reader) :
    ({ s with readers := s.readers.set id h }).keys =
      { s.keys with reader := s.keys.reader.set id h.cache } :=
  Keys.ext rfl rfl rfl (s.readers.map_set id h fun _ h => h.cache) rfl rfl rfl rfl

theorem keys_setWriter (w : Writer) :
    ({ s with writers := s.writers.set id w }).keys =
      { s.keys with writer := update s.keys.writer id (some w.key) } := by
  refine Keys.ext rfl rfl rfl rfl ?_ rfl rfl rfl
  funext i
  by_cases hi : i = id <;> simp [keys, Table.get?_set, hi]

theorem keys_attach {n : Int} (h : s.keys.cache c = some (k, n)) :
    (s.attach id c).keys = { s.keys with
      cache := update s.keys.cache c (some (k, n + 1))
      reader := s.keys.reader.set id c
      role := update s.keys.role id none } := by
  simp only [attach, keys_answer, keys_setReader, keys_touch, keys_addRefs h]

theorem keys_newCache (mode : LoadMode) :
    (s.newCache id k mode).keys =
      { s.keys with cache := update s.keys.cache id (some (k, 0)) } := by
  refine Keys.ext rfl rfl ?_ rfl rfl rfl rfl rfl
  funext i
  by_cases hi : i = id <;> simp [keys, newCache, Table.get?_set, hi]

theorem keys_abandon (r : Result) :
    (s.abandon id k r).keys =
      { s.keys with slot := update s.keys.slot k none, role := update s.keys.role id none } := by
  simp only [abandon, keys_answer, keys_notifyKeys, keys_freeSlot]

theorem keys_refuse (e : CacheError) :
    (s.refuse id e).keys = { s.keys with role := update s.keys.role id none } := by
  simp only [refuse, keys_answer, keys_dropSink]

theorem keys_depart (h : (s.task? id).isSome) (x : ClosedHandle) (r : Result) (p : Parting) :
    (s.depart id x r p).keys = { s.keys with role := update s.keys.role id none } := by
  cases p with
  | close => exact keys_goOn h _
  | drop => exact keys_answer r

/-- The close of the handle has left nothing for its drop to do. -/
def Completed (s : Session) : ClosedHandle → Prop
  | .reader _ released => released = true
  | .writer w _ => s.isOpen w = false

theorem settleHandle_eq {x : ClosedHandle} (h : s.Completed x) : s.settleHandle x = s := by
  cases x with
  | reader cache released =>
    have released : released = true := h
    simp [settleHandle, released]
  | writer w key =>
    have taken : s.isOpen w = false := h
    simp [settleHandle, taken]

/-- Then the drop only ends its call. -/
theorem moveExpire_eq {x : ClosedHandle} (h : s.Completed x) (r : Result) :
    s.moveExpire id x r = s.answer id r := by
  rw [moveExpire, settleHandle_eq h]

theorem keys_grant :
    (s.grant id k).keys = { s.keys with
      slot := update s.keys.slot k (some (.writer id))
      writer := update s.keys.writer id (some k)
      role := update s.keys.role id none } := by
  simp only [grant, keys_answer, keys_setWriter, keys_notifyKeys, keys_setSlot]

end SharedStream.Session
