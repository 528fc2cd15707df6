import Mathlib.Algebra.Order.Ring.Nat
import SharedStream.Proofs.Pools.Sources
import SharedStream.Proofs.StoreActs

/-! # What a store keeps

A store keeps the bytes of the appends that it took, in their order and without gaps. What it has
stays, whatever happens to it later, and once it is finished or cancelled it takes nothing more.
-/
namespace SharedStream

/-! ## Chunks side by side -/

namespace Laid
variable {start stop : Nat} {cs : List Chunk}

theorem next (h : Laid start cs stop) {i : Nat} {c d : Chunk} (hc : cs[i]? = some c)
    (hd : cs[i + 1]? = some d) : d.start = c.stop := by
  induction cs generalizing start i with
  | nil => cases hc
  | cons e cs ih =>
    cases i with
    | zero =>
      cases hc
      exact h.2.2.first hd
    | succ i => exact ih h.2.2 hc hd

theorem last (h : Laid start cs stop) : stop = (cs.getLast?.map Chunk.stop).getD start := by
  induction cs generalizing start with
  | nil => exact Eq.symm h
  | cons c cs ih =>
    rw [ih h.2.2]
    cases cs with
    | nil => rfl
    | cons d cs =>
      rw [List.getLast?_cons_cons, List.getLast?_cons]
      rfl

theorem sum (h : Laid start cs stop) : stop = start + (cs.map fun c => c.data.size).sum := by
  induction cs generalizing start with
  | nil => exact Eq.symm h
  | cons c cs ih =>
    obtain ⟨rfl, -, rest⟩ := h
    rw [ih rest, List.map_cons, List.sum_cons, Chunk.stop, Nat.add_assoc]

end Laid

namespace Store

variable {y z : Store} {acts : List StoreAct} {data : ByteArray}

/-! ## One store after another -/

/-- The store has all that the other one had, and nothing more if that one had stopped. -/
structure Extends (y z : Store) : Prop where
  chunks : y.chunks.toList <+: z.chunks.toList
  finished : y.finished = true → z.finished = true
  canceled : y.canceled = true → z.canceled = true
  stopped : y.isOpen = false → z.chunks = y.chunks ∧ z.loadedLen = y.loadedLen

namespace Extends

theorem refl (y : Store) : y.Extends y := ⟨List.prefix_rfl, id, id, fun _ => ⟨rfl, rfl⟩⟩

/-- A store that has stopped has done so for good. -/
theorem isOpen (h : y.Extends z) (stopped : y.isOpen = false) : z.isOpen = false := by
  simp only [Store.isOpen, Bool.not_eq_false', Bool.or_eq_true] at stopped ⊢
  exact stopped.imp h.finished h.canceled

theorem trans {w : Store} (h : y.Extends z) (h' : z.Extends w) : y.Extends w where
  chunks := h.chunks.trans h'.chunks
  finished := h'.finished ∘ h.finished
  canceled := h'.canceled ∘ h.canceled
  stopped closed := by
    obtain ⟨chunks, len⟩ := h.stopped closed
    obtain ⟨chunks', len'⟩ := h'.stopped (h.isOpen closed)
    exact ⟨chunks'.trans chunks, len'.trans len⟩

theorem bytes (h : y.Extends z) : octets y.bytes <+: octets z.bytes := by
  obtain ⟨more, more_eq⟩ := h.chunks
  rw [octets_bytes, octets_bytes, ← more_eq, List.flatMap_append]
  exact List.prefix_append ..

end Extends

theorem extends_append (y : Store) (data : ByteArray) : y.Extends (y.append data) := by
  unfold append
  split
  · next taken =>
    refine ⟨?_, id, id, fun closed => ?_⟩
    · rw [Array.toList_push]
      exact List.prefix_append ..
    · rw [taken.2] at closed
      cases closed
  · exact .refl y

theorem extends_act (y : Store) (a : StoreAct) : y.Extends (y.act a) := by
  cases a with
  | append data => exact y.extends_append data
  | finish => exact ⟨List.prefix_rfl, fun _ => rfl, id, fun _ => ⟨rfl, rfl⟩⟩
  | cancel => exact ⟨List.prefix_rfl, id, fun _ => rfl, fun _ => ⟨rfl, rfl⟩⟩

theorem extends_following (y : Store) (acts : List StoreAct) : y.Extends (y.following acts) := by
  induction acts generalizing y with
  | nil => exact .refl y
  | cons a acts ih => exact (y.extends_act a).trans (ih (y.act a))

/-! ## Appends that are taken -/

theorem accepts_iff (some : data.size ≠ 0) :
    y.accepts data = true ↔ y.finished = false ∧ y.canceled = false := by
  simp [accepts, isOpen, some]

/-- An append that the store turns down leaves it as it is. -/
theorem append_of_refused (refused : y.accepts data = false) : y.append data = y := by
  simp only [accepts, Bool.or_eq_false_iff] at refused
  exact append_of_not_isOpen refused.2 data

theorem append_of_empty (none : data.size = 0) : y.append data = y :=
  if_neg fun taken => taken.1 none

/-- The bytes of the appends that the store takes. Appends of no bytes leave nothing. -/
def accepted (y : Store) : List StoreAct → List ByteArray
  | [] => []
  | .append data :: acts =>
    if data.size ≠ 0 ∧ y.accepts data = true then data :: (y.append data).accepted acts
    else (y.append data).accepted acts
  | .finish :: acts => y.finish.accepted acts
  | .cancel :: acts => y.cancel.accepted acts

/-- The chunks of a store are the appends that it took. -/
theorem data_chunks_following (y : Store) (acts : List StoreAct) :
    (y.following acts).chunks.toList.map Chunk.data =
      y.chunks.toList.map Chunk.data ++ y.accepted acts := by
  induction acts generalizing y with
  | nil => exact (List.append_nil _).symm
  | cons a acts ih =>
    rw [following_cons, ih]
    cases a with
    | append data =>
      rw [accepted, act]
      split
      · next taken =>
        have opened : y.isOpen = true := by simpa [accepts, taken.1] using taken.2
        have grown : (y.append data).chunks = y.chunks.push ⟨y.loadedLen, data⟩ := by
          rw [append, if_pos ⟨taken.1, opened⟩]
        rw [grown, Array.toList_push, List.map_append, List.append_assoc]
        rfl
      · next refused =>
        have kept : y.append data = y := by
          by_cases none : data.size = 0
          · exact append_of_empty none
          · exact append_of_refused (by simpa [none] using refused)
        rw [kept]
    | finish | cancel => rfl

/-! ## Stores and their histories -/

/-- The chunks of the store are the bytes that it took in its history, side by side. -/
structure Coherent (y : Store) (acts : List StoreAct) : Prop where
  nonempty : ∀ c ∈ y.chunks, c.data.size ≠ 0
  first : ∀ c, y.chunks[0]? = some c → c.start = 0
  next : ∀ i c d, y.chunks[i]? = some c → y.chunks[i + 1]? = some d → d.start = c.stop
  last : y.loadedLen = (y.chunks.back?.map Chunk.stop).getD 0
  sum : y.loadedLen = (y.chunks.toList.map fun c => c.data.size).sum
  chunks : y.chunks.toList.map Chunk.data = ({} : Store).accepted acts
  bytes : octets y.bytes = (({} : Store).accepted acts).flatMap octets

/-- Whatever happens to a store, in whatever order, it keeps just what it took. -/
theorem coherent_following (acts : List StoreAct) :
    (({} : Store).following acts).Coherent acts := by
  have laid : Laid 0 (({} : Store).following acts).chunks.toList _ := gapless_following acts
  have taken := data_chunks_following {} acts
  refine ⟨fun c hc => laid.nonempty (Array.mem_def.1 hc),
    fun c hc => laid.first (by simpa using hc),
    fun i c d hc hd => laid.next (by simpa using hc) (by simpa using hd), ?_, ?_, taken, ?_⟩
  · simpa using laid.last
  · simpa using laid.sum
  · rw [octets_bytes, ← List.nil_append (accepted _ _)]
    have empty : ([] : List ByteArray) = ({} : Store).chunks.toList.map Chunk.data := rfl
    rw [empty, ← taken, List.flatMap_map]

end Store

namespace Session
variable {s : Session} {x : StoreId} {e : Event} {l : Load} {id y : CallId} {data : ByteArray}

/-! ## Appends in a run -/

theorem length_removalActs_le {n : PoolName} : (s.removalActs n x).length ≤ 1 := by
  unfold removalActs
  split <;> simp

theorem length_loadActs_le : (s.loadActs x l).length ≤ 1 := by
  unfold loadActs
  split
  · split
    · split
      · split <;> simp
      all_goals simp
    all_goals simp
  · simp

theorem length_opStoreActs_le {op : Op} : (s.opStoreActs x op).length ≤ 1 := by
  cases op with
  | append | finish | cancel =>
    simp only [opStoreActs]
    split <;> simp
  | dequeue =>
    simp only [opStoreActs]
    split
    · split
      · simp
      · exact length_removalActs_le
    · simp
  | _ => simp [opStoreActs]

theorem length_taskStoreActs_le {a : Task} : (s.taskStoreActs x a).length ≤ 1 := by
  cases a with
  | fill | load => exact length_loadActs_le
  | cancelCache =>
    simp only [taskStoreActs]
    split <;> simp
  | dequeueCache =>
    simp only [taskStoreActs]
    split
    · exact length_removalActs_le
    · simp
  | _ => simp [taskStoreActs]

theorem length_stopActs_le : (s.stopActs x).length ≤ 1 := by
  unfold stopActs
  split
  · split <;> simp
  · split
    · exact length_removalActs_le
    · simp
  · simp
  · simp
  · simp

/-- No event does more than one thing to a store. -/
theorem length_storeActs_le : (s.storeActs x e).length ≤ 1 := by
  unfold storeActs
  split
  · split
    · exact length_opStoreActs_le
    · split
      · exact length_taskStoreActs_le
      · simp
    · split
      · exact length_loadActs_le
      · simp
    · simp
    · exact length_stopActs_le
  · simp

/-- An append is all that happens to its store in an event. -/
theorem storeActs_of_append (h : .append data ∈ s.storeActs x e) :
    s.storeActs x e = [.append data] := by
  have le := length_storeActs_le (s := s) (x := x) (e := e)
  cases all : s.storeActs x e with
  | nil => simp [all] at h
  | cons a rest =>
    rw [all] at h le
    have none : rest = [] := by simpa using le
    subst none
    rw [List.mem_singleton.1 h]

/-- A caller who appends is told whether the store took the bytes. -/
theorem begin_append (present : s.stores.contains (.separate y) = true) :
    s.storeActs (.separate y) (.begin id (.append y data)) = [.append data] ∧
      (s.begin id (.append y data)).results.get? id =
        some (.flag ((s.store (.separate y)).accepts data)) := by
  constructor
  · rw [storeActs, if_pos present]
    exact if_pos rfl
  · have here : ({ s with clock := id + 1 } : Session).stores.contains (.separate y) = true :=
      present
    simp only [begin, enter, withStore, here, if_true, answer, Table.get?_set_self]
    rfl

/-- A load offers what its source gives, and goes on only if the store takes it. -/
theorem nextStep_of_bytes (reading : l.phase = .reading)
    (answer : (s.source l.job.source).answer.1 = .bytes data) (some : data.size ≠ 0) :
    s.loadActs l.job.store l = [.append data] ∧ (s.nextStep l).move =
      .goesOn (if (s.store l.job.store).accepts data then .checking else .closing) := by
  constructor
  · simp [loadActs, reading, answer, some]
  · have split : (s.source l.job.source).answer =
        (.bytes data, (s.source l.job.source).answer.2) := by rw [← answer]
    rw [nextStep, reading, LoadPhase.step, split, LoadPhase.afterRead]
    cases opened : (s.store l.job.store).isOpen with
    | true => simp [Store.accepts, some, opened]
    | false => simp [Store.accepts, some, opened]

end Session

namespace Run
open Session

variable {config : CacheConfig} {workers : Nat} (r : Run (start config workers))
variable {x : StoreId} {m n : Nat}

theorem store_extends (x : StoreId) (le : m ≤ n) :
    ((r.state m).store x).Extends ((r.state n).store x) := by
  obtain ⟨later, -, store_eq⟩ := r.acts_onward x le
  rw [store_eq]
  exact Store.extends_following _ later

/-- The store is the record of what it took, and nothing is ever taken out of it. -/
structure Recorded (x : StoreId) : Prop where
  /-- Whatever happens to the store comes from an event, and nothing else changes it. -/
  history : ∀ n, (r.state n).store x = ({} : Store).following (r.acts x n)
  coherent : ∀ n, ((r.state n).store x).Coherent (r.acts x n)
  /-- A caller appends: he is told whether the store took his bytes. -/
  told : ∀ n id y data, r.event n = .begin id (.append y data) → x = .separate y →
    (r.state n).stores.contains x = true →
    (r.state n).storeActs x (r.event n) = [.append data] ∧
      (r.state (n + 1)).results.get? id = some (.flag (((r.state n).store x).accepts data))
  /-- A load appends: it goes on as long as the store takes what its source gives. -/
  offered : ∀ n l data, (r.state n).movesLoad? (r.event n) = some l → l.job.store = x →
    (r.state n).stores.contains x = true → l.phase = .reading →
    ((r.state n).source l.job.source).answer.1 = .bytes data → data.size ≠ 0 →
    (r.state n).storeActs x (r.event n) = [.append data] ∧ ((r.state n).nextStep l).move =
      .goesOn (if ((r.state n).store x).accepts data then .checking else .closing)
  taken : ∀ n data, .append data ∈ (r.state n).storeActs x (r.event n) → data.size ≠ 0 →
    (((r.state n).store x).accepts data = true ↔
      ((r.state n).store x).finished = false ∧ ((r.state n).store x).canceled = false)
  refused : ∀ n data, .append data ∈ (r.state n).storeActs x (r.event n) →
    ((r.state n).store x).accepts data = false → (r.state (n + 1)).store x = (r.state n).store x
  empty : ∀ n data, .append data ∈ (r.state n).storeActs x (r.event n) → data.size = 0 →
    ((r.state n).store x).accepts data = true ∧ (r.state (n + 1)).store x = (r.state n).store x
  kept : ∀ m n, m ≤ n → ((r.state m).store x).Extends ((r.state n).store x)
  bytes : ∀ m n, m ≤ n →
    octets ((r.state m).store x).bytes <+: octets ((r.state n).store x).bytes

/-- After an append its store is as the append leaves it. -/
theorem store_of_append {data : ByteArray}
    (appends : .append data ∈ (r.state n).storeActs x (r.event n)) :
    (r.state (n + 1)).store x = ((r.state n).store x).append data := by
  rw [r.store_succ, storeActs_of_append appends]
  rfl

theorem storeActs_of_load {l : Load} (moves : (r.state n).movesLoad? (r.event n) = some l)
    (present : (r.state n).stores.contains x = true) :
    (r.state n).storeActs x (r.event n) = (r.state n).loadActs x l := by
  rcases movesLoad?_cases moves with ⟨id, a, event, ht, load⟩ | ⟨p, i, o, event, busy⟩
  · rw [event, storeActs, if_pos present, ht]
    cases a with
    | fill | load =>
      cases load
      rfl
    | _ => cases load
  · rw [event] at moves
    rw [event, storeActs, if_pos present,
      show (r.state n).loadOf? (.worker p i) = some l from moves]

theorem recorded (x : StoreId) : r.Recorded x where
  history n := r.store_eq x n
  coherent n := by
    rw [r.store_eq]
    exact Store.coherent_following _
  told n id y data event own present := by
    subst own
    rw [r.state_succ, event]
    exact begin_append present
  offered n l data moves own present reading answer some := by
    subst own
    rw [r.storeActs_of_load moves present]
    exact nextStep_of_bytes reading answer some
  taken n data _ some := Store.accepts_iff some
  refused n data appends refused := by
    rw [r.store_of_append appends]
    exact Store.append_of_refused refused
  empty n data appends none := by
    rw [r.store_of_append appends]
    exact ⟨by simp [Store.accepts, none], Store.append_of_empty none⟩
  kept m n le := r.store_extends x le
  bytes m n le := (r.store_extends x le).bytes

end Run
end SharedStream
