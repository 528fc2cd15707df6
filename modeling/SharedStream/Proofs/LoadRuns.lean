import Mathlib.Logic.Relation
import SharedStream.Proofs.Scripts
import SharedStream.Proofs.StoreReads
import SharedStream.Proofs.Turns

/-! # A load from its start to its end

A load that has its store to itself reads its source to the end of its script, chunk by chunk. What
it has taken is the bytes of the script, whatever the chunks and the reads were.
-/
namespace SharedStream

/-- A load on its way, with its source and its store. -/
structure Loading where
  state : LoadMove := .goesOn .allocating
  source : Source
  store : Store := {}
  /-- How much each read has asked for, and what it was answered. -/
  reads : List (Nat × SourceAnswer) := []

/-- What a read adds to a store that wants more. -/
def SourceAnswer.chunk? : SourceAnswer → Option ByteArray
  | .bytes data => if data.size = 0 then none else some data
  | .failed _ | .panicked _ => none

namespace Loading

/-- The load of a source that nobody has read, into a fresh store. -/
def start (p : SourcePlan) : Loading := { source := p.source.build }

def canMove (l : Loading) : Bool :=
  match l.state with
  | .goesOn p => p.canMove l.source
  | .ends | .panics _ => false

def move (c : Nat) (l : Loading) : Loading :=
  match l.state with
  | .goesOn p =>
    let m := p.step c l.source l.store
    { state := m.move
      source := m.source
      store := l.store.change m.change
      reads := if p = .reading then l.reads ++ [(l.source.request, l.source.answer.1)]
        else l.reads }
  | .ends | .panics _ => l

/-- A whole read: the load looks whether it is to go on, begins the read, and gets its answer. -/
def round (c : Nat) (l : Loading) : Loading := ((l.move c).move c).move c

/-- The load comes from the one to the other without waiting for anything. -/
def Leads (c : Nat) : Loading → Loading → Prop :=
  Relation.ReflTransGen fun l l' => l.canMove = true ∧ l' = l.move c

variable {p : SourcePlan} {c : Nat} {l l' l'' : Loading}

theorem Leads.head (can : l.canMove = true) (h : Leads c (l.move c) l') : Leads c l l' :=
  Relation.ReflTransGen.head ⟨can, rfl⟩ h

theorem exists_of_canMove (can : l.canMove = true) :
    ∃ p, l.state = .goesOn p ∧ p.canMove l.source = true := by
  rw [canMove] at can
  cases state : l.state with
  | goesOn p =>
    rw [state] at can
    exact ⟨p, rfl, can⟩
  | ends =>
    rw [state] at can
    cases can
  | panics text =>
    rw [state] at can
    cases can

theorem Leads.eq_of_stuck (h : Leads c l l') (stuck : l.canMove = false) : l' = l := by
  rcases Relation.ReflTransGen.cases_head h with rfl | ⟨_, ⟨can, -⟩, -⟩
  · rfl
  · rw [stuck] at can
    cases can

/-- There is one way to go: it leads from wherever the load has come to. -/
theorem Leads.of_stuck (h : Leads c l l') (h' : Leads c l l'') (stuck : l''.canMove = false) :
    Leads c l' l'' := by
  induction h with
  | refl => exact h'
  | tail _ step ih =>
    obtain ⟨can, rfl⟩ := step
    rcases Relation.ReflTransGen.cases_head ih with rfl | ⟨_, ⟨-, rfl⟩, rest⟩
    · rw [stuck] at can
      cases can
    · exact rest

/-- A read gives as much as it is asked for, as long as there is so much. -/
def Full (c : Nat) (l : Loading) : Prop :=
  ∀ data, l.state = .goesOn .reading → l.source.answer.1 = .bytes data →
    data.size = min c (scriptBytes l.source.rest).length

end Loading

/-- Reads of the source give something as long as there is something to give, and do not wait for
ever. -/
structure SourcePlan.Definite (p : SourcePlan) : Prop where
  calm : ∀ i ∈ p.script, i.Calm
  concludes : p.gated = true → ∃ i ∈ p.script, i.stops = true

/-- Each read of the source fills the request as far as its bytes go. -/
def SourcePlan.Fills (p : SourcePlan) (c : Nat) : Prop :=
  ∀ l, Loading.Leads c (.start p) l → l.Full c

/-! ## Chunks of one size -/

/-- All are of the size, but for the last one if nothing is left after it. -/
def Even (c : Nat) (sizes : List Nat) (left : Nat) : Prop :=
  (∃ k, sizes = List.replicate k c) ∨
    left = 0 ∧ ∃ k r, sizes = List.replicate k c ++ [r] ∧ 1 ≤ r ∧ r ≤ c

theorem Even.snoc {c left : Nat} {sizes : List Nat} (h : Even c sizes left) (more : left ≠ 0) :
    Even c (sizes ++ [min c left]) (left - min c left) := by
  rcases h with ⟨k, rfl⟩ | ⟨none, -⟩
  · by_cases full : c ≤ left
    · refine .inl ⟨k + 1, ?_⟩
      rw [Nat.min_eq_left full, List.replicate_succ']
    · exact .inr ⟨by omega, k, min c left, rfl, by omega, by omega⟩
  · exact absurd none more

/-- There are as many as it takes. -/
theorem Even.length_eq {c : Nat} {sizes : List Nat} (h : Even c sizes 0) (pos : 1 ≤ c) :
    sizes.length = (sizes.sum + c - 1) / c := by
  symm
  rcases h with ⟨k, rfl⟩ | ⟨-, k, r, rfl, some, le⟩
  · rw [List.length_replicate, List.sum_replicate_nat]
    exact Nat.div_eq_of_lt_le (by omega) (by rw [Nat.succ_mul]; omega)
  · rw [List.length_append, List.length_replicate, List.length_singleton, List.sum_append,
      List.sum_replicate_nat, List.sum_singleton]
    exact Nat.div_eq_of_lt_le (by rw [Nat.succ_mul]; omega) (by simp only [Nat.succ_mul]; omega)

theorem Even.eq_of_succ_lt {c left i n : Nat} {sizes : List Nat} (h : Even c sizes left)
    (inside : i + 1 < sizes.length) (hn : sizes[i]? = some n) : n = c := by
  rcases h with ⟨k, rfl⟩ | ⟨-, k, r, rfl, -⟩
  · exact List.eq_of_mem_replicate (List.mem_of_getElem? hn)
  · simp only [List.length_append, List.length_replicate, List.length_singleton] at inside
    rw [List.getElem?_append_left (by simpa using by omega)] at hn
    exact List.eq_of_mem_replicate (List.mem_of_getElem? hn)

theorem Store.sum_sizes (s : Store) :
    (s.chunks.toList.map (·.data.size)).sum = (octets s.bytes).length := by
  rw [octets_bytes, List.length_flatMap]
  rfl

namespace Loading
variable {p : SourcePlan} {c : Nat} {l l' : Loading}

/-- What the store has got is what the reads have given. -/
structure Logged (c : Nat) (l : Loading) : Prop where
  gapless : l.store.Gapless
  canceled : l.store.canceled = false
  count : l.source.reads = l.reads.length
  requests : ∀ r ∈ l.reads, r.1 = c
  chunks : l.store.chunks.toList.map Chunk.data = l.reads.filterMap (·.2.chunk?)
  sizes : ∀ x ∈ l.store.chunks.toList, 1 ≤ x.data.size ∧ x.data.size ≤ c

/-- The load is about to look whether it is to go on. -/
structure Going (p : SourcePlan) (c : Nat) (l : Loading) : Prop extends l.Logged c where
  reached : Leads c (.start p) l
  state : l.state = .goesOn .checking
  unfinished : l.store.finished = false
  calm : ∀ i ∈ l.source.rest, i.Calm
  concludes : l.source.gated = true → ∃ i ∈ l.source.rest, i.stops = true
  bytes : octets l.store.bytes ++ scriptBytes l.source.rest = scriptBytes p.script
  even : p.Fills c → Even c (l.store.chunks.toList.map (·.data.size))
    (scriptBytes l.source.rest).length

/-- The load has seen the end of its source. -/
structure Past (p : SourcePlan) (c : Nat) (l : Loading) : Prop extends l.Logged c where
  state : l.state = .goesOn .closing
  bytes : octets l.store.bytes = scriptBytes p.script
  even : p.Fills c → Even c (l.store.chunks.toList.map (·.data.size)) 0

/-- The load has ended, and its store holds all that its source had to give. -/
structure Complete (p : SourcePlan) (c : Nat) (l : Loading) : Prop where
  state : l.state = .ends
  closed : l.source.closed = true
  finished : l.store.finished = true
  bytes : octets l.store.bytes = scriptBytes p.script
  /-- Every read has asked for a chunk. -/
  count : l.source.reads = l.reads.length
  requests : ∀ r ∈ l.reads, r.1 = c
  /-- There is one chunk for each read that has given something, in that order. -/
  chunks : l.store.chunks.toList.map Chunk.data = l.reads.filterMap (·.2.chunk?)
  gapless : l.store.Gapless
  sizes : ∀ x ∈ l.store.chunks.toList, 1 ≤ x.data.size ∧ x.data.size ≤ c
  /-- From a source that fills every request it takes as few chunks as possible. -/
  fewest : p.Fills c → l.store.chunks.size = ((scriptBytes p.script).length + c - 1) / c
  even : p.Fills c → ∀ i x, i + 1 < l.store.chunks.size → l.store.chunks[i]? = some x →
    x.data.size = c

/-! ## The moves -/

theorem going_start (definite : p.Definite) (allocated : c < halfLimit) :
    (Loading.move c (.start p)).Going p c := by
  have moved : Loading.move c (.start p) =
      { state := .goesOn .checking, source := p.source.build } := by
    simp [Loading.move, start, LoadPhase.step, allocated, Store.change]
  have rest : p.source.build.rest = p.script := p.source.build.rest_of_unused rfl
  have reached : Leads c (.start p) (Loading.move c (.start p)) := .head rfl .refl
  rw [moved] at reached ⊢
  exact {
    gapless := rfl
    canceled := rfl
    count := rfl
    requests := by simp
    chunks := rfl
    sizes := by simp
    reached := reached
    state := rfl
    unfinished := rfl
    calm := rest.symm ▸ definite.calm
    concludes := rest.symm ▸ definite.concludes
    bytes := by rw [rest]; rfl
    even := fun _ => .inl ⟨0, rfl⟩ }

theorem Going.move_eq (h : l.Going p c) : l.move c = { l with state := .goesOn .beginning } := by
  simp [Loading.move, h.state, LoadPhase.step, h.canceled, Store.change]

theorem Going.begin_eq (h : l.Going p c) : (l.move c).move c =
    { l with state := .goesOn .reading, source := l.source.beginRead c } := by
  rw [h.move_eq]
  rfl

/-- The load after its next read. -/
theorem Going.round_eq (h : l.Going p c) : l.round c =
    let x := (l.source.beginRead c).answer
    let m := LoadPhase.afterRead l.store x
    { state := m.move
      source := m.source
      store := l.store.change m.change
      reads := l.reads ++ [(c, x.1)] } := by
  rw [round, h.begin_eq]
  rfl

theorem Going.canRead (h : l.Going p c) : ((l.move c).move c).canMove = true := by
  rw [h.begin_eq]
  simp only [Loading.canMove, LoadPhase.canMove, Source.isReady, Bool.or_eq_true]
  right
  cases gated : l.source.gated with
  | false => exact .inr (by simpa [Source.beginRead] using gated)
  | true =>
    obtain ⟨i, mem, -⟩ := h.concludes gated
    refine .inl (Option.isSome_iff_ne_none.2 fun none => ?_)
    have nothing := l.source.rest_eq_nil_iff.2 none
    rw [nothing] at mem
    cases mem

theorem Going.begins (h : l.Going p c) : Leads c l ((l.move c).move c) := by
  refine .head ?_ (.head ?_ .refl)
  · simp [Loading.canMove, h.state, LoadPhase.canMove]
  · rw [h.move_eq]
    rfl

theorem Going.reading (h : l.Going p c) : Leads c l (l.round c) :=
  h.begins.tail ⟨h.canRead, rfl⟩

/-- One more read belongs to the log. -/
theorem Logged.snoc (h : l.Logged c) {a : SourceAnswer} (gapless : l'.store.Gapless)
    (canceled : l'.store.canceled = false) (count : l'.source.reads = l.source.reads + 1)
    (reads : l'.reads = l.reads ++ [(c, a)])
    (chunks : l'.store.chunks.toList.map Chunk.data =
      l.store.chunks.toList.map Chunk.data ++ a.chunk?.toList)
    (size : ∀ data, a = .bytes data → data.size ≤ c) : l'.Logged c where
  gapless := gapless
  canceled := canceled
  count := by rw [count, reads, h.count, List.length_append, List.length_singleton]
  requests := by
    rw [reads]
    intro r mem
    rcases List.mem_append.1 mem with before | last
    · exact h.requests r before
    · rw [List.mem_singleton.1 last]
  chunks := by
    rw [chunks, reads, h.chunks, List.filterMap_append]
    congr 1
  sizes := by
    intro x mem
    have mem : x.data ∈ l.store.chunks.toList.map Chunk.data ++ a.chunk?.toList := by
      rw [← chunks]
      exact List.mem_map_of_mem mem
    rcases List.mem_append.1 mem with before | last
    · obtain ⟨y, hy, same⟩ := List.mem_map.1 before
      rw [← same]
      exact h.sizes y hy
    · cases a with
      | bytes data =>
        rw [SourceAnswer.chunk?] at last
        split at last
        · cases last
        · next some =>
          rw [Option.toList_some, List.mem_singleton] at last
          exact last ▸ ⟨Nat.one_le_iff_ne_zero.2 some, size data rfl⟩
      | failed e => cases last
      | panicked text => cases last

/-- What a read comes to is what the rest of the script comes to. -/
theorem serve_rest (c : Nat) (l : Loading) : serve c l.source.rest =
    ((l.source.beginRead c).answer.1, (l.source.beginRead c).answer.2.rest) :=
  (l.source.beginRead c).serve_rest

/-- A full answer is a chunk of the size that all have. -/
theorem Going.even_snoc (h : l.Going p c) {a : SourceAnswer}
    (answered : (l.source.beginRead c).answer.1 = a) (goes : a.goesOn = true) (fills : p.Fills c)
    {rest : List SourceItem} (split : scriptBytes l.source.rest = a.given ++ scriptBytes rest) :
    Even c (l.store.chunks.toList.map (·.data.size) ++ a.chunk?.toList.map ByteArray.size)
      (scriptBytes rest).length := by
  have before := h.even fills
  have length := congrArg List.length split
  rw [List.length_append] at length
  cases a with
  | bytes data =>
    have some : data.size ≠ 0 := by simpa [SourceAnswer.goesOn] using goes
    have full := fills ((l.move c).move c) (h.reached.trans h.begins)
    rw [h.begin_eq] at full
    have size : data.size = min c (scriptBytes l.source.rest).length := full data rfl answered
    rw [SourceAnswer.given, length_octets] at length
    have next := before.snoc (by omega)
    rw [← size] at next
    rw [SourceAnswer.chunk?, if_neg some]
    have left : (scriptBytes rest).length = (scriptBytes l.source.rest).length - data.size := by
      omega
    rw [left]
    exact next
  | failed e =>
    rw [SourceAnswer.given, List.length_nil, Nat.zero_add] at length
    rw [SourceAnswer.chunk?, Option.toList_none, List.map_nil, List.append_nil, ← length]
    exact before
  | panicked text => cases goes

/-- The load goes on with the store that it has added the answer to. -/
theorem Going.again (h : l.Going p c) {a : SourceAnswer}
    (answered : (l.source.beginRead c).answer.1 = a) (goes : a.goesOn = true)
    (leads : Leads c l l') (state : l'.state = .goesOn .checking)
    (source : l'.source = (l.source.beginRead c).answer.2) (reads : l'.reads = l.reads ++ [(c, a)])
    (gapless : l'.store.Gapless) (canceled : l'.store.canceled = false)
    (unfinished : l'.store.finished = false)
    (chunks : l'.store.chunks.toList.map Chunk.data =
      l.store.chunks.toList.map Chunk.data ++ a.chunk?.toList)
    (bytes : octets l'.store.bytes = octets l.store.bytes ++ a.given) :
    l'.Going p c ∧ readsOf l'.source.rest < readsOf l.source.rest := by
  have served := l.serve_rest c
  rw [answered, ← source] at served
  have first : (serve c l.source.rest).1 = a := congrArg Prod.fst served
  have rest : (serve c l.source.rest).2 = l'.source.rest := congrArg Prod.snd served
  obtain ⟨place, used, past⟩ := (l.source.beginRead c).answer_snd
  have goes' : (serve c l.source.rest).1.goesOn = true := first ▸ goes
  have split := scriptBytes_of_goesOn goes'
  rw [first, rest] at split
  have logged : l'.Logged c := h.toLogged.snoc gapless canceled
    (by rw [source, past]; rfl) reads chunks
    fun data bytes => size_serve (first.trans bytes)
  have concludes : l'.source.gated = true → ∃ i ∈ l'.source.rest, i.stops = true := by
    intro gated
    rw [source, past] at gated
    exact rest ▸ stops_serve goes' (h.concludes gated)
  have even (fills : p.Fills c) : Even c (l'.store.chunks.toList.map (·.data.size))
      (scriptBytes l'.source.rest).length := by
    have sizes := congrArg (List.map ByteArray.size) chunks
    rw [List.map_append, List.map_map, List.map_map] at sizes
    have next := h.even_snoc answered goes fills split
    exact sizes ▸ next
  have going : l'.Going p c :=
    { toLogged := logged
      reached := h.reached.trans leads
      state
      unfinished
      calm := rest ▸ calm_serve h.calm c
      concludes
      bytes := by rw [bytes, ← h.bytes, split, List.append_assoc]
      even }
  exact ⟨going, rest ▸ readsOf_serve goes'⟩

/-- The load goes on after an answer that is not the last one. -/
theorem Going.goesOn (h : l.Going p c)
    (goes : (serve c l.source.rest).1.goesOn = true) :
    (l.round c).Going p c ∧
      readsOf (l.round c).source.rest < readsOf l.source.rest := by
  have isOpen : l.store.isOpen = true := by simp [Store.isOpen, h.unfinished, h.canceled]
  have after := h.round_eq
  rw [l.serve_rest c] at goes
  have leads := h.reading
  generalize l.round c = l' at after leads ⊢
  generalize answered : (l.source.beginRead c).answer.1 = a at goes
  have answer : (l.source.beginRead c).answer = (a, (l.source.beginRead c).answer.2) :=
    Prod.ext answered rfl
  rw [answer] at after
  cases a with
  | bytes data =>
    have some : data.size ≠ 0 := by simpa [SourceAnswer.goesOn] using goes
    simp only [LoadPhase.afterRead, if_pos (And.intro some isOpen)] at after
    have store : l'.store = l.store.append data := by
      rw [after]
      rfl
    refine h.again answered goes leads (by rw [after]) (by rw [after]) (by rw [after])
      ?_ ?_ ?_ ?_ ?_
    · exact store ▸ h.gapless.append data
    · rw [store, Store.append, if_pos ⟨some, isOpen⟩]
      exact h.canceled
    · rw [store, Store.append, if_pos ⟨some, isOpen⟩]
      exact h.unfinished
    · rw [store, Store.append, if_pos ⟨some, isOpen⟩, SourceAnswer.chunk?, if_neg some]
      simp
    · rw [store, Store.octets_bytes_append isOpen]
      rfl
  | failed e =>
    have interrupted : e.kind = .interrupted := by simpa [SourceAnswer.goesOn] using goes
    simp only [LoadPhase.afterRead, if_pos interrupted] at after
    have store : l'.store = l.store := by
      rw [after]
      rfl
    refine h.again answered goes leads (by rw [after]) (by rw [after]) (by rw [after])
      ?_ ?_ ?_ ?_ ?_
    · exact store ▸ h.gapless
    · exact store ▸ h.canceled
    · exact store ▸ h.unfinished
    · rw [store, SourceAnswer.chunk?, Option.toList_none, List.append_nil]
    · rw [store, SourceAnswer.given, List.append_nil]
  | panicked text => cases goes

/-- The last answer ends the reads. -/
theorem Going.ends (h : l.Going p c) (pos : 1 ≤ c)
    (last : (serve c l.source.rest).1.goesOn = false) : (l.round c).Past p c := by
  have nothing := scriptBytes_of_ends pos h.calm last
  have calm := not_panicked_serve c h.calm
  have after := h.round_eq
  rw [l.serve_rest c] at last calm
  obtain ⟨place, used, past⟩ := (l.source.beginRead c).answer_snd
  generalize l.round c = l' at after ⊢
  generalize answered : (l.source.beginRead c).answer.1 = a at last calm
  have answer : (l.source.beginRead c).answer = (a, (l.source.beginRead c).answer.2) :=
    Prod.ext answered rfl
  rw [answer] at after
  have none : a.chunk? = none := by
    cases a with
    | bytes data => simpa [SourceAnswer.goesOn, SourceAnswer.chunk?] using last
    | failed e => rfl
    | panicked text => rfl
  have closing : LoadPhase.afterRead l.store (a, (l.source.beginRead c).answer.2) =
      ⟨.goesOn .closing, (l.source.beginRead c).answer.2, .none⟩ := by
    cases a with
    | bytes data =>
      have empty : data.size = 0 := by simpa [SourceAnswer.goesOn] using last
      rw [LoadPhase.afterRead, if_neg fun some => some.1 empty]
    | failed e =>
      have other : e.kind ≠ .interrupted := by simpa [SourceAnswer.goesOn] using last
      rw [LoadPhase.afterRead, if_neg other]
    | panicked text => exact absurd rfl (calm text)
  simp only [closing] at after
  have bytes := h.bytes
  rw [nothing, List.append_nil] at bytes
  have even := h.even
  rw [nothing] at even
  have store : l'.store = l.store := by
    rw [after]
    rfl
  have logged : l'.Logged c := by
    refine h.toLogged.snoc (a := a) (store ▸ h.gapless) (store ▸ h.canceled) ?_
      (by rw [after]) ?_ ?_
    · rw [after, past]
      rfl
    · rw [store, none, Option.toList_none, List.append_nil]
    · intro data given
      have served : (serve c l.source.rest).1 = .bytes data := by
        rw [l.serve_rest c, answered, given]
      exact size_serve served
  exact { toLogged := logged, state := by rw [after], bytes := store ▸ bytes,
          even := store ▸ even }

/-- The last two moves. -/
theorem Past.ends (h : l.Past p c) (pos : 1 ≤ c) :
    Leads c l ((l.move c).move c) ∧ ((l.move c).move c).Complete p c := by
  have moved : l.move c = { l with state := .goesOn .finishing, source := l.source.close } := by
    simp [Loading.move, h.state, LoadPhase.step, Store.change]
  have ended : (l.move c).move c =
      { l with state := .ends, source := l.source.close, store := l.store.finish } := by
    rw [moved]
    rfl
  constructor
  · refine .head ?_ (.head ?_ .refl)
    · simp [Loading.canMove, h.state, LoadPhase.canMove]
    · rw [moved]
      rfl
  · rw [ended]
    exact {
      state := rfl
      closed := rfl
      finished := rfl
      bytes := h.bytes
      count := h.count
      requests := h.requests
      chunks := h.chunks
      gapless := h.gapless
      sizes := h.sizes
      fewest := by
        intro fills
        have length := (h.even fills).length_eq pos
        rw [l.store.sum_sizes, h.bytes, List.length_map, Array.length_toList] at length
        exact length
      even := by
        intro fills i x inside hx
        have hx : l.store.chunks[i]? = some x := hx
        refine (h.even fills).eq_of_succ_lt (i := i) ?_ ?_
        · rw [List.length_map, Array.length_toList]
          exact inside
        · rw [List.getElem?_map, Array.getElem?_toList, hx]
          rfl }

/-- A load that goes on comes to its end. -/
theorem Going.exists_complete (h : l.Going p c) (pos : 1 ≤ c) :
    ∃ l', Leads c l l' ∧ l'.Complete p c := by
  induction bound : readsOf l.source.rest using Nat.strong_induction_on generalizing l with
  | _ n ih =>
    cases goes : (serve c l.source.rest).1.goesOn with
    | true =>
      obtain ⟨going, less⟩ := h.goesOn goes
      obtain ⟨l', leads, complete⟩ := ih _ (bound ▸ less) going rfl
      exact ⟨l', h.reading.trans leads, complete⟩
    | false =>
      obtain ⟨leads, complete⟩ := (h.ends pos goes).ends pos
      exact ⟨_, h.reading.trans leads, complete⟩

/-! ## Sources that fill every request -/

/-- What is left of a script of data alone is data, or nothing. -/
def Whole (step : Option Nat) (items : List SourceItem) : Prop :=
  items = [] ∨ ∃ bytes, items = [.data bytes step]

theorem whole_serve {step : Option Nat} {items : List SourceItem} (h : Whole step items)
    (request : Nat) : Whole step (serve request items).2 := by
  rcases h with rfl | ⟨bytes, rfl⟩
  · exact .inl rfl
  · simp only [serve]
    split
    · exact .inl rfl
    · exact .inr ⟨_, rfl⟩

theorem size_of_whole {step : Option Nat} {items : List SourceItem} (h : Whole step items)
    {request : Nat} (enough : request ≤ step.getD request) {data : ByteArray}
    (given : (serve request items).1 = .bytes data) :
    data.size = min request (scriptBytes items).length := by
  rcases h with rfl | ⟨bytes, rfl⟩
  · cases given
    simp
  · cases given
    have portion : Source.portion request step bytes.size = min request bytes.size := by
      rw [Source.portion, Nat.min_eq_left enough]
    have length : (scriptBytes [.data bytes step]).length = bytes.size := by
      by_cases empty : bytes.size = 0
      · rw [scriptBytes_empty empty, empty, List.length_nil]
      · rw [scriptBytes_data empty, scriptBytes_nil, List.append_nil, length_octets]
    rw [portion, length, ByteArray.size_extract]
    omega

/-- All that a load does to the script of its source is to read it. -/
theorem rest_move (c : Nat) (l : Loading) : (l.move c).source.rest = l.source.rest ∨
    (l.move c).source.rest = (serve l.source.request l.source.rest).2 := by
  obtain ⟨state, source, store, reads⟩ := l
  cases state with
  | ends => exact .inl rfl
  | panics text => exact .inl rfl
  | goesOn p =>
    cases p with
    | reading =>
      right
      rw [source.serve_rest]
      show (LoadPhase.afterRead store source.answer).source.rest = _
      rcases LoadPhase.afterRead_source store source.answer with same | closed
      · rw [same]
      · rw [closed]
        rfl
    | allocating =>
      left
      simp only [Loading.move, LoadPhase.step]
      split <;> rfl
    | checking =>
      left
      simp only [Loading.move, LoadPhase.step]
      split <;> rfl
    | beginning => exact .inl rfl
    | closing => exact .inl rfl
    | finishing => exact .inl rfl

theorem not_reading_afterRead (store : Store) (answer : SourceAnswer × Source) :
    (LoadPhase.afterRead store answer).move ≠ .goesOn .reading := by
  obtain ⟨a, source⟩ := answer
  cases a with
  | bytes data =>
    simp only [LoadPhase.afterRead]
    split <;> simp
  | failed e =>
    simp only [LoadPhase.afterRead]
    split <;> simp
  | panicked text => simp [LoadPhase.afterRead]

/-- A load comes to a read by asking for a chunk. -/
theorem request_move (c : Nat) (l : Loading) (reading : (l.move c).state = .goesOn .reading) :
    (l.move c).source.request = c := by
  obtain ⟨state, source, store, reads⟩ := l
  cases state with
  | ends => cases reading
  | panics text => cases reading
  | goesOn p =>
    cases p with
    | allocating =>
      simp only [Loading.move, LoadPhase.step] at reading
      split at reading <;> cases reading
    | checking =>
      simp only [Loading.move, LoadPhase.step] at reading
      split at reading <;> cases reading
    | beginning => rfl
    | reading => exact absurd reading (not_reading_afterRead store source.answer)
    | closing => cases reading
    | finishing => cases reading

end Loading

theorem SourcePlan.fills_of_whole {p : SourcePlan} {c : Nat} {bytes : ByteArray}
    {step : Option Nat} (script : p.script = [.data bytes step]) (enough : c ≤ step.getD c) :
    p.Fills c := by
  intro l leads
  have kept : Loading.Whole step l.source.rest ∧
      (l.state = .goesOn .reading → l.source.request = c) := by
    induction leads with
    | refl =>
      refine ⟨.inr ⟨bytes, ?_⟩, fun reading => ?_⟩
      · exact (p.source.build.rest_of_unused rfl).trans script
      · cases reading
    | @tail l l' _ step ih =>
      obtain ⟨-, rfl⟩ := step
      refine ⟨?_, l.request_move c⟩
      rcases l.rest_move c with same | served
      · exact same ▸ ih.1
      · exact served ▸ Loading.whole_serve ih.1 _
  intro data reading given
  obtain ⟨whole, request⟩ := kept
  refine Loading.size_of_whole whole enough ?_
  rw [← request reading, l.source.serve_rest]
  exact given

/-! ## Loads of a session -/

namespace Session
variable {s t : Session} {a : Actor} {j : Job} {l : Loading} {p : LoadPhase}

/-- The actor is where the load is, with the same source and the same store. -/
structure Carries (s : Session) (a : Actor) (j : Job) (l : Loading) : Prop where
  source : s.sources.get? j.source = some l.source
  store : s.stores.get? j.store = some l.store
  load : s.loadOf? a = match l.state with
    | .goesOn p => some ⟨j, p⟩
    | .ends | .panics _ => none

/-- Nobody else does anything on the way. -/
def LedBy (a : Actor) : Session → Session → Prop :=
  Relation.ReflTransGen fun s t => s.canMove a = true ∧ t = s.move a

theorem Carries.phase_eq (h : s.Carries a j l) (state : l.state = .goesOn p) :
    s.loadOf? a = some ⟨j, p⟩ := by
  rw [h.load, state]

theorem Carries.nextStep_eq (h : s.Carries a j l) :
    s.nextStep ⟨j, p⟩ = p.step j.chunkSize l.source l.store := by
  simp [nextStep, Session.source, Session.store, h.source, h.store]

/-- A move of the load in the session is its next move. -/
theorem Carries.of_advance (h : s.Carries a j l) (state : l.state = .goesOn p)
    (sources : t.sources = (s.advanceLoad ⟨j, p⟩).2.sources)
    (stores : t.stores = (s.advanceLoad ⟨j, p⟩).2.stores)
    (load : t.loadOf? a = match (s.nextStep ⟨j, p⟩).move with
      | .goesOn q => some ⟨j, q⟩
      | .ends | .panics _ => none) : t.Carries a j (l.move j.chunkSize) := by
  have moved : l.move j.chunkSize = { l.move j.chunkSize with
      state := (s.nextStep ⟨j, p⟩).move
      source := (s.nextStep ⟨j, p⟩).source
      store := l.store.change (s.nextStep ⟨j, p⟩).change } := by
    rw [h.nextStep_eq, Loading.move, state]
  rw [moved]
  refine ⟨?_, ?_, load⟩
  · rw [sources, sources_advanceLoad, Table.get?_modify, if_pos rfl, h.source]
    rfl
  · rw [stores, get?_advanceLoad, if_pos rfl, h.store]
    rfl

theorem loadOf?_call (id : CallId) : s.loadOf? (.call id) = (s.task? id).bind Task.load? := by
  rw [loadOf?, task?]
  cases s.calls.get? id <;> rfl

theorem Carries.moveLoad {id : CallId} (h : s.Carries (.call id) j l) (state : l.state = .goesOn p)
    (ht : s.task? id = some (.load ⟨j, p⟩)) :
    (s.moveLoad id ⟨j, p⟩).Carries (.call id) j (l.move j.chunkSize) := by
  have advance (t : Session) := h.of_advance (t := t) state
  have task := task?_advanceLoad (s := s) ⟨j, p⟩ id
  rw [ht] at task
  unfold Session.moveLoad
  rw [← advanceLoad_fst] at advance
  rcases hl : s.advanceLoad ⟨j, p⟩ with ⟨m, t⟩
  rw [hl] at advance task
  cases m with
  | goesOn q =>
    refine advance _ rfl rfl ?_
    rw [loadOf?_call, task?_goOn (Option.isSome_of_eq_some task), if_pos rfl]
    rfl
  | ends =>
    refine advance _ rfl rfl ?_
    rw [loadOf?_call, task?_answer, if_pos rfl]
    rfl
  | panics text =>
    refine advance _ rfl rfl ?_
    rw [loadOf?_call, task?_answer, if_pos rfl]
    rfl

theorem Carries.moveFill {id : CallId} {k : Key} (h : s.Carries (.call id) j l)
    (state : l.state = .goesOn p) (ht : s.task? id = some (.fill k ⟨j, p⟩)) :
    (s.moveFill id k ⟨j, p⟩).Carries (.call id) j (l.move j.chunkSize) := by
  have advance (t : Session) := h.of_advance (t := t) state
  have task := task?_advanceLoad (s := s) ⟨j, p⟩ id
  rw [ht] at task
  unfold Session.moveFill
  rw [← advanceLoad_fst] at advance
  rcases hl : s.advanceLoad ⟨j, p⟩ with ⟨m, t⟩
  rw [hl] at advance task
  have some_ : (t.task? id).isSome := Option.isSome_of_eq_some task
  cases m with
  | goesOn q =>
    refine advance _ rfl rfl ?_
    rw [loadOf?_call, task?_goOn some_, if_pos rfl]
    rfl
  | ends =>
    refine advance _ rfl rfl ?_
    rw [loadOf?_call, task?_goOn some_, if_pos rfl]
    rfl
  | panics text =>
    refine advance _ rfl rfl ?_
    rw [loadOf?_call, task?_abandon, if_pos rfl]
    rfl

theorem Carries.moveWorker {n : PoolName} {i : Nat} (h : s.Carries (.worker n i) j l)
    (state : l.state = .goesOn p) :
    (s.moveWorker n i).Carries (.worker n i) j (l.move j.chunkSize) := by
  have load := h.phase_eq state
  have move := s.workerMove n i
  generalize s.moveWorker n i = t at move
  cases move with
  | still idle => cases load.symm.trans idle
  | look idle | retract idle | next idle | shed idle => cases load.symm.trans idle
  | @load _ rest busy staff =>
    cases load.symm.trans busy
    have place := (List.getElem?_eq_some_iff.1 staff).1
    refine h.of_advance state (by cases n <;> rfl) (by cases n <;> rfl) ?_
    rw [loadOf?, pool_setPool]
    simp only [Pool.setWorker, List.getElem?_set_self place]
    cases (s.nextStep ⟨j, p⟩).move <;> cases rest <;> rfl

theorem Carries.move (h : s.Carries a j l) (state : l.state = .goesOn p) :
    (s.move a).Carries a j (l.move j.chunkSize) := by
  have load := h.phase_eq state
  cases a with
  | registry => cases load
  | pool n => cases load
  | worker n i => exact h.moveWorker state
  | call id =>
    rw [loadOf?_call] at load
    obtain ⟨b, ht, load⟩ := Option.bind_eq_some_iff.1 load
    rw [move_of_task ht]
    cases b with
    | load l' =>
      cases load
      exact h.moveLoad state ht
    | fill k l' =>
      cases load
      exact h.moveFill state ht
    | _ => cases load

/-- The session lets a load move that need not wait for its source. -/
theorem Carries.canMove {config : CacheConfig} {workers : Nat} (h : s.Carries a j l)
    (hs : Reach (start config workers) s) (can : l.canMove = true) : s.canMove a = true := by
  obtain ⟨p, state, can⟩ := Loading.exists_of_canMove can
  have load := h.phase_eq state
  have free : s.loadCanMove ⟨j, p⟩ = true := by
    simpa [loadCanMove, Session.source, h.source] using can
  cases a with
  | registry => cases load
  | pool n => cases load
  | worker n i =>
    rw [loadOf?] at load
    rw [Session.canMove, workerCanMove]
    split at load
    · next staff =>
      cases load
      rw [staff]
      exact free
    · cases load
  | call id =>
    rw [loadOf?_call] at load
    obtain ⟨b, ht, load⟩ := Option.bind_eq_some_iff.1 load
    refine hs.attentive.canMove ht ?_ ?_
    · cases b <;> cases load <;> simp [Attends, Waits, Task.seeks]
    · cases b <;> cases load <;> exact free

/-- What a load comes to by itself, it comes to in a session. -/
theorem Carries.ledBy {config : CacheConfig} {workers : Nat} {l' : Loading}
    (h : s.Carries a j l) (hs : Reach (start config workers) s)
    (leads : l.Leads j.chunkSize l') : ∃ t, LedBy a s t ∧ t.Carries a j l' := by
  induction leads using Relation.ReflTransGen.head_induction_on generalizing s with
  | refl => exact ⟨s, .refl, h⟩
  | @head l m step _ ih =>
    obtain ⟨can, rfl⟩ := step
    have able := h.canMove hs can
    obtain ⟨p, state, -⟩ := Loading.exists_of_canMove can
    obtain ⟨t, led, carries⟩ := ih (h.move state) (hs.move able)
    exact ⟨t, .head ⟨able, rfl⟩ led, carries⟩

end Session

/-! ## Loads that nobody disturbs -/

/-- What loads of such a source come to. -/
structure SourcePlan.Loads (p : SourcePlan) (c : Nat) : Prop where
  /-- However far a load has come, it goes on to its end. -/
  ends : ∃ l, l.Complete p c ∧ ∀ l', Loading.Leads c (.start p) l' → l'.Leads c l
  /-- Neither the size of the chunks, nor that of the reads, nor interruptions make a difference to
  the bytes. -/
  same : ∀ {q : SourcePlan} {d : Nat} {l l' : Loading}, q.Definite → 1 ≤ d → d < halfLimit →
    q.script.filterMap SourceItem.essence = p.script.filterMap SourceItem.essence →
    l.Complete p c → Loading.Leads d (.start q) l' → l'.canMove = false →
      octets l'.store.bytes = octets l.store.bytes
  /-- Data that is given without steps fills every request. -/
  fills : ∀ {bytes step}, p.script = [.data bytes step] → c ≤ step.getD c → p.Fills c
  /-- In a session, whoever has the load comes to the same end. -/
  carried : ∀ {config workers s a j}, Session.Reach (.start config workers) s → j.chunkSize = c →
    s.Carries a j (.start p) → ∃ t l, Session.LedBy a s t ∧ l.Complete p c ∧ t.Carries a j l

theorem SourcePlan.Definite.exists_complete {p : SourcePlan} {c : Nat} (definite : p.Definite)
    (pos : 1 ≤ c) (allocated : c < halfLimit) :
    ∃ l, Loading.Leads c (.start p) l ∧ l.Complete p c := by
  obtain ⟨l, leads, complete⟩ := (Loading.going_start definite allocated).exists_complete pos
  exact ⟨l, .head rfl leads, complete⟩

theorem Loading.Complete.stuck {p : SourcePlan} {c : Nat} {l : Loading} (h : l.Complete p c) :
    l.canMove = false := by
  rw [Loading.canMove, h.state]

theorem SourcePlan.loads (p : SourcePlan) (c : Nat) (definite : p.Definite) (pos : 1 ≤ c)
    (allocated : c < halfLimit) : p.Loads c where
  ends := by
    obtain ⟨l, leads, complete⟩ := definite.exists_complete pos allocated
    exact ⟨l, complete, fun l' leads' => leads'.of_stuck leads complete.stuck⟩
  same := by
    intro q d l l' other some small same complete leads stuck
    obtain ⟨m, leads', complete'⟩ := other.exists_complete some small
    have reached : m = l' := (leads.of_stuck leads' complete'.stuck).eq_of_stuck stuck
    rw [← reached, complete'.bytes, complete.bytes, ← scriptBytes_essence q.script, same,
      scriptBytes_essence]
  fills script enough := p.fills_of_whole script enough
  carried := by
    rintro config workers s a j hs rfl carries
    obtain ⟨l, leads, complete⟩ := definite.exists_complete pos allocated
    obtain ⟨t, led, carries⟩ := carries.ledBy hs leads
    exact ⟨t, l, led, complete, carries⟩

/-- A source with pauses, whose last item nobody reads. -/
def paused : SourcePlan where
  script := [.data ⟨#[1, 2, 3]⟩ (some 2), .interrupted 2, .data ⟨#[4]⟩ none, .eof,
    .data ⟨#[5]⟩ none]

theorem loads_paused : paused.Definite ∧ 1 ≤ 2 ∧ 2 < halfLimit ∧ paused.Loads 2 ∧
    scriptBytes paused.script = [1, 2, 3, 4] ∧
    ((Session.start {} 1).play
      [.begin 0 .newStore, .begin 1 (.load 0 paused 2), .move (.call 1)] 3).Carries
        (.call 1) ⟨.separate 0, 1, 2⟩ (.start paused) := by
  have definite : paused.Definite := by
    refine ⟨?_, fun gated => by cases gated⟩
    intro i mem
    simp only [paused, List.mem_cons, List.not_mem_nil, or_false] at mem
    rcases mem with rfl | rfl | rfl | rfl | rfl <;> simp [SourceItem.Calm]
  exact ⟨definite, by decide, by decide, paused.loads 2 definite (by decide) (by decide), by decide,
    rfl, rfl, rfl⟩

end SharedStream
