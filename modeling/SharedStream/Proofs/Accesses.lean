import SharedStream.Proofs.Cursors
import SharedStream.Proofs.Flights
import SharedStream.Proofs.Plans
import SharedStream.Proofs.Pools.Places

/-! # Accesses

When caches are accessed, and what a snapshot of the registry says of them. A step of the clock is
the one in which a call was asked for, with all moves up to the next.
-/
namespace SharedStream

namespace Session
open Keys

variable {s t u : Session} {id c d : CallId} {k : Key} {a : Task} {e : Event} {mode : LoadMode}

/-- The event is an access of the cache. Skips, reads of no length, reads that are refused or wait,
handles that are given up, and loads are none. -/
inductive Accesses (s : Session) (c : CallId) : Event → Prop
  /-- The factory has given a source, and a cache is built for it. -/
  | builds {k : Key} {mode : LoadMode} : s.task? c = some (.makeSource k mode) →
      (s.source c).factory = .gives → Accesses s c (.move (.call c))
  /-- The cache is there for readers, and whoever has built it is the first of them. -/
  | registers {k : Key} : s.task? c = some (.register k) → Accesses s c (.move (.call c))
  /-- Another reader is opened. -/
  | attaches {id : CallId} {k : Key} {mode : LoadMode} : s.task? id = some (.seekReader k mode) →
      s.registry.shutDown = false → s.registry.slots.get? k = some (.reader c) →
      Accesses s c (.move (.call id))
  /-- A read of some length is done, whatever it came to. -/
  | reads {id : CallId} {d : Delivery} : s.Delivers id d → d.reading.cache = c →
      d.request.len ≠ 0 → Accesses s c (.move (.call id))

def lastAccess? (s : Session) (c : CallId) : Option Nat := (s.caches.get? c).map Cache.lastAccess

/-- Caches that are accessed have the time of the session, and all others have kept theirs. -/
structure Dates (s : Session) (p : CallId → Prop) (u : Session) : Prop where
  accessed : ∀ {c}, p c → u.lastAccess? c = some s.clock
  others : ∀ {c}, ¬ p c → u.lastAccess? c = s.lastAccess? c

variable {p q : CallId → Prop}

theorem lastAccess?_congr (same : u.caches = s.caches) (c : CallId) :
    u.lastAccess? c = s.lastAccess? c := by
  rw [lastAccess?, same, lastAccess?]

theorem Dates.of_eq (same : u.caches = s.caches) (none : ∀ c, ¬ p c) :
    s.Dates p u where
  accessed {c} hc := absurd hc (none c)
  others {c} _ := lastAccess?_congr same c

theorem Dates.congr (h : s.Dates p t) (same : u.caches = t.caches) : s.Dates p u where
  accessed hc := (lastAccess?_congr same _).trans (h.accessed hc)
  others hc := (lastAccess?_congr same _).trans (h.others hc)

theorem lastAccess?_touch (s : Session) (c d : CallId) : (s.touch c).lastAccess? d =
    if d = c then (s.lastAccess? d).map (fun _ => s.clock) else s.lastAccess? d := by
  have caches : (s.touch c).caches.get? d = if d = c then
      (s.caches.get? d).map (fun x => { x with lastAccess := s.clock }) else s.caches.get? d :=
    Table.get?_modify ..
  rw [lastAccess?, caches, lastAccess?]
  split
  · cases s.caches.get? d <;> rfl
  · rfl

theorem lastAccess?_addRefs (s : Session) (c : CallId) (n : Int) (d : CallId) :
    (s.addRefs c n).lastAccess? d = s.lastAccess? d := by
  have caches : (s.addRefs c n).caches.get? d = if d = c then
      (s.caches.get? d).map (fun x => { x with refs := x.refs + n }) else s.caches.get? d :=
    Table.get?_modify ..
  rw [lastAccess?, caches, lastAccess?]
  split
  · cases s.caches.get? d <;> rfl
  · rfl

theorem dates_touch (cached : s.caches.contains c = true) : s.Dates (· = c) (s.touch c) where
  accessed {d} own := by
    subst own
    obtain ⟨x, hx⟩ := Option.isSome_iff_exists.1 cached
    rw [lastAccess?_touch, if_pos rfl, lastAccess?, hx]
    rfl
  others {d} other := by rw [lastAccess?_touch, if_neg other]

theorem dates_attach (cached : s.caches.contains c = true) : s.Dates (· = c) (s.attach id c) := by
  have there : (s.addRefs c 1).caches.contains c = true := by
    obtain ⟨x, hx⟩ := Option.isSome_iff_exists.1 cached
    have caches : (s.addRefs c 1).caches.get? c = some { x with refs := x.refs + 1 } := by
      refine (Table.get?_modify ..).trans ?_
      rw [if_pos rfl, hx]
      rfl
    exact Option.isSome_of_eq_some caches
  have touched := dates_touch there
  have attached : s.Dates (· = c) ((s.addRefs c 1).touch c) :=
    ⟨touched.accessed, fun other => (touched.others other).trans (lastAccess?_addRefs ..)⟩
  exact attached.congr rfl

theorem dates_newCache (mode : LoadMode) : s.Dates (· = id) (s.newCache id k mode) where
  accessed {c} own := by
    subst own
    rw [lastAccess?]
    exact congrArg (Option.map _) (Table.get?_set_self ..)
  others {c} other := congrArg (Option.map _) (Table.get?_set_of_ne _ _ other)

/-- Which caches are accessed can be said in another way. -/
theorem Dates.iff (h : s.Dates p u) (same : ∀ c, q c ↔ p c) : s.Dates q u where
  accessed hc := h.accessed ((same _).1 hc)
  others hc := h.others fun own => hc ((same _).2 own)

/-! ## Moves -/

theorem dates_moveSeekReader (hs : s.Sound) (ht : s.task? id = some (.seekReader k mode)) :
    s.Dates (s.Accesses · (.move (.call id))) (s.moveSeekReader id k mode) := by
  -- No other access can be in question, since the task is known.
  have only : ∀ {c}, s.Accesses c (.move (.call id)) →
      s.registry.shutDown = false ∧ s.registry.slots.get? k = some (.reader c) := by
    intro c accesses
    cases accesses with
    | builds ht' | registers ht' => cases ht.symm.trans ht'
    | attaches ht' going slot =>
      cases ht.symm.trans ht'
      exact ⟨going, slot⟩
    | reads delivers => cases ht.symm.trans delivers.task
  unfold moveSeekReader
  split
  · next shut =>
    refine .of_eq rfl fun c accesses => ?_
    cases shut.symm.trans (only accesses).1
  next going =>
  split
  · next free =>
    refine .of_eq rfl fun c accesses => ?_
    cases free.symm.trans (only accesses).2
  · next c slot =>
    have cached := cached_iff.2 ⟨k, hs.keys.cache_of_slot slot⟩
    refine (dates_attach cached).iff fun d => ?_
    constructor
    · intro accesses
      cases slot.symm.trans (only accesses).2
      rfl
    · rintro rfl
      exact .attaches ht (by simpa using going) slot
  all_goals
    next slot =>
    refine .of_eq rfl fun c accesses => ?_
    cases slot.symm.trans (only accesses).2

theorem dates_moveMakeSource (ht : s.task? id = some (.makeSource k mode)) :
    s.Dates (s.Accesses · (.move (.call id))) (s.moveMakeSource id k mode) := by
  have only : ∀ {c}, s.Accesses c (.move (.call id)) → c = id ∧ (s.source id).factory = .gives := by
    intro c accesses
    cases accesses with
    | builds _ gives => exact ⟨rfl, gives⟩
    | registers ht' | attaches ht' => cases ht.symm.trans ht'
    | reads delivers => cases ht.symm.trans delivers.task
  unfold moveMakeSource
  split
  · next fails =>
    refine .of_eq rfl fun c accesses => ?_
    cases fails.symm.trans (only accesses).2
  · next panics =>
    refine .of_eq rfl fun c accesses => ?_
    cases panics.symm.trans (only accesses).2
  · next gives =>
    have made : s.Dates (s.Accesses · (.move (.call id))) (s.newCache id k mode) := by
      refine (dates_newCache mode).iff fun c => ⟨fun accesses => (only accesses).1, ?_⟩
      rintro rfl
      exact .builds ht gives
    cases mode with
    | sync => exact made.congr rfl
    | async => exact made.congr rfl

theorem dates_moveRegister (hs : s.Sound) (ht : s.task? id = some (.register k)) :
    s.Dates (s.Accesses · (.move (.call id))) (s.moveRegister id k) := by
  have cached : s.caches.contains id = true :=
    cached_iff.2 ⟨k, hs.keys.cache_of_builds (role_of_task ht)⟩
  have attached : (s.setSlot k (.reader id)).notifyKeys.Dates (· = id) (s.moveRegister id k) :=
    dates_attach cached
  refine Dates.iff ⟨attached.accessed, attached.others⟩ fun c => ?_
  constructor
  · intro accesses
    cases accesses with
    | builds | registers => rfl
    | attaches ht' => cases ht.symm.trans ht'
    | reads delivers => cases ht.symm.trans delivers.task
  · rintro rfl
    exact .registers ht

theorem dates_moved {rd : Reading} {h : Reader} (o : ReadOutcome)
    (cached : s.caches.contains rd.cache = true) :
    s.Dates (fun c => c = rd.cache ∧ (rd.request h.cursor.position).len ≠ 0) (s.moved rd h o) := by
  unfold moved
  dsimp only
  split
  · next zero => exact .of_eq rfl fun c accessed => accessed.2 zero
  · next some =>
    have touched := dates_touch
      (s := { s with readers := s.readers.set rd.reader (advanced rd h o) }) cached
    exact ⟨fun accessed => touched.accessed accessed.1,
      fun other => touched.others fun own => other ⟨own, some⟩⟩

/-- A reading accesses its own cache, with a read that is done. -/
theorem Accesses.delivers {rd : Reading} (ht : s.task? id = some (.read rd))
    (accesses : s.Accesses c (.move (.call id))) :
    ∃ d, s.Delivers id d ∧ d.reading = rd ∧ c = rd.cache ∧ d.request.len ≠ 0 := by
  cases accesses with
  | builds ht' | registers ht' | attaches ht' => cases ht.symm.trans ht'
  | @reads _ d delivers own some =>
    cases ht.symm.trans delivers.task
    exact ⟨d, delivers, rfl, own.symm, some⟩

theorem dates_of_delivers (hs : s.Sound) {d : Delivery} (delivers : s.Delivers id d) :
    s.Dates (s.Accesses · (.move (.call id))) (s.moved d.reading d.handle d.outcome) := by
  obtain ⟨k, slot⟩ := hs.keys.slot_of_reader (reader_of_handle delivers.handle)
  have cached := cached_iff.2 ⟨k, hs.keys.cache_of_slot slot⟩
  rw [delivers.cache_eq hs] at cached
  refine (dates_moved d.outcome cached).iff fun c => ?_
  constructor
  · intro accesses
    obtain ⟨d', delivers', same, own, some⟩ := accesses.delivers delivers.task
    have handle := delivers'.handle
    rw [same, delivers.handle, Option.some.injEq] at handle
    rw [Delivery.request, same, ← handle] at some
    exact ⟨own, some⟩
  · rintro ⟨rfl, some⟩
    exact .reads delivers rfl some

/-- A reading that is given nothing accesses nothing. -/
theorem not_accesses_of_idle {rd : Reading} (ht : s.task? id = some (.read rd))
    (idle : s.delivery? (.move (.call id)) = none) (c : CallId) :
    ¬ s.Accesses c (.move (.call id)) := by
  intro accesses
  obtain ⟨d, delivers, -⟩ := accesses.delivers ht
  cases delivers.delivery?.symm.trans idle

theorem dates_moveReading (hs : s.Sound) {rd : Reading} (ht : s.task? id = some (.read rd)) :
    s.Dates (s.Accesses · (.move (.call id))) (s.moveReading id rd) := by
  cases hd : s.delivery? (.move (.call id)) with
  | none =>
    have move := s.readMove id rd
    refine .of_eq ?_ (not_accesses_of_idle ht hd)
    generalize s.moveReading id rd = u at move
    cases move with
    | missing | refused | waits => rfl
    | @goesOn h o buf _ hr read | @ends h o buf _ hr read =>
      have delivers : s.Delivers id ⟨rd, h, o, buf⟩ := ⟨ht, hr, read⟩
      cases delivers.delivery?.symm.trans hd
  | some d =>
    obtain ⟨id', event, delivers⟩ := delivers_of_delivery? hd
    cases event
    cases ht.symm.trans delivers.task
    apply (dates_of_delivers hs delivers).congr
    have after := delivers.after_eq
    rw [Session.after, move_of_task ht] at after
    change s.moveReading id d.reading = _ at after
    rw [after]
    split
    · rfl
    · rfl

/-- A reader that is given up is no access. -/
theorem lastAccess?_moveLeave (reader : CallId) (p : Parting) (c : CallId) :
    (s.moveLeave id reader p).lastAccess? c = s.lastAccess? c := by
  unfold moveLeave
  have left := fun cache =>
    lastAccess?_addRefs { s with readers := s.readers.erase reader } cache (-1) c
  split
  · rfl
  dsimp only
  split
  · cases p <;> rfl
  split
  · exact left _
  · cases p <;> exact left _

theorem dates_moveTask (hs : s.Sound) (ht : s.task? id = some a) :
    s.Dates (s.Accesses · (.move (.call id))) (s.moveTask id a) := by
  have none : (a.cares = false ∨ ∃ x p, a = .leave x p) →
      ∀ c, ¬ s.Accesses c (.move (.call id)) := by
    intro aside c accesses
    cases accesses with
    | builds ht' | registers ht' | attaches ht' =>
      cases ht.symm.trans ht'
      rcases aside with aside | ⟨x, p, leave⟩
      · cases aside
      · cases leave
    | reads delivers =>
      cases ht.symm.trans delivers.task
      rcases aside with aside | ⟨x, p, leave⟩
      · cases aside
      · cases leave
  by_cases aside : a.cares = false
  · exact .of_eq (caches_moveTask aside) (none (.inl aside))
  cases a with
  | seekReader key mode => exact dates_moveSeekReader hs ht
  | makeSource key mode => exact dates_moveMakeSource ht
  | register key => exact dates_moveRegister hs ht
  | read rd => exact dates_moveReading hs ht
  | leave x p =>
    exact ⟨fun {c} accesses => absurd accesses (none (.inr ⟨x, p, rfl⟩) c),
      fun _ => lastAccess?_moveLeave x p _⟩
  | expire x r =>
    have still : (s.moveExpire id x r).caches = s.caches := by
      rw [moveExpire_eq (hs.completed ht).1]
      rfl
    refine .of_eq still fun c accesses => ?_
    cases accesses with
    | builds ht' | registers ht' | attaches ht' => cases ht.symm.trans ht'
    | reads delivers => cases ht.symm.trans delivers.task
  | _ => exact absurd rfl aside

/-- What is accessed has the time of the step, and nothing else changes a time. -/
theorem dates_after (hs : s.Sound) (admitted : s.admits e) :
    s.Dates (s.Accesses · e) (s.after e) := by
  cases e with
  | begin id op =>
    refine .of_eq (caches_enter (s := { s with clock := id + 1 }) op) fun c accesses => ?_
    cases accesses
  | move actor =>
    cases actor with
    | worker n i =>
      refine .of_eq ?_ fun c accesses => by cases accesses
      have move := s.workerMove n i
      show (s.moveWorker n i).caches = s.caches
      generalize s.moveWorker n i = u at move
      cases move with
      | still => rfl
      | look | retract | next | shed => exact caches_setPool _
      | load => exact (caches_setPool _).trans caches_advanceLoad
    | pool n =>
      refine .of_eq ?_ fun c accesses => by cases accesses
      obtain ⟨sources, dropped⟩ := closeSources_eq
        (s := s.setPool n { s.pool n with queue := [] }) (s.pool n).queue
      exact (congrArg Session.caches dropped).trans (caches_setPool _)
    | registry => exact .of_eq caches_endRegistry fun c accesses => by cases accesses
    | call id =>
      obtain ⟨a, ht⟩ := task_of_canMove admitted
      have dates := dates_moveTask hs ht
      rwa [← move_of_task ht] at dates

/-! ## How a cache came to be -/

/-- A cache is new in the event in which its factory gives a source. -/
theorem exists_makes (hs : s.Sound) (ha : s.Attentive) (admitted : s.admits e)
    (before : s.caches.get? c = none) {x : Cache} (hx : (s.after e).caches.get? c = some x) :
    s.task? c = some (.makeSource x.key x.mode) := by
  have uncached : s.keys.cache c = none := Option.map_eq_none_iff.2 before
  have cached : (s.after e).keys.cache c = some (x.key, x.refs) :=
    Option.map_eq_some_iff.2 ⟨x, hx, rfl⟩
  obtain ⟨own, makes, -⟩ := (step_after hs admitted).build_of_new hs.keys uncached cached
  obtain ⟨mode, ht⟩ := task_of_makes makes
  rw [ha.after_of_caller admitted own ht] at hx
  revert hx
  show (s.moveMakeSource c x.key mode).caches.get? c = some x → _
  unfold moveMakeSource
  have built : (s.newCache c x.key mode).caches.get? c = some x → mode = x.mode := by
    intro hx
    have same := (Table.get?_set_self ..).symm.trans hx
    exact congrArg Cache.mode (Option.some.inj same)
  have unbuilt : s.caches.get? c ≠ some x := by simp [before]
  split
  · exact fun hx => absurd hx unbuilt
  · exact fun hx => absurd hx unbuilt
  · cases mode with
    | sync => exact fun hx => built hx ▸ ht
    | async => exact fun hx => built hx ▸ ht

/-- The mode of a call that runs its factory is that which it was begun with. -/
theorem mode_of_makes {op : Op} (first : s.firstTask? id op = some a)
    (leads : Relation.ReflTransGen Task.Leads a (.makeSource k mode)) : ∃ asked plan,
      op = .openReader k asked plan ∧ asked.getD s.registry.config.loadMode = mode := by
  have seeks : a = .seekReader k mode ∨ a = .makeSource k mode := by
    rcases Relation.ReflTransGen.cases_tail leads with same | ⟨b, leads, last⟩
    · exact .inr same.symm
    cases last
    rcases Relation.ReflTransGen.cases_tail leads with same | ⟨b, -, last⟩
    · exact .inl same.symm
    · cases last
  cases op with
  | openReader key asked plan =>
    cases first
    rcases seeks with same | same
    · cases same
      exact ⟨asked, plan, rfl, rfl⟩
    · cases same
  | read x goal buf =>
    obtain ⟨h, -, rfl⟩ := Option.map_eq_some_iff.1 first
    rcases seeks with same | same <;> cases same
  | part x parting =>
    simp only [firstTask?, Option.some.injEq] at first
    split at first <;> subst first <;> rcases seeks with same | same <;> cases same
  | submit =>
    obtain ⟨i, -, rfl⟩ := Option.map_eq_some_iff.1 first
    rcases seeks with same | same <;> cases same
  | openWriter | readStore | awaitStore | load =>
    cases first
    rcases seeks with same | same <;> cases same
  | _ => cases first

end Session

namespace Run
open Session

variable {config : CacheConfig} {workers : Nat} (r : Run (start config workers))
variable {c : CallId} {k : Key} {i j m n : Nat} {t : Nat}

/-- A cache was made by a call that was to open its key for reading, in the mode that was asked for
or the usual one. -/
theorem mode_of_cached {x : Cache} (hx : (r.state n).caches.get? c = some x) : ∃ m mode plan,
    m < n ∧ r.event m = .begin c (.openReader x.key mode plan) ∧
      x.mode = mode.getD config.loadMode := by
  induction n generalizing x with
  | zero =>
    rw [r.state_zero] at hx
    cases hx
  | succ n ih =>
    cases before : (r.state n).caches.get? c with
    | none =>
      rw [r.state_succ] at hx
      have ht := exists_makes (r.sound n) (r.attentive n) (r.admitted n) before hx
      obtain ⟨m, op, lt, begun⟩ := r.exists_begin ht
      obtain ⟨a, first, leads⟩ := r.task_of_begin begun lt ht
      obtain ⟨asked, plan, rfl, mode⟩ := mode_of_makes first leads
      rw [r.config_eq] at mode
      exact ⟨m, asked, plan, Nat.lt_succ_of_lt lt, begun, mode.symm⟩
    | some y =>
      obtain ⟨m, mode, plan, lt, begun, same⟩ := ih before
      have cached : (r.state n).keys.cache c = some (y.key, y.refs) :=
        Option.map_eq_some_iff.2 ⟨y, before, rfl⟩
      obtain ⟨refs, kept⟩ := (r.step n).cached (r.sound n).keys ⟨_, cached⟩
      obtain ⟨x', hx', key⟩ := Option.map_eq_some_iff.1 kept
      cases hx.symm.trans hx'
      have key : x.key = y.key := congrArg Prod.fst key
      rw [key]
      obtain ⟨x', hx', mode'⟩ := (modes_after (r.sound n) (e := r.event n)).mode before
      rw [← r.state_succ, hx, Option.some.injEq] at hx'
      subst hx'
      exact ⟨m, mode, plan, Nat.lt_succ_of_lt lt, begun, mode'.trans same⟩

/-- The last access of a cache before the moment `n` was at `i`. -/
structure LastAccess (r : Run (start config workers)) (c : CallId) (n i : Nat) : Prop where
  lt : i < n
  accesses : (r.state i).Accesses c (r.event i)
  last : ∀ j, i < j → j < n → ¬ (r.state j).Accesses c (r.event j)

theorem exists_lastAccess (dated : (r.state n).lastAccess? c = some t) :
    ∃ i, r.LastAccess c n i ∧ t = (r.state i).clock := by
  induction n with
  | zero =>
    rw [r.state_zero] at dated
    cases dated
  | succ n ih =>
    have dates := dates_after (r.sound n) (r.admitted n)
    rw [r.state_succ] at dated
    by_cases accesses : (r.state n).Accesses c (r.event n)
    · cases (dates.accessed accesses).symm.trans dated
      refine ⟨n, ⟨Nat.lt_succ_self n, accesses, fun j lt lt' => ?_⟩, rfl⟩
      exact absurd lt' (Nat.not_lt_of_le lt)
    · obtain ⟨i, h, time⟩ := ih ((dates.others accesses).symm.trans dated)
      refine ⟨i, ⟨Nat.lt_succ_of_lt h.lt, h.accesses, fun j lt lt' => ?_⟩, time⟩
      rcases Nat.lt_or_eq_of_le (Nat.le_of_lt_succ lt') with earlier | rfl
      · exact h.last j lt earlier
      · exact accesses

theorem LastAccess.unique {r : Run (start config workers)} (h : r.LastAccess c n i)
    (h' : r.LastAccess c n j) : i = j := by
  rcases Nat.lt_trichotomy i j with lt | same | lt
  · exact absurd h'.accesses (h.last j lt h'.lt)
  · exact same
  · exact absurd h.accesses (h'.last i lt h.lt)

end Run

/-! ## Snapshots -/

namespace Session
open Keys

variable {s : Session} {c c' : CallId} {k k' : Key} {x : ResourceStats Nat}

/-- The caches in the slots, as a snapshot shows them, in the order of the slots. -/
def described (s : Session) : List (ResourceStats Nat) :=
  s.registry.caches.filterMap fun id => (s.caches.get? id).map (s.describeCache id)

theorem mem_snapshot : x ∈ s.snapshot ↔ x ∈ s.described := List.mem_mergeSort

theorem Sound.exists_cache (hs : s.Sound) (slot : s.registry.slots.get? k = some (.reader c)) :
    ∃ y, s.caches.get? c = some y ∧ y.key = k := by
  obtain ⟨n, cached⟩ := hs.keys.cache_of_slot slot
  obtain ⟨y, hy, same⟩ := Option.map_eq_some_iff.1 cached
  cases same
  exact ⟨y, hy, rfl⟩

theorem Sound.mem_snapshot_iff (hs : s.Sound) : x ∈ s.snapshot ↔
    ∃ c y, s.registry.slots.get? x.key = some (.reader c) ∧ s.caches.get? c = some y ∧
      x = s.describeCache c y := by
  rw [mem_snapshot, described, List.mem_filterMap]
  constructor
  · rintro ⟨c, hc, describes⟩
    obtain ⟨k, slot⟩ := mem_caches_iff.1 hc
    obtain ⟨y, hy, rfl⟩ := hs.exists_cache slot
    rw [hy] at describes
    cases describes
    exact ⟨c, y, slot, hy, rfl⟩
  · rintro ⟨c, y, slot, hy, rfl⟩
    exact ⟨c, mem_caches_iff.2 ⟨_, slot⟩, by rw [hy]; rfl⟩

theorem Sound.exists_describeCache (hs : s.Sound) (hx : x ∈ s.snapshot)
    (slot : s.registry.slots.get? x.key = some (.reader c)) :
    ∃ y, s.caches.get? c = some y ∧ x = s.describeCache c y := by
  obtain ⟨c', y, slot', hy, same⟩ := hs.mem_snapshot_iff.1 hx
  cases slot.symm.trans slot'
  exact ⟨y, hy, same⟩

theorem Sound.exists_key (hs : s.Sound) (slot : s.registry.slots.get? k = some (.reader c)) :
    ∃ x ∈ s.snapshot, x.key = k := by
  obtain ⟨y, hy, rfl⟩ := hs.exists_cache slot
  exact ⟨_, hs.mem_snapshot_iff.2 ⟨c, y, slot, hy, rfl⟩, rfl⟩

/-- The keys are listed as they are in the table of slots. -/
theorem Sound.keys_described (hs : s.Sound) : s.described.map ResourceStats.key =
    (s.registry.slots.entries.filter (!·.2.isTaken)).map Prod.fst := by
  have listed : s.described.map ResourceStats.key = s.registry.slots.entries.filterMap fun e =>
      if !e.2.isTaken then some e.1 else none := by
    rw [described, Registry.caches, Table.values, List.filterMap_map, List.filterMap_filterMap,
      List.map_filterMap]
    refine List.filterMap_congr fun e he => ?_
    obtain ⟨k, x⟩ := e
    cases x with
    | reader c =>
      obtain ⟨y, hy, rfl⟩ := hs.exists_cache (Table.mem_entries_iff.1 he)
      simp [hy, describeCache, Slot.isTaken]
    | _ => rfl
  rw [listed]
  induction s.registry.slots.entries with
  | nil => rfl
  | cons e es ih => cases taken : e.2.isTaken <;> simpa [taken] using ih

theorem Sound.nodup_snapshot (hs : s.Sound) : (s.snapshot.map ResourceStats.key).Nodup := by
  have sorted := (List.mergeSort_perm s.described fun a b => b.lastAccess ≤ a.lastAccess).map
    ResourceStats.key
  refine sorted.nodup_iff.2 ?_
  rw [hs.keys_described]
  exact s.registry.slots.nodup.sublist (List.filter_sublist.map Prod.fst)

theorem pairwise_snapshot (s : Session) :
    s.snapshot.Pairwise fun a b => b.lastAccess ≤ a.lastAccess := by
  have sorted : s.snapshot.Pairwise fun a b => decide (b.lastAccess ≤ a.lastAccess) = true := by
    apply List.pairwise_mergeSort
    · intro a b c ab bc
      simp only [decide_eq_true_eq] at ab bc ⊢
      omega
    · intro a b
      simp only [Bool.or_eq_true, decide_eq_true_eq]
      omega
  exact sorted.imp fun h => by simpa using h

/-- Of two members of a list in order, one that cannot come later comes first. -/
theorem sublist_of_pairwise {α : Type} {R : α → α → Prop} {a b : α} {as : List α}
    (sorted : as.Pairwise R) (ha : a ∈ as) (hb : b ∈ as) (order : ¬ R b a) (ne : a ≠ b) :
    [a, b].Sublist as := by
  induction sorted with
  | nil => cases ha
  | @cons x as first _ ih =>
    rcases List.mem_cons.1 ha with rfl | ha'
    · rcases List.mem_cons.1 hb with rfl | hb'
      · exact absurd rfl ne
      · exact (List.singleton_sublist.2 hb').cons_cons a
    · rcases List.mem_cons.1 hb with rfl | hb'
      · exact absurd (first a ha') order
      · exact (ih ha' hb').cons x

end Session

namespace Run
open Session

variable {config : CacheConfig} {workers : Nat} (r : Run (start config workers))
variable {c c' : CallId} {k k' : Key} {i i' n : Nat}

theorem exists_lastAccess_of_mem {x : ResourceStats Nat} (hx : x ∈ (r.state n).snapshot)
    (slot : (r.state n).registry.slots.get? x.key = some (.reader c)) :
    ∃ i, r.LastAccess c n i ∧ x.lastAccess = (r.state i).clock := by
  obtain ⟨y, hy, rfl⟩ := (r.sound n).exists_describeCache hx slot
  apply r.exists_lastAccess
  rw [lastAccess?, hy]
  rfl

/-- What a snapshot says, and in which order. -/
structure Snapshots (r : Run (start config workers)) (n : Nat) : Prop where
  /-- The keys that are open to readers are listed, each of them once. -/
  nodup : ((r.state n).snapshot.map ResourceStats.key).Nodup
  mem_keys : ∀ k, k ∈ (r.state n).snapshot.map ResourceStats.key ↔
    ∃ c, (r.state n).registry.slots.get? k = some (.reader c)
  /-- Each comes with the number of its readers, with what its cache has loaded, -/
  entry : ∀ x ∈ (r.state n).snapshot, ∀ c,
    (r.state n).registry.slots.get? x.key = some (.reader c) →
      x.refCount = (r.state n).readers.countP (·.cache = c) ∧
      x.loadedBytes = ((r.state n).store (.cache c)).loadedLen ∧
      x.chunks = ((r.state n).store (.cache c)).chunks.size ∧
      x.finished = ((r.state n).store (.cache c)).finished
  /-- with the mode in which it was made, -/
  mode : ∀ x ∈ (r.state n).snapshot, ∀ c,
    (r.state n).registry.slots.get? x.key = some (.reader c) → ∃ m mode plan, m < n ∧
      r.event m = .begin c (.openReader x.key mode plan) ∧
        x.loadMode = mode.getD config.loadMode
  /-- and with the step of its last access. -/
  dated : ∀ x ∈ (r.state n).snapshot, ∀ c,
    (r.state n).registry.slots.get? x.key = some (.reader c) → ∃ i, r.LastAccess c n i ∧
      x.lastAccess = (r.state i).clock
  /-- What was accessed in a later step comes first. -/
  order : ∀ {k k' c c' i i'}, (r.state n).registry.slots.get? k = some (.reader c) →
    (r.state n).registry.slots.get? k' = some (.reader c') → r.LastAccess c n i →
      r.LastAccess c' n i' → (r.state i').clock < (r.state i).clock →
        [k, k'].Sublist ((r.state n).snapshot.map ResourceStats.key)

theorem snapshots (n : Nat) : r.Snapshots n := by
  have hs := r.sound n
  constructor
  case nodup => exact hs.nodup_snapshot
  case mem_keys =>
    intro k
    rw [List.mem_map]
    constructor
    · rintro ⟨x, hx, rfl⟩
      obtain ⟨c, y, slot, -⟩ := hs.mem_snapshot_iff.1 hx
      exact ⟨c, slot⟩
    · rintro ⟨c, slot⟩
      exact hs.exists_key slot
  case entry =>
    intro x hx c slot
    obtain ⟨y, hy, rfl⟩ := hs.exists_describeCache hx slot
    obtain ⟨-, refs⟩ := hs.refs_of_slot slot
    rw [Session.refs, hy] at refs
    exact ⟨refs, rfl, rfl, rfl⟩
  case mode =>
    intro x hx c slot
    obtain ⟨y, hy, rfl⟩ := hs.exists_describeCache hx slot
    exact r.mode_of_cached hy
  case dated =>
    intro x hx c slot
    exact r.exists_lastAccess_of_mem hx slot
  case order =>
    intro k k' c c' i i' slot slot' last last' later
    obtain ⟨x, hx, rfl⟩ := hs.exists_key slot
    obtain ⟨x', hx', rfl⟩ := hs.exists_key slot'
    obtain ⟨j, lastJ, time⟩ := r.exists_lastAccess_of_mem hx slot
    obtain ⟨j', lastJ', time'⟩ := r.exists_lastAccess_of_mem hx' slot'
    obtain rfl := last.unique lastJ
    obtain rfl := last'.unique lastJ'
    have order : ¬ x.lastAccess ≤ x'.lastAccess := by omega
    have ne : x ≠ x' := by
      rintro rfl
      exact order (Nat.le_refl _)
    have pair := sublist_of_pairwise (pairwise_snapshot _) hx hx' order ne
    exact pair.map ResourceStats.key

end Run
end SharedStream
