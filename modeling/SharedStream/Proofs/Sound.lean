import SharedStream.Proofs.Entries
import SharedStream.Proofs.Keys.Entries
import SharedStream.Proofs.Keys.Lasting
import SharedStream.Proofs.Loads.Pools
import SharedStream.Proofs.Run

/-! # Sound sessions

What holds of every reachable session, and what an event has to do to keep it: a step of the keys, a
step of the track of each source that belongs to the registry, and nothing but fitting jobs and
tasks.
-/
namespace SharedStream

def Ending.caches : Ending → List CallId
  | .ahead | .done => []
  | .cancel cs => cs
  | .dequeue c cs => c :: cs

def Task.stage? : Task → Option Stage
  | .fill _ l => some (.running l.phase)
  | _ => none

namespace Session

def stages (s : Session) (c : CallId) : List Stage :=
  s.registry.pool.stages c ++ ((s.task? c).bind Task.stage?).toList

def track (s : Session) (c : CallId) : Track where
  cached := s.caches.contains c
  stages := s.stages c
  store := s.stores.get? (.cache c)
  source := s.sources.get? c

/-- The answer that a source gives in an event, if a read of it is answered there. -/
def answered (s : Session) (c : CallId) : Event → Option SourceAnswer
  | .begin .. => none
  | .move a => if s.readsFrom? a = some c then some (s.source c).answer.1 else none

/-- A job of the registry. -/
def Own (s : Session) (j : Job) : Prop :=
  j.store = .cache j.source ∧ s.caches.contains j.source = true

/-- A job that has nothing to do with the registry. -/
def Foreign (s : Session) (j : Job) : Prop :=
  (∃ i, j.store = .separate i) ∧ s.keys.Apart j.source

/-- The handle has been closed, to the end. -/
def Parted (s : Session) : ClosedHandle → Prop
  | .reader _ released => released = true
  | .writer w _ => w < s.clock ∧ s.keys.role w = none ∧ s.isOpen w = false

def Fits (s : Session) (id : CallId) : Task → Prop
  | .seekReader .. | .makeSource .. => ∃ x, s.sources.get? id = some x
  | .fill _ l => l.job.store = .cache id ∧ l.job.source = id
  | .dequeueCache _ c | .awaitCache _ c =>
    ∃ y, s.stores.get? (.cache c) = some y ∧ y.canceled = true
  | .makeLoad j => s.Foreign j
  | .load l => s.Foreign l.job
  | .read r =>
    r.reader < s.clock ∧ s.keys.role r.reader = none ∧
      ∀ c, s.keys.reader.get? r.reader = some c → c = r.cache
  | .closeSink w _ => w < s.clock
  | .giveBack w _ _ => w < s.clock ∧ s.isOpen w = false
  | .announce h _ => s.Parted h
  | .expire h r => s.Parted h ∧ r.violation? = none
  | _ => True

/-- A registry ends when nobody uses it any more. The load of each of its caches is asked to stop
before it is removed from the queue. -/
structure Halts (s : Session) : Prop where
  disused : s.registry.ending ≠ .ahead → s.keys.Over
  cached : ∀ c ∈ s.registry.ending.caches, s.caches.contains c = true
  canceled : ∀ c rest, s.registry.ending = .dequeue c rest →
    ∃ y, s.stores.get? (.cache c) = some y ∧ y.canceled = true

structure Sound (s : Session) : Prop where
  keys : s.keys.Valid
  track : ∀ {c}, ¬ s.keys.Apart c → (s.track c).Valid
  own : ∀ {j}, j ∈ s.registry.pool.jobs → s.Own j
  foreign : ∀ {j}, j ∈ s.separate.jobs → s.Foreign j
  fits : ∀ {id t}, s.task? id = some t → s.Fits id t
  halts : s.Halts

/-- What an event does beside its step of the keys, with the answers to reads of sources. -/
structure Onward (s : Session) (answered : CallId → Option SourceAnswer) (s' : Session) : Prop where
  track : ∀ {c}, ¬ s.keys.Apart c → Track.Step (answered c) (s.track c) (s'.track c)
  own : ∀ {j}, j ∈ s'.registry.pool.jobs → j ∈ s.registry.pool.jobs ∨ s'.Own j
  foreign : ∀ {j}, j ∈ s'.separate.jobs → j ∈ s.separate.jobs ∨ s'.Foreign j
  fits : ∀ {id t}, s'.task? id = some t → s.task? id = some t ∨ s'.Fits id t
  /-- A sink that was taken from its writer does not come back. -/
  taken : ∀ {w}, w < s.clock → s.isOpen w = false → s'.isOpen w = false
  halts : s'.registry.ending = s.registry.ending ∨ s'.Halts

variable {s s' : Session} {c : CallId} {who : Option CallId}
variable {answered : CallId → Option SourceAnswer}

theorem cached_iff : s.caches.contains c = true ↔ ∃ k n, s.keys.cache c = some (k, n) := by
  cases h : s.caches.get? c <;> simp [Table.contains, keys, h]

theorem not_apart_of_cached (h : s.caches.contains c = true) : ¬ s.keys.Apart c := by
  rintro ⟨-, -, none⟩
  obtain ⟨k, n, hn⟩ := cached_iff.1 h
  simp [none] at hn

theorem not_apart_of_role {r : Role} (h : s.keys.role c = some r) : ¬ s.keys.Apart c := by
  rintro ⟨-, none, -⟩
  simp [none] at h

namespace Sound

/-- When a handle comes to be dropped after its close, nothing is left to do. -/
theorem completed (hs : s.Sound) {id : CallId} {x : ClosedHandle} {r : Result}
    (ht : s.task? id = some (.expire x r)) : s.Completed x ∧ r.violation? = none := by
  obtain ⟨parted, told⟩ := hs.fits ht
  cases x with
  | reader cache released => exact ⟨parted, told⟩
  | writer w key => exact ⟨parted.2.2, told⟩

theorem own_next (hs : s.Sound) (k : s.keys.Step who s'.keys) {j : Job} (h : s.Own j) :
    s'.Own j := by
  obtain ⟨store, cached⟩ := h
  obtain ⟨key, hn⟩ := cached_iff.1 cached
  obtain ⟨n, hn⟩ := k.cached hs.keys hn
  exact ⟨store, cached_iff.2 ⟨key, n, hn⟩⟩

theorem foreign_next (hs : s.Sound) (k : s.keys.Step who s'.keys) {j : Job} (h : s.Foreign j) :
    s'.Foreign j :=
  ⟨h.1, k.apart hs.keys h.2⟩

theorem parted_next (k : s.keys.Step who s'.keys) (h : s.Onward answered s') {x : ClosedHandle}
    (parted : s.Parted x) : s'.Parted x := by
  cases x with
  | reader cache released => exact parted
  | writer w key =>
    obtain ⟨old, ended, closed⟩ := parted
    exact ⟨Nat.lt_of_lt_of_le old k.clock_le, k.ended old ended, h.taken old closed⟩

theorem fits_next (hs : s.Sound) (k : s.keys.Step who s'.keys) (h : s.Onward answered s')
    {id : CallId} {t : Task} (task : s.task? id = some t) : s'.Fits id t := by
  have fits := hs.fits task
  have role := role_of_task task
  cases t with
  | seekReader key mode =>
    obtain ⟨x, hx⟩ := fits
    exact (h.track (not_apart_of_role role)).lasting.1 x hx
  | makeSource key mode =>
    obtain ⟨x, hx⟩ := fits
    exact (h.track (not_apart_of_role role)).lasting.1 x hx
  | dequeueCache key c =>
    obtain ⟨y, hy, canceled⟩ := fits
    obtain ⟨n, hn⟩ := hs.keys.cache_of_retires role
    have cached := cached_iff.2 ⟨key, n, hn⟩
    exact (h.track (not_apart_of_cached cached)).lasting.2 y cached hy canceled
  | awaitCache key c =>
    obtain ⟨y, hy, canceled⟩ := fits
    obtain ⟨n, hn⟩ := hs.keys.cache_of_retires role
    have cached := cached_iff.2 ⟨key, n, hn⟩
    exact (h.track (not_apart_of_cached cached)).lasting.2 y cached hy canceled
  | makeLoad j => exact hs.foreign_next k fits
  | load l => exact hs.foreign_next k fits
  | read r =>
    obtain ⟨later, ended, cache⟩ := fits
    refine ⟨Nat.lt_of_lt_of_le later k.clock_le, k.ended later ended, ?_⟩
    intro c hc
    exact cache c (k.reader_of_ended ended hc)
  | fill key l => exact fits
  | closeSink w p => exact Nat.lt_of_lt_of_le fits k.clock_le
  | giveBack w f p => exact ⟨Nat.lt_of_lt_of_le fits.1 k.clock_le, h.taken fits.1 fits.2⟩
  | announce x p => exact parted_next k h fits
  | expire x r => exact ⟨parted_next k h fits.1, fits.2⟩
  | _ => trivial

theorem halts_next (hs : s.Sound) (k : s.keys.Step who s'.keys) (h : s.Onward answered s')
    (same : s'.registry.ending = s.registry.ending) : s'.Halts where
  disused begun := k.idle (hs.halts.disused (same ▸ begun))
  cached c hc := by
    obtain ⟨key, n, hn⟩ := cached_iff.1 (hs.halts.cached c (same ▸ hc))
    exact cached_iff.2 ⟨key, k.cached hs.keys ⟨n, hn⟩⟩
  canceled c rest ending := by
    have before := same ▸ ending
    obtain ⟨y, hy, canceled⟩ := hs.halts.canceled c rest before
    have cached := hs.halts.cached c (by simp [before, Ending.caches])
    exact (h.track (not_apart_of_cached cached)).lasting.2 y cached hy canceled

/-- Nobody finds a cache any more whose load is stopped at the end. -/
theorem spent_of_halt (hs : s.Sound) (hc : c ∈ s.registry.ending.caches) : s.keys.Spent c := by
  obtain ⟨k, n, hn⟩ := cached_iff.1 (hs.halts.cached c hc)
  have disused := hs.halts.disused fun ahead => by simp [ahead, Ending.caches] at hc
  exact hs.keys.spent_of_cache hn (by simp [disused.slot]) (by simp [disused.slot])

/-- Sound sessions stay sound. -/
theorem next (hs : s.Sound) (k : s.keys.Step who s'.keys) (h : s.Onward answered s') :
    s'.Sound where
  keys := hs.keys.step k
  track hc := by
    have before : ¬ s.keys.Apart _ := fun apart => hc (k.apart hs.keys apart)
    exact (hs.track before).step (h.track before)
  own hj := (h.own hj).elim (fun old => hs.own_next k (hs.own old)) id
  foreign hj := (h.foreign hj).elim (fun old => hs.foreign_next k (hs.foreign old)) id
  fits ht := (h.fits ht).elim (fun old => hs.fits_next k h old) id
  halts := h.halts.elim (hs.halts_next k h) id

theorem next_same (hs : s.Sound) (same : s'.keys = s.keys) (h : s.Onward answered s') : s'.Sound :=
  hs.next (.of_eq same) h

end Sound
end Session
end SharedStream
