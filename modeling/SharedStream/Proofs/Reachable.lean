import SharedStream.Proofs.Loads.Entries

/-! # Reachable sessions are sound -/
namespace SharedStream

/-- The call that begins or moves in the event. -/
def Event.caller : Event → Option CallId
  | .begin id _ => some id
  | .move a => a.caller

namespace Session
open Keys

variable {s : Session} {e : Event}

theorem step_after (hs : s.Sound) (admitted : s.admits e) :
    s.keys.Step e.caller (s.after e).keys := by
  cases e with
  | begin id op => exact step_begin op hs.keys admitted
  | move a =>
    refine step_move hs.keys admitted (fun id k mode ht => ?_) fun id x r ht => (hs.completed ht).1
    obtain ⟨x, hx⟩ := hs.fits ht
    simp [Table.contains, hx]

theorem onward_after (hs : s.Sound) (admitted : s.admits e) :
    s.Onward (fun c => s.answered c e) (s.after e) := by
  cases e with
  | begin id op => exact onward_begin op hs admitted
  | move a => exact onward_move hs admitted

theorem Sound.after (hs : s.Sound) (admitted : s.admits e) : (s.after e).Sound :=
  hs.next (step_after hs admitted) (onward_after hs admitted)

theorem sound_start (config : CacheConfig) (workers : Nat) : (start config workers).Sound where
  keys := by
    refine ⟨⟨?_, ?_, ?_, ?_⟩, ?_, ?_, ?_, ?_, ?_, ?_, ?_, ?_, ?_⟩ <;>
      simp [start, keys, task?, stake, stakeOf, source, Registry.ofConfig]
  track _ := by
    refine ⟨?_, ?_, ?_, ?_, ?_, ?_, ?_⟩ <;>
      simp [start, Session.track, stages, task?, Table.contains, Registry.ofConfig, Pool.ofLimit,
        Pool.stages, Pool.running, Pool.loads, Pool.waiting, Pool.orphans]
  own hj := by
    simp [start, Registry.ofConfig, Pool.ofLimit, Pool.mem_jobs_iff, Pool.loads, Pool.orphans] at hj
  foreign hj := by simp [start, Pool.ofLimit, Pool.mem_jobs_iff, Pool.loads, Pool.orphans] at hj
  fits ht := by simp [start, task?] at ht
  halts := by
    refine ⟨fun begun => absurd rfl begun, ?_, ?_⟩
    · rintro c ⟨⟩
    · rintro c rest ⟨⟩

/-- Nobody opens anything when the registry ends. -/
theorem Sound.role_eq_none_of_ends (hs : s.Sound) (can : s.canMove .registry = true) (i : CallId) :
    s.keys.role i = none := by
  by_cases ahead : s.registry.ending = .ahead
  · exact role_eq_none_of_unused (unused_of_canMove can ahead) i
  · exact (hs.halts.disused ahead).role i

/-- Every reachable session is sound. -/
theorem Reach.sound {config : CacheConfig} {workers : Nat} (h : Reach (start config workers) s) :
    s.Sound :=
  h.invariant (sound_start config workers) fun _ hs admitted => hs.after admitted

/-! ## Loads that have stopped -/

variable {c : CallId} {t u : Session}

theorem Sound.gone_of_finished (hs : s.Sound) (cached : s.caches.contains c = true)
    (finished : (s.store (.cache c)).finished = true) : (s.track c).Gone := by
  obtain ⟨y, -, hy, -, store, -⟩ := eq_of_track_of_stages hs cached
  rw [store] at finished
  refine ⟨cached, List.eq_nil_iff_forall_not_mem.2 fun st hst => ?_⟩
  have unfinished := (hs.track (not_apart_of_cached cached)).unfinished hst hy
  simp [finished] at unfinished

theorem Sound.closed_of_gone (hs : s.Sound) (gone : (s.track c).Gone) :
    (s.source c).closed = true := by
  obtain ⟨cached, stages⟩ := gone
  obtain ⟨-, x, -, hx, -, source⟩ := eq_of_track_of_stages hs cached
  rw [source]
  exact (hs.track (not_apart_of_cached cached)).gone cached stages hx

/-- The load of the cache has stopped, and since `s` nothing has come to its store, nor was its
source read or opened again. -/
structure Rests (s : Session) (c : CallId) (u : Session) : Prop where
  gone : (u.track c).Gone
  chunks : (u.store (.cache c)).chunks = (s.store (.cache c)).chunks
  finished : (u.store (.cache c)).finished = (s.store (.cache c)).finished
  closed : (u.source c).closed = (s.source c).closed
  reads : (u.source c).reads = (s.source c).reads

theorem Rests.refl (gone : (s.track c).Gone) : s.Rests c s := ⟨gone, rfl, rfl, rfl, rfl⟩

theorem Rests.trans (h : s.Rests c t) (h' : t.Rests c u) : s.Rests c u where
  gone := h'.gone
  chunks := h'.chunks.trans h.chunks
  finished := h'.finished.trans h.finished
  closed := h'.closed.trans h.closed
  reads := h'.reads.trans h.reads

theorem Sound.rests_after (hs : s.Sound) (gone : (s.track c).Gone) (admitted : s.admits e) :
    s.Rests c (s.after e) := by
  have cached : s.caches.contains c = true := gone.1
  obtain ⟨y, x, hy, hx, store, source⟩ := eq_of_track_of_stages hs cached
  obtain ⟨-, gone', stores, sources⟩ :=
    gone.step ((onward_after hs admitted).track (not_apart_of_cached cached))
  obtain ⟨y', hy', chunks, finished⟩ := stores y hy
  obtain ⟨x', hx', closed, reads⟩ := sources x hx
  have store' : (s.after e).store (.cache c) = y' := by
    rw [Session.store, show (s.after e).stores.get? (.cache c) = some y' from hy', Option.getD_some]
  have source' : (s.after e).source c = x' := by
    rw [Session.source, show (s.after e).sources.get? c = some x' from hx', Option.getD_some]
  refine ⟨gone', ?_, ?_, ?_, ?_⟩
  · rw [store', store, chunks]
  · rw [store', store, finished]
  · rw [source', source, closed]
  · rw [source', source, reads]

end Session

namespace Run
open Session

variable {config : CacheConfig} {workers : Nat} (r : Run (start config workers))

theorem sound (n : Nat) : (r.state n).Sound := (r.reach n).sound

theorem step (n : Nat) : (r.state n).keys.Step (r.event n).caller (r.state (n + 1)).keys := by
  rw [r.state_succ]
  exact step_after (r.sound n) (r.admitted n)

theorem onward (n : Nat) :
    (r.state n).Onward (fun c => (r.state n).answered c (r.event n)) (r.state (n + 1)) := by
  rw [r.state_succ]
  exact onward_after (r.sound n) (r.admitted n)

variable {c : CallId} {m n : Nat}

/-- What is kept by every step of the keys is kept for good. -/
theorem kept_keys {P : Keys → Prop} (init : P (r.state m).keys) (le : m ≤ n)
    (kept : ∀ {v v' : Keys} {who : Option CallId}, v.Valid → v.Step who v' → P v → P v') :
    P (r.state n).keys := by
  refine r.kept (P := fun s => P s.keys) init (fun i _ h => ?_) le
  exact kept (r.sound i).keys (step_after (r.sound i) (r.admitted i)) h

theorem cached_mono {k : Key} (cached : ∃ x, (r.state m).keys.cache c = some (k, x))
    (le : m ≤ n) : ∃ x, (r.state n).keys.cache c = some (k, x) :=
  r.kept_keys (P := fun v => ∃ x, v.cache c = some (k, x)) cached le fun hv hs h => hs.cached hv h

theorem rests (gone : ((r.state m).track c).Gone) (le : m ≤ n) :
    (r.state m).Rests c (r.state n) := by
  refine r.kept (P := fun s => (r.state m).Rests c s) (.refl gone) (fun i _ h => ?_) le
  exact h.trans ((r.sound i).rests_after h.gone (r.admitted i))

end Run
end SharedStream
