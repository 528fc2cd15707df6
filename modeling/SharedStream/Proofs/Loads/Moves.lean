import SharedStream.Proofs.Loads.Quiet

/-! # Loads under the moves of a session

Each move is a step of the track of each source that belongs to the registry.
-/
namespace SharedStream.Session
open Keys

variable {s : Session} {id c : CallId} {k : Key}

/-! ## Moves that leave the loads alone -/

theorem onward_moveSeekReader {mode : LoadMode} (hs : s.Sound)
    (ht : s.task? id = some (.seekReader k mode)) :
    s.Onward (fun _ => none) (s.moveSeekReader id k mode) := by
  have same := QuietMove.refl s
  unfold moveSeekReader
  split
  · exact same.answer hs.keys ht rfl _
  split
  · obtain ⟨x, hx⟩ := hs.fits ht
    have built : ((s.setSlot k .opening).modifySource id Source.build).sources.get? id =
        some x.build := by
      simp [modifySource, setSlot, Table.get?_modify, hx]
    have quiet : s.QuietMove ((s.setSlot k .opening).modifySource id Source.build) :=
      (same.setSlot k _).modifySource id fun x => ⟨rfl, rfl⟩
    exact quiet.goOn hs.keys ht rfl rfl ⟨x.build, built⟩
  · exact same.attach hs.keys ht rfl _
  all_goals exact same.sleep hs.keys

theorem onward_moveRegister (hs : s.Sound) (ht : s.task? id = some (.register k)) :
    s.Onward (fun _ => none) (s.moveRegister id k) :=
  ((QuietMove.refl s).setSlot k _).notifyKeys.attach hs.keys ht rfl id

theorem onward_moveSeekWriter (hs : s.Sound) (ht : s.task? id = some (.seekWriter k)) :
    s.Onward (fun _ => none) (s.moveSeekWriter id k) := by
  have same := QuietMove.refl s
  unfold moveSeekWriter
  split
  · exact same.refuse hs.keys ht rfl _
  split
  · exact same.grant hs.keys ht rfl _
  · split
    · exact same.refuse hs.keys ht rfl _
    split
    · exact (same.setSlot k _).goOn hs.keys ht rfl rfl trivial
    · exact same.sleep hs.keys
  all_goals exact same.sleep hs.keys

theorem onward_moveAwaitCache (hs : s.Sound) (ht : s.task? id = some (.awaitCache k c)) :
    s.Onward (fun _ => none) (s.moveAwaitCache id k c) := by
  unfold moveAwaitCache
  split
  · exact (QuietMove.refl s).goOn hs.keys ht rfl rfl trivial
  · exact (QuietMove.refl s).sleep hs.keys

theorem onward_moveLease (hs : s.Sound) (ht : s.task? id = some (.lease k)) :
    s.Onward (fun _ => none) (s.moveLease id k) := by
  unfold moveLease
  split
  · exact (QuietMove.refl s).grant hs.keys ht rfl _
  · exact (QuietMove.refl s).refuse hs.keys ht rfl _

theorem QuietMove.moved (r : Reading) (h : Reader) (o : ReadOutcome) :
    s.QuietMove (s.moved r h o) := by
  have moved := (QuietMove.refl s).readers (s.readers.set r.reader (advanced r h o))
  unfold Session.moved
  dsimp only
  split
  · exact moved
  · exact moved.touch r.cache

theorem Fits.read {u : Session} {r r' : Reading} (h : s.Fits id (.read r)) (keys : u.keys = s.keys)
    (reader : r'.reader = r.reader) (cache : r'.cache = r.cache) : u.Fits id (.read r') := by
  obtain ⟨later, ended, fits⟩ := h
  have clock : u.clock = s.clock := congrArg Keys.clock keys
  refine ⟨?_, ?_, ?_⟩
  · rwa [reader, clock]
  · rwa [reader, keys]
  · rwa [reader, cache, keys]

theorem onward_moveReading {r : Reading} (hs : s.Sound) (ht : s.task? id = some (.read r)) :
    s.Onward (fun _ => none) (s.moveReading id r) := by
  have same := QuietMove.refl s
  have move := s.readMove id r
  generalize s.moveReading id r = u at move ⊢
  cases move with
  | missing => exact same.answer hs.keys ht rfl _
  | refused => exact same.answer hs.keys ht rfl _
  | waits => exact same.sleep hs.keys
  | @goesOn h o buf r' hr _ after =>
    have role : (Task.read r').role? = (Task.read r).role? := rfl
    have keys := (keys_goOn_eq ((task?_moved r h o id).trans ht) role).trans (keys_moved hr o)
    obtain ⟨reader, cache, -⟩ := Reading.after_inl after
    have fits := (hs.fits ht).read keys reader cache
    exact (QuietMove.moved r h o).goOn hs.keys ht rfl rfl fits
  | @ends h o buf result hr => exact (QuietMove.moved r h o).answer hs.keys ht rfl _

theorem onward_moveLeave {r : CallId} {p : Parting} (hs : s.Sound)
    (ht : s.task? id = some (.leave r p)) :
    s.Onward (fun _ => none) (s.moveLeave id r p) := by
  have same := QuietMove.refl s
  unfold moveLeave
  split
  · exact same.answer hs.keys ht rfl _
  next h hr =>
  obtain ⟨k, n, -, refs, pos⟩ := refs_pos hs.keys hr
  have gone := same.readers (s.readers.erase r)
  dsimp only
  rw [if_neg (by omega)]
  split
  · exact (gone.addRefs h.cache (-1)).goOn hs.keys ht rfl rfl rfl
  · exact (gone.addRefs h.cache (-1)).depart hs.keys ht rfl rfl rfl rfl

theorem onward_moveAnnounce {h : ClosedHandle} {p : Parting} (hs : s.Sound)
    (ht : s.task? id = some (.announce h p)) :
    s.Onward (fun _ => none) (s.moveAnnounce id h p) :=
  (QuietMove.refl s).notifyKeys.depart hs.keys ht rfl rfl (hs.fits ht) rfl

theorem onward_moveCloseSink {w : CallId} {p : Parting} (hs : s.Sound)
    (ht : s.task? id = some (.closeSink w p)) :
    s.Onward (fun _ => none) (s.moveCloseSink id w p) := by
  have taken : ∀ {i}, (i = w ∨ s.isOpen i = false) → (s.takeSink w).2.isOpen i = false := by
    intro i h
    by_cases hi : i = w
    · simp [takeSink, isOpen, sink, hi, Sink.close]
    · simpa [takeSink, isOpen, sink, Table.get?_set, hi] using h
  have quiet : s.QuietMove (s.takeSink w).2 :=
    (QuietMove.refl s).sinks fun _ closed => taken (.inr closed)
  exact quiet.goOn hs.keys ht rfl rfl ⟨hs.fits ht, taken (.inl rfl)⟩

theorem onward_moveGiveBack {w : CallId} {f : Option IoFailure} {p : Parting} (hs : s.Sound)
    (ht : s.task? id = some (.giveBack w f p)) :
    s.Onward (fun _ => none) (s.moveGiveBack id w f p) := by
  have same := QuietMove.refl s
  unfold moveGiveBack
  split
  · exact same.answer hs.keys ht rfl _
  next h hw =>
  have gone := same.writers (s.writers.erase w)
  have told := Parting.violation_report p f
  dsimp only
  rw [if_pos (slot_of_writer hs.keys hw)]
  obtain ⟨old, closed⟩ := hs.fits ht
  have ended : s.keys.role w = none := by
    refine Option.eq_none_iff_forall_ne_some.2 fun x role => ?_
    have present : s.keys.writer w = some h.key := by simp [keys, hw]
    cases present.symm.trans (hs.keys.no_handle role).2
  exact (gone.freeSlot h.key).notifyKeys.depart hs.keys ht rfl rfl ⟨old, ended, closed⟩ told

theorem onward_moveExpire {x : ClosedHandle} {r : Result} (hs : s.Sound)
    (ht : s.task? id = some (.expire x r)) :
    s.Onward (fun _ => none) (s.moveExpire id x r) := by
  rw [moveExpire_eq (hs.completed ht).1]
  exact (QuietMove.refl s).answer hs.keys ht rfl r

theorem onward_moveReadStore {x : StoreId} {r : Store.Request} (hs : s.Sound)
    (ht : s.task? id = some (.readStore x r)) :
    s.Onward (fun _ => none) (s.moveReadStore id x r) := by
  have same := QuietMove.refl s
  unfold moveReadStore
  split
  · exact same.answer hs.keys ht rfl _
  · exact same.sleep hs.keys
  · exact same.answer hs.keys ht rfl _

theorem onward_moveAwaitStore {x : StoreId} (hs : s.Sound)
    (ht : s.task? id = some (.awaitStore x)) :
    s.Onward (fun _ => none) (s.moveAwaitStore id x) := by
  unfold moveAwaitStore
  split
  · exact (QuietMove.refl s).answer hs.keys ht rfl _
  · exact (QuietMove.refl s).sleep hs.keys

end SharedStream.Session
