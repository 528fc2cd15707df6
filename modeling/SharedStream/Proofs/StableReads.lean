import SharedStream.Proofs.StoreHistories

/-! # Answers that stay true

What a read of a store has delivered is delivered again by every later read of the same place, and
a stream that has ended once has ended for good.
-/
namespace SharedStream

namespace Store
variable {y z : Store} {q q' : Request} {o : ReadOutcome} {buf : ByteArray} {k : Nat}

/-! ## What an answer says about the store -/

theorem room_of_done (done : y.read q = .done o buf) : q.offset + q.len ≤ q.buf.size := by
  by_contra out
  rw [read, if_pos (by omega)] at done
  cases done

theorem of_read_bytes (gapless : y.Gapless) (done : y.read q = .done (.bytes k) buf) :
    q.len = 0 ∧ k = 0 ∨ q.position < y.loadedLen ∧ k = min q.len (y.loadedLen - q.position) := by
  have meets := gapless.meets q
  have room := room_of_done done
  by_cases none : q.len = 0
  · have empty := meets.empty room none
    rw [done] at empty
    cases empty
    exact .inl ⟨none, rfl⟩
  · by_cases loaded : q.position < y.loadedLen
    · obtain ⟨n, buf', made, count, -⟩ := meets.bytes room none loaded
      rw [done] at made
      cases made
      exact .inr ⟨loaded, count⟩
    · rw [read, if_neg (by omega), if_neg none, if_pos (by omega)] at done
      split at done
      · cases done
      split at done
      · cases done
      · cases done

theorem of_read_endOfStream (done : y.read q = .done .endOfStream buf) :
    y.loadedLen ≤ q.position ∧ y.finished = true := by
  unfold read at done
  split at done
  · cases done
  split at done
  · cases done
  split at done
  · next short =>
    split at done
    · next finished => exact ⟨short, finished⟩
    split at done
    · cases done
    · cases done
  · cases done

theorem of_read_notYet (done : y.read q = .done .notYet buf) : y.finished = false := by
  unfold read at done
  split at done
  · cases done
  split at done
  · cases done
  split at done
  · split at done
    · cases done
    · next unfinished => simpa using unfinished
  · cases done

/-- The bytes that a read delivers are those of the stream at its position. -/
theorem getElem?_of_read (gapless : y.Gapless) (done : y.read q = .done o buf) {p : Nat}
    (from_ : q.position ≤ p) (upTo : p < q.position + o.count) :
    ∃ b, (octets buf)[q.offset + (p - q.position)]? = some b ∧ (octets y.bytes)[p]? = some b := by
  have copied := read_done gapless done
  have loaded := copied.loaded
  have stored : p < (octets y.bytes).length := by omega
  have delivered : (octets (buf.extract q.offset (q.offset + o.count)))[p - q.position]? =
      (octets y.bytes)[p]? := by
    rw [copied.extract_eq, List.getElem?_take_of_lt (by omega), List.getElem?_drop,
      Nat.add_sub_cancel' from_]
  rw [octets_extract, List.getElem?_drop, List.getElem?_take_of_lt (by omega)] at delivered
  exact ⟨_, delivered.trans (List.getElem?_eq_getElem stored), List.getElem?_eq_getElem stored⟩

/-- A read delivers all that it wants of what is there. -/
theorem extract_of_read (gapless : y.Gapless) (done : y.read q = .done o buf) :
    octets (buf.extract q.offset (q.offset + o.count)) =
      ((octets y.bytes).drop q.position).take o.count :=
  (read_done gapless done).extract_eq

/-! ## Later answers -/

/-- A read of a place that has delivered bytes delivers at least as many when more is loaded. -/
theorem read_bytes_of_le (gapless : y.Gapless) (gapless' : z.Gapless)
    (le : y.loadedLen ≤ z.loadedLen) (done : y.read q = .done (.bytes k) buf)
    (room : q'.offset + q'.len ≤ q'.buf.size) (position : q'.position = q.position)
    (len : q'.len = q.len) : ∃ k' buf', z.read q' = .done (.bytes k') buf' ∧ k ≤ k' := by
  have meets := gapless'.meets q'
  rcases of_read_bytes gapless done with ⟨none, rfl⟩ | ⟨loaded, rfl⟩
  · exact ⟨0, q'.buf, meets.empty room (len.trans none), Nat.le_refl 0⟩
  · by_cases none : q'.len = 0
    · exact ⟨0, q'.buf, meets.empty room none, by omega⟩
    · obtain ⟨n, buf', made, count, -⟩ := meets.bytes room none (by omega)
      exact ⟨n, buf', made, by omega⟩

/-- A stopped store answers all reads of a place alike. -/
theorem read_eq_of_finished (gapless : y.Gapless) (gapless' : z.Gapless)
    (finished : y.finished = true) (finished' : z.finished = true) (chunks : z.chunks = y.chunks)
    (loadedLen : z.loadedLen = y.loadedLen) (room : q.offset + q.len ≤ q.buf.size)
    (room' : q'.offset + q'.len ≤ q'.buf.size) (position : q'.position = q.position)
    (len : q'.len = q.len) : ∃ o buf buf', y.read q = .done o buf ∧ z.read q' = .done o buf' ∧
      octets (buf.extract q.offset (q.offset + o.count)) =
        octets (buf'.extract q'.offset (q'.offset + o.count)) := by
  have bytes : z.bytes = y.bytes := by rw [Store.bytes, chunks, Store.bytes]
  suffices alike : ∃ o buf buf', y.read q = .done o buf ∧ z.read q' = .done o buf' by
    obtain ⟨o, buf, buf', done, done'⟩ := alike
    refine ⟨o, buf, buf', done, done', ?_⟩
    rw [extract_of_read gapless done, extract_of_read gapless' done', bytes, position]
  have meets := gapless.meets q
  have meets' := gapless'.meets q'
  by_cases none : q.len = 0
  · exact ⟨_, _, _, meets.empty room none, meets'.empty room' (len.trans none)⟩
  · by_cases short : y.loadedLen ≤ q.position
    · exact ⟨_, _, _, meets.ended room none short finished,
        meets'.ended room' (by omega) (by omega) finished'⟩
    · obtain ⟨n, buf, made, count, -⟩ := meets.bytes room none (by omega)
      obtain ⟨n', buf', made', count', -⟩ := meets'.bytes room' (by omega) (by omega)
      have same : n' = n := by rw [count, count', position, len, loadedLen]
      exact ⟨_, _, _, made, same ▸ made'⟩

end Store

namespace Run
open Session

variable {config : CacheConfig} {workers : Nat} (r : Run (start config workers))
variable {i j : CallId} {x : StoreId} {q q' : Store.Request} {m n : Nat} {o o' : ReadOutcome}
variable {buf buf' : ByteArray}

/-- The call makes its read of the store in event `n`, which comes to an outcome and a buffer. -/
structure Yields (n : Nat) (id : CallId) (x : StoreId) (q : Store.Request) (o : ReadOutcome)
    (buf : ByteArray) : Prop where
  asks : (r.state n).Asks id x q
  event : r.event n = .move (.call id)
  read : ((r.state n).store x).read q = .done o buf

/-- What reads of the store have come to goes for all later ones, whoever makes them. -/
structure Stable (x : StoreId) : Prop where
  /-- Where the ranges of two reads overlap, they have delivered the same bytes. -/
  overlap : ∀ {m n i j q q' o o' buf buf'}, r.Yields m i x q o buf → r.Yields n j x q' o' buf' →
    ∀ p, q.position ≤ p → p < q.position + o.count →
      q'.position ≤ p → p < q'.position + o'.count →
      ∃ b, (octets buf)[q.offset + (p - q.position)]? = some b ∧
        (octets buf')[q'.offset + (p - q'.position)]? = some b
  bytes : ∀ {m n i q k buf}, r.Yields m i x q (.bytes k) buf → m ≤ n →
    ∀ q', q'.offset + q'.len ≤ q'.buf.size → q'.position = q.position → q'.len = q.len →
      ∃ k' buf', ((r.state n).store x).read q' = .done (.bytes k') buf' ∧ k ≤ k'
  ended : ∀ {m n i q buf}, r.Yields m i x q .endOfStream buf → m ≤ n →
    ((r.state n).store x).loadedLen = ((r.state m).store x).loadedLen
  endOfStream : ∀ {m n i q buf}, r.Yields m i x q .endOfStream buf → m ≤ n →
    ∀ q', q'.offset + q'.len ≤ q'.buf.size → q'.len ≠ 0 → q.position ≤ q'.position →
      ((r.state n).store x).read q' = .done .endOfStream q'.buf
  /-- After the end of the stream the moment of a read makes no difference. -/
  same : ∀ {m n n' i q buf}, r.Yields m i x q .endOfStream buf → m ≤ n → m ≤ n' →
    ∀ a b, a.offset + a.len ≤ a.buf.size → b.offset + b.len ≤ b.buf.size →
      b.position = a.position → b.len = a.len →
      ∃ o buf buf', ((r.state n).store x).read a = .done o buf ∧
        ((r.state n').store x).read b = .done o buf' ∧
        octets (buf.extract a.offset (a.offset + o.count)) =
          octets (buf'.extract b.offset (b.offset + o.count))
  notYet : ∀ {m n i q buf}, ((r.state m).store x).finished = true → m ≤ n →
    ¬ r.Yields n i x q .notYet buf
  /-- A read that does not have to wait can be made at once. -/
  canMove : ∀ {n i q}, (r.state n).Asks i x q → ((r.state n).store x).read q ≠ .waits →
    (r.state n).canMove (.call i) = true
  /-- Whoever reads the store by himself is told what the read has come to, -/
  told : ∀ {n i q o buf}, r.Yields n i x q o buf → (r.state n).task? i = some (.readStore x q) →
    (r.state (n + 1)).results.get? i = some (.storeRead (.outcome o buf))
  /-- and so is whoever reads through a handle, when he has what he is after. -/
  told_reader : ∀ {n i q o buf g result}, r.Yields n i x q o buf →
    (r.state n).task? i = some (.read g) → g.after o buf = .inr result →
    ∃ position, (r.state (n + 1)).results.get? i = some (.read result position)

theorem gapless (x : StoreId) (n : Nat) : ((r.state n).store x).Gapless :=
  (r.attentive n).stocked.gapless x

/-- Two reads agree wherever their ranges overlap, as the second store has all of the first. -/
theorem overlap_of_le (first : r.Yields m i x q o buf) (second : r.Yields n j x q' o' buf')
    (le : m ≤ n) {p : Nat} (from_ : q.position ≤ p) (upTo : p < q.position + o.count)
    (from' : q'.position ≤ p) (upTo' : p < q'.position + o'.count) :
    ∃ b, (octets buf)[q.offset + (p - q.position)]? = some b ∧
      (octets buf')[q'.offset + (p - q'.position)]? = some b := by
  obtain ⟨b, delivered, stored⟩ :=
    Store.getElem?_of_read (r.gapless x m) first.read from_ upTo
  obtain ⟨b', delivered', stored'⟩ :=
    Store.getElem?_of_read (r.gapless x n) second.read from' upTo'
  obtain ⟨more, all⟩ := (r.store_extends x le).bytes
  have lt : p < (octets ((r.state m).store x).bytes).length :=
    (List.getElem?_eq_some_iff.1 stored).1
  rw [← all, List.getElem?_append_left lt, stored] at stored'
  cases stored'
  exact ⟨b, delivered, delivered'⟩

theorem Yields.finished (h : r.Yields m i x q .endOfStream buf) :
    ((r.state m).store x).finished = true :=
  (Store.of_read_endOfStream h.read).2

theorem stable (x : StoreId) : r.Stable x where
  overlap {m n} i j q q' o o' buf buf' first second p from_ upTo from' upTo' := by
    rcases Nat.le_total m n with le | le
    · exact r.overlap_of_le first second le from_ upTo from' upTo'
    · obtain ⟨b, delivered', delivered⟩ := r.overlap_of_le second first le from' upTo' from_ upTo
      exact ⟨b, delivered, delivered'⟩
  bytes {m n} i q k buf first le q' room position len :=
    Store.read_bytes_of_le (r.gapless x m) (r.gapless x n) (r.store_grows x le).loaded first.read
      room position len
  ended first le := ((r.store_grows x le).finished first.finished).2
  endOfStream {m n} i q buf first le q' room some past := by
    obtain ⟨finished, len⟩ := (r.store_grows x le).finished first.finished
    have short := (Store.of_read_endOfStream first.read).1
    exact ((r.gapless x n).meets q').ended room some (by omega) finished
  same {m n n'} i q buf first le le' a b room room' position len := by
    have stopped : ((r.state m).store x).isOpen = false := by
      simp [Store.isOpen, first.finished]
    have kept := r.store_extends x le
    have kept' := r.store_extends x le'
    obtain ⟨chunks, loadedLen⟩ := kept.stopped stopped
    obtain ⟨chunks', loadedLen'⟩ := kept'.stopped stopped
    exact Store.read_eq_of_finished (r.gapless x n) (r.gapless x n')
      (kept.finished first.finished) (kept'.finished first.finished) (chunks'.trans chunks.symm)
      (loadedLen'.trans loadedLen.symm) room room' position len
  notYet finished le late := by
    have unfinished := Store.of_read_notYet late.read
    rw [(r.store_extends x le).finished finished] at unfinished
    cases unfinished
  canMove asks past := asks.canMove (r.attentive _) past
  told first ht := by
    rw [r.state_succ, first.event, Session.after, move_of_task ht, moveTask, moveReadStore,
      first.read]
    exact Table.get?_set_self ..
  told_reader {n} i q o buf g result first ht after := by
    rcases first.asks with task | ⟨g', h, task, hr, rfl, rfl⟩
    · cases task.symm.trans ht
    · cases task.symm.trans ht
      have read := first.read
      rw [r.state_succ, first.event, Session.after, move_of_task ht, moveTask, moveReading, hr]
      simp only [read, after]
      exact ⟨_, Table.get?_set_self ..⟩

end Run
end SharedStream
