import SharedStream.Proofs.Stores
import SharedStream.Sink

/-! # What sinks accept

Each write of a sink is an attempt: a beginning of its data was accepted, or it failed. A tally
holds and counts what its attempts have come to. The loop that writes everything is a series of
attempts, each with what the one before it has left over.
-/
namespace SharedStream

theorem octets_eq_nil_iff {data : ByteArray} : octets data = [] ↔ data.size = 0 := by
  rw [← length_octets, List.length_eq_zero_iff]

/-- A write that a sink was asked for, and what it came to. -/
structure Attempt where
  data : ByteArray
  result : Except IoFailure Nat

namespace Attempt

/-- What the sink has accepted of the data. -/
def taken (a : Attempt) : List UInt8 :=
  match a.result with
  | .ok n => (octets a.data).take n
  | .error _ => []

theorem taken_ok (data : ByteArray) (n : Nat) :
    taken ⟨data, .ok n⟩ = (octets data).take n := rfl

theorem taken_error (data : ByteArray) (e : IoFailure) : taken ⟨data, .error e⟩ = [] := rfl

end Attempt

namespace Sink
variable {s : Sink} {data : ByteArray} {n : Nat}

/-- What a write accepts comes to the end of the data. -/
theorem write_data (s : Sink) (data : ByteArray) : octets (s.write data).2.data =
    octets s.data ++ Attempt.taken ⟨data, (s.write data).1⟩ := by
  unfold write
  dsimp only
  split
  · rw [octets_append, Attempt.taken_ok, List.take_of_length_le (Nat.le_of_eq (length_octets data))]
  · simp [Attempt.taken, octets_extract]
  · simp [Attempt.taken]

theorem le_of_write (h : (s.write data).1 = .ok n) : n ≤ data.size := by
  unfold write at h
  dsimp only at h
  split at h
  · cases h
    exact Nat.le_refl _
  · cases h
    exact Nat.min_le_right ..
  · cases h

/-- Each write uses up a rule of the script. -/
theorem writes_write (s : Sink) (data : ByteArray) : (s.write data).2.writes = s.writes.tail := by
  unfold write
  dsimp only
  split
  · next none =>
    rw [none]
    rfl
  · next rules =>
    rw [rules]
    rfl
  · next rules =>
    rw [rules]
    rfl

/-- Without a rule everything is accepted. -/
theorem write_of_no_rule (none : s.writes = []) : (s.write data).1 = .ok data.size := by
  unfold write
  dsimp only
  rw [none]

@[simp] theorem data_flush (s : Sink) : s.flush.2.data = s.data := by
  unfold flush
  dsimp only
  split <;> rfl

end Sink

namespace Tally
variable {t u v : Tally} {data : ByteArray} {bytes more : List UInt8} {as bs : List Attempt}
variable {r r' : Except IoFailure Unit}

/-- The bytes have come to the data of the sink and to the count. -/
structure Gains (t u : Tally) (bytes : List UInt8) : Prop where
  written : u.written = t.written + bytes.length
  data : octets u.sink.data = octets t.sink.data ++ bytes

theorem Gains.refl (t : Tally) : t.Gains t [] := by
  constructor
  · rfl
  · exact (List.append_nil _).symm

theorem Gains.trans (h : t.Gains u bytes) (h' : u.Gains v more) : t.Gains v (bytes ++ more) := by
  constructor
  · rw [h'.written, h.written, List.length_append, Nat.add_assoc]
  · rw [h'.data, h.data, List.append_assoc]

theorem sink_write (t : Tally) (data : ByteArray) :
    (t.write data).2.sink = (t.sink.write data).2 ∧
      (t.write data).1 = (t.sink.write data).1 := by
  unfold write
  split
  · next n sink made => rw [made]; exact ⟨rfl, rfl⟩
  · next e sink made => rw [made]; exact ⟨rfl, rfl⟩

/-- A write gains what it accepts, and nothing if it fails. -/
theorem gains_write (t : Tally) (data : ByteArray) :
    t.Gains (t.write data).2 (Attempt.taken ⟨data, (t.write data).1⟩) := by
  have accepts := t.sink.write_data data
  unfold write
  split
  · next n sink made =>
    have fits : n ≤ data.size := Sink.le_of_write (congrArg Prod.fst made)
    rw [made] at accepts
    refine ⟨?_, accepts⟩
    simp only [Attempt.taken_ok, List.length_take, length_octets]
    omega
  · next e sink made =>
    rw [made] at accepts
    exact ⟨rfl, accepts⟩

theorem gains_flush (t : Tally) : t.Gains t.flush.2 [] := by
  constructor
  · rfl
  · rw [List.append_nil]
    exact congrArg octets (Sink.data_flush t.sink)

/-! ## Writing everything -/

/-- The loop that writes all of the data, with its attempts. An interrupted attempt is made again,
and one of which nothing is accepted is a failure. -/
inductive WritesAll : Tally → ByteArray → List Attempt → Except IoFailure Unit → Tally → Prop
  | done {t : Tally} {data : ByteArray} : data.size = 0 → WritesAll t data [] (.ok ()) t
  | more {t u : Tally} {data : ByteArray} {n : Nat} {as : List Attempt}
      {r : Except IoFailure Unit} : data.size ≠ 0 → (t.write data).1 = .ok n → n ≠ 0 →
      WritesAll (t.write data).2 (data.extract n data.size) as r u →
      WritesAll t data (⟨data, .ok n⟩ :: as) r u
  | nothing {t : Tally} {data : ByteArray} : data.size ≠ 0 → (t.write data).1 = .ok 0 →
      WritesAll t data [⟨data, .ok 0⟩] (.error writeZero) (t.write data).2
  | again {t u : Tally} {data : ByteArray} {e : IoFailure} {as : List Attempt}
      {r : Except IoFailure Unit} : data.size ≠ 0 → (t.write data).1 = .error e →
      e.kind = .interrupted → WritesAll (t.write data).2 data as r u →
      WritesAll t data (⟨data, .error e⟩ :: as) r u
  | fails {t : Tally} {data : ByteArray} {e : IoFailure} : data.size ≠ 0 →
      (t.write data).1 = .error e → e.kind ≠ .interrupted →
      WritesAll t data [⟨data, .error e⟩] (.error e) (t.write data).2

namespace WritesAll

theorem gains (h : t.WritesAll data as r u) : t.Gains u (as.flatMap Attempt.taken) := by
  induction h with
  | @done t => exact .refl t
  | @more t u data n as r some made left rest ih =>
    have first := t.gains_write data
    rw [made] at first
    exact first.trans ih
  | @nothing t data some made =>
    have first := t.gains_write data
    rw [made] at first
    exact first.trans (.refl _)
  | @again t u data e as r some made interrupted rest ih =>
    have first := t.gains_write data
    rw [made] at first
    exact first.trans ih
  | @fails t data e some made other =>
    have first := t.gains_write data
    rw [made] at first
    exact first.trans (.refl _)

/-- The attempts have brought a beginning of the data, each byte once, and all of it if and only if
the loop succeeds. -/
theorem exists_rest (h : t.WritesAll data as r u) :
    ∃ rest, octets data = as.flatMap Attempt.taken ++ rest ∧ (r = .ok () ↔ rest = []) := by
  induction h with
  | @done t data none => exact ⟨[], by simpa using octets_eq_nil_iff.2 none, by simp⟩
  | @more t u data n as r some made left later ih =>
    obtain ⟨rest, split, whole⟩ := ih
    refine ⟨rest, ?_, whole⟩
    have dropped : octets (data.extract n data.size) = (octets data).drop n := by
      rw [octets_extract, List.take_of_length_le (Nat.le_of_eq (length_octets data))]
    rw [List.flatMap_cons, Attempt.taken_ok, List.append_assoc, ← split, dropped,
      List.take_append_drop]
  | @nothing t data some made => exact ⟨octets data, rfl, by simpa [octets_eq_nil_iff] using some⟩
  | @again t u data e as r some made interrupted later ih =>
    obtain ⟨rest, split, whole⟩ := ih
    exact ⟨rest, split, whole⟩
  | @fails t data e some made other =>
    exact ⟨octets data, rfl, by simpa [octets_eq_nil_iff] using some⟩

end WritesAll

/-- The attempts of `writeAllFrom`. -/
def attemptsFrom (fuel : Nat) (t : Tally) (data : ByteArray) : List Attempt :=
  match fuel with
  | 0 => []
  | fuel + 1 =>
    if data.size = 0 then []
    else match t.write data with
      | (.ok 0, _) => [⟨data, .ok 0⟩]
      | (.ok n, t) => ⟨data, .ok n⟩ :: attemptsFrom fuel t (data.extract n data.size)
      | (.error e, t) =>
        ⟨data, .error e⟩ :: if e.kind = .interrupted then attemptsFrom fuel t data else []

def attempts (t : Tally) (data : ByteArray) : List Attempt :=
  attemptsFrom (t.sink.writes.length + 2) t data

/-- There is fuel for each rule of the script, for what is left when all rules are used up, and for
finding that nothing is left. -/
theorem writesAllFrom {fuel : Nat} (t : Tally) (data : ByteArray)
    (enough : data.size = 0 ∧ 0 < fuel ∨ t.sink.writes.length + 1 < fuel) :
    t.WritesAll data (attemptsFrom fuel t data) (writeAllFrom fuel t data).1
      (writeAllFrom fuel t data).2 := by
  induction fuel generalizing t data with
  | zero => omega
  | succ fuel ih =>
    rw [attemptsFrom, writeAllFrom]
    by_cases none : data.size = 0
    · rw [if_pos none, if_pos none]
      exact .done none
    rw [if_neg none, if_neg none]
    have rules := t.sink.writes_write data
    obtain ⟨sink, told⟩ := t.sink_write data
    rw [← sink] at rules
    have shorter : t.sink.writes ≠ [] → (t.write data).2.sink.writes.length + 1 < fuel := by
      intro left
      have length := List.length_pos_iff.2 left
      rw [rules, List.length_tail]
      omega
    have script : t.sink.writes = [] → (t.write data).1 = .ok data.size :=
      fun none => told.trans (Sink.write_of_no_rule none)
    rcases made : t.write data with ⟨result, u⟩
    have first : (t.write data).1 = result := congrArg Prod.fst made
    have after : (t.write data).2 = u := congrArg Prod.snd made
    rw [after] at shorter
    rw [first] at script
    cases result with
    | error e =>
      have left : t.sink.writes ≠ [] := fun none => nomatch script none
      by_cases interrupted : e.kind = .interrupted
      · simp only [if_pos interrupted]
        exact .again none first interrupted (after ▸ ih u data (.inr (shorter left)))
      · simp only [if_neg interrupted]
        exact after ▸ .fails none first interrupted
    | ok n =>
      cases n with
      | zero => exact after ▸ .nothing none first
      | succ n =>
        refine .more none first (Nat.succ_ne_zero n) (after ▸ ih u _ ?_)
        by_cases rule : t.sink.writes = []
        · left
          have all : n + 1 = data.size := Except.ok.inj (script rule)
          refine ⟨?_, by omega⟩
          rw [← length_octets, octets_extract, all, List.length_drop, List.length_take]
          omega
        · exact .inr (shorter rule)

theorem writesAll_attempts (t : Tally) (data : ByteArray) :
    t.WritesAll data (t.attempts data) (t.writeAll data).1 (t.writeAll data).2 :=
  writesAllFrom t data (.inr (Nat.lt_succ_self _))

end Tally
end SharedStream
