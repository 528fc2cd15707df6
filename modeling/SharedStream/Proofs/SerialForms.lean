import SharedStream.Proofs.InstantTexts
import SharedStream.Proofs.JsonTexts
import SharedStream.Proofs.Layering
import SharedStream.Stats

/-! # Serialised forms

Keys, configurations and statistics are written as JSON and read back as they were, as long as
their numbers fit. Only such values can be read at all, so whatever a text gives can be written and
read again. Main statement: `serialForms`.
-/
namespace SharedStream

namespace Json

theorem eq_map_of_mapM_char? {ms : List Mark} {cs : List Char}
    (chars : ms.mapM Mark.char? = some cs) : ms = cs.map .char := by
  induction ms generalizing cs with
  | nil =>
    cases chars
    rfl
  | cons m ms ih =>
    rw [List.mapM_cons] at chars
    obtain ⟨c, first, rest⟩ := Option.bind_eq_some_iff.1 chars
    obtain ⟨ds, others, done⟩ := Option.bind_eq_some_iff.1 rest
    cases done
    rw [List.map_cons, ih others]
    cases m with
    | char d =>
      cases first
      rfl
    | half n => cases first

theorem text?_eq_some_iff {ms : List Mark} {s : String} : text? ms = some s ↔ ms = marks s := by
  constructor
  · intro text
    obtain ⟨cs, chars, rfl⟩ := Option.map_eq_some_iff.1 text
    rw [marks, String.toList_ofList]
    exact eq_map_of_mapM_char? chars
  · rintro rfl
    exact text?_marks s

theorem size?_int {n : Nat} (fits : n < wordLimit) : size? (.int n) = some n := by
  have word : isWord n = true := by
    simp only [isWord, Bool.and_eq_true, decide_eq_true_eq]
    omega
  rw [size?, if_pos word, Int.toNat_natCast]

theorem lt_of_size? {j : Json} {n : Nat} (read : size? j = some n) : n < wordLimit := by
  unfold size? at read
  split at read
  · split at read
    · next word =>
      cases read
      simp only [isWord, Bool.and_eq_true, decide_eq_true_eq] at word
      omega
    · cases read
  · cases read

theorem signed?_int {n : Int} (fits : isSignedWord n = true) : signed? (.int n) = some n :=
  if_pos fits

theorem isSignedWord_of_signed? {j : Json} {n : Int} (read : signed? j = some n) :
    isSignedWord n = true := by
  unfold signed? at read
  split at read
  · split at read
    · next fits =>
      cases read
      exact fits
    · cases read
  · cases read

/-- What a text of JSON is decoded as. -/
def decode {α : Type} (ofJson? : Json → Option α) (text : String) : Option α :=
  (parse text).bind ofJson?

theorem decode_print {α : Type} {ofJson? : Json → Option α} {j : Json} (plain : Plain j) :
    decode ofJson? j.print = ofJson? j := by
  rw [decode, parse_print plain, Option.bind_some]

end Json

/-! ## Round trips -/

/-- Writing and reading keep the values that fit, and no others can be read. -/
structure RoundTrips {α : Type} (toJson : α → Json) (ofJson? : Json → Option α)
    (Fits : α → Prop) : Prop where
  reached : ∀ a, (∃ text, Json.decode ofJson? text = some a) ↔ Fits a
  back : ∀ a, Fits a → Json.decode ofJson? (toJson a).print = some a
  /-- What has been read is written the same the second time as the first. -/
  again : ∀ text a, Json.decode ofJson? text = some a →
    ∃ b, Json.decode ofJson? (toJson a).print = some b ∧ (toJson b).print = (toJson a).print

/-- For a round trip it is enough to look at the values of JSON. -/
theorem roundTrips {α : Type} {toJson : α → Json} {ofJson? : Json → Option α} {Fits : α → Prop}
    (plain : ∀ a, Json.Plain (toJson a)) (back : ∀ a, Fits a → ofJson? (toJson a) = some a)
    (fits : ∀ j a, ofJson? j = some a → Fits a) : RoundTrips toJson ofJson? Fits := by
  have returns (a : α) (ha : Fits a) : Json.decode ofJson? (toJson a).print = some a := by
    rw [Json.decode_print (plain a), back a ha]
  have small (text : String) (a : α) (read : Json.decode ofJson? text = some a) : Fits a := by
    obtain ⟨j, -, decoded⟩ := Option.bind_eq_some_iff.1 read
    exact fits j a decoded
  exact {
    reached := fun a => ⟨fun ⟨text, read⟩ => small text a read, fun ha => ⟨_, returns a ha⟩⟩
    back := returns
    again := fun text a read => ⟨a, returns a (small text a read), rfl⟩ }

/-! ## Keys -/

theorem Key.ofJson?_eq_some_iff {j : Json} {k : Key} :
    Key.ofJson? j = some k ↔ j = .str (Json.marks k.text) := by
  constructor
  · intro read
    obtain ⟨s, text, rfl⟩ := Option.map_eq_some_iff.1 read
    unfold Json.string? at text
    split at text
    · rw [Json.text?_eq_some_iff.1 text]
    · cases text
  · rintro rfl
    rw [ofJson?, Json.string?, Json.text?_marks]
    rfl

theorem Key.plain_toJson (k : Key) : Json.Plain k.toJson := ⟨k.text.toList, rfl⟩

theorem Key.roundTrips : RoundTrips Key.toJson Key.ofJson? fun _ => True :=
  SharedStream.roundTrips Key.plain_toJson (fun _ _ => Key.ofJson?_eq_some_iff.2 rfl)
    fun _ _ _ => trivial

/-! ## Configurations -/

theorem LoadMode.plain_toJson (m : LoadMode) : Json.Plain m.toJson := ⟨m.name.toList, rfl⟩

@[simp] theorem LoadMode.ofJson?_toJson (m : LoadMode) : LoadMode.ofJson? m.toJson = some m := by
  rw [LoadMode.toJson, LoadMode.ofJson?, Json.text?_marks]
  cases m <;> rfl

def CacheConfig.Fits (c : CacheConfig) : Prop :=
  c.chunkSize < wordLimit ∧ c.maxConcurrentLoads < wordLimit

namespace Layer

/-- The fields of an object that gives just the parts of the layer. -/
def fields (l : Layer) : List (String × Json) :=
  (l.chunkSize.toList.map fun n => ("chunk_size", .int n)) ++
    (l.maxConcurrentLoads.toList.map fun n => ("max_concurrent_loads", .int n)) ++
    l.loadMode.toList.map fun m => ("load_mode", m.toJson)

def Fits (l : Layer) : Prop :=
  (∀ n ∈ l.chunkSize, n < wordLimit) ∧ ∀ n ∈ l.maxConcurrentLoads, n < wordLimit

/-- The layer that gives all parts. -/
def full (c : CacheConfig) : Layer := ⟨some c.chunkSize, some c.maxConcurrentLoads, some c.loadMode⟩

variable {l : Layer}

theorem plain_fields (l : Layer) : ∀ f ∈ l.fields, Json.Plain f.2 := by
  intro f hf
  simp only [fields, List.mem_append, List.mem_map] at hf
  obtain (⟨n, -, rfl⟩ | ⟨n, -, rfl⟩) | ⟨m, -, rfl⟩ := hf
  · trivial
  · trivial
  · exact m.plain_toJson

theorem nodup_fields (l : Layer) : (l.fields.map Prod.fst).Nodup := by
  obtain ⟨chunk, loads, mode⟩ := l
  cases chunk <;> cases loads <;> cases mode <;> simp [fields]

/-- A part is found under its own name, if it is given. -/
theorem lookup_toList {α : Type} (o : Option α) (f : α → Json) (name key : String) :
    (o.toList.map fun a => (name, f a)).lookup key = if key = name then o.map f else none := by
  cases o with
  | none => simp
  | some a =>
    show List.lookup key [(name, f a)] = _
    by_cases same : key = name
    · subst same
      rw [if_pos rfl]
      exact List.lookup_cons_self
    · have other : (key == name) = false := beq_eq_false_iff_ne.2 same
      rw [if_neg same, List.lookup_cons, other]
      rfl

/-- The fields of a layer are read as the layer. -/
theorem reads_fields (fits : l.Fits) : l.Reads Json.size? LoadMode.ofJson?
    (l.fields.lookup "chunk_size") (l.fields.lookup "max_concurrent_loads")
    (l.fields.lookup "load_mode") := by
  have chunk : l.fields.lookup "chunk_size" = l.chunkSize.map fun n => .int n := by
    simp [fields, List.lookup_append, lookup_toList]
  have loads : l.fields.lookup "max_concurrent_loads" =
      l.maxConcurrentLoads.map fun n => .int n := by
    simp [fields, List.lookup_append, lookup_toList]
  have mode : l.fields.lookup "load_mode" = l.loadMode.map LoadMode.toJson := by
    simp [fields, List.lookup_append, lookup_toList]
  rw [chunk, loads, mode]
  obtain ⟨chunkSize, maxConcurrentLoads, loadMode⟩ := l
  constructor
  · cases chunkSize with
    | none => exact .none
    | some n => exact .some (Json.size?_int (fits.1 n rfl))
  · cases maxConcurrentLoads with
    | none => exact .none
    | some n => exact .some (Json.size?_int (fits.2 n rfl))
  · cases loadMode with
    | none => exact .none
    | some m => exact .some (LoadMode.ofJson?_toJson m)

/-- What is read as a size fits. -/
theorem Reads.fits {chunk loads mode : Option Json}
    (reads : l.Reads Json.size? LoadMode.ofJson? chunk loads mode) : l.Fits := by
  obtain ⟨chunkSize, maxConcurrentLoads, loadMode⟩ := l
  obtain ⟨first, second, -⟩ := reads
  constructor
  · rintro n ⟨⟩
    cases first with
    | some read => exact Json.lt_of_size? read
  · rintro n ⟨⟩
    cases second with
    | some read => exact Json.lt_of_size? read

/-- The defaults fit too. -/
theorem Fits.onto (fits : l.Fits) : (l.onto {}).Fits := by
  obtain ⟨chunkSize, maxConcurrentLoads, loadMode⟩ := l
  constructor
  · cases chunkSize with
    | none => exact (by decide : 4096 < wordLimit)
    | some n => exact fits.1 n rfl
  · cases maxConcurrentLoads with
    | none => exact (by decide : 100 < wordLimit)
    | some n => exact fits.2 n rfl

end Layer

namespace CacheConfig

/-- An object that gives no part twice is decoded to the defaults with its parts over them. -/
theorem ofJson?_record {fs : List (String × Json)} {c : CacheConfig}
    (once : ∀ name ∈ fieldNames, (fs.map Prod.fst).count name ≤ 1) :
    ofJson? (Json.record fs) = some c ↔ ∃ l : Layer, l.Reads Json.size? LoadMode.ofJson?
      (fs.lookup "chunk_size") (fs.lookup "max_concurrent_loads") (fs.lookup "load_mode") ∧
      c = l.onto {} := by
  rw [ofJson?, Json.parts_record once]
  exact ofParts_eq_some_iff

theorem ofJson?_fields {l : Layer} (fits : l.Fits) :
    ofJson? (Json.record l.fields) = some (l.onto {}) :=
  (ofJson?_record fun name _ => List.nodup_iff_count.1 l.nodup_fields name).2
    ⟨l, l.reads_fields fits, rfl⟩

example : Json.decode ofJson? "\x7b \"load_mode\": \"sync\" \x7d" = some { loadMode := .sync } := by
  cbv

theorem fits_of_ofJson? {j : Json} {c : CacheConfig} (read : ofJson? j = some c) : c.Fits := by
  obtain ⟨ps, parts, given⟩ := Option.bind_eq_some_iff.1 read
  rcases ps with _ | ⟨chunk, _ | ⟨loads, _ | ⟨mode, _ | _⟩⟩⟩
  · cases given
  · cases given
  · cases given
  · obtain ⟨l, reads, rfl⟩ := ofParts_eq_some_iff.1 given
    exact reads.fits.onto
  · cases given

theorem roundTrips : RoundTrips CacheConfig.toJson CacheConfig.ofJson? CacheConfig.Fits := by
  refine SharedStream.roundTrips (fun c => ?_) (fun c fits => ?_) fun j c => fits_of_ofJson?
  · exact Json.plain_record (Layer.full c).plain_fields
  · refine ofJson?_fields (l := Layer.full c) ⟨?_, ?_⟩
    · rintro n ⟨⟩
      exact fits.1
    · rintro n ⟨⟩
      exact fits.2

end CacheConfig

/-! ## Statistics of the registry -/

namespace RegistryStats

def Fits (s : RegistryStats) : Prop :=
  ∀ n ∈ [s.readers, s.writers, s.closing, s.opening, s.loadsActive, s.loadsQueued], n < wordLimit

theorem plain_toJson (s : RegistryStats) : Json.Plain s.toJson :=
  Json.plain_record (by simp [Json.Plain])

/-- A value gives statistics if it gives each part once, as a size. -/
theorem ofJson?_eq_some_iff {j : Json} {s : RegistryStats} : ofJson? j = some s ↔
    ∃ x₁ x₂ x₃ x₄ x₅ x₆, Json.parts fieldNames j =
      some [some x₁, some x₂, some x₃, some x₄, some x₅, some x₆] ∧
      Json.size? x₁ = some s.readers ∧ Json.size? x₂ = some s.writers ∧
      Json.size? x₃ = some s.closing ∧ Json.size? x₄ = some s.opening ∧
      Json.size? x₅ = some s.loadsActive ∧ Json.size? x₆ = some s.loadsQueued := by
  constructor
  · intro read
    obtain ⟨ps, parts, given⟩ := Option.bind_eq_some_iff.1 read
    split at given
    · next x₁ x₂ x₃ x₄ x₅ x₆ =>
      simp only [Option.bind_eq_bind, Option.bind_eq_some_iff, Option.pure_def,
        Option.some.injEq] at given
      obtain ⟨_, h₁, _, h₂, _, h₃, _, h₄, _, h₅, _, h₆, rfl⟩ := given
      exact ⟨x₁, x₂, x₃, x₄, x₅, x₆, parts, h₁, h₂, h₃, h₄, h₅, h₆⟩
    · cases given
  · rintro ⟨x₁, x₂, x₃, x₄, x₅, x₆, parts, h₁, h₂, h₃, h₄, h₅, h₆⟩
    rw [ofJson?, parts]
    simp only [Option.bind_eq_bind, Option.bind_some, h₁, h₂, h₃, h₄, h₅, h₆, Option.pure_def]

theorem ofJson?_toJson {s : RegistryStats} (fits : s.Fits) : ofJson? s.toJson = some s := by
  have size (n : Nat) (hn : n ∈ _) := Json.size?_int (fits n hn)
  exact ofJson?_eq_some_iff.2 ⟨_, _, _, _, _, _, Json.parts_record_all rfl (by decide),
    size _ (by simp), size _ (by simp), size _ (by simp), size _ (by simp), size _ (by simp),
    size _ (by simp)⟩

theorem fits_of_ofJson? {j : Json} {s : RegistryStats} (read : ofJson? j = some s) : s.Fits := by
  obtain ⟨_, _, _, _, _, _, -, h₁, h₂, h₃, h₄, h₅, h₆⟩ := ofJson?_eq_some_iff.1 read
  simp only [Fits, List.mem_cons, List.not_mem_nil, or_false, forall_eq_or_imp, forall_eq]
  exact ⟨Json.lt_of_size? h₁, Json.lt_of_size? h₂, Json.lt_of_size? h₃, Json.lt_of_size? h₄,
    Json.lt_of_size? h₅, Json.lt_of_size? h₆⟩

theorem roundTrips : RoundTrips RegistryStats.toJson RegistryStats.ofJson? RegistryStats.Fits :=
  SharedStream.roundTrips plain_toJson (fun _ => ofJson?_toJson) fun _ _ => fits_of_ofJson?

end RegistryStats

/-! ## Statistics of a resource -/

namespace ResourceStats
variable {s : ResourceStats Instant}

def Fits (s : ResourceStats Instant) : Prop :=
  isSignedWord s.refCount = true ∧ s.loadedBytes < wordLimit ∧ s.chunks < wordLimit

/-- The statistics with a text for the last access. -/
def toJsonWith (s : ResourceStats Instant) (access : String) : Json :=
  Json.record [("key", s.key.toJson), ("ref_count", .int s.refCount),
    ("loaded_bytes", .int s.loadedBytes), ("chunks", .int s.chunks),
    ("finished", .bool s.finished), ("load_mode", s.loadMode.toJson),
    ("last_access", .str (Json.marks access))]

theorem toJson_eq (s : ResourceStats Instant) : s.toJson = s.toJsonWith s.lastAccess.print := rfl

theorem plain_toJsonWith (s : ResourceStats Instant) (access : String) :
    Json.Plain (s.toJsonWith access) := by
  refine Json.plain_record ?_
  have text : Json.Plain (.str (Json.marks access)) := ⟨access.toList, rfl⟩
  simp only [List.mem_cons, List.not_mem_nil, or_false, forall_eq_or_imp, forall_eq]
  exact ⟨s.key.plain_toJson, trivial, trivial, trivial, trivial, s.loadMode.plain_toJson, text⟩

/-- A value gives statistics if it gives each part once, and as what it should be. -/
theorem ofJson?_eq_some_iff {j : Json} : ofJson? j = some s ↔
    ∃ x₁ x₂ x₃ x₄ x₅ x₆ x₇, Json.parts fieldNames j =
      some [some x₁, some x₂, some x₃, some x₄, some x₅, some x₆, some x₇] ∧
      Key.ofJson? x₁ = some s.key ∧ Json.signed? x₂ = some s.refCount ∧
      Json.size? x₃ = some s.loadedBytes ∧ Json.size? x₄ = some s.chunks ∧
      Json.bool? x₅ = some s.finished ∧ LoadMode.ofJson? x₆ = some s.loadMode ∧
      (Json.string? x₇).bind Instant.parse = some s.lastAccess := by
  constructor
  · intro read
    obtain ⟨ps, parts, given⟩ := Option.bind_eq_some_iff.1 read
    split at given
    · next x₁ x₂ x₃ x₄ x₅ x₆ x₇ =>
      obtain ⟨_, h₁, given⟩ := Option.bind_eq_some_iff.1 given
      obtain ⟨_, h₂, given⟩ := Option.bind_eq_some_iff.1 given
      obtain ⟨_, h₃, given⟩ := Option.bind_eq_some_iff.1 given
      obtain ⟨_, h₄, given⟩ := Option.bind_eq_some_iff.1 given
      obtain ⟨_, h₅, given⟩ := Option.bind_eq_some_iff.1 given
      obtain ⟨_, h₆, given⟩ := Option.bind_eq_some_iff.1 given
      obtain ⟨_, h₇, given⟩ := Option.bind_eq_some_iff.1 given
      cases given
      exact ⟨x₁, x₂, x₃, x₄, x₅, x₆, x₇, parts, h₁, h₂, h₃, h₄, h₅, h₆, h₇⟩
    · cases given
  · rintro ⟨x₁, x₂, x₃, x₄, x₅, x₆, x₇, parts, h₁, h₂, h₃, h₄, h₅, h₆, h₇⟩
    rw [ofJson?, parts]
    simp only [Option.bind_eq_bind, Option.bind_some, h₁, h₂, h₃, h₄, h₅, h₆, h₇, Option.pure_def]

theorem ofJson?_toJsonWith {access : String} (fits : s.Fits)
    (read : Instant.parse access = some s.lastAccess) : ofJson? (s.toJsonWith access) = some s := by
  obtain ⟨count, bytes, chunks⟩ := fits
  have moment : (Json.string? (.str (Json.marks access))).bind Instant.parse =
      some s.lastAccess := by
    rw [Json.string?, Json.text?_marks, Option.bind_some, read]
  exact ofJson?_eq_some_iff.2 ⟨_, _, _, _, _, _, _, Json.parts_record_all rfl (by decide),
    Key.ofJson?_eq_some_iff.2 rfl, Json.signed?_int count, Json.size?_int bytes,
    Json.size?_int chunks, rfl, s.loadMode.ofJson?_toJson, moment⟩

theorem fits_of_ofJson? {j : Json} (read : ofJson? j = some s) : s.Fits := by
  obtain ⟨_, _, _, _, _, _, _, -, -, count, bytes, chunks, -⟩ := ofJson?_eq_some_iff.1 read
  exact ⟨Json.isSignedWord_of_signed? count, Json.lt_of_size? bytes, Json.lt_of_size? chunks⟩

theorem roundTrips : RoundTrips ResourceStats.toJson ResourceStats.ofJson? ResourceStats.Fits := by
  refine SharedStream.roundTrips (fun s => ?_) (fun s fits => ?_) fun _ _ => fits_of_ofJson?
  · rw [toJson_eq]
    exact s.plain_toJsonWith _
  · rw [toJson_eq]
    exact ofJson?_toJsonWith fits s.lastAccess.parse_print

/-- The last access may be given as a clock shows it that is ahead of universal time or behind. -/
theorem decode_zoned {clock : Instant} {o : Instant.Offset} (fits : s.Fits)
    (shown : Instant.ofLocal? s.lastAccess.date s.lastAccess.second s.lastAccess.nano (-o.seconds) =
      some clock) :
    Json.decode ofJson? (s.toJsonWith (String.ofList (clock.renderAt o.render))).print =
      some s := by
  rw [Json.decode_print (s.plain_toJsonWith _), ofJson?_toJsonWith fits]
  rw [Instant.parse_zoned]
  exact Instant.ofLocal?_neg o.seconds_range shown

end ResourceStats

/-! ## All forms -/

/-- What the serialised forms keep. -/
structure SerialForms : Prop where
  key : RoundTrips Key.toJson Key.ofJson? fun _ => True
  config : RoundTrips CacheConfig.toJson CacheConfig.ofJson? CacheConfig.Fits
  registry : RoundTrips RegistryStats.toJson RegistryStats.ofJson? RegistryStats.Fits
  resource : RoundTrips ResourceStats.toJson ResourceStats.ofJson? ResourceStats.Fits
  /-- A key is written as a string and nothing else, and just strings are keys. -/
  bare : ∀ k : Key, Json.parse k.toJson.print = some (.str (Json.marks k.text))
  bare_iff : ∀ j k, Key.ofJson? j = some k ↔ j = .str (Json.marks k.text)
  /-- Whatever zone the last access is given in, it is the same instant. -/
  zoned : ∀ (s : ResourceStats Instant) (clock : Instant) (o : Instant.Offset), s.Fits →
    Instant.ofLocal? s.lastAccess.date s.lastAccess.second s.lastAccess.nano (-o.seconds) =
      some clock →
    Json.decode ResourceStats.ofJson?
      (s.toJsonWith (String.ofList (clock.renderAt o.render))).print = some s
  /-- An object gives some parts of a configuration, and the defaults stand for the others. -/
  missing : ∀ text fs, Json.parse text = some (Json.record fs) →
    (∀ name ∈ CacheConfig.fieldNames, (fs.map Prod.fst).count name ≤ 1) →
    ∀ c, Json.decode CacheConfig.ofJson? text = some c ↔
      ∃ l : Layer, l.Reads Json.size? LoadMode.ofJson? (fs.lookup "chunk_size")
        (fs.lookup "max_concurrent_loads") (fs.lookup "load_mode") ∧ c = l.onto {}
  /-- There is an object for each choice of the parts that are given. -/
  subset : ∀ l : Layer, l.Fits →
    Json.decode CacheConfig.ofJson? (Json.record l.fields).print = some (l.onto {})

theorem serialForms : SerialForms where
  key := Key.roundTrips
  config := CacheConfig.roundTrips
  registry := RegistryStats.roundTrips
  resource := ResourceStats.roundTrips
  bare k := Json.parse_print k.plain_toJson
  bare_iff j k := Key.ofJson?_eq_some_iff
  zoned s clock o fits shown := ResourceStats.decode_zoned fits shown
  missing text fs read once c := by
    rw [Json.decode, read, Option.bind_some]
    exact CacheConfig.ofJson?_record once
  subset l fits := by
    rw [Json.decode_print (Json.plain_record l.plain_fields)]
    exact CacheConfig.ofJson?_fields fits

end SharedStream
