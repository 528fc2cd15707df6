import SharedStream.Proofs.Spellings

/-! # The layers of a configuration

A file gives some parts of a configuration, the environment may override each of them, and the
defaults stand for the rest. What comes out is checked at the end. Main statement: which files and
environments make a configuration, which one it is, and which fault is reported if there is none.
-/
namespace SharedStream

/-- The parts of a configuration that one layer gives. -/
structure Layer where
  chunkSize : Option Nat := none
  maxConcurrentLoads : Option Nat := none
  loadMode : Option LoadMode := none

namespace Layer

/-- The configuration with this layer over it. -/
def onto (l : Layer) (c : CacheConfig) : CacheConfig :=
  ⟨l.chunkSize.getD c.chunkSize, l.maxConcurrentLoads.getD c.maxConcurrentLoads,
    l.loadMode.getD c.loadMode⟩

/-- The layer gives the parts that are there, with the values that they are read as. -/
structure Reads {α : Type} (size? : α → Option Nat) (mode? : α → Option LoadMode)
    (chunk loads mode : Option α) (l : Layer) : Prop where
  chunkSize : Option.Rel (fun a n => size? a = some n) chunk l.chunkSize
  maxConcurrentLoads : Option.Rel (fun a n => size? a = some n) loads l.maxConcurrentLoads
  loadMode : Option.Rel (fun a m => mode? a = some m) mode l.loadMode

end Layer

namespace CacheConfig

theorem exists_of_bind_eq_ok {ε α β : Type} {x : Except ε α} {f : α → Except ε β} {b : β}
    (h : x >>= f = .ok b) : ∃ a, x = .ok a ∧ f a = .ok b := by
  cases x with
  | error e => cases h
  | ok a => exact ⟨a, rfl, h⟩

theorem cases_of_bind_eq_error {ε α β : Type} {x : Except ε α} {f : α → Except ε β} {e : ε}
    (h : x >>= f = .error e) : x = .error e ∨ ∃ a, x = .ok a ∧ f a = .error e := by
  cases x with
  | error _ =>
    cases h
    exact .inl rfl
  | ok a => exact .inr ⟨a, rfl, h⟩

/-! ## Layers of parts -/

theorem part_eq_some_iff {α β : Type} {read? : α → Option β} {otherwise b : β} {o : Option α} :
    part read? otherwise o = some b ↔
      ∃ x, Option.Rel (fun a b => read? a = some b) o x ∧ b = x.getD otherwise := by
  constructor
  · intro read
    cases o with
    | none =>
      cases read
      exact ⟨none, .none, rfl⟩
    | some a => exact ⟨some b, .some read, rfl⟩
  · rintro ⟨x, given, rfl⟩
    cases given with
    | none => rfl
    | some read => exact read

theorem ofParts_eq_some_iff {α : Type} {size? : α → Option Nat} {mode? : α → Option LoadMode}
    {chunk loads mode : Option α} {c : CacheConfig} :
    ofParts size? mode? [chunk, loads, mode] = some c ↔
      ∃ l : Layer, l.Reads size? mode? chunk loads mode ∧ c = l.onto {} := by
  simp only [ofParts, Option.bind_eq_bind, Option.bind_eq_some_iff, Option.pure_def,
    Option.some.injEq]
  constructor
  · rintro ⟨n, hn, m, hm, a, ha, rfl⟩
    obtain ⟨x, hx, rfl⟩ := part_eq_some_iff.1 hn
    obtain ⟨y, hy, rfl⟩ := part_eq_some_iff.1 hm
    obtain ⟨z, hz, rfl⟩ := part_eq_some_iff.1 ha
    exact ⟨⟨x, y, z⟩, ⟨hx, hy, hz⟩, rfl⟩
  · rintro ⟨l, reads, rfl⟩
    exact ⟨_, part_eq_some_iff.2 ⟨_, reads.chunkSize, rfl⟩,
      _, part_eq_some_iff.2 ⟨_, reads.maxConcurrentLoads, rfl⟩,
      _, part_eq_some_iff.2 ⟨_, reads.loadMode, rfl⟩, rfl⟩

/-! ## The layer of a file -/

/-- The section gives the layer: by names, or by the order of the parts. -/
inductive Gives : Toml → Layer → Prop where
  | table {entries : List (String × Toml)} {l : Layer}
      (reads : l.Reads Toml.size? LoadMode.ofToml? (Toml.entry? entries "chunk_size")
        (Toml.entry? entries "max_concurrent_loads") (Toml.entry? entries "load_mode")) :
      Gives (.table entries) l
  | array {xs : List Toml} {l : Layer} (length : xs.length ≤ 3)
      (reads : l.Reads Toml.size? LoadMode.ofToml? xs[0]? xs[1]? xs[2]?) : Gives (.array xs) l

/-- The document gives the layer of its section, and nothing without one. -/
inductive Supplies (entries : List (String × Toml)) : Layer → Prop where
  | bare (none : Toml.entry? entries "cache" = none) : Supplies entries {}
  | section {t : Toml} {l : Layer} (found : Toml.entry? entries "cache" = some t)
      (gives : Gives t l) : Supplies entries l

def HasText (file : Option ByteArray) (s : String) : Prop :=
  ∃ bytes, file = some bytes ∧ String.fromUTF8? bytes = some s

/-- The layer of a file, where `parse` reads documents. -/
def FileLayer (parse : String → Option (List (String × Toml))) (file : Option ByteArray)
    (l : Layer) : Prop :=
  ∃ s entries, HasText file s ∧ parse s = some entries ∧ Supplies entries l

theorem ofToml?_eq_some_iff {t : Toml} {c : CacheConfig} :
    ofToml? t = some c ↔ ∃ l, Gives t l ∧ c = l.onto {} := by
  unfold ofToml?
  cases t with
  | table entries =>
    rw [tomlParts, Option.bind_eq_bind, Option.bind_some]
    refine ofParts_eq_some_iff.trans ⟨?_, ?_⟩
    · rintro ⟨l, reads, rfl⟩
      exact ⟨l, .table reads, rfl⟩
    · rintro ⟨l, ⟨reads⟩, rfl⟩
      exact ⟨l, reads, rfl⟩
  | array xs =>
    rw [tomlParts]
    split
    · next length =>
      have three : xs.map some ++ List.replicate (fieldNames.length - xs.length) none =
          [xs[0]?, xs[1]?, xs[2]?] := by
        match xs, length with
        | [], _ | [_], _ | [_, _], _ | [_, _, _], _ => rfl
      rw [three, Option.bind_eq_bind, Option.bind_some]
      refine ofParts_eq_some_iff.trans ⟨?_, ?_⟩
      · rintro ⟨l, reads, rfl⟩
        exact ⟨l, .array length reads, rfl⟩
      · rintro ⟨l, gives, rfl⟩
        cases gives with
        | array _ reads => exact ⟨l, reads, rfl⟩
    · next long =>
      constructor
      · intro none
        cases none
      · rintro ⟨l, gives, -⟩
        cases gives with
        | array length => exact absurd length long
  | _ =>
    constructor
    · intro none
      cases none
    · rintro ⟨l, gives, -⟩
      cases gives

theorem ofDocument_eq_ok_iff {document : Option (List (String × Toml))} {c : CacheConfig} :
    ofDocument document = .ok c ↔
      ∃ entries l, document = some entries ∧ Supplies entries l ∧ c = l.onto {} := by
  constructor
  · intro read
    unfold ofDocument at read
    split at read
    · cases read
    · next entries =>
      split at read
      · next none =>
        cases read
        exact ⟨entries, {}, rfl, .bare none, rfl⟩
      · next t found =>
        split at read
        · next given =>
          cases read
          obtain ⟨l, gives, rfl⟩ := ofToml?_eq_some_iff.1 given
          exact ⟨entries, l, rfl, .section found gives, rfl⟩
        · cases read
  · rintro ⟨entries, l, rfl, supplies, rfl⟩
    unfold ofDocument
    dsimp only
    cases supplies with
    | bare none =>
      rw [none]
      rfl
    | «section» found gives =>
      rw [found]
      dsimp only
      rw [ofToml?_eq_some_iff.2 ⟨l, gives, rfl⟩]

theorem fileText_eq_ok_iff {file : Option ByteArray} {s : String} :
    fileText file = .ok s ↔ HasText file s := by
  unfold fileText HasText
  cases file with
  | none => simp
  | some bytes =>
    dsimp only
    split <;> simp_all

/-! ## The layer of the environment -/

/-- The text decides if there is one. -/
def Picks {α : Type} (Means : String → α → Prop) (text : Option String) (otherwise a : α) : Prop :=
  match text with
  | some s => Means s a
  | none => a = otherwise

/-- Each part is what the environment spells, or that of the layers below. -/
structure Overlaid (env : Environment) (base c : CacheConfig) : Prop where
  chunkSize : Picks Spells env.chunkSize base.chunkSize c.chunkSize
  maxConcurrentLoads :
    Picks Spells env.maxConcurrentLoads base.maxConcurrentLoads c.maxConcurrentLoads
  loadMode : Picks (fun s m => m.Spelled s) env.loadMode base.loadMode c.loadMode

theorem override_eq_ok_iff {α ε : Type} {parse : String → Except ε α} {Means : String → α → Prop}
    {wrap : String → ε → ConfigError} {otherwise a : α} {text : Option String}
    (means : ∀ s a, parse s = .ok a ↔ Means s a) :
    override parse wrap otherwise text = .ok a ↔ Picks Means text otherwise a := by
  cases text with
  | none =>
    show Except.ok otherwise = Except.ok a ↔ a = otherwise
    rw [Except.ok.injEq, eq_comm]
  | some s =>
    show (parse s).mapError (wrap s) = .ok a ↔ Means s a
    rw [← means]
    cases parse s <;> simp [Except.mapError]

theorem override_eq_error_iff {α ε : Type} {parse : String → Except ε α}
    {wrap : String → ε → ConfigError} {otherwise : α} {text : Option String} {e : ConfigError} :
    override parse wrap otherwise text = .error e ↔
      ∃ s x, text = some s ∧ parse s = .error x ∧ e = wrap s x := by
  cases text with
  | none => simp [override]
  | some s => cases h : parse s <;> simp [override, Except.mapError, h, eq_comm]

theorem overlay_eq_ok_iff {env : Environment} {base c : CacheConfig} :
    base.overlay env = .ok c ↔ Overlaid env base c := by
  have size (s : String) (n : Nat) : parseSize s = .ok n ↔ Spells s n := parseSize_eq_ok_iff
  have mode (s : String) (m : LoadMode) : LoadMode.parse s = .ok m ↔ m.Spelled s :=
    LoadMode.parse_eq_ok_iff
  unfold overlay
  constructor
  · intro laid
    obtain ⟨chunk, hc, laid⟩ := exists_of_bind_eq_ok laid
    obtain ⟨loads, hl, laid⟩ := exists_of_bind_eq_ok laid
    obtain ⟨load, hm, laid⟩ := exists_of_bind_eq_ok laid
    cases laid
    exact ⟨(override_eq_ok_iff size).1 hc, (override_eq_ok_iff size).1 hl,
      (override_eq_ok_iff mode).1 hm⟩
  · rintro ⟨chunk, loads, load⟩
    rw [(override_eq_ok_iff size).2 chunk, (override_eq_ok_iff size).2 loads,
      (override_eq_ok_iff mode).2 load]
    rfl

theorem check_eq_ok_iff {c : CacheConfig} :
    c.check = .ok () ↔ c.chunkSize ≠ 0 ∧ c.maxConcurrentLoads ≠ 0 := by
  unfold check
  split
  · simp [*]
  · split <;> simp [*]

theorem finish_eq_ok_iff {env : Environment} {base c : CacheConfig} :
    finish env base = .ok c ↔ Overlaid env base c ∧ c.chunkSize ≠ 0 ∧ c.maxConcurrentLoads ≠ 0 := by
  unfold finish
  rw [← overlay_eq_ok_iff, ← check_eq_ok_iff]
  constructor
  · intro done
    obtain ⟨c', laid, done⟩ := exists_of_bind_eq_ok done
    obtain ⟨_, checked, done⟩ := exists_of_bind_eq_ok done
    cases done
    exact ⟨laid, checked⟩
  · rintro ⟨laid, checked⟩
    rw [laid]
    show (c.check >>= fun _ => _) = _
    rw [checked]
    rfl

/-! ## Faults -/

/-- What is checked of a file and an environment. -/
inductive Check where
  | read
  | parse
  | chunkSize
  | loadCount
  | mode
  | zeroChunkSize
  | zeroLoadCount
  deriving DecidableEq

/-- The order of the checks. -/
def checks : List Check :=
  [.read, .parse, .chunkSize, .loadCount, .mode, .zeroChunkSize, .zeroLoadCount]

variable {parse : String → Option (List (String × Toml))} {file : Option ByteArray}
  {env : Environment} {k : Check} {e : ConfigError} {c : CacheConfig} {l : Layer} {s : String}

/-- The check fails, whatever the others say, and the error is what it reports. -/
inductive Fails (parse : String → Option (List (String × Toml))) (file : Option ByteArray)
    (env : Environment) : Check → ConfigError → Prop where
  | missing (none : file = none) : Fails parse file env .read (.unreadable .notFound)
  | notText {bytes : ByteArray} (found : file = some bytes)
      (broken : String.fromUTF8? bytes = none) :
      Fails parse file env .read (.unreadable .invalidData)
  | document {s : String} (text : HasText file s) (bad : parse s = none) :
      Fails parse file env .parse (.inFile .badDocument)
  | part {s : String} {entries : List (String × Toml)} {t : Toml} (text : HasText file s)
      (read : parse s = some entries) (found : Toml.entry? entries "cache" = some t)
      (bad : ∀ l, ¬Gives t l) : Fails parse file env .parse (.inFile .badSection)
  | chunkSize {s : String} {cause : NumeralError} (given : env.chunkSize = some s)
      (bad : Misspells s cause) : Fails parse file env .chunkSize (.badChunkSize s cause)
  | loadCount {s : String} {cause : NumeralError} (given : env.maxConcurrentLoads = some s)
      (bad : Misspells s cause) : Fails parse file env .loadCount (.badLoadCount s cause)
  | mode {s : String} (given : env.loadMode = some s) (bad : ∀ m : LoadMode, ¬m.Spelled s) :
      Fails parse file env .mode
        (.unknownMode (String.ofList (Text.lower (Text.trim s.toList))))
  | zeroChunkSize {l : Layer} (layer : FileLayer parse file l)
      (zero : Picks Spells env.chunkSize (l.onto {}).chunkSize 0) :
      Fails parse file env .zeroChunkSize .zeroChunkSize
  | zeroLoadCount {l : Layer} (layer : FileLayer parse file l)
      (zero : Picks Spells env.maxConcurrentLoads (l.onto {}).maxConcurrentLoads 0) :
      Fails parse file env .zeroLoadCount .zeroLoadCount

/-- The error is that of the first of the checks that fails. -/
inductive FirstFails (parse : String → Option (List (String × Toml))) (file : Option ByteArray)
    (env : Environment) : List Check → ConfigError → Prop where
  | here {k : Check} {ks : List Check} {e : ConfigError} (fails : Fails parse file env k e) :
      FirstFails parse file env (k :: ks) e
  | later {k : Check} {ks : List Check} {e : ConfigError}
      (passes : ∀ e, ¬Fails parse file env k e) (rest : FirstFails parse file env ks e) :
      FirstFails parse file env (k :: ks) e

theorem HasText.unique {s' : String} (h : HasText file s) (h' : HasText file s') : s = s' :=
  Except.ok.inj ((fileText_eq_ok_iff.2 h).symm.trans (fileText_eq_ok_iff.2 h'))

theorem FileLayer.onto_unique {l' : Layer} (h : FileLayer parse file l)
    (h' : FileLayer parse file l') : l.onto {} = l'.onto {} := by
  obtain ⟨s, entries, text, read, supplies⟩ := h
  obtain ⟨s', entries', text', read', supplies'⟩ := h'
  cases text.unique text'
  exact Except.ok.inj ((ofDocument_eq_ok_iff.2 ⟨entries, l, read, supplies, rfl⟩).symm.trans
    (ofDocument_eq_ok_iff.2 ⟨entries', l', read', supplies', rfl⟩))

theorem Picks.spells_unique {text : Option String} {otherwise n m : Nat}
    (h : Picks Spells text otherwise n) (h' : Picks Spells text otherwise m) : n = m := by
  cases text with
  | none => exact Eq.trans h (Eq.symm h')
  | some s => exact Spells.unique h h'

/-! ### Checks that pass -/

theorem HasText.passes (text : HasText file s) : ¬Fails parse file env .read e := by
  obtain ⟨bytes, found, decoded⟩ := text
  intro fails
  cases fails with
  | missing none => cases found.symm.trans none
  | notText found' broken =>
    cases found.symm.trans found'
    cases decoded.symm.trans broken

theorem FileLayer.passes (layer : FileLayer parse file l) : ¬Fails parse file env .parse e := by
  obtain ⟨s, entries, text, read, supplies⟩ := layer
  intro fails
  cases fails with
  | document text' bad =>
    cases text.unique text'
    cases read.symm.trans bad
  | part text' read' found bad =>
    cases text.unique text'
    cases read.symm.trans read'
    cases supplies with
    | bare none => cases none.symm.trans found
    | «section» found' gives =>
      cases found.symm.trans found'
      exact bad _ gives

theorem picks_of_size {wrap : String → NumeralError → ConfigError} {otherwise n : Nat}
    {text : Option String} (done : override parseSize wrap otherwise text = .ok n) :
    Picks Spells text otherwise n :=
  (override_eq_ok_iff fun _ _ => parseSize_eq_ok_iff).1 done

theorem Picks.not_misspells {text : Option String} {otherwise n : Nat} {cause : NumeralError}
    (picks : Picks Spells text otherwise n) (given : text = some s) : ¬Misspells s cause := by
  subst given
  intro wrong
  cases (parseSize_eq_ok_iff.2 picks).symm.trans (parseSize_eq_error_iff.2 wrong)

theorem passes_chunkSize {otherwise n : Nat} (picks : Picks Spells env.chunkSize otherwise n) :
    ¬Fails parse file env .chunkSize e := by
  intro fails
  cases fails with
  | chunkSize given bad => exact picks.not_misspells given bad

theorem passes_loadCount {otherwise n : Nat}
    (picks : Picks Spells env.maxConcurrentLoads otherwise n) :
    ¬Fails parse file env .loadCount e := by
  intro fails
  cases fails with
  | loadCount given bad => exact picks.not_misspells given bad

theorem passes_mode {otherwise m : LoadMode}
    (picks : Picks (fun s m => m.Spelled s) env.loadMode otherwise m) :
    ¬Fails parse file env .mode e := by
  intro fails
  cases fails with
  | mode given bad =>
    rw [given] at picks
    exact bad m picks

theorem passes_zeroChunkSize {n : Nat} (layer : FileLayer parse file l)
    (picks : Picks Spells env.chunkSize (l.onto {}).chunkSize n) (some : n ≠ 0) :
    ¬Fails parse file env .zeroChunkSize e := by
  intro fails
  cases fails with
  | zeroChunkSize layer' zero =>
    rw [layer'.onto_unique layer] at zero
    exact some (picks.spells_unique zero)

theorem passes_zeroLoadCount {n : Nat} (layer : FileLayer parse file l)
    (picks : Picks Spells env.maxConcurrentLoads (l.onto {}).maxConcurrentLoads n) (some : n ≠ 0) :
    ¬Fails parse file env .zeroLoadCount e := by
  intro fails
  cases fails with
  | zeroLoadCount layer' zero =>
    rw [layer'.onto_unique layer] at zero
    exact some (picks.spells_unique zero)

/-! ### Checks that fail -/

theorem fails_read (bad : fileText file = .error e) : Fails parse file env .read e := by
  unfold fileText at bad
  split at bad
  · cases bad
    exact .missing rfl
  · split at bad
    · cases bad
    · next broken =>
      cases bad
      exact .notText rfl broken

theorem fails_parse (text : HasText file s)
    (bad : (ofDocument (parse s)).mapError .inFile = .error e) :
    Fails parse file env .parse e := by
  unfold ofDocument at bad
  split at bad
  · next none =>
    cases bad
    exact .document text none
  · next entries read =>
    split at bad
    · cases bad
    · next t found =>
      split at bad
      · cases bad
      · next none =>
        cases bad
        refine .part text read found ?_
        intro l gives
        cases none.symm.trans (ofToml?_eq_some_iff.2 ⟨l, gives, rfl⟩)

theorem exists_of_size_eq_error {wrap : String → NumeralError → ConfigError} {otherwise : Nat}
    {text : Option String} (bad : override parseSize wrap otherwise text = .error e) :
    ∃ s cause, text = some s ∧ Misspells s cause ∧ e = wrap s cause := by
  obtain ⟨s, cause, given, wrong, rfl⟩ := override_eq_error_iff.1 bad
  exact ⟨s, cause, given, parseSize_eq_error_iff.1 wrong, rfl⟩

theorem firstFails_of_overlay {base : CacheConfig} {ks : List Check}
    (bad : base.overlay env = .error e) :
    FirstFails parse file env (.chunkSize :: .loadCount :: .mode :: ks) e := by
  rcases cases_of_bind_eq_error bad with bad | ⟨n, chunk, bad⟩
  · obtain ⟨s, cause, given, wrong, rfl⟩ := exists_of_size_eq_error bad
    exact .here (.chunkSize given wrong)
  refine .later (fun e => passes_chunkSize (picks_of_size chunk)) ?_
  rcases cases_of_bind_eq_error bad with bad | ⟨m, loads, bad⟩
  · obtain ⟨s, cause, given, wrong, rfl⟩ := exists_of_size_eq_error bad
    exact .here (.loadCount given wrong)
  refine .later (fun e => passes_loadCount (picks_of_size loads)) ?_
  rcases cases_of_bind_eq_error bad with bad | ⟨a, load, bad⟩
  · obtain ⟨s, word, given, wrong, rfl⟩ := override_eq_error_iff.1 bad
    obtain ⟨none, rfl⟩ := LoadMode.parse_eq_error_iff.1 wrong
    exact .here (.mode given none)
  · cases bad

theorem firstFails_of_check (layer : FileLayer parse file l) (laid : Overlaid env (l.onto {}) c)
    (bad : c.check = .error e) :
    FirstFails parse file env [.zeroChunkSize, .zeroLoadCount] e := by
  unfold check at bad
  split at bad
  · next zero =>
    cases bad
    exact .here (.zeroChunkSize layer (zero ▸ laid.chunkSize))
  refine .later (fun e => passes_zeroChunkSize layer laid.chunkSize ‹_›) ?_
  split at bad
  · next zero =>
    cases bad
    exact .here (.zeroLoadCount layer (zero ▸ laid.maxConcurrentLoads))
  · cases bad

theorem fileLayer_of_ofDocument {base : CacheConfig} (text : HasText file s)
    (read : (ofDocument (parse s)).mapError ConfigError.inFile = .ok base) :
    ∃ l, FileLayer parse file l ∧ base = l.onto {} := by
  cases given : ofDocument (parse s) with
  | error x =>
    rw [given] at read
    cases read
  | ok c =>
    rw [given] at read
    cases read
    obtain ⟨entries, l, read, supplies, rfl⟩ := ofDocument_eq_ok_iff.1 given
    exact ⟨l, ⟨s, entries, text, read, supplies⟩, rfl⟩

/-! ### The error that is reported -/

theorem firstFails_of_ofFileWith (bad : ofFileWith parse file env = .error e) :
    FirstFails parse file env checks e := by
  rcases cases_of_bind_eq_error bad with bad | ⟨s, text, bad⟩
  · exact .here (fails_read bad)
  have text := fileText_eq_ok_iff.1 text
  refine .later (fun e => text.passes) ?_
  rcases cases_of_bind_eq_error bad with bad | ⟨base, read, bad⟩
  · exact .here (fails_parse text bad)
  obtain ⟨l, layer, rfl⟩ := fileLayer_of_ofDocument text read
  refine .later (fun e => layer.passes) ?_
  rcases cases_of_bind_eq_error bad with bad | ⟨c, laid, bad⟩
  · exact firstFails_of_overlay bad
  have laid := overlay_eq_ok_iff.1 laid
  refine .later (fun e => passes_chunkSize laid.chunkSize) (.later
    (fun e => passes_loadCount laid.maxConcurrentLoads) (.later
      (fun e => passes_mode laid.loadMode) ?_))
  rcases cases_of_bind_eq_error bad with bad | ⟨_, _, bad⟩
  · exact firstFails_of_check layer laid bad
  · cases bad

theorem ofFileWith_eq_ok_iff : ofFileWith parse file env = .ok c ↔
    ∃ l, FileLayer parse file l ∧ Overlaid env (l.onto {}) c ∧ c.chunkSize ≠ 0 ∧
      c.maxConcurrentLoads ≠ 0 := by
  constructor
  · intro done
    obtain ⟨s, text, done⟩ := exists_of_bind_eq_ok done
    obtain ⟨base, read, done⟩ := exists_of_bind_eq_ok done
    obtain ⟨l, layer, rfl⟩ := fileLayer_of_ofDocument (fileText_eq_ok_iff.1 text) read
    exact ⟨l, layer, finish_eq_ok_iff.1 done⟩
  · rintro ⟨l, ⟨s, entries, text, read, supplies⟩, laid⟩
    unfold ofFileWith
    rw [fileText_eq_ok_iff.2 text]
    show ((ofDocument (parse s)).mapError .inFile >>= fun c => finish env c) = _
    rw [ofDocument_eq_ok_iff.2 ⟨entries, l, read, supplies, rfl⟩]
    exact finish_eq_ok_iff.2 laid

/-- When a configuration comes out, no check has failed. -/
theorem passes_of_ofFileWith (done : ofFileWith parse file env = .ok c) (k : Check) :
    ¬Fails parse file env k e := by
  obtain ⟨l, layer, laid, chunk, loads⟩ := ofFileWith_eq_ok_iff.1 done
  obtain ⟨s, entries, text, read, supplies⟩ := layer
  cases k with
  | read => exact text.passes
  | parse => exact FileLayer.passes ⟨s, entries, text, read, supplies⟩
  | chunkSize => exact passes_chunkSize laid.chunkSize
  | loadCount => exact passes_loadCount laid.maxConcurrentLoads
  | mode => exact passes_mode laid.loadMode
  | zeroChunkSize =>
    exact passes_zeroChunkSize ⟨s, entries, text, read, supplies⟩ laid.chunkSize chunk
  | zeroLoadCount =>
    exact passes_zeroLoadCount ⟨s, entries, text, read, supplies⟩ laid.maxConcurrentLoads loads

/-- A check fails in one way only. -/
theorem Fails.unique {e' : ConfigError} (h : Fails parse file env k e)
    (h' : Fails parse file env k e') : e = e' := by
  cases h with
  | missing none =>
    cases h' with
    | missing => rfl
    | notText found => cases none.symm.trans found
  | notText found =>
    cases h' with
    | missing none => cases none.symm.trans found
    | notText => rfl
  | document text bad =>
    cases h' with
    | document => rfl
    | part text' read =>
      cases text.unique text'
      cases bad.symm.trans read
  | part text read =>
    cases h' with
    | document text' bad =>
      cases text.unique text'
      cases bad.symm.trans read
    | part => rfl
  | chunkSize given bad =>
    cases h' with
    | chunkSize given' bad' =>
      cases given.symm.trans given'
      cases bad.unique bad'
      rfl
  | loadCount given bad =>
    cases h' with
    | loadCount given' bad' =>
      cases given.symm.trans given'
      cases bad.unique bad'
      rfl
  | mode given =>
    cases h' with
    | mode given' =>
      cases given.symm.trans given'
      rfl
  | zeroChunkSize =>
    cases h' with
    | zeroChunkSize => rfl
  | zeroLoadCount =>
    cases h' with
    | zeroLoadCount => rfl

theorem FirstFails.exists_fails {ks : List Check} (h : FirstFails parse file env ks e) :
    ∃ k ∈ ks, Fails parse file env k e := by
  induction h with
  | here fails => exact ⟨_, List.mem_cons_self, fails⟩
  | later _ _ ih =>
    obtain ⟨k, hk, fails⟩ := ih
    exact ⟨k, List.mem_cons_of_mem _ hk, fails⟩

theorem FirstFails.unique {ks : List Check} {e' : ConfigError}
    (h : FirstFails parse file env ks e) (h' : FirstFails parse file env ks e') : e = e' := by
  induction h with
  | here fails =>
    cases h' with
    | here fails' => exact fails.unique fails'
    | later passes => exact absurd fails (passes _)
  | later passes _ ih =>
    cases h' with
    | here fails' => exact absurd fails' (passes _)
    | later _ rest => exact ih rest

theorem ofFileWith_eq_error_iff : ofFileWith parse file env = .error e ↔
    FirstFails parse file env checks e := by
  refine ⟨firstFails_of_ofFileWith, fun first => ?_⟩
  cases result : ofFileWith parse file env with
  | error e' => rw [(firstFails_of_ofFileWith result).unique first]
  | ok c =>
    obtain ⟨k, -, fails⟩ := first.exists_fails
    exact absurd fails (passes_of_ofFileWith result k)

/-! ## Files and environments -/

/-- What comes of a file and an environment, where `parse` reads documents. -/
structure Layered (parse : String → Option (List (String × Toml))) (file : Option ByteArray)
    (env : Environment) : Prop where
  /-- The environment goes before the file, and the file before the defaults. -/
  ok_iff : ∀ c, ofFileWith parse file env = .ok c ↔
    ∃ l, FileLayer parse file l ∧ Overlaid env (l.onto {}) c ∧ c.chunkSize ≠ 0 ∧
      c.maxConcurrentLoads ≠ 0
  error_iff : ∀ e, ofFileWith parse file env = .error e ↔ FirstFails parse file env checks e
  /-- A zero of the file does no harm under a number of the environment. -/
  rescued_chunkSize : ∀ l s n, FileLayer parse file l → l.chunkSize = some 0 →
    env = { chunkSize := some s } → Spells s n → n ≠ 0 → (l.onto {}).maxConcurrentLoads ≠ 0 →
    ofFileWith parse file env = .ok { l.onto {} with chunkSize := n }
  rescued_loadCount : ∀ l s n, FileLayer parse file l → l.maxConcurrentLoads = some 0 →
    env = { maxConcurrentLoads := some s } → Spells s n → n ≠ 0 → (l.onto {}).chunkSize ≠ 0 →
    ofFileWith parse file env = .ok { l.onto {} with maxConcurrentLoads := n }
  /-- A zero of the environment does harm, whatever the file says. -/
  spoiled : ∀ s, env.chunkSize = some s ∨ env.maxConcurrentLoads = some s → Spells s 0 →
    ∀ c, ofFileWith parse file env ≠ .ok c
  /-- A document without a section is as good as no file. -/
  bare : ∀ s entries, HasText file s → parse s = some entries →
    Toml.entry? entries "cache" = none → ofFileWith parse file env = ofEnvironment env
  discover_found : ∀ bytes, file = some bytes → discover file env = ofFileWith Toml.parse file env
  discover_missing : file = none → discover file env = ofEnvironment env
  /-- What comes out is fit to run with. -/
  valid : ∀ c, ofFileWith parse file env = .ok c ∨ ofEnvironment env = .ok c ∨
    discover file env = .ok c → c.check = .ok ()

theorem ofFileWith_of_bare {entries : List (String × Toml)} (text : HasText file s)
    (read : parse s = some entries) (none : Toml.entry? entries "cache" = none) :
    ofFileWith parse file env = ofEnvironment env := by
  unfold ofFileWith
  rw [fileText_eq_ok_iff.2 text]
  show ((ofDocument (parse s)).mapError .inFile >>= fun c => finish env c) = _
  rw [ofDocument_eq_ok_iff.2 ⟨entries, {}, read, .bare none, rfl⟩]
  rfl

theorem check_of_ofFileWith (done : ofFileWith parse file env = .ok c) : c.check = .ok () := by
  obtain ⟨l, -, -, some⟩ := ofFileWith_eq_ok_iff.1 done
  exact check_eq_ok_iff.2 some

theorem check_of_ofEnvironment (done : ofEnvironment env = .ok c) : c.check = .ok () :=
  check_eq_ok_iff.2 (finish_eq_ok_iff.1 done).2

theorem layered (parse : String → Option (List (String × Toml))) (file : Option ByteArray)
    (env : Environment) : Layered parse file env where
  ok_iff c := ofFileWith_eq_ok_iff
  error_iff e := ofFileWith_eq_error_iff
  rescued_chunkSize := by
    rintro l s n layer - rfl spells some loads
    exact ofFileWith_eq_ok_iff.2 ⟨l, layer, ⟨spells, rfl, rfl⟩, some, loads⟩
  rescued_loadCount := by
    rintro l s n layer - rfl spells some chunk
    exact ofFileWith_eq_ok_iff.2 ⟨l, layer, ⟨rfl, spells, rfl⟩, chunk, some⟩
  spoiled := by
    intro s given spells c done
    obtain ⟨l, -, laid, chunk, loads⟩ := ofFileWith_eq_ok_iff.1 done
    rcases given with given | given
    · have picks := laid.chunkSize
      rw [given] at picks
      exact chunk (Spells.unique picks spells)
    · have picks := laid.maxConcurrentLoads
      rw [given] at picks
      exact loads (Spells.unique picks spells)
  bare s entries text read none := ofFileWith_of_bare text read none
  discover_found := by
    rintro bytes rfl
    rfl
  discover_missing := by
    rintro rfl
    rfl
  valid := by
    rintro c (done | done | done)
    · exact check_of_ofFileWith done
    · exact check_of_ofEnvironment done
    · unfold discover at done
      split at done
      · exact check_of_ofFileWith done
      · exact check_of_ofEnvironment done

end CacheConfig
end SharedStream
