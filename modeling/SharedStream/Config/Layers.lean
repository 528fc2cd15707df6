import SharedStream.Config
import SharedStream.Failure
import SharedStream.Toml.Document
import SharedStream.Word

/-! # Where a configuration comes from

Three layers, each over the one before: the defaults, the section `[cache]` of a file, and the
environment. The parts are checked only when all layers are laid.
-/
namespace SharedStream

inductive NumeralError where
  | empty
  | invalidDigit
  | tooLarge
  deriving DecidableEq, Repr

def NumeralError.message : NumeralError → String
  | .empty => "cannot parse integer from empty string"
  | .invalidDigit => "invalid digit found in string"
  | .tooLarge => "number too large to fit in target type"

/-- Reads digits from the left, where `n` has been read already. The first digit that is none, or
that makes the number too large for 64 bits, ends the reading. -/
def readSizeDigits (n : Nat) : List Char → Except NumeralError Nat
  | [] => .ok n
  | c :: cs =>
    if c.isDigit then
      let n := 10 * n + (c.toNat - '0'.toNat)
      if n < wordLimit then readSizeDigits n cs else .error .tooLarge
    else .error .invalidDigit

/-- The unsigned number of 64 bits that a text spells, with or without a plus sign. -/
def parseSize (s : String) : Except NumeralError Nat :=
  match s.toList with
  | [] => .error .empty
  | ['+'] => .error .invalidDigit
  | '+' :: cs => readSizeDigits 0 cs
  | cs => readSizeDigits 0 cs

inductive ConfigError where
  | unreadable (kind : IoKind)
  | badDocument
  /-- The section does not describe a configuration. -/
  | badSection
  /-- The same of the text of a file. -/
  | inFile (cause : ConfigError)
  | badChunkSize (text : String) (cause : NumeralError)
  | badLoadCount (text : String) (cause : NumeralError)
  | unknownMode (word : String)
  | zeroChunkSize
  | zeroLoadCount
  deriving DecidableEq

/-- One message of a chain of causes: a text of this library, or a fault that the reader of
documents or the file system reports in its own words. -/
inductive Cause where
  | text (s : String)
  | document
  | file (kind : IoKind)
  deriving DecidableEq

def ConfigError.chain (path : String) : ConfigError → List Cause
  | .unreadable kind => [.text ("failed to read config file: " ++ path), .file kind]
  | .badDocument => [.document]
  | .badSection => [.text "failed to parse [cache] section", .document]
  | .inFile cause => .text ("failed to parse TOML: " ++ path) :: cause.chain path
  | .badChunkSize s cause =>
    [.text ("invalid STREAMCACHE_CHUNK_SIZE: " ++ s), .text cause.message]
  | .badLoadCount s cause =>
    [.text ("invalid STREAMCACHE_MAX_CONCURRENT_LOADS: " ++ s), .text cause.message]
  | .unknownMode word => [.text ("unknown load mode: " ++ word)]
  | .zeroChunkSize => [.text "chunk_size must be greater than zero"]
  | .zeroLoadCount => [.text "max_concurrent_loads must be greater than zero"]

/-- The variables of the environment that matter, as far as they are set to a text. -/
structure Environment where
  chunkSize : Option String := none
  maxConcurrentLoads : Option String := none
  loadMode : Option String := none
  deriving DecidableEq

/-- A variable that is set to bytes that are no text counts as unset. -/
def Environment.ofBytes (chunkSize maxConcurrentLoads loadMode : Option ByteArray) : Environment :=
  ⟨chunkSize.bind String.fromUTF8?, maxConcurrentLoads.bind String.fromUTF8?,
    loadMode.bind String.fromUTF8?⟩

namespace CacheConfig

/-- A configuration that the cache can run with. -/
def check (c : CacheConfig) : Except ConfigError Unit :=
  if c.chunkSize = 0 then .error .zeroChunkSize
  else if c.maxConcurrentLoads = 0 then .error .zeroLoadCount
  else .ok ()

/-- `otherwise`, unless a text overrides it. -/
def override {α ε : Type} (parse : String → Except ε α) (wrap : String → ε → ConfigError)
    (otherwise : α) : Option String → Except ConfigError α
  | none => .ok otherwise
  | some s => (parse s).mapError (wrap s)

/-- The layer of the environment over `c`. -/
def overlay (env : Environment) (c : CacheConfig) : Except ConfigError CacheConfig := do
  let chunkSize ← override parseSize .badChunkSize c.chunkSize env.chunkSize
  let maxConcurrentLoads ←
    override parseSize .badLoadCount c.maxConcurrentLoads env.maxConcurrentLoads
  let loadMode ← override LoadMode.parse (fun _ => .unknownMode) c.loadMode env.loadMode
  return ⟨chunkSize, maxConcurrentLoads, loadMode⟩

def finish (env : Environment) (c : CacheConfig) : Except ConfigError CacheConfig := do
  let c ← c.overlay env
  c.check
  return c

def ofEnvironment (env : Environment) : Except ConfigError CacheConfig := finish env {}

def ofDocument (document : Option (List (String × Toml))) : Except ConfigError CacheConfig :=
  match document with
  | none => .error .badDocument
  | some entries =>
    match Toml.entry? entries "cache" with
    | none => .ok {}
    | some t =>
      match ofToml? t with
      | some c => .ok c
      | none => .error .badSection

def ofTomlText (s : String) : Except ConfigError CacheConfig := ofDocument (Toml.parse s)

def fileText (file : Option ByteArray) : Except ConfigError String :=
  match file with
  | none => .error (.unreadable .notFound)
  | some bytes =>
    match String.fromUTF8? bytes with
    | some s => .ok s
    | none => .error (.unreadable .invalidData)

/-- The configuration of a file under an environment, where `parse` reads documents. -/
def ofFileWith (parse : String → Option (List (String × Toml))) (file : Option ByteArray)
    (env : Environment) : Except ConfigError CacheConfig := do
  let s ← fileText file
  let c ← (ofDocument (parse s)).mapError .inFile
  finish env c

def ofFile (file : Option ByteArray) (env : Environment) : Except ConfigError CacheConfig :=
  ofFileWith Toml.parse file env

/-- The configuration of the user's file if there is one, and of the environment alone if not. -/
def discover (file : Option ByteArray) (env : Environment) : Except ConfigError CacheConfig :=
  match file with
  | some _ => ofFile file env
  | none => ofEnvironment env

/-- The configuration that a process starts with: that of its environment, or the defaults if the
environment gives none. -/
def ofProcess (env : Environment) : CacheConfig :=
  match ofEnvironment env with
  | .ok c => c
  | .error _ => {}

end CacheConfig
end SharedStream
