import SharedStream.Toml.Reserved
import SharedStream.Toml.Scalar
import SharedStream.Toml.Tree

/-! # Reading TOML documents

A document is a sequence of lines: headers of tables, entries under the latest header, comments and
empty lines. Values nest less than eighty deep, and a dotted name has fewer than eighty parts.
-/
namespace SharedStream.Toml
open Text

/-- The bound on nested values and on the parts of a dotted name. -/
def depthLimit : Nat := 80

/-- A comment, if there is one, and the end of the line or of the text. -/
def endLine (cs : List Char) : Option (List Char) :=
  let r := match skipSpaces cs with
    | '#' :: r => r.dropWhile isVisible
    | r => r
  match r with
  | [] => some []
  | r => afterNewline? r

/-- The text without the blanks, ends of lines and comments at its head. In a comment, `comment`
says that its characters are still being passed over. -/
def skipFiller (comment : Bool) : List Char → List Char
  | '\r' :: '\n' :: r => skipFiller false r
  | c :: r =>
    if comment && isVisible c then skipFiller true r
    else if isSpace c || c = '\n' then skipFiller false r
    else if c = '#' then skipFiller true r
    else c :: r
  | [] => []

def isBareKey (c : Char) : Bool := c.isAlphanum || c = '_' || c = '-'

def readName (cs : List Char) : Option (String × List Char) :=
  match cs with
  | '"' :: r => (readBasic r).map fun (s, r) => (String.ofList s, r)
  | '\'' :: r => (readLiteral r).map fun (s, r) => (String.ofList s, r)
  | cs =>
    let s := cs.takeWhile isBareKey
    if s = [] then none else some (String.ofList s, cs.dropWhile isBareKey)

/-- The parts of a dotted name; `fuel` is more than the length of the text. -/
def readNames (fuel : Nat) (cs : List Char) : Option (List String × List Char) :=
  match fuel with
  | 0 => none
  | fuel + 1 => do
    let (name, r) ← readName (skipSpaces cs)
    match skipSpaces r with
    | '.' :: r => do
      let (names, r) ← readNames fuel r
      return (name :: names, r)
    | r => return ([name], r)

def readKey (cs : List Char) : Option ((List String × String) × List Char) := do
  let (names, r) ← readNames (cs.length + 1) cs
  if names.length < depthLimit then
    let last ← names.getLast?
    return ((names.dropLast, last), r)
  else none

mutual

/-- A value inside `depth` others. -/
def readValue (fuel depth : Nat) (cs : List Char) : Option (Toml × List Char) :=
  match fuel with
  | 0 => none
  | fuel + 1 =>
    match cs with
    | '[' :: r =>
      if depth + 1 < depthLimit then do
        let (xs, r) ← readItems fuel (depth + 1) r
        return (.array xs, r)
      else none
    | '\x7b' :: r =>
      if depth + 1 < depthLimit then
        match skipSpaces r with
        | '\x7d' :: r => some (.table [], r)
        | r => do
          let (entries, r) ← readFields fuel (depth + 1) [] r
          return (.table (toTomlEntries entries), r)
      else none
    | 't' :: 'r' :: 'u' :: 'e' :: r => some (.truth true, r)
    | 'f' :: 'a' :: 'l' :: 's' :: 'e' :: r => some (.truth false, r)
    | cs =>
      (readText cs).map (fun (s, r) => (.text (String.ofList s), r)) <|> readMoment cs <|>
        readNumber cs

def readItems (fuel depth : Nat) (cs : List Char) : Option (List Toml × List Char) :=
  match fuel with
  | 0 => none
  | fuel + 1 =>
    match skipFiller false cs with
    | ']' :: r => some ([], r)
    | r => do
      let (x, r) ← readValue fuel depth r
      match skipFiller false r with
      | ']' :: r => return ([x], r)
      | ',' :: r => do
        let (xs, r) ← readItems fuel depth r
        return (x :: xs, r)
      | _ => none

def readFields (fuel depth : Nat) (entries : Entries) (cs : List Char) :
    Option (Entries × List Char) :=
  match fuel with
  | 0 => none
  | fuel + 1 => do
    let ((path, name), r) ← readKey cs
    let r ← readMark '=' r
    let (v, r) ← readValue fuel depth (skipSpaces r)
    let entries ← entries.assign path name v
    match skipSpaces r with
    | '\x7d' :: r => return (entries, r)
    | ',' :: r => readFields fuel depth entries r
    | _ => none

end

/-- Reads the lines that are left, with the header that is in force. -/
def readLines (fuel : Nat) (header : List String) (entries : Entries) (cs : List Char) :
    Option Entries :=
  match fuel with
  | 0 => none
  | fuel + 1 =>
    match skipSpaces cs with
    | [] => some entries
    | '[' :: '[' :: r => do
      let ((path, name), r) ← readKey r
      let r ← readMark ']' r
      let r ← readMark ']' r
      let r ← endLine r
      let entries ← entries.openNext path name
      readLines fuel (path ++ [name]) entries r
    | '[' :: r => do
      let ((path, name), r) ← readKey r
      let r ← readMark ']' r
      let r ← endLine r
      let entries ← entries.openTable path name
      readLines fuel (path ++ [name]) entries r
    | r =>
      match endLine r with
      | some r => readLines fuel header entries r
      | none => do
        let ((path, name), r) ← readKey r
        let r ← readMark '=' r
        let (v, r) ← readValue (2 * r.length + 2) 0 (skipSpaces r)
        let r ← endLine r
        let entries ← entries.inHeader header (·.assign path name v)
        readLines fuel header entries r

/-- The entries of the document that the text spells. A mark of the byte order before it does not
matter. -/
def parse (s : String) : Option (List (String × Toml)) := do
  let cs := match s.toList with
    | '\uFEFF' :: r => r
    | r => r
  let entries ← readLines (cs.length + 2) [] [] cs
  resolveEntries? (toTomlEntries entries)

end SharedStream.Toml
