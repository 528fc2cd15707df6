import SharedStream.Toml

/-! # The tree of a document

A document grows by one entry at a time, each under a path of names. How a table came about says
what may still be done to it: one that only stands on the path of a header may get a header of its
own, one made by a dotted name may get further dotted names, and a value is closed.
-/
namespace SharedStream.Toml

/-- How a table came about. -/
inductive Origin where
  /-- It stands on the path of a header. -/
  | implied
  /-- It stands on the path of a dotted name. -/
  | dotted
  /-- It has a header of its own. -/
  | headed
  deriving DecidableEq, Repr

inductive Node where
  | value (v : Toml)
  | table (origin : Origin) (entries : List (String × Node))
  /-- Tables under one repeated header, the latest apart. -/
  | series (earlier : List (List (String × Node))) (latest : Option (List (String × Node)))

abbrev Entries := List (String × Node)

/-- `entries` with `node` under `name`, in the place of what was there. -/
def Entries.put (entries : Entries) (name : String) (node : Node) : Entries :=
  match entries with
  | [] => [(name, node)]
  | (n, old) :: rest =>
    if n = name then (n, node) :: rest else (n, old) :: Entries.put rest name node

/-- `entries` with `node` under `name`, after all others. -/
def Entries.putLast (entries : Entries) (name : String) (node : Node) : Entries :=
  entries.filter (·.1 ≠ name) ++ [(name, node)]

/-- Changes the table at the end of a path by `f`, which also learns how that table came about.
What the path misses is made, as `making` says. A table with a header takes no dotted names. -/
def Entries.changeAt (making : Origin) (f : Origin → Entries → Option Entries) (origin : Origin) :
    List String → Entries → Option Entries
  | [], entries => f origin entries
  | name :: path, entries =>
    match entries.lookup name with
    | none => do
      let inner ← Entries.changeAt making f making path []
      return entries.put name (.table making inner)
    | some (.value _) => none
    | some (.table o inner) =>
      if making = .dotted ∧ o = .headed then none
      else do
        let inner ← Entries.changeAt making f o path inner
        return entries.put name (.table o inner)
    | some (.series earlier latest) => do
      let latest ← Entries.changeAt making f .headed path (latest.getD [])
      return entries.put name (.series earlier (some latest))

/-- Adds an entry that no other entry has the name of. -/
def Entries.add (entries : Entries) (name : String) (node : Node) : Option Entries :=
  if (entries.lookup name).isSome then none else some (entries.put name node)

/-- A value under a dotted name. Its table must have come about by dotted names too. -/
def Entries.assign (entries : Entries) (path : List String) (name : String) (v : Toml) :
    Option Entries :=
  entries.changeAt .dotted
    (fun origin inner => if path ≠ [] ∧ origin ≠ .dotted then none else inner.add name (.value v))
    .headed path

/-- A header of a table, which must be new or stand only on the path of another header. It comes to
stand after the other entries beside it. -/
def Entries.openTable (entries : Entries) (path : List String) (name : String) : Option Entries :=
  entries.changeAt .implied
    (fun _ inner => match inner.lookup name with
      | none => some (inner.putLast name (.table .headed []))
      | some (.table .implied es) => some (inner.putLast name (.table .headed es))
      | some _ => none)
    .headed path

def Entries.openNext (entries : Entries) (path : List String) (name : String) : Option Entries :=
  entries.changeAt .implied
    (fun _ inner => match inner.lookup name with
      | none => some (inner.put name (.series [] (some [])))
      | some (.series earlier latest) =>
        some (inner.put name (.series (earlier ++ latest.toList) (some [])))
      | some _ => none)
    .headed path

def Entries.inHeader (entries : Entries) (header : List String) (f : Entries → Option Entries) :
    Option Entries :=
  entries.changeAt .implied (fun _ inner => f inner) .headed header

mutual

def Node.toToml : Node → Toml
  | .value v => v
  | .table _ entries => .table (toTomlEntries entries)
  | .series earlier none => .array (toTomlTables earlier)
  | .series earlier (some latest) =>
    .array (toTomlTables earlier ++ [.table (toTomlEntries latest)])

def toTomlEntries : List (String × Node) → List (String × Toml)
  | [] => []
  | (name, node) :: rest => (name, node.toToml) :: toTomlEntries rest

def toTomlTables : List (List (String × Node)) → List Toml
  | [] => []
  | es :: rest => .table (toTomlEntries es) :: toTomlTables rest

end

end SharedStream.Toml
