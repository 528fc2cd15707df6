import SharedStream.Toml.Scalar

/-! # Tables that stand for moments

A table whose first entry has the reserved name is one more way to write a moment: the entry is a
string that spells the moment, and the entries after it do not matter. The document as a whole is
no such table.
-/
namespace SharedStream.Toml

def momentName : String := "$__toml_private_datetime"

/-- The first entry has the reserved name. -/
def leadsWithMoment : List (String × Toml) → Bool
  | [] => false
  | (name, _) :: _ => name = momentName

/-- The moment that the first entry spells. -/
def leadingMoment? : List (String × Toml) → Option Toml
  | (_, .text s) :: _ => moment? s
  | _ => none

mutual

/-- The value with moments in the places of the tables that stand for them. There is none if such a
table spells no moment. -/
def resolve? : Toml → Option Toml
  | .array items => (resolveItems? items).map .array
  | .table entries =>
    if leadsWithMoment entries then leadingMoment? entries
    else (resolveEntries? entries).map .table
  | v => some v

def resolveItems? : List Toml → Option (List Toml)
  | [] => some []
  | v :: rest => do
    let v ← v.resolve?
    return v :: (← resolveItems? rest)

def resolveEntries? : List (String × Toml) → Option (List (String × Toml))
  | [] => some []
  | (name, v) :: rest => do
    let v ← v.resolve?
    return (name, v) :: (← resolveEntries? rest)

end

end SharedStream.Toml
