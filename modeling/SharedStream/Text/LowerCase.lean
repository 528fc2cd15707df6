import SharedStream.Text.CaseTable

/-! # Lower case

Every letter by itself goes to its small letter. Two letters need more: the capital I with a dot
becomes two characters, and the capital sigma looks at its neighbours, because a sigma that ends
a word has a form of its own.
-/
namespace SharedStream.Text

/-- The first character of `cs` that the sigma rule does not step over is a cased letter. -/
def meetsCased (cs : List Char) : Bool :=
  match (cs.dropWhile fun c => caseIgnorableRanges.covers c.toNat).head? with
  | some c => casedRanges.covers c.toNat
  | none => false

/-- The small letter of one character, for all but the sigma. -/
def lowerOne (c : Char) : List Char :=
  if c.toNat < 0x80 then [c.toLower]
  else if c.toNat = 0x130 then ['i', Char.ofNat 0x307]
  else match lowerRuns.find? fun r =>
      r.first ≤ c.toNat && c.toNat ≤ r.last && (c.toNat - r.first) % r.stride == 0 with
    | some r => [Char.ofNat (c.toNat + r.offset).toNat]
    | none => [c]

/-- Lower case of `cs`, where `before` is what precedes it, the nearest character first. -/
def lowerAfter (before : List Char) : List Char → List Char
  | [] => []
  | c :: cs =>
    (if c = 'Σ' then [if meetsCased before && !meetsCased cs then 'ς' else 'σ'] else lowerOne c)
      ++ lowerAfter (c :: before) cs

def lower (cs : List Char) : List Char := lowerAfter [] cs

end SharedStream.Text
