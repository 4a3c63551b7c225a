import FormFlow.Text.CaseTable
/-!
Lower and upper case of a whole text, by the full Unicode mappings: one character may become several, and a capital
sigma becomes the final form at the end of a word.
-/

set_option autoImplicit false

namespace FormFlow.Text

/-- Whether one of the closed ranges holds the number. -/
def inRanges (ranges : Array (Nat × Nat)) (n : Nat) : Bool :=
  ranges.any fun (first, last) => first ≤ n && n ≤ last

/-- Where the first run that holds the number moves it. -/
def shiftBy (runs : Array CaseRun) (n : Nat) : Nat :=
  match runs.find? fun r => r.first ≤ n && n ≤ r.last && (n - r.first) % r.step == 0 with
  | some r => (n + r.shift).toNat
  | none => n

/-- One character under a case mapping. -/
def mapCase (runs : Array CaseRun) (expansions : Array (Nat × List Nat)) (c : Char) : List Char :=
  match expansions.find? (·.1 == c.toNat) with
  | some (_, codes) => codes.map Char.ofNat
  | none => [Char.ofNat (shiftBy runs c.toNat)]

/-- Whether a cased character comes next, with the characters in between passed over. -/
def meetsCased (cs : List Char) : Bool :=
  match cs.dropWhile fun c => inRanges caseIgnorableRanges c.toNat with
  | [] => false
  | c :: _ => inRanges casedRanges c.toNat

/-- The lower case of `rest`, where `before` are the characters in front of it, the nearest first. -/
def lowerAfter (before : List Char) : List Char → List Char
  | [] => []
  | c :: rest =>
    let here :=
      if c == 'Σ' then (if meetsCased before && !meetsCased rest then ['ς'] else ['σ'])
      else mapCase lowerRuns lowerExpansions c
    here ++ lowerAfter (c :: before) rest

/-- The text in lower case. -/
def lower (s : String) : String :=
  .ofList (lowerAfter [] s.toList)

/-- The text in upper case. -/
def upper (s : String) : String :=
  .ofList (s.toList.flatMap (mapCase upperRuns upperExpansions))

end FormFlow.Text
