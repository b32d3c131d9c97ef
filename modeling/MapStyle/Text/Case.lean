import MapStyle.Text.CaseTable

/-!
# Upper and lower case

Full case mapping of Unicode text, independent of any language: letters with a longer form in the
other case grow, and a capital sigma becomes the final small sigma when it ends a word. A sigma
ends a word when the nearest letter before it is cased and the nearest after it is not, where
characters that case rules ignore are looked through on both sides.
-/

namespace MapStyle.Text

/-- Where a run of the table moves the character numbered `n`, if the run contains it. -/
def CaseRun.moved? (r : CaseRun) (n : Nat) : Option Nat :=
  if r.first ≤ n && n ≤ r.last && (n - r.first) % r.step == 0 then some ((n : Int) + r.shift).toNat
  else none

/-- The other case of one character, given the tables of that case. -/
def mapChar (sequences : List (Nat × List Nat)) (runs : List CaseRun) (c : Char) : List Char :=
  match sequences.lookup c.toNat with
  | some ns => ns.map Char.ofNat
  | none =>
    match runs.findSome? (·.moved? c.toNat) with
    | some n => [Char.ofNat n]
    | none => [c]

def inRanges (ranges : List (Nat × Nat)) (c : Char) : Bool :=
  ranges.any fun (lo, hi) => lo ≤ c.toNat && c.toNat ≤ hi

/-- Whether the first character that case rules do not ignore is cased. -/
def nextIsCased (cs : List Char) : Bool :=
  match cs.dropWhile (inRanges caseIgnorableRanges) with
  | c :: _ => inRanges casedRanges c
  | [] => false

/-- The small letters of `cs`, where `before` is the text in front of them, nearest first. -/
def lowerChars (before : List Char) : List Char → List Char
  | [] => []
  | c :: rest =>
    let small :=
      if c == 'Σ' then [if nextIsCased before && !nextIsCased rest then 'ς' else 'σ']
      else mapChar lowerSequences lowerRuns c
    small ++ lowerChars (c :: before) rest

def toUpper (s : String) : String :=
  String.ofList (s.toList.flatMap (mapChar upperSequences upperRuns))

def toLower (s : String) : String :=
  String.ofList (lowerChars [] s.toList)

end MapStyle.Text
