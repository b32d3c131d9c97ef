import MapStyle.EvalError
import MapStyle.Text.Search

/-!
# Items, searches and slices

Operations on arrays and strings. Strings are sequences of code points, and an index of a slice or a
search is resolved against the length of the sequence: its fraction is dropped, a negative one
counts from the end, and the result is kept within the sequence.
-/

namespace MapStyle.Semantics

/-- The place in a sequence that an index stands for. -/
def resolveIndex (index : Float) (length : Nat) : Nat :=
  match Number.Binary.ofFloat? index with
  | some b => if b.wholePart < 0 then ((length : Int) + b.wholePart).toNat else min b.wholePart.toNat length
  | none => if 0 < index then length else 0

/-- The item at an index, where `inputTy` is the static type of the array. -/
def item (inputTy : Ty) (index input : Outcome) : Outcome := do
  let index ← index.number
  match ← input with
  | .array items =>
    if index < 0 then throw (.indexBelowZero index)
    if Float.ofNat items.length ≤ index then throw (.indexAboveMax index items.length)
    if !Number.isWhole index then throw (.fractionalIndex index)
    match items[(Number.wholePart index).toNat]? with
    | some v => return v
    | none => throw .missingOperand
  | v => throw (.typeMismatch inputTy v.type)

def isNeedle : Value → Bool
  | .null | .boolean _ | .number _ | .string _ => true
  | .color _ | .array _ | .object _ => false

/-- Whether a string or an array contains a value. Nothing is in an empty text, in null, false or
zero. -/
def contains (needle haystack : Outcome) : Outcome := do
  let needle ← needle
  let haystack ← haystack
  if !haystack.isTruthy then return .boolean false
  if !isNeedle needle then throw (.invalidNeedle needle.type)
  match haystack with
  | .string s =>
    return .boolean (Text.occurrence? needle.searchText.toList s.toList).isSome
  | .array items => return .boolean (items.any (·.equals needle))
  | v => throw (.invalidHaystack v.type)

/-- The first place at or after `start` at which a sequence contains a value. In a string, a
negative start is its beginning. -/
def findFrom? (needle haystack : Value) (start : Float) : Except EvalError (Option Nat) :=
  match haystack with
  | .string s =>
    let first := resolveIndex (if 0 < start then start else 0) s.toList.length
    return (Text.occurrence? needle.searchText.toList (s.toList.drop first)).map (· + first)
  | .array items =>
    let first := resolveIndex start items.length
    return ((items.drop first).findIdx? (·.equals needle)).map (· + first)
  | v => throw (.invalidHaystack v.type)

/-- The index at which a sequence contains a value, minus one if it does not. -/
def position (needle haystack : Outcome) (start : Option Outcome) : Outcome := do
  let needle ← needle
  let haystack ← haystack
  if !isNeedle needle then throw (.invalidNeedle needle.type)
  let start ← match start with
    | some o => o.number
    | none => pure 0
  match ← findFrom? needle haystack start with
  | some i => return .number (Float.ofNat i)
  | none => return .number (-1)

/-- The part of a sequence between two places, empty if the second does not come after the first. -/
def cut {α : Type} (xs : List α) (start : Float) (stop : Option Float) : List α :=
  let first := resolveIndex start xs.length
  let last := match stop with
    | some e => resolveIndex e xs.length
    | none => xs.length
  (xs.drop first).take (last - first)

/-- The part of a string or an array between two indices. -/
def slice (input start : Outcome) (stop : Option Outcome) : Outcome := do
  let input ← input
  let start ← start.number
  let stop ← match stop with
    | some o => some <$> o.number
    | none => pure none
  match input with
  | .string s => return .string (String.ofList (cut s.toList start stop))
  | .array items => return .array (cut items start stop)
  | v => throw (.wrongOperandType .slice v.type)

/-- How many code points or items a sequence has. -/
def length (input : Outcome) : Outcome := do
  match ← input with
  | .string s => return .number (Float.ofNat s.toList.length)
  | .array items => return .number (Float.ofNat items.length)
  | v => throw (.wrongOperandType .length v.type)

end MapStyle.Semantics
