import MapStyle.Color.Basic
import MapStyle.Json.Basic
import MapStyle.Ty

/-!
# Values

What an expression produces. Numbers are doubles, and objects keep their keys in the order of the
document they come from.

Two notions of a value's nature are defined here: `Value.type`, the most precise type it has, and
`Value.isTruthy`. Equality is that of scalars alone: containers and colors are never equal, not
even to themselves.
-/

namespace MapStyle

inductive Value where
  | null
  | boolean (b : Bool)
  | number (x : Float)
  | string (s : String)
  | color (c : Color)
  | array (items : List Value)
  | object (fields : List (String × Value))
  deriving Inhabited

/-- The named values of an object. -/
abbrev Fields := List (String × Value)

namespace Value

def isNull : Value → Bool
  | .null => true
  | _ => false

def number? : Value → Option Float
  | .number x => some x
  | _ => none

def string? : Value → Option String
  | .string s => some s
  | _ => none

def boolean? : Value → Option Bool
  | .boolean b => some b
  | _ => none

def array? : Value → Option (List Value)
  | .array items => some items
  | _ => none

def object? : Value → Option Fields
  | .object fields => some fields
  | _ => none

def color? : Value → Option Color
  | .color c => some c
  | _ => none

/-- Null, false, zero, NaN and the empty text are not truthy; everything else is. -/
def isTruthy : Value → Bool
  | .null => false
  | .boolean b => b
  | .number x => x != 0 && !x.isNaN
  | .string s => !s.isEmpty
  | .color _ | .array _ | .object _ => true

/-- Equality of scalars. -/
def equals : Value → Value → Bool
  | .null, .null => true
  | .boolean a, .boolean b => a == b
  | .number a, .number b => a == b
  | .string a, .string b => a == b
  | _, _ => false

/-- The type of a list of items that have the given types: the one they share, or else `value`. -/
def itemType : List Ty → Ty
  | [] => .value
  | t :: ts => if ts.all (· == t) then t else .value

mutual

def type : Value → Ty
  | .null => .null
  | .boolean _ => .boolean
  | .number _ => .number
  | .string _ => .string
  | .color _ => .color
  | .object _ => .object
  | .array items => .array (itemType (types items)) (some items.length)

def types : List Value → List Ty
  | [] => []
  | v :: vs => v.type :: types vs

end

/-- How two values of one scalar kind are ordered. NaN has no place in the order. -/
def compare? : Value → Value → Option Ordering
  | .number a, .number b =>
    if a < b then some .lt else if b < a then some .gt else if a == b then some .eq else none
  | .string a, .string b => some (compareOfLessAndEq a b)
  | .boolean a, .boolean b => some (compare a b)
  | _, _ => none

mutual

def ofJson : Json → Value
  | .null => .null
  | .boolean b => .boolean b
  | .number n => .number n.toFloat
  | .string s => .string s
  | .array items => .array (ofJsonItems items)
  | .object fields => .object (ofJsonFields fields)

def ofJsonItems : List Json → List Value
  | [] => []
  | j :: js => ofJson j :: ofJsonItems js

def ofJsonFields : List (String × Json) → Fields
  | [] => []
  | (k, j) :: js => (k, ofJson j) :: ofJsonFields js

end

end Value

end MapStyle
