/-!
# JSON documents

Styles, filters and geometries arrive as JSON. A document keeps what the language above it can
tell apart: whether a number was written as an integer, because lengths and printed literals depend
on it, and the order of an object's keys, which is ascending by code point however they were
written.
-/

namespace MapStyle

inductive Json.Number where
  | integer (n : Int)
  | decimal (x : Float)

inductive Json where
  | null
  | boolean (b : Bool)
  | number (n : Json.Number)
  | string (s : String)
  | array (items : List Json)
  | object (fields : List (String × Json))
  deriving Inhabited

namespace Json

/-- The double nearest to a number. -/
def Number.toFloat : Number → Float
  | .integer n => Float.ofInt n
  | .decimal x => x

def string? : Json → Option String
  | .string s => some s
  | _ => none

def number? : Json → Option Float
  | .number n => some n.toFloat
  | _ => none

def boolean? : Json → Option Bool
  | .boolean b => some b
  | _ => none

def array? : Json → Option (List Json)
  | .array items => some items
  | _ => none

def object? : Json → Option (List (String × Json))
  | .object fields => some fields
  | _ => none

def field? (key : String) : Json → Option Json
  | .object fields => fields.lookup key
  | _ => none

def isNull : Json → Bool
  | .null => true
  | _ => false

def isArray (j : Json) : Bool := j.array?.isSome

def isString (j : Json) : Bool := j.string?.isSome

/-- The word for the kind of a value that messages about misplaced values use. Null and both kinds
of container are objects. -/
def kindName : Json → String
  | .boolean _ => "boolean"
  | .number _ => "number"
  | .string _ => "string"
  | .null | .array _ | .object _ => "object"

/-- Puts a field among fields in ascending order of keys, replacing one with the same key. -/
def insertField (key : String) (value : Json) : List (String × Json) → List (String × Json)
  | [] => [(key, value)]
  | (k, v) :: rest =>
    if key < k then (key, value) :: (k, v) :: rest
    else if key == k then (key, value) :: rest
    else (k, v) :: insertField key value rest

/-- An object with the given fields, of which the last with a key counts. -/
def ofFields (fields : List (String × Json)) : Json :=
  .object (fields.foldl (fun sorted (k, v) => insertField k v sorted) [])

end Json

end MapStyle
