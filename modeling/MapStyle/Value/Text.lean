import MapStyle.Json.Text
import MapStyle.Value.Basic

/-!
# Values as text

Containers are shown as JSON, in which a color is the string of its text. A scalar has three
readings that differ in few places: the text that is joined and printed, where null is empty; the
text that is searched for, where null is a word; and the text in messages, where strings are quoted.
-/

namespace MapStyle.Value

mutual

def toJson : Value → Json
  | .null => .null
  | .boolean b => .boolean b
  | .number x => Json.ofNumber x
  | .string s => .string s
  | .color c => .string c.text
  | .array items => .array (toJsonItems items)
  | .object fields => .object (toJsonFields fields)

def toJsonItems : List Value → List Json
  | [] => []
  | v :: vs => v.toJson :: toJsonItems vs

def toJsonFields : Fields → List (String × Json)
  | [] => []
  | (k, v) :: vs => (k, v.toJson) :: toJsonFields vs

end

/-- The text that `to-string` and `concat` produce. -/
def text : Value → String
  | .null => ""
  | .boolean b => if b then "true" else "false"
  | .number x => Number.text x
  | .string s => s
  | .color c => c.text
  | v@(.array _) | v@(.object _) => v.toJson.text

/-- The text that is looked for inside a string. -/
def searchText : Value → String
  | .null => "null"
  | v => v.text

def quotedText : Value → String
  | .number x => if x.isFinite then (Json.ofNumber x).text else Number.text x
  | v => v.toJson.text

end MapStyle.Value
