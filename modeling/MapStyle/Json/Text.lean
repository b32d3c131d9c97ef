import MapStyle.Json.Basic
import MapStyle.Number.Text

/-!
# The text of a document

The compact form: no blanks, escapes only where JSON demands them, control characters by their
short name or else by four hexadecimal digits. Numbers that no text of JSON can stand for become
`null`.
-/

namespace MapStyle.Json

/-- Four lower case hexadecimal digits of a small number. -/
def hexDigits (n : Nat) : List Char :=
  let ds := Nat.toDigits 16 n
  List.replicate (4 - ds.length) '0' ++ ds

def escapedChar (c : Char) : List Char :=
  if c == '"' then ['\\', '"']
  else if c == '\\' then ['\\', '\\']
  else if c == '\n' then ['\\', 'n']
  else if c == '\r' then ['\\', 'r']
  else if c == '\t' then ['\\', 't']
  else if c == Char.ofNat 8 then ['\\', 'b']
  else if c == Char.ofNat 12 then ['\\', 'f']
  else if c.toNat < 32 then '\\' :: 'u' :: hexDigits c.toNat
  else [c]

def quote (s : String) : String :=
  String.ofList ('"' :: s.toList.flatMap escapedChar ++ ['"'])

/-- The text of a number; there is none for infinities and NaN. -/
def Number.text : Number → String
  | .integer n => toString n
  | .decimal x => (MapStyle.Number.Layout.json.finiteText? x).getD "null"

mutual

def text : Json → String
  | .null => "null"
  | .boolean b => if b then "true" else "false"
  | .number n => n.text
  | .string s => quote s
  | .array items => "[" ++ ",".intercalate (itemTexts items) ++ "]"
  | .object fields => "\x7b" ++ ",".intercalate (fieldTexts fields) ++ "\x7d"

def itemTexts : List Json → List String
  | [] => []
  | j :: rest => j.text :: itemTexts rest

def fieldTexts : List (String × Json) → List String
  | [] => []
  | (k, j) :: rest => (quote k ++ ":" ++ j.text) :: fieldTexts rest

end

/-- A number as a document holds it: small integers without a fraction, nothing for infinities
and NaN. -/
def ofNumber (x : Float) : Json :=
  if MapStyle.Number.showsWhole x then .number (.integer (MapStyle.Number.wholePart x))
  else if x.isFinite then .number (.decimal x)
  else .null

end MapStyle.Json
