import MapStyle.Number.Decimal
import MapStyle.Number.Whole

/-!
# Numbers read from text

The grammar of a decimal number: a sign, digits with at most one point among or around them, and
an exponent. Which signs, words and exponents a text may have depends on who reads it; the readers
here work on characters and hand back what they did not use.
-/

namespace MapStyle.Number

/-- The digits at the front of `cs` and what follows them. -/
def digitRun (cs : List Char) : List Char × List Char :=
  (cs.takeWhile Char.isDigit, cs.dropWhile Char.isDigit)

def digitsValue (cs : List Char) : Nat :=
  cs.foldl (fun n c => n * 10 + (c.toNat - '0'.toNat)) 0

/-- A signed run of at least one digit that ends the text. -/
def exponent? (cs : List Char) : Option Int :=
  let (negative, rest) :=
    match cs with
    | '-' :: r => (true, r)
    | '+' :: r => (false, r)
    | r => (false, r)
  let (ds, after) := digitRun rest
  if ds.isEmpty || !after.isEmpty then none
  else
    let n : Int := digitsValue ds
    some (if negative then -n else n)

/-- An unsigned decimal number that ends the text. The point may come first or last, but some
digit is needed beside it. -/
def magnitude? (cs : List Char) : Option Float := do
  let (whole, rest) := digitRun cs
  let (fraction, rest) :=
    match rest with
    | '.' :: r => digitRun r
    | r => ([], r)
  if whole.isEmpty && fraction.isEmpty then none
  let exponent ←
    match rest with
    | [] => some 0
    | c :: r => if c == 'e' || c == 'E' then exponent? r else none
  let d : Decimal := ⟨digitsValue (whole ++ fraction), exponent - fraction.length⟩
  return d.toFloat

/-- Splits a leading sign off; the first part says whether it is a minus. -/
def signed (cs : List Char) : Bool × List Char :=
  match cs with
  | '-' :: r => (true, r)
  | '+' :: r => (false, r)
  | r => (false, r)

/-- The number a text stands for: a decimal number, or a word for infinity or NaN in any case of
letters, either with a sign. -/
def read? (cs : List Char) : Option Float := do
  let (negative, rest) := signed cs
  let word := String.ofList (rest.map Char.toLower)
  let x ←
    if word == "inf" || word == "infinity" then some infinity
    else if word == "nan" then some nan
    else magnitude? rest
  return if negative then -x else x

end MapStyle.Number
