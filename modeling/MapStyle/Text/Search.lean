/-!
# Finding a text in another

The first place at which a pattern occurs, by code points.
-/

namespace MapStyle.Text

/-- How many characters come before the first occurrence of `pattern` in the text. The empty pattern
occurs everywhere, at the very end too. -/
def occurrence? (pattern : List Char) : List Char → Option Nat
  | [] => if pattern.isEmpty then some 0 else none
  | c :: rest =>
    if pattern.isPrefixOf (c :: rest) then some 0 else (occurrence? pattern rest).map (· + 1)

end MapStyle.Text
