import MapStyle.Proofs.Access.Checked
import MapStyle.Proofs.Number.Nearest
import MapStyle.Semantics.Choice
import MapStyle.Semantics.Collection

/-!
# Indices into arrays and strings

The index of an item is a double that has been compared with the number of
items, also as a double; that it is below that number is `wholePart_lt`. The
indices of a search or a slice are resolved against the length first and are in
bounds by construction. A selection looks up a label, which stands for the
place of its branch.
-/

namespace MapStyle

theorem Semantics.resolveIndex_le (index : Float) (length : Nat) :
    resolveIndex index length ≤ length := by
  unfold resolveIndex
  split
  · split
    · next hnegative => exact Int.toNat_le.2 (by omega)
    · exact Nat.min_le_right _ _
  · split
    · exact Nat.le_refl length
    · exact Nat.zero_le length

namespace Checked

/-! ## Items -/

def item (inputTy : Ty) (index input : Outcome) : Checked EvalError Value := do
  let index ← index.number
  match ← input with
  | .array items =>
    if index < 0 then throw (.indexBelowZero index)
    if Float.ofNat items.length ≤ index then
      throw (.indexAboveMax index items.length)
    if !Number.isWhole index then throw (.fractionalIndex index)
    items[(Number.wholePart index).toNat]?
  | v => throw (.typeMismatch inputTy v.type)

theorem item_returns (inputTy : Ty) (index input : Outcome) :
    Returns (item inputTy index input)
      (Semantics.item inputTy index input) := by
  refine Returns.bind .lift fun x _ => Returns.bind .lift fun v _ => ?_
  cases v with
  | array items =>
      refine .ite (fun _ => .throw) fun hlow => ?_
      refine .ite (fun _ => .throw) fun hhigh => ?_
      refine .ite (fun _ => .throw) fun hwhole => ?_
      have hwhole : Number.isWhole x = true := by simpa using hwhole
      have hlt := Number.wholePart_lt hlow hhigh hwhole
      rw [List.getElem?_eq_getElem hlt]
      exact .access rfl .pure
  | _ => exact .throw

/-! ## Searches -/

/-- The first place from `i` on at which a text continues with a pattern. The
end of the text is one of the places. -/
def search (pattern text : List Char) (i : Nat) : Option (Option Nat) :=
  if i ≤ text.length then do
    if pattern.isPrefixOf (← from? text i) then return some i
    else search pattern text (i + 1)
  else return none
termination_by text.length + 1 - i

theorem search_eq (pattern text : List Char) {i : Nat}
    (hi : i ≤ text.length) : search pattern text i =
      some ((Text.occurrence? pattern (text.drop i)).map (· + i)) := by
  -- Induction on what is left of the text.
  induction hrest : text.drop i generalizing i with
  | nil =>
      have hend : ¬ i + 1 ≤ text.length := by
        have := List.drop_eq_nil_iff.1 hrest
        omega
      rw [search, if_pos hi, from?_eq hi, hrest, search, if_neg hend]
      cases pattern with
      | nil => simp [Text.occurrence?]
      | cons c rest => rfl
  | cons c rest ih =>
      have hlt : i + 1 ≤ text.length := by
        by_contra hend
        rw [List.drop_eq_nil_of_le (by omega)] at hrest
        cases hrest
      rw [search, if_pos hi, from?_eq hi, hrest,
        ih hlt (drop_succ_of_drop hrest), Text.occurrence?]
      show (if _ then _ else _) = _
      split
      · simp
      · simp [Function.comp_def, Nat.add_comm, Nat.add_left_comm]

def findFrom (needle haystack : Value) (start : Float) :
    Checked EvalError (Option Nat) :=
  match haystack with
  | .string s => do
    let chars := s.toList
    let first := Semantics.resolveIndex (if 0 < start then start else 0)
      chars.length
    search needle.searchText.toList chars first
  | .array items => do
    let first := Semantics.resolveIndex start items.length
    let rest ← from? items first
    return (rest.findIdx? (·.equals needle)).map (· + first)
  | v => throw (.invalidHaystack v.type)

theorem findFrom_returns (needle haystack : Value) (start : Float) :
    Returns (findFrom needle haystack start)
      (Semantics.findFrom? needle haystack start) := by
  have hle := Semantics.resolveIndex_le
  cases haystack with
  | string s =>
      simp only [findFrom, search_eq _ _ (hle _ _)]
      rfl
  | array items =>
      simp only [findFrom, from?_eq (hle _ _)]
      rfl
  | _ => exact .throw

def position (needle haystack : Outcome) (start : Option Outcome) :
    Checked EvalError Value := do
  let needle ← needle
  let haystack ← haystack
  if !Semantics.isNeedle needle then throw (.invalidNeedle needle.type)
  let start ← match start with
    | some o => o.number
    | none => pure 0
  match ← findFrom needle haystack start with
  | some i => return .number (Float.ofNat i)
  | none => return .number (-1)

theorem position_returns (needle haystack : Outcome) (start : Option Outcome) :
    Returns (position needle haystack start)
      (Semantics.position needle haystack start) := by
  refine Returns.bind .lift fun v _ => Returns.bind .lift fun w _ => ?_
  refine .ite (fun _ => .throw) fun _ => ?_
  cases start with
  | none =>
      refine Returns.bind .pure fun x _ => ?_
      refine (findFrom_returns v w x).bind fun i _ => ?_
      cases i <;> exact .pure
  | some o =>
      refine Returns.bind .lift fun x _ => ?_
      refine (findFrom_returns v w x).bind fun i _ => ?_
      cases i <;> exact .pure

/-! ## Slices -/

/-- The part of a sequence between two indices, the second moved behind the
first. -/
def cut {α : Type} (xs : List α) (start : Float) (stop : Option Float) :
    Option (List α) :=
  let first := Semantics.resolveIndex start xs.length
  let last := match stop with
    | some e => Semantics.resolveIndex e xs.length
    | none => xs.length
  range? xs first (max last first)

theorem cut_eq {α : Type} (xs : List α) (start : Float) (stop : Option Float) :
    cut xs start stop = some (Semantics.cut xs start stop) := by
  have hle := Semantics.resolveIndex_le start xs.length
  have hcut (last : Nat) (hlast : last ≤ xs.length) :
      range? xs (Semantics.resolveIndex start xs.length)
          (max last (Semantics.resolveIndex start xs.length)) =
        some ((xs.drop (Semantics.resolveIndex start xs.length)).take
          (last - Semantics.resolveIndex start xs.length)) := by
    rw [range?_eq (Nat.le_max_right _ _) (Nat.max_le.2 ⟨hlast, hle⟩)]
    congr 2
    omega
  cases stop with
  | none => exact hcut _ (Nat.le_refl _)
  | some e => exact hcut _ (Semantics.resolveIndex_le _ _)

def slice (input start : Outcome) (stop : Option Outcome) :
    Checked EvalError Value := do
  let input ← input
  let start ← start.number
  let stop ← match stop with
    | some o => some <$> o.number
    | none => pure none
  match input with
  | .string s => return .string (String.ofList (← cut s.toList start stop))
  | .array items => return .array (← cut items start stop)
  | v => throw (.wrongOperandType .slice v.type)

theorem slice_returns (input start : Outcome) (stop : Option Outcome) :
    Returns (slice input start stop)
      (Semantics.slice input start stop) := by
  refine Returns.bind .lift fun v _ => Returns.bind .lift fun x _ => ?_
  cases stop with
  | none =>
      refine Returns.bind .pure fun y _ => ?_
      cases v with
      | string s => exact .access (cut_eq _ x y) .pure
      | array items => exact .access (cut_eq _ x y) .pure
      | _ => exact .throw
  | some o =>
      refine Returns.bind (.map .lift) fun y _ => ?_
      cases v with
      | string s => exact .access (cut_eq _ x y) .pure
      | array items => exact .access (cut_eq _ x y) .pure
      | _ => exact .throw

/-! ## Selections -/

/-- A selection from a table of labels, each for the place of its output. -/
def selection (ty : Ty) (input : Outcome) (labels : List (List Label))
    (outputs : List Outcome) (otherwise : Outcome) :
    Checked EvalError Value := do
  match Semantics.inputLabel? ty (← input) with
  | none => otherwise
  | some label =>
    match labels.findIdx? (·.contains label) with
    | some i => outcome outputs i
    | none => otherwise

theorem selection_returns (ty : Ty) (input : Outcome)
    (branches : List (List Label × Outcome)) (otherwise : Outcome) :
    Returns (selection ty input (branches.map Prod.fst)
        (branches.map Prod.snd) otherwise)
      (Semantics.selection ty input branches otherwise) := by
  refine Returns.bind .lift fun v _ => ?_
  cases Semantics.inputLabel? ty v with
  | none => exact .lift
  | some label =>
      simp only [List.findIdx?_map, Function.comp_def]
      cases h : branches.findIdx? (·.1.contains label) with
      | none =>
          have hfind : branches.find? (·.1.contains label) = none :=
            List.find?_eq_none.2 (by simpa using List.findIdx?_eq_none_iff.1 h)
          simp only [hfind]
          exact .lift
      | some i =>
          obtain ⟨hi, hlabel, hbefore⟩ :=
            List.findIdx?_eq_some_iff_getElem.1 h
          have hfind : branches.find? (·.1.contains label) =
              some branches[i] :=
            List.find?_eq_some_iff_getElem.2
              ⟨hlabel, i, hi, rfl, by simpa using hbefore⟩
          have houtput : (branches.map Prod.snd)[i]? = some branches[i].2 := by
            rw [List.getElem?_map, List.getElem?_eq_getElem hi]
            rfl
          simp only [hfind]
          exact outcome_returns houtput

end Checked

end MapStyle
