import MapStyle.Proofs.Access.Geometry
import MapStyle.Proofs.Typing.Failures

/-!
# Operands of primitives

A primitive looks its operands up by number and never asks how many there are:
that is settled when a signature is chosen. A primitive that is given as many
operands as it takes finds all that it asks for, of whatever type they are.
-/

namespace MapStyle

namespace Value

/-- Membership in a sorted list, by halving the places from `lo` up to `hi`. -/
def isInRange? (v : Value) (sorted : List Value) (lo hi : Nat) : Option Bool :=
  if lo < hi then
    match _h : sub? hi lo with
    | none => none
    | some size =>
      match sorted[lo + size / 2]? with
      | none => none
      | some middle =>
        match middle.compare? v with
        | some .eq => some true
        | some .lt => isInRange? v sorted (lo + size / 2 + 1) hi
        | some .gt => isInRange? v sorted lo (lo + size / 2)
        | none => some false
  else some false
termination_by hi - lo
decreasing_by
  all_goals
    rw [sub?, if_pos (by omega), Option.some.injEq] at _h
    omega

theorem isInRange?_of_lt {v : Value} {sorted : List Value} {lo hi : Nat}
    {middle : Value} (hlt : lo < hi)
    (hmiddle : sorted[lo + (hi - lo) / 2]? = some middle) :
    v.isInRange? sorted lo hi =
      match middle.compare? v with
      | some .eq => some true
      | some .lt => v.isInRange? sorted (lo + (hi - lo) / 2 + 1) hi
      | some .gt => v.isInRange? sorted lo (lo + (hi - lo) / 2)
      | none => some false := by
  rw [isInRange?, if_pos hlt]
  split
  · next hsub =>
      rw [sub?_eq (Nat.le_of_lt hlt)] at hsub
      cases hsub
  · next size hsub =>
      rw [sub?_eq (Nat.le_of_lt hlt)] at hsub
      cases hsub
      simp only [hmiddle]

/-- Halving the places is halving the list. -/
theorem isInRange?_eq (v : Value) {sorted values : List Value} {lo hi : Nat}
    (hhi : hi ≤ sorted.length)
    (hvalues : (sorted.drop lo).take (hi - lo) = values) :
    v.isInRange? sorted lo hi = some (v.isInSorted values) := by
  have hlength (values : List Value) {lo hi : Nat} (hhi : hi ≤ sorted.length)
      (hvalues : (sorted.drop lo).take (hi - lo) = values) :
      values.length = hi - lo := by
    rw [← hvalues, List.length_take, List.length_drop]
    omega
  have hmiddle {values : List Value} {lo hi : Nat} (hhi : hi ≤ sorted.length)
      (hvalues : (sorted.drop lo).take (hi - lo) = values) {middle : Value}
      (h : values[values.length / 2]? = some middle) :
      lo < hi ∧ sorted[lo + (hi - lo) / 2]? = some middle := by
    have hlt := (List.getElem?_eq_some_iff.1 h).1
    rw [hlength values hhi hvalues] at hlt h
    rw [← hvalues, List.getElem?_take, if_pos hlt, List.getElem?_drop] at h
    exact ⟨by omega, h⟩
  fun_induction isInSorted v values generalizing lo hi with
  | case1 values hnone =>
      have hle := List.getElem?_eq_none_iff.1 hnone
      rw [hlength values hhi hvalues] at hle
      rw [isInRange?, if_neg (by omega)]
  | case2 values middle h heq =>
      obtain ⟨hlt, h⟩ := hmiddle hhi hvalues h
      rw [isInRange?_of_lt hlt h, heq]
  | case3 values middle h hcompare ih =>
      have hsize := hlength values hhi hvalues
      obtain ⟨hlt, h⟩ := hmiddle hhi hvalues h
      rw [isInRange?_of_lt hlt h, hcompare]
      refine ih hhi ?_
      rw [hsize, ← hvalues, List.drop_take, List.drop_drop]
      congr 1
      omega
  | case4 values middle h hcompare ih =>
      have hsize := hlength values hhi hvalues
      obtain ⟨hlt, h⟩ := hmiddle hhi hvalues h
      rw [isInRange?_of_lt hlt h, hcompare]
      refine ih (by omega) ?_
      rw [hsize, ← hvalues, List.take_take, Nat.add_sub_cancel_left]
      congr 1
      omega
  | case5 values middle h hcompare =>
      obtain ⟨hlt, h⟩ := hmiddle hhi hvalues h
      rw [isInRange?_of_lt hlt h, hcompare]

end Value

namespace Checked

open Outcome

/-- What is read of the operand at a place. -/
def read {α : Type} (f : Outcome → Except EvalError α) (args : List Outcome)
    (i : Nat) : Checked EvalError α := do
  let o : Outcome ← args[i]?
  f o

theorem read_returns {α : Type} {f : Outcome → Except EvalError α}
    {args : List Outcome} {i : Nat} {o : Outcome} (h : args[i]? = some o) :
    Returns (read f args i) (f o) :=
  .access h .lift

def primitive (ctx : Context) (args : List Outcome) :
    Primitive → Checked EvalError Value
  | .difference => do
    return .number ((← read number args 0) - (← read number args 1))
  | .negation => do return .number (-(← read number args 0))
  | .quotient => do
    return .number ((← read number args 0) / (← read number args 1))
  | .remainder => do
    return .number
      (Number.remainder (← read number args 0) (← read number args 1))
  | .power => do
    return .number ((← read number args 0).pow (← read number args 1))
  | .function f => do return .number (f.apply (← read number args 0))
  | .upcase => do return .string (Text.toUpper (← read string args 0))
  | .downcase => do return .string (Text.toLower (← read string args 0))
  | .typeName => do return .string (← outcome args 0).type.text
  | .color => do
    let r ← read number args 0
    let g ← read number args 1
    let b ← read number args 2
    -- The alpha is looked up without being expected.
    match args[3]? with
    | some a => Primitive.colorOf r g b (some (← a.number))
    | none => Primitive.colorOf r g b none
  | .channels => do
    return .array ((← read color args 0).toBytes.map .number)
  | .property => do return (ctx.property? (← read string args 0)).getD .null
  | .member => do
    let key ← read string args 0
    return ((← read object args 1).lookup key).getD .null
  | .hasProperty => do
    return .boolean (ctx.property? (← read string args 0)).isSome
  | .hasMember => do
    let key ← read string args 0
    return .boolean ((← read object args 1).lookup key).isSome
  | .state => do return ctx.stateValue (← read string args 0)
  | .geometryType =>
    match ctx.feature with
    | some f => do return .string (← geometryType f)
    | none => return .string GeometryKind.unknown.name
  | .not => do return .boolean !(← read boolean args 0)
  | .fail => do throw (.thrown (← read string args 0))
  | .propertyEquals => do
    let key ← read string args 0
    let value ← outcome args 1
    return Primitive.testProperty ctx key (·.equals value)
  | .idEquals => do return .boolean (ctx.id.equals (← outcome args 0))
  | .kindEquals => do
    let name ← read string args 0
    return .boolean (ctx.kind?.any (·.name == name))
  | .propertyCompares op => do
    let key ← read string args 0
    let value ← outcome args 1
    return Primitive.testProperty ctx key fun p =>
      (p.compare? value).any op.holds
  | .propertyPresent => do
    return .boolean (ctx.property? (← outcome args 0).text).isSome
  | .kindIn => do
    let names ← read array args 0
    return .boolean (ctx.kind?.any fun k =>
      names.any fun v => v.string? == some k.name)
  | .idIn => do
    return .boolean ((← read array args 0).any (·.equals ctx.id))
  | .propertyIn => do
    let key ← read string args 0
    let values ← read array args 1
    return Primitive.testProperty ctx key fun p => values.any (·.equals p)
  | .propertyInSorted => do
    let key ← read string args 0
    let values ← read array args 1
    match ctx.property? key with
    | none => return .boolean false
    | some p => return .boolean (← p.isInRange? values 0 values.length)
  -- Any number of operands, or none, and none of them looked up.
  | p@(.sum) | p@(.product) | p@(.least) | p@(.greatest) | p@(.concat)
  | p@(.constant _) | p@(.properties) | p@(.id) | p@(.zoom)
  | p@(.heatmapDensity) | p@(.lineProgress) | p@(.accumulated)
  | p@(.idPresent) => p.apply ctx args

/-- A primitive that is given operands it takes. -/
theorem primitive_returns {p : Primitive} {params : Params} {ctx : Context}
    {R : Ty → Outcome → Prop} {args : List Outcome}
    (hparams : params ∈ p.takes)
    (hargs : List.Forall₂ R (params.expected args.length) args) :
    Returns (primitive ctx args p) (p.apply ctx args) := by
  cases p with
  | sum | product | least | greatest | concat => exact .lift
  | constant c | properties | id | zoom | heatmapDensity | lineProgress
  | accumulated | idPresent => exact .lift
  | color =>
      rcases List.mem_pair.1 hparams with rfl | rfl
      · obtain _ | ⟨-, _ | ⟨-, _ | ⟨-, _ | _⟩⟩⟩ := hargs
        refine .bind (read_returns rfl) fun r _ => ?_
        refine .bind (read_returns rfl) fun g _ => ?_
        exact .bind (read_returns rfl) fun b _ => .lift
      · obtain _ | ⟨-, _ | ⟨-, _ | ⟨-, _ | ⟨-, _ | _⟩⟩⟩⟩ := hargs
        refine .bind (read_returns rfl) fun r _ => ?_
        refine .bind (read_returns rfl) fun g _ => ?_
        refine .bind (read_returns rfl) fun b _ => ?_
        exact .bind .lift fun a _ => .lift
  | difference | quotient | remainder | power | member | hasMember =>
      obtain rfl := List.mem_singleton.1 hparams
      obtain _ | ⟨-, _ | ⟨-, _ | _⟩⟩ := hargs
      refine .bind (read_returns rfl) fun a _ => ?_
      exact .bind (read_returns rfl) fun b _ => .pure
  | negation | function | upcase | downcase | channels | property
  | hasProperty | state | not | kindEquals | kindIn | idIn =>
      obtain rfl := List.mem_singleton.1 hparams
      obtain _ | ⟨-, _ | _⟩ := hargs
      exact .bind (read_returns rfl) fun a _ => .pure
  | fail =>
      obtain rfl := List.mem_singleton.1 hparams
      obtain _ | ⟨-, _ | _⟩ := hargs
      exact .bind (read_returns rfl) fun a _ => .throw
  | typeName | idEquals | propertyPresent =>
      obtain rfl := List.mem_singleton.1 hparams
      obtain _ | ⟨-, _ | _⟩ := hargs
      exact .bind (outcome_returns rfl) fun a _ => .pure
  | propertyEquals | propertyCompares =>
      obtain rfl := List.mem_singleton.1 hparams
      obtain _ | ⟨-, _ | ⟨-, _ | _⟩⟩ := hargs
      refine .bind (read_returns rfl) fun a _ => ?_
      exact .bind (outcome_returns rfl) fun b _ => .pure
  | propertyIn =>
      obtain rfl := List.mem_singleton.1 hparams
      obtain _ | ⟨-, _ | ⟨-, _ | _⟩⟩ := hargs
      refine .bind (read_returns rfl) fun key _ => ?_
      exact .bind (read_returns rfl) fun values _ => .pure
  | propertyInSorted =>
      obtain rfl := List.mem_singleton.1 hparams
      obtain _ | ⟨-, _ | ⟨-, _ | _⟩⟩ := hargs
      refine .bind (read_returns rfl) fun key _ => ?_
      refine .bind (read_returns rfl) fun values _ => ?_
      rw [Primitive.testProperty]
      cases ctx.property? key with
      | none => exact .pure
      | some p =>
          have hall : (values.drop 0).take (values.length - 0) = values := by
            simp
          exact .access (p.isInRange?_eq (Nat.le_refl _) hall) .pure
  | geometryType =>
      unfold primitive Primitive.apply
      cases ctx.feature with
      | none => exact .pure
      | some f => exact .access (geometryType_eq f) .pure

end Checked

end MapStyle
