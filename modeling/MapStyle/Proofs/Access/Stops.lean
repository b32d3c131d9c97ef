import MapStyle.Compile.Curve
import MapStyle.Proofs.Access.Loops
import MapStyle.Proofs.Compile.Outputs

/-!
# Stops of a curve

The two curves look their input up by index and then walk the stops in strides
of two, from the third operand to the end. The number of operands is even, so
behind every label there is an output.
-/

namespace MapStyle.Checked.Form

variable {r : Registry} {s : Site} {name : String} {items : List Item}
  {args : List Operand} {i : Nat}

def expectPairs (s : Site) (items : List Item) : CheckedCompiled Unit := do
  let found ← sub? items.length 1
  if found < 4 then s.fail (.tooFewOperands 4 found)
  else if found % 2 == 1 then s.fail .evenExpected
  else return ()

theorem expectPairs_returns (h : Items r name items args) :
    Returns (expectPairs s items) (Compile.expectPairs s args) :=
  .access h.sub?_length (.ite (fun _ => .lift) fun _ =>
    .ite (fun _ => .lift) fun _ => .pure)

/-! ## Labels and outputs -/

def stops (name : String) (s : Site) (items : List Item) (i : Nat)
    (previous : Option Float) (ty : Option Ty) :
    CheckedCompiled (List (Float × Expr) × Option Ty) :=
  if i < items.length then do
    let item : Item ← items[i]?
    let x ← Compile.stopLabel name s i previous item.raw
    let e ← compileAt items s (i + 1) ty
    let (more, ty) ←
      stops name s items (i + 2) (some x) (some (ty.getD e.type))
    return ((x, e) :: more, ty)
  else return ([], ty)
termination_by items.length - i

theorem stops_returns {previous : Option Float} {ty : Option Ty}
    (hs : s.Typed r)
    (h : List.Forall₂ (Item.Answers r) (items.drop i) args)
    (heven : args.length % 2 = 0) :
    Returns (stops name s items i previous ty)
      (Compile.stops name s i previous ty args) := by
  have hlength := length_of_drop h
  fun_induction Compile.stops name s i previous ty args with
  | case1 i previous ty label output rest ih =>
      simp only [List.length_cons] at hlength heven
      obtain ⟨item, hi, hitem, h⟩ := exists_of_drop h
      obtain ⟨item', hi', hitem', h⟩ := exists_of_drop h
      rw [stops, if_pos (by omega)]
      refine .access hi ?_
      rw [hitem.raw_eq]
      refine .bind .lift fun x _ => ?_
      refine .bind (compileAt_returns hs hi' hitem' ty) fun e _ => ?_
      refine .bind (ih x e h (by omega) (length_of_drop h)) fun _ _ => .pure
  | case2 args i previous ty hpairs =>
      match args, heven, hlength with
      | [], _, hlength =>
          rw [List.length_nil] at hlength
          rw [stops, if_neg (by omega)]
          exact .pure
      | label :: output :: rest, _, _ =>
          exact absurd rfl (hpairs label output rest)

def step (s : Site) (items : List Item) : CheckedCompiled Expr := do
  expectPairs s items
  let input ← compileAt items s 1 (some .number)
  let first ← compileAt items s 2 s.declared
  let ty := s.declared.getD first.type
  let (more, _) ←
    stops "step" s items 3 (some (-Number.infinity)) (some ty)
  return .step ty input ((-Number.infinity, first) :: more)

theorem step_returns (hs : s.Typed r) (h : Items r name items args) :
    Returns (step s items) (Compile.step s args) := by
  refine .bind (expectPairs_returns h) fun u hu => ?_
  obtain ⟨hleast, heven⟩ := Compile.expectPairs_ok hu
  obtain ⟨-, hargs⟩ := h
  match hargs with
  | .nil | .cons _ .nil => simp at hleast
  | .cons hinput (.cons hfirst hrest) =>
      simp only [List.length_cons] at heven
      refine .bind (compileAt_returns hs rfl hinput _) fun input _ => ?_
      refine .bind (compileAt_returns hs rfl hfirst _) fun first _ => ?_
      refine .bind (stops_returns (i := 3) hs hrest (by omega)) fun _ _ => ?_
      exact .pure

/-! ## Interpolations -/

def isControl (x : Float) : Bool := 0 ≤ x && x ≤ 1

/-- The numbers between zero and one, whatever else there is. -/
def controls (items : List Json) : List Float :=
  (items.filterMap Json.number?).filter isControl

theorem controls_cons (raw : Json) (items : List Json) :
    controls (raw :: items) =
      ((raw.number?.filter isControl).toList ++ controls items) := by
  unfold controls
  cases hraw : raw.number? with
  | none => simp [hraw]
  | some x => cases hx : isControl x <;> simp [hraw, Option.filter, hx]

theorem length_controls_le (items : List Json) :
    (controls items).length ≤ items.length :=
  Nat.le_trans (List.length_filter_le _ _) (List.length_filterMap_le _ _)

/-- If there are as many controls as items, the items are the controls. -/
theorem map_number?_of_controls {items : List Json}
    (h : (controls items).length = items.length) :
    items.map Json.number? = (controls items).map some := by
  induction items with
  | nil => rfl
  | cons raw items ih =>
      have hle := length_controls_le items
      rw [controls_cons] at h ⊢
      cases hx : raw.number?.filter isControl with
      | none =>
          rw [hx, Option.toList_none, List.nil_append, List.length_cons] at h
          omega
      | some x =>
          rw [hx, Option.toList_some, List.singleton_append,
            List.length_cons, List.length_cons] at h
          rw [List.map_cons, ih (by omega), (Option.filter_eq_some_iff.1 hx).1]
          rfl

theorem isControl_of_mem {items : List Json} {x : Float}
    (h : x ∈ controls items) : isControl x = true :=
  (List.mem_filter.1 h).2

theorem control?_of_controls {items : List Json} {x₁ y₁ x₂ y₂ : Float}
    (hlength : items.length = 4) (h : controls items = [x₁, y₁, x₂, y₂]) :
    Compile.control? items = some (.cubicBezier x₁ y₁ x₂ y₂) := by
  have hmap : items.map Json.number? = _ :=
    map_number?_of_controls (by simp [h, hlength])
  have hrange : ∀ x ∈ [x₁, y₁, x₂, y₂], isControl x = true :=
    fun x hx => isControl_of_mem (h ▸ hx)
  rw [h] at hmap
  simp only [List.forall_mem_cons, isControl] at hrange
  simp [Compile.control?, hmap, hrange]

theorem length_of_control? {items : List Json} {kind : Interpolation}
    (h : Compile.control? items = some kind) :
    items.length = 4 ∧ (controls items).length = 4 := by
  unfold Compile.control? at h
  split at h
  · next x₁ y₁ x₂ y₂ hmap =>
      have hlength : items.length = 4 := by
        simpa using congrArg List.length hmap
      have hnumbers : items.filterMap Json.number? = [x₁, y₁, x₂, y₂] := by
        simpa [List.filterMap_map] using congrArg (List.filterMap id) hmap
      have hrange : (isControl x₁ && isControl y₁ && isControl x₂ &&
          isControl y₂) = true := by
        by_contra hrange
        exact nomatch (if_neg hrange).symm.trans h
      simp only [Bool.and_eq_true] at hrange
      exact ⟨hlength, by simp [controls, hnumbers, hrange]⟩
  · cases h

/-- An easing curve, given all items of its document. -/
def easing (s : Site) (items : List Json) : CheckedCompiled Interpolation := do
  let points := controls (← from? items 1)
  if items.length != 5 || points.length != 4 then s.failAt [1] .bezierControl
  else
    let x₁ : Float ← points[0]?
    let y₁ : Float ← points[1]?
    let x₂ : Float ← points[2]?
    let y₂ : Float ← points[3]?
    return .cubicBezier x₁ y₁ x₂ y₂

def interpolation (s : Site) (raw : Json) : CheckedCompiled Interpolation :=
  match raw with
  | .array items =>
    if items.isEmpty then s.failAt [1] .interpolationMissing
    else do
      let head : Json ← items[0]?
      match head with
      | .string "linear" => return .linear
      | .string "exponential" =>
        match items[1]?.bind Json.number? with
        | some base => return .exponential base
        | none => s.failAt [1, 1] .exponentialBase
      | .string "cubic-bezier" => easing s items
      | .string name => s.failAt [1, 0] (.unknownInterpolation name)
      | other => s.failAt [1, 0] (.unknownInterpolation other.text)
  | _ => s.failAt [1] .interpolationMissing

theorem easing_returns {head : Json} {rest : List Json} :
    Returns (easing s (head :: rest))
      (match Compile.control? rest with
      | some kind => return kind
      | none => s.failAt [1] .bezierControl) := by
  refine .access (from?_eq (Nat.le_add_left 1 rest.length)) ?_
  rw [List.drop_one, List.tail_cons]
  by_cases hlength : rest.length = 4 ∧ (controls rest).length = 4
  · obtain ⟨hrest, hcontrols⟩ := hlength
    match hpoints : controls rest, hcontrols with
    | [x₁, y₁, x₂, y₂], _ =>
        rw [control?_of_controls hrest hpoints, if_neg (by simp [hrest])]
        exact .pure
  · have hnone : Compile.control? rest = none := by
      by_contra hsome
      obtain ⟨kind, hkind⟩ := Option.ne_none_iff_exists'.1 hsome
      exact hlength (length_of_control? hkind)
    have hcount : ((head :: rest).length != 5 ||
        (controls rest).length != 4) = true := by
      rw [Bool.or_eq_true, bne_iff_ne, bne_iff_ne, List.length_cons]
      omega
    rw [hnone, if_pos hcount]
    exact .lift

theorem interpolation_returns {raw : Json} :
    Returns (interpolation s raw) (Compile.interpolation s raw) := by
  cases raw with
  | array items =>
      cases items with
      | nil => exact .lift
      | cons head rest =>
          refine .access rfl ?_
          split
          · exact .pure
          · have hbase : (Json.string "exponential" :: rest)[1]? =
                rest.head? := by
              cases rest <;> rfl
            rw [hbase]
            cases h : rest.head?.bind Json.number? <;>
              simp only [Compile.interpolation, h]
            · exact .lift
            · exact .pure
          · exact easing_returns
          · simp only [Compile.interpolation]
            exact .lift
          · simp only [Compile.interpolation]
            exact .lift
  | _ => exact .lift

/-! ## The curve -/

def interpolate (s : Site) (items : List Item) : CheckedCompiled Expr := do
  if items.length < 2 then s.failAt [1] .interpolationMissing
  else
    let item : Item ← items[1]?
    let kind ← interpolation s item.raw
    expectPairs s items
    let input ← compileAt items s 2 (some .number)
    let name ← headName items
    let space := Compile.colorSpace name
    let declared := if space == .rgb then s.declared else some .color
    let (stops, ty) ← stops name s items 3 none declared
    let ty := ty.getD .value
    if Compile.isInterpolatable ty then
      return .interpolate ty space kind input stops
    else s.fail (.notInterpolatable ty)

theorem interpolate_returns (hs : s.Typed r) (h : Items r name items args) :
    Returns (interpolate s items) (Compile.interpolate name s args) := by
  have hname := headName_eq h
  have hpairs := expectPairs_returns (s := s) h
  obtain ⟨-, hargs⟩ := h
  match hargs with
  | .nil => exact .lift
  | .cons hkind hrest =>
      refine .access rfl ?_
      rw [hkind.raw_eq]
      refine .bind interpolation_returns fun kind _ => ?_
      refine .bind hpairs fun u hu => ?_
      obtain ⟨hleast, heven⟩ := Compile.expectPairs_ok hu
      match hrest with
      | .nil => simp at hleast
      | .cons hinput hrest =>
          simp only [List.length_cons] at heven
          refine .bind (compileAt_returns hs rfl hinput _) fun input _ => ?_
          refine .access hname ?_
          refine .bind (stops_returns (i := 3) hs hrest (by omega)) ?_
          rintro ⟨stops, ty⟩ -
          exact .ite (fun _ => .pure) fun _ => .lift

end MapStyle.Checked.Form
