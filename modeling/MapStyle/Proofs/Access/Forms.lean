import MapStyle.Compile.Binding
import MapStyle.Compile.Collection
import MapStyle.Compile.Comparison
import MapStyle.Compile.Narrowing
import MapStyle.Compile.Region
import MapStyle.Proofs.Access.Operands

/-!
# Forms with a fixed number of operands

Each of these forms counts its items before it looks any of them up, and then
only at places below that number.
-/

namespace MapStyle.Checked.Form

variable {r : Registry} {s : Site} {name : String} {items : List Item}
  {args : List Operand}

/-! ## Documents -/

/-- A form with one operand, which it takes as a document. -/
def document (form : String) (compile : Json → Compiled Expr) (s : Site)
    (items : List Item) : CheckedCompiled Expr := do
  if items.length == 2 then
    let item : Item ← items[1]?
    compile item.raw
  else s.fail (.exactlyOne form (← sub? items.length 1))

theorem document_returns {form : String} {compile : Json → Compiled Expr}
    {result : List Operand → Compiled Expr} (h : Items r name items args)
    (hnone : result [] = s.fail (.exactlyOne form 0))
    (hone : ∀ o, result [o] = compile o.raw)
    (hmore : ∀ o o' os,
      result (o :: o' :: os) = s.fail (.exactlyOne form (os.length + 2))) :
    Returns (document form compile s items) (result args) := by
  have hsub := h.sub?_length
  obtain ⟨-, hargs⟩ := h
  match hargs with
  | .nil =>
      rw [hnone]
      exact .access hsub .lift
  | .cons hitem .nil =>
      rw [hone, ← hitem.raw_eq]
      exact .access rfl .lift
  | .cons _ (.cons _ _) =>
      rw [hmore]
      exact .access hsub .lift

def literalOf (s : Site) (raw : Json) : Compiled Expr :=
  match Expr.ofJson raw, s.expected with
  | .literal (.array _ (some 0)) v, some (.array item length) =>
    if length.isNone || length == some 0 then
      return .literal (.array item length) v
    else return Expr.ofJson raw
  | e, _ => return e

def literal (s : Site) (items : List Item) : CheckedCompiled Expr :=
  document "literal" (literalOf s) s items

theorem literal_returns (h : Items r name items args) :
    Returns (literal s items) (Compile.literal s args) :=
  document_returns h rfl (fun _ => rfl) fun _ _ _ => rfl

def withinOf (s : Site) (raw : Json) : Compiled Expr :=
  let region := Compile.regionOf raw
  if region.isEmpty then s.fail (.region "within")
  else return .within .boolean region

def within (s : Site) (items : List Item) : CheckedCompiled Expr :=
  document "within" (withinOf s) s items

theorem within_returns (h : Items r name items args) :
    Returns (within s items) (Compile.within s args) :=
  document_returns h rfl (fun _ => rfl) fun _ _ _ => rfl

def distanceOf (s : Site) (raw : Json) : Compiled Expr :=
  let shapes := Compile.shapesOf raw
  if shapes.isEmpty then s.fail (.region "distance")
  else return .distance .number shapes

def distance (s : Site) (items : List Item) : CheckedCompiled Expr :=
  document "distance" (distanceOf s) s items

theorem distance_returns (h : Items r name items args) :
    Returns (distance s items) (Compile.distance s args) :=
  document_returns h rfl (fun _ => rfl) fun _ _ _ => rfl

/-! ## Assertions and conversions -/

/-- The item type, which stands before the operands to check if there is more
than one operand. -/
def arrayItem (s : Site) (items : List Item) : CheckedCompiled Ty :=
  if 2 < items.length then do
    let item : Item ← items[1]?
    Compile.arrayItem s item.raw
  else return .value

/-- The length, which stands behind the item type if there are more than two
operands. -/
def arrayLength (s : Site) (items : List Item) :
    CheckedCompiled (Option Nat) :=
  if 3 < items.length then do
    let item : Item ← items[2]?
    Compile.arrayLength s item.raw
  else return none

def arrayAssertion (s : Site) (items : List Item) : CheckedCompiled Expr := do
  let ty ← arrayItem s items
  let length ← arrayLength s items
  let first := if 3 < items.length then 3 else if 2 < items.length then 2 else 1
  return .assertion (.array ty length)
    (← compileEach s (some .value) first (items.drop first))

theorem arrayItem_returns {head item o : Item} {rest : List Item} :
    Returns (arrayItem s (head :: item :: o :: rest))
      (Compile.arrayItem s item.raw) := by
  rw [arrayItem, if_pos (by simp)]
  exact .access rfl .lift

theorem arrayLength_returns {head item length o : Item} {rest : List Item} :
    Returns (arrayLength s (head :: item :: length :: o :: rest))
      (Compile.arrayLength s length.raw) := by
  rw [arrayLength, if_pos (by simp)]
  exact .access rfl .lift

theorem arrayAssertion_returns (hs : s.Typed r) (h : Items r name items args)
    (hne : args ≠ []) :
    Returns (arrayAssertion s items) (Compile.arrayAssertion s args) := by
  obtain ⟨-, hargs⟩ := h
  match hargs with
  | .nil => exact absurd rfl hne
  | .cons ho .nil =>
      exact .bind (compileEach_returns hs _ 1 (.cons ho .nil)) fun _ _ => .pure
  | .cons hitem (.cons ho .nil) =>
      refine .bind (hitem.raw_eq ▸ arrayItem_returns) fun ty _ => ?_
      exact .bind (compileEach_returns hs _ 2 (.cons ho .nil)) fun _ _ => .pure
  | .cons hitem (.cons hlength (.cons ho hrest)) =>
      refine .bind (hitem.raw_eq ▸ arrayItem_returns) fun ty _ => ?_
      refine .bind (hlength.raw_eq ▸ arrayLength_returns) fun length _ => ?_
      rw [if_pos (by simp)]
      exact .bind (compileEach_returns hs _ 3 (.cons ho hrest)) fun _ _ => .pure

def assertion (s : Site) (items : List Item) : CheckedCompiled Expr := do
  if items.length < 2 then s.fail .noOperand
  else
    let name ← headName items
    if name == "array" then arrayAssertion s items
    else
      match Compile.scalarType? name with
      | none => s.fail (.unknownAssertion name)
      | some ty =>
        return .assertion ty (← compileEach s (some .value) 1 (items.drop 1))

theorem assertion_returns (hs : s.Typed r) (h : Items r name items args) :
    Returns (assertion s items) (Compile.assertion name s args) := by
  rw [assertion, Compile.assertion, h.length_eq]
  cases args with
  | nil => exact .lift
  | cons o rest =>
      refine .access (headName_eq h) (.ite (fun _ => ?_) fun _ => ?_)
      · exact arrayAssertion_returns hs h (List.cons_ne_nil o rest)
      · cases Compile.scalarType? name with
        | none => exact .lift
        | some ty =>
            exact .bind (compileEach_returns hs _ 1 h.operands) fun _ _ => .pure

def conversion (s : Site) (items : List Item) : CheckedCompiled Expr := do
  if items.length < 2 then s.fail .noOperand
  else
    let ty := Compile.conversionType (← headName items)
    if (ty == .boolean || ty == .string) && items.length != 2 then
      s.fail .notOneOperand
    else
      return .coercion ty (← compileEach s (some .value) 1 (items.drop 1))

theorem conversion_returns (hs : s.Typed r) (h : Items r name items args) :
    Returns (conversion s items) (Compile.conversion name s args) := by
  have hoperands := compileEach_returns hs (some .value) 1 h.operands
  rw [conversion, Compile.conversion, h.length_eq]
  cases args with
  | nil => exact .lift
  | cons o rest =>
      refine .access (headName_eq h) ?_
      have hcount : (rest.length + 1 + 1 != 2) = (rest.length + 1 != 1) := by
        simp
      rw [List.length_cons, hcount]
      exact .ite (fun _ => .lift) fun _ => .bind hoperands fun _ _ => .pure

/-! ## Names -/

def reference (s : Site) (items : List Item) : CheckedCompiled Expr :=
  match items.map Item.raw with
  | [_, .string name] =>
    match s.scope.lookup name with
    | some bound => return .reference name bound
    | none => s.failAt [1] (.unknownVariable name)
  | _ => s.fail .referenceOperand

theorem raws_eq {items : List Item} {args : List Operand}
    (h : List.Forall₂ (Item.Answers r) items args) :
    items.map Item.raw = args.map Operand.raw := by
  induction h with
  | nil => rfl
  | cons hitem _ ih => rw [List.map_cons, List.map_cons, hitem.raw_eq, ih]

theorem reference_returns (h : Items r name items args) :
    Returns (reference s items) (Compile.reference s args) := by
  obtain ⟨-, hargs⟩ := h
  rw [reference, Compile.reference, List.map_cons, raws_eq hargs]
  rcases args.map Operand.raw with _ | ⟨raw, _ | ⟨_, _⟩⟩
  · exact .lift
  · cases raw with
    | string name =>
        cases hbound : s.scope.lookup name <;> simp only [hbound]
        · exact .lift
        · exact .pure
    | _ => exact .lift
  · cases raw <;> exact .lift

def globalState (s : Site) (items : List Item) : CheckedCompiled Expr :=
  match items.map Item.raw with
  | [_, .string key] => return .globalState .value key
  | _ => s.fail .globalName

theorem globalState_returns (h : Items r name items args) :
    Returns (globalState s items) (Compile.globalState s args) := by
  obtain ⟨-, hargs⟩ := h
  rw [globalState, Compile.globalState, List.map_cons, raws_eq hargs]
  rcases args.map Operand.raw with _ | ⟨raw, _ | ⟨_, _⟩⟩
  · exact .lift
  · cases raw with
    | string key => exact .pure
    | _ => exact .lift
  · cases raw <;> exact .lift

/-! ## Items, searches and slices -/

def expectCount (s : Site) (least most : Nat) (items : List Item) :
    CheckedCompiled Unit := do
  let found ← sub? items.length 1
  if least ≤ found && found ≤ most then return ()
  else s.fail (.operandCount least most found)

theorem expectCount_returns (h : Items r name items args) (least most : Nat) :
    Returns (expectCount s least most items)
      (Compile.expectCount s least most args) :=
  .access h.sub?_length (.ite (fun _ => .pure) fun _ => .lift)

theorem length_of_expectCount {least most : Nat} {u : Unit}
    (h : Compile.expectCount s least most args = .ok u) :
    least ≤ args.length ∧ args.length ≤ most := by
  unfold Compile.expectCount at h
  split at h
  · next hcount => simpa using hcount
  · cases h

def item (s : Site) (items : List Item) : CheckedCompiled Expr := do
  expectCount s 2 2 items
  let array : Ty := .array (s.expected.getD .value) none
  let (index, input) ← both (compileAt items s 1 (some .number))
    (compileAt items s 2 (some array))
  match input.type with
  | .array item _ => return .item item index input
  | _ => return .item .value index input

theorem item_returns (hs : s.Typed r) (h : Items r name items args) :
    Returns (item s items) (Compile.item s args) := by
  refine .bind (expectCount_returns h 2 2) fun u hu => ?_
  obtain ⟨hleast, hmost⟩ := length_of_expectCount hu
  obtain ⟨-, hargs⟩ := h
  match hargs with
  | .nil | .cons _ .nil => simp at hleast
  | .cons hindex (.cons hinput .nil) =>
      refine .bind (both_returns (compileAt_returns hs rfl hindex _)
        (compileAt_returns hs rfl hinput _)) fun p _ => ?_
      cases hty : p.2.type <;> simp only [hty] <;> exact .pure
  | .cons _ (.cons _ (.cons _ _)) => simp at hmost

/-- What to search for and where. The first two operands are there. -/
def needleAndHaystack (s : Site) (items : List Item) :
    CheckedCompiled (Expr × Expr) := do
  let (needle, haystack) ← both (compileAt items s 1 (some .value))
    (compileAt items s 2 (some .value))
  if !Compile.isNeedleType needle.type then s.fail (.needleType needle.type)
  else if !Compile.isSequenceType haystack.type then
    s.fail (.haystackType haystack.type)
  else return (needle, haystack)

theorem needleAndHaystack_returns {item₁ item₂ : Item} {o₁ o₂ : Operand}
    (hs : s.Typed r) (h₁ : items[1]? = some item₁)
    (h₂ : items[2]? = some item₂) (ho₁ : item₁.Answers r o₁)
    (ho₂ : item₂.Answers r o₂) :
    Returns (needleAndHaystack s items)
      (Compile.needleAndHaystack s o₁ o₂) :=
  .bind (both_returns (compileAt_returns hs h₁ ho₁ _)
      (compileAt_returns hs h₂ ho₂ _)) fun _ _ =>
    .ite (fun _ => .lift) fun _ => .ite (fun _ => .lift) fun _ => .pure

def membership (s : Site) (items : List Item) : CheckedCompiled Expr := do
  expectCount s 2 2 items
  let (needle, haystack) ← needleAndHaystack s items
  return .membership .boolean needle haystack

theorem membership_returns (hs : s.Typed r) (h : Items r name items args) :
    Returns (membership s items) (Compile.membership s args) := by
  refine .bind (expectCount_returns h 2 2) fun u hu => ?_
  obtain ⟨hleast, hmost⟩ := length_of_expectCount hu
  obtain ⟨-, hargs⟩ := h
  match hargs with
  | .nil | .cons _ .nil => simp at hleast
  | .cons hneedle (.cons hhaystack .nil) =>
      exact .bind (needleAndHaystack_returns hs rfl rfl hneedle hhaystack)
        fun _ _ => .pure
  | .cons _ (.cons _ (.cons _ _)) => simp at hmost

/-- The number at a place that may be behind the end. -/
def optionalNumber (s : Site) (items : List Item) (i : Nat) :
    CheckedCompiled (Option Expr) :=
  match items[i]? with
  | none => return none
  | some item => return some (← item.compile (s.child i (some .number) []) none)

theorem optionalNumber_returns {item₁ item₂ item₃ : Item}
    (hs : s.Typed r) (h : List.Forall₂ (Item.Answers r) items args) :
    Returns (optionalNumber s (item₁ :: item₂ :: item₃ :: items) 3)
      (Compile.optionalNumber s 3 args) := by
  cases h with
  | nil => exact .pure
  | cons ho _ => exact .bind (ho.returns none hs.operand) fun _ _ => .pure

def position (s : Site) (items : List Item) : CheckedCompiled Expr := do
  expectCount s 2 3 items
  let (needle, haystack) ← needleAndHaystack s items
  return .position .number needle haystack (← optionalNumber s items 3)

theorem position_returns (hs : s.Typed r) (h : Items r name items args) :
    Returns (position s items) (Compile.position s args) := by
  refine .bind (expectCount_returns h 2 3) fun u hu => ?_
  obtain ⟨hleast, -⟩ := length_of_expectCount hu
  obtain ⟨-, hargs⟩ := h
  match hargs with
  | .nil | .cons _ .nil => simp at hleast
  | .cons hneedle (.cons hhaystack hrest) =>
      exact .bind (needleAndHaystack_returns hs rfl rfl hneedle hhaystack)
        fun _ _ => .bind (optionalNumber_returns hs hrest) fun _ _ => .pure

def slice (s : Site) (items : List Item) : CheckedCompiled Expr := do
  expectCount s 2 3 items
  let (input, start) ← both (compileAt items s 1 (some .value))
    (compileAt items s 2 (some .number))
  match Compile.sliceType? input.type with
  | none => s.fail (.sliceInput input.type)
  | some ty => return .slice ty input start (← optionalNumber s items 3)

theorem slice_returns (hs : s.Typed r) (h : Items r name items args) :
    Returns (slice s items) (Compile.slice s args) := by
  refine .bind (expectCount_returns h 2 3) fun u hu => ?_
  obtain ⟨hleast, -⟩ := length_of_expectCount hu
  obtain ⟨-, hargs⟩ := h
  match hargs with
  | .nil | .cons _ .nil => simp at hleast
  | .cons hinput (.cons hstart hrest) =>
      refine .bind (both_returns (compileAt_returns hs rfl hinput _)
        (compileAt_returns hs rfl hstart _)) fun p _ => ?_
      cases hty : Compile.sliceType? p.1.type <;> simp only [hty]
      · exact .lift
      · exact .bind (optionalNumber_returns hs hrest) fun _ _ => .pure

def length (s : Site) (items : List Item) : CheckedCompiled Expr := do
  expectCount s 1 1 items
  let input ← compileAt items s 1 none
  if Compile.isSequenceType input.type then return .length .number input
  else s.fail (.lengthInput input.type)

theorem length_returns (hs : s.Typed r) (h : Items r name items args) :
    Returns (length s items) (Compile.length s args) := by
  refine .bind (expectCount_returns h 1 1) fun u hu => ?_
  obtain ⟨hleast, hmost⟩ := length_of_expectCount hu
  obtain ⟨-, hargs⟩ := h
  match hargs with
  | .nil => simp at hleast
  | .cons hinput .nil =>
      refine .bind (compileAt_returns hs rfl hinput _) fun _ _ => ?_
      exact .ite (fun _ => .pure) fun _ => .lift
  | .cons _ (.cons _ _) => simp at hmost

/-! ## Comparisons and connectives -/

def comparisonOperand (op : Comparator) (s : Site) (items : List Item)
    (i : Nat) : CheckedCompiled Expr := do
  let e ← compileAt items s i (some .value)
  if op.admits e.type then return e
  else s.failAt [i] (.comparisonType op e.type)

theorem comparisonOperand_returns {op : Comparator} {item : Item} {o : Operand}
    {i : Nat} (hs : s.Typed r) (hi : items[i]? = some item)
    (h : item.Answers r o) :
    Returns (comparisonOperand op s items i)
      (Compile.comparisonOperand op s i o) :=
  .bind (compileAt_returns hs hi h _) fun _ _ =>
    .ite (fun _ => .pure) fun _ => .lift

/-- What is made of two operands that can be compared. -/
def compared (op : Comparator) (s : Site) (lhs rhs : Expr) : Compiled Expr :=
  let (l, r) := (lhs.type, rhs.type)
  if !l.sameKind r && l != .value && r != .value then
    s.fail (.incomparable l r)
  else
    let (lhs, rhs) :=
      if op.isOrdering then (Compile.narrowTo r lhs, Compile.narrowTo l rhs)
      else (lhs, rhs)
    return .comparison .boolean op (lhs.type == .value || rhs.type == .value)
      lhs rhs

def comparison (s : Site) (items : List Item) : CheckedCompiled Expr := do
  match Comparator.ofSymbol? (← headName items) with
  | none => s.fail .unknownComparison
  | some op =>
    if items.length == 4 then s.failAt [3] .collator
    else if items.length != 3 then s.fail .comparisonCount
    else
      let lhs ← comparisonOperand op s items 1
      let rhs ← comparisonOperand op s items 2
      compared op s lhs rhs

theorem comparison_returns (hs : s.Typed r) (h : Items r name items args) :
    Returns (comparison s items) (Compile.comparison name s args) := by
  refine .access (headName_eq h) ?_
  rw [Compile.comparison]
  cases hop : Comparator.ofSymbol? name with
  | none => exact .lift
  | some op =>
      obtain ⟨-, hargs⟩ := h
      match hargs with
      | .nil | .cons _ .nil => exact .lift
      | .cons hlhs (.cons hrhs .nil) =>
          refine .bind (comparisonOperand_returns hs rfl hlhs) fun _ _ => ?_
          refine .bind (comparisonOperand_returns hs rfl hrhs) fun _ _ => ?_
          exact .lift
      | .cons _ (.cons _ (.cons _ .nil)) => exact .lift
      | .cons _ (.cons _ (.cons _ (.cons _ _))) => exact .lift

def connective (node : Ty → List Expr → Expr) (s : Site)
    (items : List Item) : CheckedCompiled Expr := do
  return node .boolean
    (← compileEach s (some .boolean) 1 (items.drop 1))

theorem connective_returns {node : Ty → List Expr → Expr} (hs : s.Typed r)
    (h : Items r name items args) :
    Returns (connective node s items) (Compile.connective node s args) :=
  .bind (compileEach_returns hs _ 1 h.operands) fun _ _ => .pure

end MapStyle.Checked.Form
