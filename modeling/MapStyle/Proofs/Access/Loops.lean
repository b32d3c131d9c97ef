import MapStyle.Compile.Binding
import MapStyle.Compile.Choice
import MapStyle.Proofs.Access.Operands

/-!
# Loops over items two at a time

Bindings, conditionals and selections walk their items by index, in strides of
two and up to the last item, which they keep for the end. That the stride does
not jump over the last item is what they count their items for beforehand.

The list that a rule of the library takes apart is the list of items from the
index on. This is the invariant of every loop here, and what is left of the
list tells which accesses of the index are in bounds.
-/

namespace MapStyle.Checked.Form

variable {r : Registry} {s : Site} {name : String} {items : List Item}
  {args : List Operand} {i last : Nat}

/-- The item at the index, if an operand is left. -/
theorem exists_of_drop {o : Operand}
    (h : List.Forall₂ (Item.Answers r) (items.drop i) (o :: args)) :
    ∃ item : Item, items[i]? = some item ∧ item.Answers r o ∧
      List.Forall₂ (Item.Answers r) (items.drop (i + 1)) args := by
  obtain ⟨item, rest, hitem, hrest, hdrop⟩ := List.forall₂_cons_right_iff.1 h
  rw [drop_succ_of_drop hdrop]
  exact ⟨item, getElem?_of_drop hdrop, hitem, hrest⟩

/-- How far the index is from the end. -/
theorem length_of_drop
    (h : List.Forall₂ (Item.Answers r) (items.drop i) args) :
    args.length = items.length - i := by
  rw [← h.length_eq, List.length_drop]

/-! ## Bound names -/

/-- The bound names from an index on, up to the last item. -/
def boundNames (s : Site) (items : List Item) (last i : Nat) :
    CheckedCompiled (List (String × Expr)) :=
  if i < last then do
    let item : Item ← items[i]?
    let name ← Compile.boundName s i item.raw
    let bound ← compileAt items s (i + 1) none
    return (name, bound) :: (← boundNames s items last (i + 2))
  else return []
termination_by last - i

def binding (s : Site) (items : List Item) : CheckedCompiled Expr := do
  if items.length < 4 then
    s.fail (.tooFewForBinding (← sub? items.length 1))
  else
    let last ← sub? items.length 1
    let names ← boundNames s items last 1
    let body : Item ← items[last]?
    return .binding names
      (← body.compile (s.child last s.expected names) none)

/-- The same names, all of them typed, and the last item for the body. -/
def EndsAt (r : Registry) (items : List Item) (last : Nat)
    (names : List (String × Expr))
    (result : List (String × Expr) × Nat × Operand) : Prop :=
  names = result.1 ∧ (∀ b ∈ names, b.2.Typed r) ∧ result.2.1 = last ∧
    ∃ item : Item, items[last]? = some item ∧ item.Answers r result.2.2

/-- One turn of the loop, with a name and a value ahead. -/
theorem boundNames_turn {o o' : Operand}
    {rest : Compiled (List (String × Expr) × Nat × Operand)}
    (hs : s.Typed r) (hlt : i < last)
    (h : List.Forall₂ (Item.Answers r) (items.drop i) (o :: o' :: args))
    (hrest : Agrees (EndsAt r items last) (boundNames s items last (i + 2))
      rest) :
    Agrees (EndsAt r items last) (boundNames s items last i) (do
      let name ← Compile.boundName s i o.raw
      let bound ← o'.compileAt s (i + 1) none
      let (names, position, body) ← rest
      return ((name, bound) :: names, position, body)) := by
  obtain ⟨item, hi, hitem, h⟩ := exists_of_drop h
  obtain ⟨item', hi', hitem', -⟩ := exists_of_drop h
  rw [boundNames, if_pos hlt]
  refine .access hi ?_
  rw [hitem.raw_eq]
  refine .bind Returns.lift.agrees ?_
  rintro name _ ⟨-, rfl⟩
  refine .bind (compileAt_returns hs hi' hitem' none).agrees ?_
  rintro bound _ ⟨hbound, rfl⟩
  have htyped : bound.Typed r := typed_of_compileAt hs hitem' hbound
  refine .bind hrest ?_
  rintro names ⟨_, position, body⟩ ⟨rfl, hnames, hbody⟩
  exact .pure ⟨rfl, List.forall_mem_cons.2 ⟨htyped, hnames⟩, hbody⟩

theorem boundNames_agrees (hs : s.Typed r) (hlast : items.length = last + 1)
    (h : List.Forall₂ (Item.Answers r) (items.drop i) args)
    (hne : args ≠ []) :
    Agrees (EndsAt r items last) (boundNames s items last i)
      (Compile.boundNames s i args) := by
  have hlength := length_of_drop h
  fun_induction Compile.boundNames s i args with
  | case1 => exact absurd rfl hne
  | case2 i body =>
      rw [List.length_singleton] at hlength
      obtain rfl : i = last := by omega
      obtain ⟨item, hi, hitem, -⟩ := exists_of_drop h
      rw [boundNames, if_neg (Nat.lt_irrefl i)]
      exact .pure ⟨rfl, nofun, rfl, item, hi, hitem⟩
  | case3 i name value =>
      -- The last operand is a value and the body at the same time.
      rw [List.length_cons, List.length_singleton] at hlength
      obtain rfl : i + 1 = last := by omega
      obtain ⟨-, -, -, hvalue⟩ := exists_of_drop h
      obtain ⟨item, hi, hitem, -⟩ := exists_of_drop hvalue
      have hrest : Agrees (EndsAt r items (i + 1))
          (boundNames s items (i + 1) (i + 2))
          (return ([], i + 1, value)) := by
        rw [boundNames, if_neg (by omega)]
        exact .pure ⟨rfl, nofun, rfl, item, hi, hitem⟩
      exact boundNames_turn hs (Nat.lt_succ_self i) h hrest
  | case4 i name value next rest ih =>
      simp only [List.length_cons] at hlength
      obtain ⟨-, -, -, hvalue⟩ := exists_of_drop h
      obtain ⟨-, -, -, hnext⟩ := exists_of_drop hvalue
      refine boundNames_turn hs (by omega) h ?_
      exact ih hnext (List.cons_ne_nil next rest) (length_of_drop hnext)

theorem binding_returns (hs : s.Typed r) (h : Items r name items args) :
    Returns (binding s items) (Compile.binding s args) := by
  have hlength := h.length_eq
  have hsub := h.sub?_length
  refine .ite_congr (by omega) (fun _ => .access hsub .lift) fun hfew => ?_
  have hne : args ≠ [] := by
    rintro rfl
    exact hfew (by simp)
  refine .access hsub ?_
  refine (boundNames_agrees hs hlength h.operands hne).returns ?_
  rintro names ⟨_, _, body⟩ ⟨rfl, hnames, rfl, item, hitem, hbody⟩
  refine .access hitem ?_
  exact .bind (hbody.returns none (hs.child hnames)) fun _ _ => .pure

/-! ## Branches -/

/-- Compiles an output against the type of the outputs so far. -/
def output (s : Site) (items : List Item) (i : Nat) (ty : Option Ty) :
    CheckedCompiled (Expr × Ty) := do
  let e ← compileAt items s i ty
  return (e, ty.getD e.type)

theorem output_returns {item : Item} {o : Operand} {ty : Option Ty}
    (hs : s.Typed r) (hi : items[i]? = some item) (h : item.Answers r o) :
    Returns (output s items i ty) (Compile.output s i ty o) :=
  .bind (compileAt_returns hs hi h ty) fun _ _ => .pure

/-- Tests and outputs from an index on, and the last item. -/
def branches (s : Site) (items : List Item) (last i : Nat) (ty : Option Ty) :
    CheckedCompiled (List (Expr × Expr) × Expr × Ty) :=
  if i < last then do
    let test ← compileAt items s i (some .boolean)
    let (result, ty) ← output s items (i + 1) ty
    let (more, otherwise, ty) ← branches s items last (i + 2) (some ty)
    return ((test, result) :: more, otherwise, ty)
  else do
    let (e, ty) ← output s items last ty
    return ([], e, ty)
termination_by last - i

def conditional (s : Site) (items : List Item) : CheckedCompiled Expr := do
  if items.length < 4 then
    s.fail (.tooFewOperands 3 (← sub? items.length 1))
  else if items.length % 2 != 0 then s.fail .oddExpected
  else
    let last ← sub? items.length 1
    let (branches, otherwise, ty) ← branches s items last 1 s.declared
    return .conditional ty branches otherwise

/-- An odd number of operands is left, so the stride ends at the last one. -/
theorem branches_returns {ty : Option Ty} (hs : s.Typed r)
    (hlast : items.length = last + 1)
    (h : List.Forall₂ (Item.Answers r) (items.drop i) args)
    (hodd : args.length % 2 = 1) :
    Returns (branches s items last i ty) (Compile.branches s i ty args) := by
  have hlength := length_of_drop h
  fun_induction Compile.branches s i ty args with
  | case1 i ty otherwise =>
      rw [List.length_singleton] at hlength
      obtain rfl : i = last := by omega
      obtain ⟨item, hi, hitem, -⟩ := exists_of_drop h
      rw [branches, if_neg (Nat.lt_irrefl i)]
      exact .bind (output_returns hs hi hitem) fun _ _ => .pure
  | case2 i ty test result rest ih =>
      simp only [List.length_cons] at hlength hodd
      obtain ⟨item, hi, hitem, h⟩ := exists_of_drop h
      obtain ⟨item', hi', hitem', h⟩ := exists_of_drop h
      rw [branches, if_pos (by omega)]
      refine .bind (compileAt_returns hs hi hitem _) fun _ _ => ?_
      refine .bind (output_returns hs hi' hitem') fun (_, ty) _ => ?_
      exact .bind (ih ty h (by omega) (length_of_drop h)) fun _ _ => .pure
  | case3 => cases hodd

theorem conditional_returns (hs : s.Typed r) (h : Items r name items args) :
    Returns (conditional s items) (Compile.conditional s args) := by
  have hlength := h.length_eq
  have hsub := h.sub?_length
  refine .ite_congr (by omega) (fun _ => .access hsub .lift) fun _ => ?_
  have hparity : (items.length % 2 != 0) = true ↔
      (args.length % 2 == 0) = true := by
    rw [bne_iff_ne, beq_iff_eq]
    omega
  refine .ite_congr hparity (fun _ => .lift) fun hodd => ?_
  rw [beq_iff_eq, Nat.mod_two_not_eq_zero] at hodd
  refine .access hsub ?_
  exact .bind (branches_returns hs hlength h.operands hodd) fun _ _ => .pure

/-! ## Labelled branches -/

/-- Labels and outputs from an index on, up to the last item. -/
def labelled (s : Site) (items : List Item) (last i : Nat)
    (seen : List Label) (inputTy ty : Option Ty) :
    CheckedCompiled (List (List Label × Expr) × Option Ty × Option Ty) :=
  if i < last then do
    let item : Item ← items[i]?
    let documents := Compile.labelDocuments item.raw
    if documents.isEmpty then s.failAt [i] .noLabel
    else
      let (ls, inputTy) ← Compile.labels s i seen inputTy documents
      let (result, ty) ← output s items (i + 1) ty
      let (more, rest) ←
        labelled s items last (i + 2) (ls ++ seen) inputTy (some ty)
      return ((ls, result) :: more, rest)
  else return ([], inputTy, ty)
termination_by last - i

def selection (s : Site) (items : List Item) : CheckedCompiled Expr := do
  if items.length < 5 then
    s.fail (.tooFewOperands 4 (← sub? items.length 1))
  else if items.length % 2 != 1 then s.fail .evenExpected
  else
    let last ← sub? items.length 1
    let (branches, inputTy, ty) ←
      labelled s items last 2 [] none s.declared
    let input ← compileAt items s 1 (some .value)
    let (otherwise, ty) ← output s items last ty
    let inputTy := inputTy.getD .value
    if input.type != .value && !inputTy.accepts input.type then
      s.failAt [1] (.mismatch inputTy input.type)
    else return .selection ty inputTy input branches otherwise

/-- The same branches and types, and the last item for the default. -/
def LeavesLast (r : Registry) (items : List Item) (last : Nat)
    (found : List (List Label × Expr) × Option Ty × Option Ty)
    (result : List (List Label × Expr) × Option Ty × Option Ty × Nat ×
      Operand) : Prop :=
  ∃ (otherwise : Operand) (item : Item),
    result = (found.1, found.2.1, found.2.2, last, otherwise) ∧
      items[last]? = some item ∧ item.Answers r otherwise

theorem labelled_agrees {seen : List Label} {inputTy ty : Option Ty}
    (hs : s.Typed r) (hlast : items.length = last + 1)
    (h : List.Forall₂ (Item.Answers r) (items.drop i) args)
    (hodd : args.length % 2 = 1) :
    Agrees (LeavesLast r items last)
      (labelled s items last i seen inputTy ty)
      (Compile.labelled s i seen inputTy ty args) := by
  have hlength := length_of_drop h
  fun_induction Compile.labelled s i seen inputTy ty args with
  | case1 i seen inputTy ty otherwise =>
      rw [List.length_singleton] at hlength
      obtain rfl : i = last := by omega
      obtain ⟨item, hi, hitem, -⟩ := exists_of_drop h
      rw [labelled, if_neg (Nat.lt_irrefl i)]
      exact .pure ⟨otherwise, item, rfl, hi, hitem⟩
  | case2 i seen inputTy ty raw result rest documents hempty =>
      simp only [List.length_cons] at hlength hodd
      obtain ⟨item, hi, hitem, -⟩ := exists_of_drop h
      rw [labelled, if_pos (by omega)]
      refine .access hi ?_
      rw [hitem.raw_eq, if_pos hempty]
      exact .error rfl
  | case3 i seen inputTy ty raw result rest documents hne ih =>
      simp only [List.length_cons] at hlength hodd
      obtain ⟨item, hi, hitem, h⟩ := exists_of_drop h
      obtain ⟨item', hi', hitem', h⟩ := exists_of_drop h
      rw [labelled, if_pos (by omega)]
      refine .access hi ?_
      rw [hitem.raw_eq, if_neg hne]
      refine .bind Returns.lift.agrees ?_
      rintro ⟨ls, inputTy⟩ _ ⟨-, rfl⟩
      refine .bind (output_returns hs hi' hitem').agrees ?_
      rintro ⟨e, ty⟩ _ ⟨-, rfl⟩
      refine .bind (ih ls inputTy ty h (by omega) (length_of_drop h)) ?_
      rintro ⟨more, tys⟩ _ ⟨otherwise, item, rfl, hotherwise⟩
      exact .pure ⟨otherwise, item, rfl, hotherwise⟩
  | case4 => cases hodd

theorem selection_returns (hs : s.Typed r) (h : Items r name items args) :
    Returns (selection s items) (Compile.selection s args) := by
  have hlength := h.length_eq
  have hsub := h.sub?_length
  refine .ite_congr (by omega) (fun _ => .access hsub .lift) fun hfew => ?_
  have hparity : (items.length % 2 != 1) = true ↔
      (args.length % 2 == 1) = true := by
    rw [bne_iff_ne, beq_iff_eq]
    omega
  refine .ite_congr hparity (fun _ => .lift) fun heven => ?_
  refine .access hsub ?_
  obtain ⟨-, hargs⟩ := h
  match hargs with
  | .nil => exact absurd (by simp) hfew
  | .cons hinput hrest =>
      rw [beq_iff_eq, List.length_cons] at heven
      refine Agrees.returns
        (labelled_agrees (i := 2) hs hlength hrest (by omega)) ?_
      rintro ⟨branches, inputTy, ty⟩ _ ⟨otherwise, item, rfl, hlast, hotherwise⟩
      refine .bind (compileAt_returns hs rfl hinput _) fun input _ => ?_
      refine .bind (output_returns hs hlast hotherwise) fun (_, _) _ => ?_
      exact .ite (fun _ => .lift) fun _ => .pure

/-! ## Alternatives -/

/-- The operands of coalesce from a place on, as they are. -/
def alternatives (s : Site) : Nat → Option Ty → List Item →
    CheckedCompiled (List Expr × Option Ty)
  | _, ty, [] => return ([], ty)
  | i, ty, item :: rest => do
    let e ← item.compile (s.child i ty []) (some .omit)
    let (es, ty) ← alternatives s (i + 1) (some (ty.getD e.type)) rest
    return (e :: es, ty)

/-- What is made of the alternatives. -/
def coalesced (s : Site) (es : List Expr) (ty : Option Ty) : Expr :=
  let wider := s.expected.any fun expected =>
    es.any fun e => !expected.accepts e.type
  .coalesce (if wider then .value else ty.getD .value) es

/-- Room is made for all items but the first. -/
def coalesce (s : Site) (items : List Item) : CheckedCompiled Expr := do
  if items.length < 2 then s.fail .noOperand
  else
    let _capacity ← sub? items.length 1
    let (es, ty) ← alternatives s 1 s.declared (items.drop 1)
    return coalesced s es ty

theorem alternatives_returns {ty : Option Ty} (hs : s.Typed r)
    (h : List.Forall₂ (Item.Answers r) items args) :
    Returns (alternatives s i ty items) (Compile.alternatives s i ty args) := by
  induction h generalizing i ty with
  | nil => exact .pure
  | cons hitem _ ih =>
      exact .bind (hitem.returns _ hs.operand) fun _ _ => .bind ih fun _ _ =>
        .pure

theorem coalesce_returns (hs : s.Typed r) (h : Items r name items args) :
    Returns (coalesce s items) (Compile.coalesce s args) := by
  have hlength := h.length_eq
  have hnone : items.length < 2 ↔ args.isEmpty = true := by
    rw [List.isEmpty_iff_length_eq_zero]
    omega
  refine .ite_congr hnone (fun _ => .lift) fun _ => .access h.sub?_length ?_
  exact .bind (alternatives_returns hs h.operands) fun _ _ => .pure

end MapStyle.Checked.Form
