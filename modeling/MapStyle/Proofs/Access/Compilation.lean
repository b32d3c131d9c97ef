import MapStyle.Proofs.Access.Evaluation
import MapStyle.Proofs.Access.Forms
import MapStyle.Proofs.Access.Signatures
import MapStyle.Proofs.Access.Stops
import MapStyle.Proofs.Compile.Folding

/-!
# Documents with bounds

The compiler over the forms with indices. It evaluates constants, with bounds
as well, and that is what couples the two halves: evaluation is in bounds for
typed trees, and trees are typed if what is in scope is.
-/

namespace MapStyle

variable {r : Registry} {s : Site} {items : List Item} {args : List Operand}

/-! ## Applications -/

namespace Checked

def form (f : SpecialForm) (s : Site) (items : List Item) :
    CheckedCompiled Expr :=
  match f with
  | .literal => Form.literal s items
  | .assertion => Form.assertion s items
  | .coercion => Form.conversion s items
  | .binding => Form.binding s items
  | .reference => Form.reference s items
  | .item => Form.item s items
  | .membership => Form.membership s items
  | .position => Form.position s items
  | .slice => Form.slice s items
  | .length => Form.length s items
  | .conditional => Form.conditional s items
  | .selection => Form.selection s items
  | .coalesce => Form.coalesce s items
  | .step => Form.step s items
  | .interpolate => Form.interpolate s items
  | .comparison => Form.comparison s items
  | .all => Form.connective .all s items
  | .any => Form.connective .any s items
  | .globalState => Form.globalState s items
  | .within => Form.within s items
  | .distance => Form.distance s items

def application (r : Registry) (s : Site) (items : List Item) :
    CheckedCompiled Expr :=
  match items.head? with
  | none => s.fail .emptyArray
  | some head =>
    match head.raw with
    | .string name =>
      match r.lookup name with
      | some (.special _ f) => form f s items
      | some (.compound op) => Form.compound op s items
      | none => s.failAt [0] (.unknownOperator name)
    | raw => s.failAt [0] (.headKind raw.kindName)

theorem form_returns (f : SpecialForm) {name : String} (hs : s.Typed r)
    (h : Items r name items args) :
    Returns (form f s items) (Compile.form f name s args) := by
  cases f with
  | literal => exact Form.literal_returns h
  | assertion => exact Form.assertion_returns hs h
  | coercion => exact Form.conversion_returns hs h
  | binding => exact Form.binding_returns hs h
  | reference => exact Form.reference_returns h
  | item => exact Form.item_returns hs h
  | membership => exact Form.membership_returns hs h
  | position => exact Form.position_returns hs h
  | slice => exact Form.slice_returns hs h
  | length => exact Form.length_returns hs h
  | conditional => exact Form.conditional_returns hs h
  | selection => exact Form.selection_returns hs h
  | coalesce => exact Form.coalesce_returns hs h
  | step => exact Form.step_returns hs h
  | interpolate => exact Form.interpolate_returns hs h
  | comparison => exact Form.comparison_returns hs h
  | all => exact Form.connective_returns hs h
  | any => exact Form.connective_returns hs h
  | globalState => exact Form.globalState_returns h
  | within => exact Form.within_returns h
  | distance => exact Form.distance_returns h

theorem application_returns (hs : s.Typed r)
    (h : List.Forall₂ (Item.Answers r) items args) :
    Returns (application r s items) (Compile.application r s args) := by
  cases h with
  | nil => exact .lift
  | @cons head o _ _ hhead hrest =>
      simp only [application, Compile.application, List.head?_cons,
        hhead.raw_eq]
      cases hraw : o.raw with
      | string name =>
          have hitems : Items r name _ _ :=
            .application (hhead.raw_eq.trans hraw) hrest
          cases hop : r.lookup name with
          | none =>
              simp only [hop]
              exact .lift
          | some op =>
              simp only [hop]
              have hname := List.find?_some hop
              cases op with
              | special found f =>
                  obtain rfl : found = name := eq_of_beq hname
                  exact form_returns f hs hitems
              | compound op => exact Form.compound_returns hs hitems
      | _ => exact .lift

/-! ## Constants -/

/-- The expression, or its value if it is constant, evaluated with bounds. -/
def settle (s : Site) (e : Expr) : CheckedCompiled Expr := do
  if !e.isLiteral && e.isConstant then
    let outcome : Outcome ← evaluate {} e
    match outcome with
    | .ok v => return .literal e.type v
    | .error failure => s.fail (.failure failure)
  else return e

def finish (s : Site) (how : Option Narrowing) (e : Expr) :
    CheckedCompiled Expr := do
  settle s (← Compile.conform s how e)

theorem settle_returns {e : Expr} (h : Evaluates {} e) :
    Returns (settle s e) (Compile.settle true s e) := by
  rw [settle, Compile.settle, Bool.true_and]
  refine .ite (fun _ => .access h ?_) fun _ => .pure
  cases e.evaluate {} with
  | ok v => exact .pure
  | error failure => exact .lift

end Checked

/-! ## Typed trees at typed sites -/

theorem Expr.Typed.unfolds {e : Expr} (h : e.Typed r) : e.Unfolds r e :=
  ⟨rfl, fun _ => rfl, h⟩

theorem Site.Typed.like (h : s.Typed r) : s.Like (Expr.Unfolds r) s :=
  ⟨rfl, List.forall₂_same.2 fun b hb => ⟨rfl, (h b hb).unfolds⟩⟩

namespace Checked

theorem finish_returns (hr : r.Supplies) (hs : s.Typed r)
    (how : Option Narrowing) {e : Expr} (he : e.Typed r) :
    Returns (finish s how e) (Compile.finish true s how e) := by
  refine .bind .lift fun a ha => settle_returns (evaluates_of_typed hr ?_)
  obtain ⟨_, -, hunfolds, -⟩ := Compile.conform_follows
    (Expr.unfolds_compositional r) hs.like how he.unfolds a ha
  exact hunfolds.typed

/-! ## Documents -/

mutual

def compile (r : Registry) : Json → Site → Option Narrowing →
    CheckedCompiled Expr
  | .array raws => fun s how => do
    finish s how (← application r s (itemsOf r raws))
  | .object _ => fun s _ => s.fail .bareObject
  | .null => fun s how => finish s how (Expr.ofJson .null)
  | .boolean b => fun s how => finish s how (Expr.ofJson (.boolean b))
  | .number n => fun s how => finish s how (Expr.ofJson (.number n))
  | .string t => fun s how => finish s how (Expr.ofJson (.string t))

def itemsOf (r : Registry) : List Json → List Item
  | [] => []
  | raw :: raws => ⟨raw, compile r raw⟩ :: itemsOf r raws

end

theorem typed_ofJson (raw : Json) : (Expr.ofJson raw).Typed r :=
  (Compiler.ofJson_related (Expr.unfolds_compositional r) raw).typed

/-- Trees compiled at a typed site are typed, of an expected type. -/
theorem admits_of_compile (hl : r.Lawful) {raw : Json} {how : Option Narrowing}
    {e : Expr} (hs : s.Typed r)
    (h : Compiler.compile { registry := r } raw s how = .ok e) :
    e.Typed r ∧ Compile.Admits s.expected how e.type := by
  obtain ⟨_, -, hunfolds, hadmits⟩ :=
    Compiler.compile_follows { registry := r }
      { registry := r, folding := false } rfl hl (Expr.unfolds_compositional r)
      (Compile.settle_unfolds hl) raw hs.like e h
  exact ⟨hunfolds.typed, hadmits⟩

theorem typed_of_application (hl : r.Lawful) {raws : List Json} {e : Expr}
    (hs : s.Typed r)
    (h : Compile.application r s (Compiler.operands { registry := r } raws) =
      .ok e) : e.Typed r := by
  have hoperands := Compiler.operands_follow { registry := r }
    { registry := r, folding := false } rfl hl (Expr.unfolds_compositional r)
    (Compile.settle_unfolds hl) raws
  obtain ⟨_, -, hunfolds⟩ := Compile.application_follows hl
    (Expr.unfolds_compositional r) hs.like hoperands e h
  exact hunfolds.typed

mutual

theorem compile_answers (hl : r.Lawful) (hr : r.Supplies) (raw : Json) :
    Item.Answers r ⟨raw, compile r raw⟩
      ⟨raw, Compiler.compile { registry := r } raw⟩ where
  raw_eq := rfl
  typed hs h := (admits_of_compile hl hs h).1
  admits hs h := (admits_of_compile hl hs h).2
  returns how hs := by
    match raw with
    | .array raws =>
        simp only [compile, Compiler.compile]
        have hitems := itemsOf_answer hl hr raws
        refine .bind (application_returns hs hitems) fun e he => ?_
        exact finish_returns hr hs how (typed_of_application hl hs he)
    | .object _ =>
        simp only [compile, Compiler.compile]
        exact .lift
    | .null | .boolean _ | .number _ | .string _ =>
        simp only [compile, Compiler.compile]
        exact finish_returns hr hs how (typed_ofJson _)

theorem itemsOf_answer (hl : r.Lawful) (hr : r.Supplies) (raws : List Json) :
    List.Forall₂ (Item.Answers r) (itemsOf r raws)
      (Compiler.operands { registry := r } raws) := by
  match raws with
  | [] =>
      rw [itemsOf, Compiler.operands]
      exact .nil
  | raw :: raws =>
      rw [itemsOf, Compiler.operands]
      exact .cons (compile_answers hl hr raw) (itemsOf_answer hl hr raws)

end

end Checked

end MapStyle
