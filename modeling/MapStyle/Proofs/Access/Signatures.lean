import MapStyle.Compile.Compound
import MapStyle.Proofs.Access.Operands
import MapStyle.Proofs.Compile.Forms

/-!
# Signatures

The types that a signature wants are looked up by place as well, twice for
every operand: before it is compiled, and once more to check the type of the
result. Only signatures that take so many operands are tried, which keeps the
places in bounds. The second check never finds anything, because compiling
against a type has made sure of it already.
-/

namespace MapStyle.Checked.Form

variable {r : Registry} {s : Site} {name : String} {items : List Item}
  {args : List Operand} {params : Params} {ω : Type} {op : CompoundOperator ω}
  {i : Nat}

/-- The type wanted at a place. -/
def expectedAt : Params → Nat → Option Ty
  | .fixed types, i => types[i]?
  | .variadic ty, _ => some ty

/-- The types at the places from some place on. -/
def Wants (params : Params) (i : Nat) (tys : List Ty) : Prop :=
  ∀ j ty, tys[j]? = some ty → expectedAt params (i + j) = some ty

theorem wants_expected (params : Params) (n : Nat) :
    Wants params 0 (params.expected n) := by
  intro j ty hty
  rw [Nat.zero_add]
  cases params with
  | fixed types => exact hty
  | variadic ty' =>
      obtain rfl := List.eq_of_mem_replicate (List.mem_of_getElem? hty)
      rfl

theorem Wants.head {ty : Ty} {tys : List Ty} (h : Wants params i (ty :: tys)) :
    expectedAt params i = some ty :=
  h 0 ty rfl

theorem Wants.tail {ty : Ty} {tys : List Ty} (h : Wants params i (ty :: tys)) :
    Wants params (i + 1) tys := by
  intro j ty' hty
  rw [Nat.add_right_comm]
  exact h (j + 1) ty' hty

/-! ## Trying a signature -/

/-- Compiles operands from a place on. The name of the operator stands before
the operands, so the item of an operand is one further. -/
def operandsAgainst (s : Site) (params : Params) :
    Nat → List Item → CheckedCompiled (List Expr)
  | _, [] => return []
  | i, item :: rest => do
    let ty : Ty ← expectedAt params i
    let e ← item.compile (s.child (i + 1) (some ty) []) none
    return e :: (← operandsAgainst s params (i + 1) rest)

def checkAgainst (s : Site) (params : Params) :
    Nat → List Expr → CheckedCompiled Unit
  | _, [] => return ()
  | i, e :: es => do
    let ty : Ty ← expectedAt params i
    if ty.accepts e.type then checkAgainst s params (i + 1) es
    else s.failAt [i + 1] (.mismatch ty e.type)

def attempt (op : CompoundOperator ω) (s : Site) (operands : List Item)
    (signature : Signature ω) :
    CheckedCompiled (Application ω) := do
  let es ← operandsAgainst s signature.params 0 operands
  checkAgainst s signature.params 0 es
  return ⟨op.name, op.output, signature.primitive, op.impure, es⟩

theorem operandsAgainst_agrees {tys : List Ty} (hs : s.Typed r)
    (h : List.Forall₂ (Item.Answers r) items args)
    (hwants : Wants params i tys) (hlength : tys.length = args.length) :
    Agrees (fun es es' => es = es' ∧
        List.Forall₂ (fun ty (e : Expr) => ty.accepts e.type = true) tys es)
      (operandsAgainst s params i items)
      (Compile.operandsAgainst s (i + 1) tys args) := by
  induction h generalizing i tys with
  | nil =>
      obtain rfl := List.length_eq_zero_iff.1 hlength
      exact .pure ⟨rfl, .nil⟩
  | @cons item o _ _ hitem _ ih =>
      match tys with
      | ty :: tys =>
          refine .access hwants.head ?_
          refine .bind (hitem.returns none hs.operand).agrees ?_
          rintro e _ ⟨he, rfl⟩
          have haccepts : ty.accepts e.type = true :=
            (hitem.admits hs.operand he ty rfl).resolve_right nofun
          refine .bind (ih hwants.tail (Nat.succ.inj hlength)) ?_
          rintro es _ ⟨rfl, hes⟩
          exact .pure ⟨rfl, .cons haccepts hes⟩

theorem checkAgainst_returns {tys : List Ty} {es : List Expr}
    (h : List.Forall₂ (fun ty (e : Expr) => ty.accepts e.type = true) tys es)
    (hwants : Wants params i tys) :
    Returns (checkAgainst s params i es) (.ok ()) := by
  induction h generalizing i with
  | nil => exact .pure
  | cons haccepts _ ih =>
      refine .access hwants.head ?_
      rw [if_pos haccepts]
      exact ih hwants.tail

theorem attempt_returns {signature : Signature ω} (hs : s.Typed r)
    (h : List.Forall₂ (Item.Answers r) items args)
    (hcount : signature.params.acceptsCount args.length = true) :
    Returns (attempt op s items signature)
      (Compile.attempt op s args signature) := by
  have hwants := wants_expected signature.params args.length
  have hlength := Compile.length_expected hcount
  refine (operandsAgainst_agrees hs h hwants hlength).returns ?_
  rintro es _ ⟨rfl, hes⟩
  exact .step (checkAgainst_returns hes hwants) .pure

/-- A signature without parameters, tried against an operand. -/
example (item : Item) (signature : Signature ω) (h : signature.params = .fixed []) :
    (attempt op s [item] signature).run = none := by
  rw [attempt, h]
  rfl

/-! ## Choosing a signature -/

def firstFitting (op : CompoundOperator ω) (s : Site) (operands : List Item) :
    List (Signature ω) → CheckedCompiled (Option (Application ω))
  | [] => return none
  | signature :: rest =>
    tryCatch (some <$> attempt op s operands signature) fun _ =>
      firstFitting op s operands rest

def noSignature (s : Site) (operands : List Item)
    (signatures : List (Signature ω)) :
    CheckedCompiled (Application ω) := do
  let found ← compileEach s none 1 operands
  s.fail
    (.noSignature (signatures.map Signature.params) (found.map Expr.type))

def choice (op : CompoundOperator ω) (s : Site) (items : List Item) :
    CheckedCompiled (Application ω) := do
  let operands : List Item ← from? items 1
  match op.signatures.filter fun o => o.params.acceptsCount operands.length with
  | [] => noSignature s operands op.signatures
  | [only] => attempt op s operands only
  | several =>
    match ← firstFitting op s operands several with
    | some a => return a
    | none => noSignature s operands several

def compound (op : CompoundOperator Primitive) (s : Site) (items : List Item) :
    CheckedCompiled Expr := do
  return (← choice op s items).node

theorem firstFitting_returns {signatures : List (Signature ω)}
    (hs : s.Typed r)
    (h : List.Forall₂ (Item.Answers r) items args)
    (hcount : ∀ signature ∈ signatures,
      signature.params.acceptsCount args.length = true) :
    Returns (firstFitting op s items signatures)
      (.ok (Compile.firstFitting op s args signatures)) := by
  induction signatures with
  | nil => exact .pure
  | cons signature rest ih =>
      obtain ⟨hsignature, hrest⟩ := List.forall_mem_cons.1 hcount
      have hor : Compile.firstFitting op s args (signature :: rest) =
          (Compile.attempt op s args signature).toOption.or
            (Compile.firstFitting op s args rest) := by
        rw [Compile.firstFitting]
        cases Compile.attempt op s args signature <;> rfl
      rw [hor]
      exact Returns.orElse (attempt_returns hs h hsignature) (ih hrest)

theorem noSignature_returns {signatures : List (Signature ω)}
    (hs : s.Typed r) (h : List.Forall₂ (Item.Answers r) items args) :
    Returns (noSignature s items signatures)
      (Compile.noSignature s args signatures) :=
  .bind (compileEach_returns hs _ 1 h) fun _ _ => .lift

theorem choice_returns (hs : s.Typed r) (h : Items r name items args) :
    Returns (choice op s items) (Compile.choice op s args) := by
  have hoperands := h.operands
  refine .access (from?_eq (by rw [h.length_eq]; exact Nat.le_add_left 1 _)) ?_
  rw [hoperands.length_eq, Compile.choice]
  have hcount : ∀ signature ∈ op.signatures.filter fun o =>
      o.params.acceptsCount args.length,
      signature.params.acceptsCount args.length = true :=
    fun signature h => (List.mem_filter.1 h).2
  generalize (op.signatures.filter fun o =>
    o.params.acceptsCount args.length) = fits at hcount ⊢
  cases fits with
  | nil => exact noSignature_returns hs hoperands
  | cons first rest =>
      cases rest with
      | nil =>
          exact attempt_returns hs hoperands
            (hcount first (List.mem_singleton_self first))
      | cons second rest =>
          refine .step (firstFitting_returns hs hoperands hcount) ?_
          simp only
          cases Compile.firstFitting op s args (first :: second :: rest) with
          | some a => exact .pure
          | none => exact noSignature_returns hs hoperands

theorem compound_returns {op : CompoundOperator Primitive} (hs : s.Typed r)
    (h : Items r name items args) :
    Returns (compound op s items) (Compile.compound op s args) :=
  .bind (choice_returns hs h) fun _ _ => .pure

end MapStyle.Checked.Form
