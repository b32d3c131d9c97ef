import MapStyle.Compile.Operand
import MapStyle.Proofs.Access.Checked
import MapStyle.Proofs.Compile.Lockstep

/-!
# Items of an application

The grammar of a form is given all items of an array, the name of the operator
at place zero, and looks its operands up by place. Where the forms of the
library take a list of operands apart, their counterparts with indices compile
`items[i]`.

An item answers to an operand if it is the same document and compiles without
a missing access to what the operand compiles to. That can only be asked at
sites whose bound trees are typed, because constants are evaluated at once; in
return, what comes out is typed again.
-/

namespace MapStyle

/-- A result of compiling, diagnostics, or a missing access. -/
abbrev CheckedCompiled (β : Type) := Checked (List Diagnostic) β

/-- A document and its compilation with bounds. -/
structure Item where
  raw : Json
  compile : Site → Option Narrowing → CheckedCompiled Expr

/-- All trees in scope are typed. -/
def Site.Typed (r : Registry) (s : Site) : Prop :=
  ∀ b ∈ s.scope, b.2.Typed r

theorem Site.Typed.child {r : Registry} {s : Site} (h : s.Typed r)
    {i : Nat} {expected : Option Ty} {names : List (String × Expr)}
    (hnames : ∀ b ∈ names, b.2.Typed r) :
    (s.child i expected names).Typed r := by
  intro b hb
  rcases List.mem_append.1 hb with hb | hb
  · exact hnames b (List.mem_reverse.1 hb)
  · exact h b hb

theorem Site.Typed.operand {r : Registry} {s : Site} (h : s.Typed r) {i : Nat}
    {expected : Option Ty} : (s.child i expected []).Typed r :=
  h

/-- The item compiles to what the operand compiles to. -/
structure Item.Answers (r : Registry) (item : Item) (o : Operand) : Prop where
  raw_eq : item.raw = o.raw
  returns {s : Site} (how : Option Narrowing) (hs : s.Typed r) :
    Returns (item.compile s how) (o.compile s how)
  typed {s : Site} {how : Option Narrowing} {e : Expr} (hs : s.Typed r)
    (h : o.compile s how = .ok e) : e.Typed r
  admits {s : Site} {how : Option Narrowing} {e : Expr} (hs : s.Typed r)
    (h : o.compile s how = .ok e) : Compile.Admits s.expected how e.type

/-- The items of an application of an operator to operands. -/
inductive Items (r : Registry) (name : String) :
    List Item → List Operand → Prop where
  | application {head : Item} {items : List Item} {args : List Operand}
      (hhead : head.raw = .string name)
      (hargs : List.Forall₂ (Item.Answers r) items args) :
      Items r name (head :: items) args

namespace Items

variable {r : Registry} {name : String} {items : List Item}
  {args : List Operand}

theorem length_eq (h : Items r name items args) :
    items.length = args.length + 1 := by
  obtain ⟨-, hargs⟩ := h
  rw [List.length_cons, hargs.length_eq]

theorem operands (h : Items r name items args) :
    List.Forall₂ (Item.Answers r) (items.drop 1) args := by
  obtain ⟨-, hargs⟩ := h
  exact hargs

/-- The number of operands, which the head is not one of. -/
theorem sub?_length (h : Items r name items args) :
    sub? items.length 1 = some args.length := by
  rw [h.length_eq]
  exact sub?_eq (Nat.le_add_left 1 _)

end Items

namespace Checked.Form

variable {r : Registry} {s : Site} {name : String} {items : List Item}
  {args : List Operand}

/-! ## Looking items up -/

/-- The name that the items start with. -/
def headName (items : List Item) : Option String := do
  return (← items[0]?).raw.string?.getD ""

theorem headName_eq (h : Items r name items args) :
    headName items = some name := by
  obtain ⟨hhead, -⟩ := h
  simp [headName, hhead, Json.string?]

def compileAt (items : List Item) (s : Site) (i : Nat)
    (expected : Option Ty) : CheckedCompiled Expr := do
  let item : Item ← items[i]?
  item.compile (s.child i expected []) none

theorem compileAt_returns {item : Item} {o : Operand} {i : Nat}
    (hs : s.Typed r) (hi : items[i]? = some item) (h : item.Answers r o)
    (expected : Option Ty) :
    Returns (compileAt items s i expected) (o.compileAt s i expected) :=
  .access hi (h.returns none hs.operand)

/-- What an operand compiles to at a site with typed trees. -/
theorem typed_of_compileAt {item : Item} {o : Operand} {i : Nat} {e : Expr}
    {expected : Option Ty} (hs : s.Typed r) (h : item.Answers r o)
    (he : o.compileAt s i expected = .ok e) : e.Typed r :=
  h.typed hs.operand he

/-! ## Items in order -/

/-- Compiles items one after another, counting from a place on. -/
def compileEach (s : Site) (expected : Option Ty) :
    Nat → List Item → CheckedCompiled (List Expr)
  | _, [] => return []
  | i, item :: rest => do
    let e ← item.compile (s.child i expected []) none
    return e :: (← compileEach s expected (i + 1) rest)

theorem compileEach_returns (hs : s.Typed r) (expected : Option Ty) (i : Nat)
    (h : List.Forall₂ (Item.Answers r) items args) :
    Returns (compileEach s expected i items)
      (Operand.compileAll s expected i args) := by
  induction h generalizing i with
  | nil => exact .pure
  | cons hitem _ ih =>
      refine .bind (hitem.returns none hs.operand) fun e _ => ?_
      exact .bind (ih (i + 1)) fun es _ => .pure

/-- Both results, or the diagnostics of both. -/
def both {β γ : Type} (x : CheckedCompiled β) (y : CheckedCompiled γ) :
    CheckedCompiled (β × γ) :=
  ⟨do return Operand.both (← x.run) (← y.run)⟩

theorem both_returns {β γ : Type} {x? : CheckedCompiled β} {x : Compiled β}
    {y? : CheckedCompiled γ} {y : Compiled γ} (hx : Returns x? x)
    (hy : Returns y? y) : Returns (both x? y?) (Operand.both x y) := by
  rw [Returns, both, hx, hy]
  rfl

end Checked.Form

end MapStyle
