import MapStyle.Proofs.Expr.Alike
import MapStyle.Proofs.Outcome
import MapStyle.Proofs.Typing.Rules

/-!
# Two compilers in lockstep

Compiling depends on the trees of the operands through very little: their types
decide what fits where, and otherwise they are only put together. So whatever
relation between trees is respected by putting them together is respected by
compiling, and that is how facts about compiled trees are proved here, once for
every relation instead of once for every fact.

A relation is `Compositional` if nodes that are alike up to it are related, as
far as they obey the typing rules; it then makes sense to ask of two runs of a
compiler that the second follows the first, with related results. The relation
need not be symmetric, and only the success of the first run is assumed:
nothing is said about diagnostics.
-/

namespace MapStyle

/-! ## Runs that follow one another -/

/-- Where the first run succeeds, so does the second, with related results. -/
def Follows {α β : Type} (R : α → β → Prop) (x : Compiled α)
    (y : Compiled β) : Prop :=
  ∀ a, x = .ok a → ∃ b, y = .ok b ∧ R a b

namespace Follows

variable {α β γ δ : Type} {R : α → β → Prop} {S : γ → δ → Prop}

theorem error {ds : List Diagnostic} {y : Compiled β} :
    Follows R (.error ds) y := nofun

theorem fail {s : Site} {issue : Issue} {y : Compiled β} :
    Follows R (s.fail issue) y := nofun

theorem failAt {s : Site} {keys : List Nat} {issue : Issue}
    {y : Compiled β} : Follows R (s.failAt keys issue) y := nofun

theorem pure {a : α} {b : β} (h : R a b) :
    Follows R (Pure.pure a) (Pure.pure b) := by
  intro a' ha
  obtain rfl := ok_of_pure ha
  exact ⟨b, rfl, h⟩

theorem bind {x : Compiled α} {y : Compiled β} {f : α → Compiled γ}
    {g : β → Compiled δ} (h : Follows R x y)
    (hfg : ∀ a b, R a b → Follows S (f a) (g b)) :
    Follows S (x >>= f) (y >>= g) := by
  intro c hc
  obtain ⟨a, hx, hf⟩ := ok_of_bind hc
  obtain ⟨b, hy, hab⟩ := h a hx
  obtain ⟨d, hg, hcd⟩ := hfg a b hab c hf
  exact ⟨d, hy ▸ hg, hcd⟩

theorem mono {R' : α → β → Prop} {x : Compiled α} {y : Compiled β}
    (h : Follows R x y) (hR : ∀ a b, R a b → R' a b) : Follows R' x y := by
  intro a ha
  obtain ⟨b, hb, hab⟩ := h a ha
  exact ⟨b, hb, hR a b hab⟩

theorem both {x : Compiled α} {y : Compiled β} {x' : Compiled γ}
    {y' : Compiled δ} (h : Follows R x y) (h' : Follows S x' y') :
    Follows (fun p q => R p.1 q.1 ∧ S p.2 q.2) (Operand.both x x')
      (Operand.both y y') := by
  intro p hp
  cases x with
  | error ds => cases x' <;> cases hp
  | ok a =>
      cases x' with
      | error ds => cases hp
      | ok c =>
          cases hp
          obtain ⟨b, rfl, hab⟩ := h a rfl
          obtain ⟨d, rfl, hcd⟩ := h' c rfl
          exact ⟨(b, d), rfl, hab, hcd⟩

end Follows

/-- A relation between trees of one type that is respected by putting trees
together, as far as the typing rules are obeyed. -/
structure Compositional (r : Registry) (R : Expr → Expr → Prop) : Prop where
  type_eq : ∀ e e', R e e' → e.type = e'.type
  node : ∀ e e', Expr.Alike R e e' → e.Obeys r → R e e'

/-! ## Sites and operands -/

/-- Sites that expect the same and have related trees in scope. -/
structure Site.Like (R : Expr → Expr → Prop) (s s' : Site) : Prop where
  expected_eq : s.expected = s'.expected
  scope : List.Forall₂ (Expr.LabelledBy R) s.scope s'.scope

/-- Whether a type is what a site expects. An operand that is not to be
narrowed may be wider than the expected type if null is not of that type. -/
def Compile.Admits (expected : Option Ty) (how : Option Narrowing) (ty : Ty) :
    Prop :=
  ∀ t ∈ expected, t.accepts ty = true ∨
    (how = some .omit ∧ t.accepts .null = false)

/-- Related trees of a type that is expected. -/
def Compile.Fit (R : Expr → Expr → Prop) (expected : Option Ty)
    (e e' : Expr) : Prop :=
  R e e' ∧ ∀ t ∈ expected, t.accepts e.type = true

/-- Operands for the same document, the second of which compiles wherever the
first one does. -/
structure Operand.Like (R : Expr → Expr → Prop) (o o' : Operand) : Prop where
  raw_eq : o.raw = o'.raw
  compile : ∀ {s s' : Site} {how : Option Narrowing}, s.Like R s' →
    Follows (fun e e' => R e e' ∧ Compile.Admits s.expected how e.type)
      (o.compile s how) (o'.compile s' how)

namespace Site

variable {R : Expr → Expr → Prop} {s s' : Site}

theorem Like.declared (hs : s.Like R s') : s.declared = s'.declared := by
  rw [Site.declared, hs.expected_eq, Site.declared]

theorem Like.child (hs : s.Like R s') (i : Nat) (expected : Option Ty)
    {names names' : List (String × Expr)}
    (hnames : List.Forall₂ (Expr.LabelledBy R) names names') :
    (s.child i expected names).Like R (s'.child i expected names') :=
  ⟨rfl, List.rel_append (List.rel_reverse hnames) hs.scope⟩

theorem Like.lookup (hs : s.Like R s') {name : String} {bound : Expr}
    (h : s.scope.lookup name = some bound) :
    ∃ bound', s'.scope.lookup name = some bound' ∧ R bound bound' := by
  have hscope := hs.scope
  generalize s.scope = scope at h hscope
  generalize s'.scope = scope' at hscope ⊢
  induction hscope with
  | nil => cases h
  | @cons p q _ _ hpq _ ih =>
      obtain ⟨n, e⟩ := p
      obtain ⟨m, e'⟩ := q
      obtain ⟨hname, he⟩ := hpq
      obtain rfl : n = m := hname
      rw [List.lookup_cons] at h ⊢
      split at h
      · cases h
        exact ⟨e', rfl, he⟩
      · exact ih h

end Site

namespace Operand

variable {R : Expr → Expr → Prop} {s s' : Site} {o o' : Operand}
  {os os' : List Operand}

theorem Like.compileAt (ho : o.Like R o') (hs : s.Like R s') (i : Nat)
    (expected : Option Ty) :
    Follows (Compile.Fit R expected) (o.compileAt s i expected)
      (o'.compileAt s' i expected) := by
  refine (ho.compile (hs.child i expected .nil)).mono fun e e' ⟨he, hty⟩ => ?_
  exact ⟨he, fun t ht => (hty t ht).resolve_right nofun⟩

theorem Like.compileAll (hos : List.Forall₂ (Like R) os os')
    (hs : s.Like R s') (expected : Option Ty) (i : Nat) :
    Follows (fun es es' => es.length = os.length ∧
        List.Forall₂ (Compile.Fit R expected) es es')
      (Operand.compileAll s expected i os)
      (Operand.compileAll s' expected i os') := by
  induction hos generalizing i with
  | nil => exact .pure ⟨rfl, .nil⟩
  | cons ho _ ih =>
      refine .bind (ho.compileAt hs i expected) fun e e' he => ?_
      refine .bind (ih (i + 1)) fun es es' ⟨hlength, hes⟩ => ?_
      exact .pure ⟨congrArg Nat.succ hlength, .cons he hes⟩

theorem Like.raws_eq (hos : List.Forall₂ (Like R) os os') :
    os.map Operand.raw = os'.map Operand.raw := by
  induction hos with
  | nil => rfl
  | cons ho _ ih => rw [List.map_cons, List.map_cons, ho.raw_eq, ih]

end Operand

end MapStyle
