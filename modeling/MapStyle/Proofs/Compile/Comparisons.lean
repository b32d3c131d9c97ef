import MapStyle.Proofs.Compile.Agreement
import MapStyle.Proofs.Compile.Expectation
import MapStyle.Proofs.Compile.Parametric
import MapStyle.Proofs.Compile.Yields
import MapStyle.Proofs.Semantics.Comparisons
import MapStyle.Proofs.Typing.Inhabitants
import MapStyle.Proofs.Typing.Soundness

/-!
# Comparisons whose operands change places

Everything that compiling a comparison does to its operands is even-handed: each
is compiled by itself, where the other one stands does not matter, the checks
of their types are symmetric, and if an order asserts one of them it asserts the
same one wherever it stands (`Compiler.compile_comparison`). So the mirror image
of a comparison compiles if the comparison does, and has its values.

What is asserted, and what is checked at run time, makes sure that an order is
asked for between values of one kind, as long as operands that are known to be
numbers have numbers as values. Where one has a text instead, which takes a
coalesce that lets it through, all of less, equal and greater are false.
-/

namespace MapStyle

/-- Trees with the same values in every context, and failures that may
differ. -/
def Expr.SameValues (e e' : Expr) : Prop :=
  ∀ ctx v, e.evaluate ctx = .ok v ↔ e'.evaluate ctx = .ok v

/-- The application of a comparison to two operands. -/
def Comparator.document (op : Comparator) (a b : Json) : Json :=
  .array [.string op.symbol, a, b]

/-- Where both operands of a comparison stand, their paths aside. -/
def Site.operand (s : Site) : Site :=
  { scope := s.scope, expected := some .value }

theorem Comparator.ofSymbol?_symbol (op : Comparator) :
    ofSymbol? op.symbol = some op := by
  cases op <;> decide

theorem Expr.isConstant_comparison {ty : Ty} {op : Comparator} {untyped : Bool}
    {l r : Expr} : (comparison ty op untyped l r).isConstant =
      (l.isLiteral && r.isLiteral) := by
  cases hl : l.isLiteral with
  | false => simp [isConstant, isFoldable, children, hl]
  | true =>
      cases hr : r.isLiteral with
      | false => simp [isConstant, isFoldable, children, hr]
      | true =>
          cases l with
          | literal =>
              cases r with
              | literal => rfl
              | _ => cases hr
          | _ => cases hl

/-- An assertion of one operand has its value, if that is of the type. -/
theorem Expr.evaluate_assertion {ty : Ty} {e : Expr} {ctx : Context}
    {v : Value} : (assertion ty [e]).evaluate ctx = .ok v ↔
      e.evaluate ctx = .ok v ∧ ty.accepts v.type = true := by
  rw [evaluate, evaluateList, evaluateList, Semantics.assertType_eq_ok_iff,
    Semantics.firstOfType_cons]
  refine or_iff_left ?_
  rintro ⟨-, before, after, hnil, -⟩
  exact absurd hnil.symm (by simp)

namespace Compile

variable {op : Comparator} {s : Site} {l r e : Expr}

/-! ## The node of a comparison -/

/-- Whether operands of these two types may be compared. -/
def comparable (op : Comparator) (t u : Ty) : Bool :=
  op.admits t && op.admits u && (t.sameKind u || t == .value || u == .value)

/-- An operand, narrowed to the type of the other one if that helps. -/
def narrowFor (op : Comparator) (known : Ty) (e : Expr) : Expr :=
  if op.isOrdering then narrowTo known e else e

def comparisonNode (op : Comparator) (l r : Expr) : Expr :=
  let lhs := narrowFor op r.type l
  let rhs := narrowFor op l.type r
  .comparison .boolean op (lhs.type == .value || rhs.type == .value) lhs rhs

theorem narrowTo_of_known {known : Ty} (h : e.type ≠ .value) :
    narrowTo known e = e :=
  (narrowTo_cases known e).resolve_right fun hvalue => h hvalue.1

theorem evaluate_of_narrowFor {known : Ty} {ctx : Context} {v : Value}
    (h : (narrowFor op known e).evaluate ctx = .ok v) :
    e.evaluate ctx = .ok v := by
  unfold narrowFor at h
  split at h
  · rcases narrowTo_cases known e with hstays | ⟨-, hasserted⟩
    · rwa [hstays] at h
    · rw [hasserted] at h
      exact (Expr.evaluate_assertion.1 h).1
  · exact h

theorem comparable_comm (op : Comparator) (t u : Ty) :
    comparable op t u = comparable op u t := by
  have hkind : t.sameKind u = u.sameKind t := by
    cases t <;> cases u <;> rfl
  rw [comparable, comparable, hkind, Bool.and_comm (op.admits t),
    Bool.or_assoc, Bool.or_assoc, Bool.or_comm (t == .value)]

theorem comparable_mirror (op : Comparator) (t u : Ty) :
    comparable op.mirror t u = comparable op t u := by
  rw [comparable, op.admits_mirror, comparable]

theorem comparisonOperand_eq_ok_iff {o : Operand} {i : Nat} :
    comparisonOperand op s i o = .ok e ↔
      o.compileAt s i (some .value) = .ok e ∧ op.admits e.type = true := by
  constructor
  · intro h
    obtain ⟨e', he', h⟩ := ok_of_bind h
    split at h
    · next hadmits =>
        obtain rfl := ok_of_pure h
        exact ⟨he', hadmits⟩
    · cases h
  · rintro ⟨h, hadmits⟩
    rw [comparisonOperand, h]
    exact if_pos hadmits

theorem comparison_eq_ok_iff {a b : Operand} :
    comparison op.symbol s [a, b] = .ok e ↔
      ∃ l r, a.compileAt s 1 (some .value) = .ok l ∧
        b.compileAt s 2 (some .value) = .ok r ∧
        comparable op l.type r.type = true ∧ e = comparisonNode op l r := by
  simp only [comparison, op.ofSymbol?_symbol]
  constructor
  · intro h
    obtain ⟨l, hl, h⟩ := ok_of_bind h
    obtain ⟨r, hr, h⟩ := ok_of_bind h
    obtain ⟨hl, hladmits⟩ := comparisonOperand_eq_ok_iff.1 hl
    obtain ⟨hr, hradmits⟩ := comparisonOperand_eq_ok_iff.1 hr
    split at h
    · cases h
    · next hkind =>
        refine ⟨l, r, hl, hr, ?_, ?_⟩
        · rw [comparable, hladmits, hradmits]
          simpa [← or_assoc, or_iff_not_imp_left] using hkind
        · obtain rfl := ok_of_pure h
          rw [comparisonNode, narrowFor, narrowFor]
          cases op.isOrdering <;> rfl
  · rintro ⟨l, r, hl, hr, hcomparable, rfl⟩
    simp only [comparable, Bool.and_eq_true] at hcomparable
    obtain ⟨⟨hladmits, hradmits⟩, hkind⟩ := hcomparable
    rw [comparisonOperand_eq_ok_iff.2 ⟨hl, hladmits⟩]
    show (comparisonOperand op s 2 b >>= _) = _
    rw [comparisonOperand_eq_ok_iff.2 ⟨hr, hradmits⟩]
    show (if (!l.type.sameKind r.type && l.type != .value && r.type != .value) =
      true then _ else _) = _
    rw [if_neg (by simpa [← or_assoc, or_iff_not_imp_left] using hkind),
      comparisonNode, narrowFor, narrowFor]
    cases op.isOrdering <;> rfl

/-- The mirror image of a node is constant together with it. -/
theorem isConstant_mirror (op : Comparator) (l r : Expr) :
    (comparisonNode op.mirror r l).isConstant =
      (comparisonNode op l r).isConstant := by
  simp only [comparisonNode, Expr.isConstant_comparison, narrowFor,
    op.isOrdering_mirror]
  exact Bool.and_comm _ _

theorem sameValues_mirror (op : Comparator) (l r : Expr) :
    (comparisonNode op l r).SameValues (comparisonNode op.mirror r l) := by
  intro ctx v
  simp only [comparisonNode, Expr.evaluate, narrowFor, op.isOrdering_mirror]
  rw [Bool.or_comm (_ == Ty.value), Semantics.comparison_mirror]

/-! ## Where a comparison stands -/

/-- A boolean is never narrowed, only accepted or not. -/
theorem conform_boolean_iff {how : Option Narrowing} {a : Expr}
    (hty : e.type = .boolean) : conform s how e = .ok a ↔
      a = e ∧ ∀ ty ∈ s.expected, ty.accepts .boolean = true := by
  constructor
  · intro h
    have hstays (ty : Ty) : needsNarrowing ty e.type = false := by
      rw [hty]
      cases ty <;> rfl
    cases conformed h with
    | free hexpected => exact ⟨rfl, by simp [hexpected]⟩
    | accepted hexpected hstays haccepts =>
        refine ⟨rfl, fun ty' hty' => ?_⟩
        obtain rfl := Option.some.inj (hexpected.symm.trans hty')
        exact hty ▸ haccepts
    | asserted hexpected hnarrows hvalue =>
        rw [hty] at hvalue
        cases hvalue
    | colored hexpected htype =>
        rw [hty] at htype
        rcases htype with htype | htype <;> cases htype
  · rintro ⟨rfl, haccepts⟩
    unfold conform
    split
    · rfl
    · next ty hexpected =>
        have haccepts := haccepts ty hexpected
        rw [hty]
        cases ty <;> first | rfl | cases haccepts

theorem settle_follows_of_sameValues {e e' : Expr} (h : e.SameValues e')
    (hliteral : e.isLiteral = e'.isLiteral)
    (hconst : e.isConstant = e'.isConstant) (folding : Bool) :
    Follows Expr.SameValues (settle folding s e) (settle folding s e') := by
  rw [settle, settle, ← hliteral, ← hconst]
  split
  · intro a ha
    split at ha
    · next v hv =>
        cases ha
        rw [(h {} v).1 hv]
        exact ⟨_, rfl, fun _ _ => Iff.rfl⟩
    · cases ha
  · exact .pure h

/-- Two comparisons that are constant together and have the same values are
still alike where they stand. -/
theorem finish_follows_of_sameValues {e e' : Expr} (h : e.SameValues e')
    (hty : e.type = .boolean) (hty' : e'.type = .boolean)
    (hliteral : e.isLiteral = e'.isLiteral)
    (hconst : e.isConstant = e'.isConstant) (folding : Bool)
    (how : Option Narrowing) :
    Follows Expr.SameValues (finish folding s how e)
      (finish folding s how e') := by
  refine .bind (R := fun a b => a = e ∧ b = e') ?_ ?_
  · intro a ha
    obtain ⟨rfl, haccepts⟩ := (conform_boolean_iff hty).1 ha
    exact ⟨e', (conform_boolean_iff hty').2 ⟨rfl, haccepts⟩, rfl, rfl⟩
  · rintro _ _ ⟨rfl, rfl⟩
    exact settle_follows_of_sameValues h hliteral hconst folding

end Compile

/-! ## Documents -/

namespace Compiler

open Compile

variable {a b : Json} {op : Comparator} {s : Site} {how : Option Narrowing}
  {e l r : Expr}

theorem compileAt_operand {raw : Json} (s : Site) (i : Nat) :
    Operand.compileAt ⟨raw, compile { registry := .standard } raw⟩ s i
        (some .value) = .ok e ↔
      compile { registry := .standard } raw s.operand none = .ok e :=
  ⟨compile_of_site Registry.standard_lawful rfl rfl,
    compile_of_site Registry.standard_lawful rfl rfl⟩

/-- A comparison makes the node of its two operands, if their types may be
compared. -/
theorem compile_comparison :
    compile { registry := .standard } (op.document a b) s how = .ok e ↔
      ∃ l r, compile { registry := .standard } a s.operand none = .ok l ∧
        compile { registry := .standard } b s.operand none = .ok r ∧
        comparable op l.type r.type = true ∧
        finish true s how (comparisonNode op l r) = .ok e := by
  have hlookup : Registry.standard.lookup op.symbol =
      some (.special op.symbol .comparison) := by
    cases op <;> rfl
  rw [Comparator.document, compile_form _ hlookup, operands_eq_map]
  constructor
  · intro h
    obtain ⟨node, hnode, he⟩ := ok_of_bind h
    obtain ⟨l, r, hl, hr, hcomparable, rfl⟩ := comparison_eq_ok_iff.1 hnode
    exact ⟨l, r, (compileAt_operand s 1).1 hl, (compileAt_operand s 2).1 hr,
      hcomparable, he⟩
  · rintro ⟨l, r, hl, hr, hcomparable, he⟩
    show (comparison op.symbol s [_, _] >>= finish true s how) = .ok e
    rw [comparison_eq_ok_iff.2 ⟨l, r, (compileAt_operand s 1).2 hl,
      (compileAt_operand s 2).2 hr, hcomparable, rfl⟩]
    exact he

/-- Where a comparison compiles its mirror image does, to a tree with the same
values. -/
theorem compile_mirror_follows (op : Comparator) (a b : Json) (s : Site)
    (how : Option Narrowing) :
    Follows Expr.SameValues
      (compile { registry := .standard } (op.document a b) s how)
      (compile { registry := .standard } (op.mirror.document b a) s how) := by
  intro e he
  obtain ⟨l, r, hl, hr, hcomparable, hfinish⟩ := compile_comparison.1 he
  rw [comparable_comm, ← comparable_mirror] at hcomparable
  obtain ⟨e', he', hvalues⟩ :=
    finish_follows_of_sameValues (sameValues_mirror op l r) rfl rfl rfl
      (isConstant_mirror op l r).symm true how e hfinish
  exact ⟨e', compile_comparison.2 ⟨r, l, hr, hl, hcomparable, he'⟩, hvalues⟩

/-! ## Exactly one order -/

/-- A comparison that has a value says what its operator holds of the values
of the operands, as the node of the operands does. -/
theorem evaluate_comparison
    (he : compile { registry := .standard } (op.document a b) s how = .ok e)
    (hl : compile { registry := .standard } a s.operand none = .ok l)
    (hr : compile { registry := .standard } b s.operand none = .ok r)
    {ctx : Context} {v w x : Value} (hv : l.evaluate ctx = .ok v)
    (hw : r.evaluate ctx = .ok w) (hx : e.evaluate ctx = .ok x) :
    x = .boolean (Value.compared op v w) ∧
      comparable op l.type r.type = true ∧
      (comparisonNode op l r).evaluate ctx = .ok x := by
  obtain ⟨l', r', hl', hr', hcomparable, hfinish⟩ := compile_comparison.1 he
  obtain rfl := Except.ok.inj (hl.symm.trans hl')
  obtain rfl := Except.ok.inj (hr.symm.trans hr')
  obtain ⟨node, hnode, hsettle⟩ := ok_of_bind hfinish
  obtain ⟨rfl, -⟩ := (conform_boolean_iff rfl).1 hnode
  rw [evaluate_of_settle hsettle] at hx
  refine ⟨?_, hcomparable, hx⟩
  obtain ⟨v', w', hv', hw', -, rfl⟩ := Semantics.comparison_eq_ok_iff.1 hx
  obtain rfl := Except.ok.inj (hv.symm.trans (evaluate_of_narrowFor hv'))
  obtain rfl := Except.ok.inj (hw.symm.trans (evaluate_of_narrowFor hw'))
  rfl

end Compiler

namespace Compile

variable {l r e : Expr} {ctx : Context} {v w : Value} {t : Ty}

/-- Two values are of one kind if both are of a known kind or neither is. -/
theorem type_eq_iff (ht : t = .string ∨ t = .number) (hv : v.IsOrdered)
    (hw : w.IsOrdered) : v.type = w.type ↔ (v.type = t ↔ w.type = t) := by
  rcases ht with rfl | rfl <;> cases hv <;> cases hw <;> simp [Value.type]

theorem not_stray_of_type_value (h : e.type = .value) :
    ¬ (e.type = .number ∧ e.Stray ctx v) := by
  rintro ⟨hnumber, -⟩
  cases h.symm.trans hnumber

/-- A value of an operand that is narrowed to a known type is of that type,
unless it strays. -/
theorem type_eq_iff_of_narrowTo (ht : t = .string ∨ t = .number)
    (he : e.Typed .standard) (hty : e.type = t ∨ e.type = .value)
    (hvalue : (narrowTo t e).evaluate ctx = .ok v) :
    v.type = t ↔ ¬ (e.type = .number ∧ e.Stray ctx v) := by
  have hknown : t ≠ .value := by
    rcases ht with rfl | rfl <;> nofun
  have harray : t.isArray = false := by
    rcases ht with rfl | rfl <;> rfl
  rw [← Value.accepts_iff_type_eq hknown harray]
  rcases hty with rfl | hty
  · rw [narrowTo_of_known hknown] at hvalue
    exact he.accepts_iff Registry.standard_lawful hvalue
  · have hasserts : narrowTo t e = .assertion t [e] := by
      rcases ht with rfl | rfl <;> rw [narrowTo, hty] <;> rfl
    rw [hasserts] at hvalue
    exact iff_of_true (Expr.evaluate_assertion.1 hvalue).2
      (not_stray_of_type_value hty)

theorem eq_of_sameKind {u : Ty} (ht : t = .string ∨ t = .number)
    (h : t.sameKind u = true) : u = t := by
  rcases ht with rfl | rfl <;> exact (eq_of_beq h).symm

theorem known_of_admits (h : Comparator.lt.admits t = true) (ht : t ≠ .value) :
    t = .string ∨ t = .number := by
  cases t with
  | string => exact .inl rfl
  | number => exact .inr rfl
  | value => exact absurd rfl ht
  | _ => cases h

/-- Operands that may be ordered are both unknown, or narrowed to one type. -/
theorem known_of_comparable (h : comparable .lt l.type r.type = true) :
    (l.type = .value ∧ r.type = .value) ∨
      ∃ t, (t = .string ∨ t = .number) ∧
        (l.type = t ∨ l.type = .value) ∧ (r.type = t ∨ r.type = .value) ∧
        narrowTo r.type l = narrowTo t l ∧
        narrowTo l.type r = narrowTo t r := by
  simp only [comparable, Bool.and_eq_true, Bool.or_eq_true, beq_iff_eq] at h
  obtain ⟨⟨hl, hr⟩, hkind⟩ := h
  by_cases hlvalue : l.type = .value
  · by_cases hrvalue : r.type = .value
    · exact .inl ⟨hlvalue, hrvalue⟩
    · refine .inr ⟨r.type, known_of_admits hr hrvalue, .inr hlvalue, .inl rfl,
        rfl, ?_⟩
      rw [narrowTo_of_known hrvalue, narrowTo_of_known hrvalue]
  · have hknown := known_of_admits hl hlvalue
    have hstays : narrowTo r.type l = narrowTo l.type l := by
      rw [narrowTo_of_known hlvalue, narrowTo_of_known hlvalue]
    refine .inr ⟨l.type, hknown, .inl rfl, ?_, hstays, rfl⟩
    by_cases hrvalue : r.type = .value
    · exact .inr hrvalue
    · exact .inl (eq_of_sameKind hknown
        ((hkind.resolve_right hrvalue).resolve_right hlvalue))

/-- An order has a value for values of one kind only, unless one of the two
strays. -/
theorem type_eq_iff_strays (hl : l.Typed .standard) (hr : r.Typed .standard)
    (hcomparable : comparable .lt l.type r.type = true)
    (hv : l.evaluate ctx = .ok v) (hw : r.evaluate ctx = .ok w)
    (hvorder : v.IsOrdered) (hworder : w.IsOrdered) {x : Value}
    (hx : (comparisonNode .lt l r).evaluate ctx = .ok x) :
    v.type = w.type ↔ ((l.type = .number ∧ l.Stray ctx v) ↔
      (r.type = .number ∧ r.Stray ctx w)) := by
  obtain ⟨v', w', hv', hw', hkind, -⟩ := Semantics.comparison_eq_ok_iff.1 hx
  obtain rfl := Except.ok.inj (hv.symm.trans (evaluate_of_narrowFor hv'))
  obtain rfl := Except.ok.inj (hw.symm.trans (evaluate_of_narrowFor hw'))
  rcases known_of_comparable hcomparable with
    ⟨hlvalue, hrvalue⟩ | ⟨t, ht, hlt, hrt, hlnarrow, hrnarrow⟩
  · have huntyped : ((narrowFor .lt r.type l).type == .value ||
        (narrowFor .lt l.type r).type == .value) = true := by
      simp [narrowFor, narrowTo, hlvalue, hrvalue, Comparator.isOrdering]
    obtain ⟨hsame, hscalar⟩ := Bool.and_eq_true_iff.1 (hkind rfl huntyped)
    have hscalar : v.type = .string ∨ v.type = .number := by
      simpa using hscalar
    exact iff_of_true (eq_of_sameKind hscalar hsame).symm
      (iff_of_false (not_stray_of_type_value hlvalue)
        (not_stray_of_type_value hrvalue))
  · have hlhs : (narrowTo t l).evaluate ctx = .ok v := hlnarrow ▸ hv'
    have hrhs : (narrowTo t r).evaluate ctx = .ok w := hrnarrow ▸ hw'
    rw [type_eq_iff ht hvorder hworder,
      type_eq_iff_of_narrowTo ht hl hlt hlhs,
      type_eq_iff_of_narrowTo ht hr hrt hrhs, not_iff_not]

end Compile

namespace Compiler

open Compile

/-- A comparison and its mirror image compile together and have the same values.
Exactly one of less, equal and greater holds, if all three have a value and the
operands are texts or numbers, unless one of the operands, and not the other
one, has a text where a number is known to come up. -/
theorem comparison_mirror_existsUnique (a b : Json) :
    (∀ (op : Comparator) (s : Site) (how : Option Narrowing),
      (Succeeds (compile { registry := .standard } (op.document a b) s how) ↔
        Succeeds (compile { registry := .standard }
          (op.mirror.document b a) s how)) ∧
      Concur Expr.SameValues
        (compile { registry := .standard } (op.document a b) s how)
        (compile { registry := .standard } (op.mirror.document b a) s how)) ∧
    ∀ (l r : Expr) (tree : Ordering → Expr),
      compile { registry := .standard } a (Site.operand {}) none = .ok l →
      compile { registry := .standard } b (Site.operand {}) none = .ok r →
      (∀ o, compile { registry := .standard }
        ((Comparator.asking o).document a b) {} none = .ok (tree o)) →
      ∀ (ctx : Context) (v w : Value), l.evaluate ctx = .ok v →
        r.evaluate ctx = .ok w → v.IsOrdered → w.IsOrdered →
        (∀ o, ∃ x, (tree o).evaluate ctx = .ok x) →
        ((∃! o, (tree o).evaluate ctx = .ok (.boolean true)) ↔
          ((l.type = .number ∧ l.Stray ctx v) ↔
            (r.type = .number ∧ r.Stray ctx w))) := by
  refine ⟨fun op s how => ⟨⟨?_, ?_⟩, ?_⟩, ?_⟩
  · rintro ⟨e, he⟩
    obtain ⟨e', he', -⟩ := compile_mirror_follows op a b s how e he
    exact ⟨e', he'⟩
  · rintro ⟨e, he⟩
    obtain ⟨e', he', -⟩ := compile_mirror_follows op.mirror b a s how e he
    exact ⟨e', op.mirror_mirror ▸ he'⟩
  · intro e e' he he'
    obtain ⟨e'', he'', hvalues⟩ := compile_mirror_follows op a b s how e he
    obtain rfl := Except.ok.inj (he'.symm.trans he'')
    exact hvalues
  · intro l r tree hl hr htree ctx v w hv hw hvorder hworder hvalues
    have htyped {raw : Json} {e : Expr} (h : compile { registry := .standard }
        raw (Site.operand {}) none = .ok e) : e.Typed .standard := by
      obtain ⟨_, -, hunfolds, -⟩ :=
        compile_unfolds Registry.standard_lawful h
      exact hunfolds.typed
    have hresult (o : Ordering) : (tree o).evaluate ctx =
        .ok (.boolean (Value.compared (.asking o) v w)) := by
      obtain ⟨x, hx⟩ := hvalues o
      rw [hx, (evaluate_comparison (htree o) hl hr hv hw hx).1]
    obtain ⟨-, hcomparable, hnode⟩ :=
      evaluate_comparison (htree .lt) hl hr hv hw (hresult .lt)
    rw [← type_eq_iff_strays (htyped hl) (htyped hr) hcomparable hv hw hvorder
      hworder hnode, ← Value.existsUnique_compared_iff hvorder hworder]
    simp only [hresult, Except.ok.injEq, Value.boolean.injEq]

/-! A property and a number: an order asserts the property to be a number. -/

/-- `["get", "x"]`. -/
def getX : Json :=
  .array [.string "get", .string "x"]

def getXTree : Expr :=
  .compound "get" .value .property false [.literal .string (.string "x")]

def five : Expr :=
  Expr.ofJson (.number (.integer 5))

/-- The comparisons of the property with five. -/
def propertyComparison (o : Ordering) : Expr :=
  comparisonNode (.asking o) getXTree five

/-- A feature with a number for the property. -/
def threeContext : Context :=
  { feature := some { kind := .point, properties := [("x", .number 3)] } }

set_option maxRecDepth 4000 in
theorem comparison_mirror_existsUnique_property :
    compile { registry := .standard } getX (Site.operand {}) none =
        .ok getXTree ∧
      compile { registry := .standard } (.number (.integer 5))
        (Site.operand {}) none = .ok five ∧
      (∀ o, compile { registry := .standard } ((Comparator.asking o).document
        getX (.number (.integer 5))) {} none =
          .ok (propertyComparison o)) ∧
      getXTree.evaluate threeContext = .ok (.number 3) ∧
      five.evaluate threeContext = .ok (.number 5) ∧
      (Value.number 3).IsOrdered ∧ (Value.number 5).IsOrdered ∧
      (∀ o, ∃ x, (propertyComparison o).evaluate threeContext = .ok x) ∧
      ((∃! o, (propertyComparison o).evaluate threeContext =
          .ok (.boolean true)) ↔
        ((getXTree.type = .number ∧
            getXTree.Stray threeContext (.number 3)) ↔
          (five.type = .number ∧ five.Stray threeContext (.number 5)))) := by
  have hproperty : compile { registry := .standard } getX
      (Site.operand {}) none = .ok getXTree := by rfl
  have hfive : compile { registry := .standard } (.number (.integer 5))
      (Site.operand {}) none = .ok five := by rfl
  have hcompile : ∀ o, compile { registry := .standard }
      ((Comparator.asking o).document getX
        (.number (.integer 5))) {} none = .ok (propertyComparison o) := by
    intro o
    cases o <;> rfl
  have hthree : getXTree.evaluate threeContext = .ok (.number 3) := by rfl
  have hvalue : five.evaluate threeContext = .ok (.number 5) := by rfl
  have hthreeOrder : (Value.number 3).IsOrdered := .number (by decide)
  have hfiveOrder : (Value.number 5).IsOrdered := .number (by decide)
  have hvalues : ∀ o, ∃ x, (propertyComparison o).evaluate threeContext =
      .ok x := by
    intro o
    cases o <;> exact ⟨_, rfl⟩
  exact ⟨hproperty, hfive, hcompile, hthree, hvalue, hthreeOrder, hfiveOrder,
    hvalues, (comparison_mirror_existsUnique getX
      (.number (.integer 5))).2 _ _ _ hproperty hfive hcompile _ _ _ hthree
      hvalue hthreeOrder hfiveOrder hvalues⟩

/-! A text that is known to be a number: it neither comes before five nor after
it, and is not equal to it. -/

/-- `["coalesce", ["accumulated"], ["get", "x"]]`. -/
def letThrough : Json :=
  .array [.string "coalesce", .array [.string "accumulated"], getX]

def letThroughTree : Expr :=
  .coalesce .number
    [.compound "accumulated" .number .accumulated false [], getXTree]

set_option maxRecDepth 4000 in
theorem no_order_of_letThrough :
    compile { registry := .standard } letThrough (Site.operand {})
        none = .ok letThroughTree ∧
      compile { registry := .standard } (.number (.integer 5))
        (Site.operand {}) none = .ok five ∧
      (∀ o, compile { registry := .standard } ((Comparator.asking o).document
        letThrough (.number (.integer 5))) {} none =
          .ok (comparisonNode (.asking o) letThroughTree five)) ∧
      letThroughTree.evaluate StyleExpression.textContext =
        .ok (.string "hello") ∧
      five.evaluate StyleExpression.textContext = .ok (.number 5) ∧
      (Value.string "hello").IsOrdered ∧ (Value.number 5).IsOrdered ∧
      (∀ o, ∃ x, (comparisonNode (.asking o) letThroughTree five).evaluate
        StyleExpression.textContext = .ok x) ∧
      ¬ ∃! o, (comparisonNode (.asking o) letThroughTree five).evaluate
        StyleExpression.textContext = .ok (.boolean true) := by
  have hfalse : ∀ o, (comparisonNode (.asking o) letThroughTree five).evaluate
      StyleExpression.textContext = .ok (.boolean false) := by
    intro o
    cases o <;> rfl
  refine ⟨rfl, rfl, ?_, rfl, rfl, .string _, .number (by decide),
    fun o => ⟨_, hfalse o⟩, ?_⟩
  · intro o
    cases o <;> rfl
  · rintro ⟨o, ho, -⟩
    cases (hfalse o).symm.trans ho

end Compiler

end MapStyle
