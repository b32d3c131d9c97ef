import MapStyle.Operator.Standard
import MapStyle.Proofs.Compile.Agreement
import MapStyle.Proofs.Compile.Scoping

/-!
# Errors among the outputs

An error compiles wherever it stands, and its type is accepted wherever
something is expected. So it may take the place of any output of a conditional,
a selection or a step, with one exception: where nothing is expected of the
whole, the first output sets the type of the others. If that one is an error, no
other type is accepted any more.
-/

namespace MapStyle

namespace Compile

variable {s : Site} {os : List Operand} {f : SpecialForm} {k : Nat}
  {args : List Operand}

/-! ## Outputs that throw -/

/-- An operand that compiles wherever it stands, but never has a value. -/
def Throws (o : Operand) : Prop :=
  ∃ e, e.type = .error ∧ e.isConstant = false ∧ ∀ s how, o.compile s how = .ok e

/-- An output that throws agrees with any type that is set. -/
theorem agree_set_some {o : Operand} (ho : Throws o) {k : Nat} {t : Ty}
    {i : Nat} (h : Agree s (some t) (outputs i os)) :
    Agree s (some t) (outputs i (os.set k o)) := by
  rw [agree_some] at h ⊢
  rintro ⟨j, o'⟩ hmem
  obtain ⟨hj, ho'⟩ := mem_outputs.1 hmem
  rw [List.length_set] at hj
  by_cases hk : k = j - i
  · obtain ⟨e, -, -, he⟩ := ho
    have hlt : k < os.length := by
      have := hj.1
      have := hj.2.1
      omega
    rw [← hk, List.getElem?_set_self hlt] at ho'
    obtain rfl := Option.some.inj ho'
    exact ⟨e, he _ _⟩
  · rw [List.getElem?_set_ne hk] at ho'
    exact h (j, o') (mem_outputs.2 ⟨hj, ho'⟩)

/-- Outputs that agree still do so with one in their midst that throws, unless
that is the first one and sets the type. -/
theorem agree_set {o : Operand} (ho : Throws o) {k : Nat}
    (hk : IsOutput 0 os.length k) {ty : Option Ty} {i : Nat}
    (h : Agree s ty (outputs i os)) :
    Agree s ty (outputs i (os.set k o)) ↔ ty ≠ none ∨ k ≠ 1 ∨
      ∀ p ∈ outputs i os, p.1 ≠ i + k →
        Succeeds (p.2.compileAt s p.1 (some .error)) := by
  obtain ⟨e, herror, -, he⟩ := id ho
  cases ty with
  | some t => exact iff_of_true (agree_set_some ho h) (.inl nofun)
  | none =>
      match os, k, hk with
      | [], _, ⟨_, hlt, _⟩ => cases hlt
      | [o'], 0, _ => exact iff_of_true ⟨e, he _ _, trivial⟩ (.inr (.inl nofun))
      | [o'], k + 1, ⟨_, hlt, _⟩ => simp at hlt
      | x :: o' :: os, 0, hk => exact absurd hk.2.2 (by simp)
      | x :: o' :: os, k + 2, _ =>
          obtain ⟨e', he', h⟩ := h
          have hagree := agree_set_some (k := k) ho h
          exact iff_of_true ⟨e', he', hagree⟩ (.inr (.inl (by simp)))
      | x :: o' :: os, 1, _ =>
          have hset : Agree s none (outputs i (x :: o :: os)) ↔
              Agree s (some .error) (outputs (i + 2) os) := by
            constructor
            · rintro ⟨e', he', hagree⟩
              obtain rfl := Except.ok.inj ((he _ _).symm.trans he')
              exact herror ▸ hagree
            · exact fun hagree => ⟨e, he _ _, herror ▸ hagree⟩
          refine hset.trans (agree_some.trans ?_)
          simp only [outputs, List.forall_mem_cons, ne_eq, not_true_eq_false,
            false_implies, true_and, false_or]
          refine forall₂_congr fun p hp => ?_
          have hafter := (mem_outputs.1 hp).1.1
          exact (imp_iff_right (by omega)).symm

/-! ## Documents -/

theorem conform_declared {e : Expr} (how : Option Narrowing)
    (h : ∀ t ∈ s.declared, e.type = t) : conform s how e = .ok e := by
  unfold conform
  split
  · rfl
  · next ty hexpected =>
      by_cases hvalue : ty = .value
      · subst hvalue
        exact if_pos (Ty.value_accepts _)
      · have hdeclared : s.declared = some ty := by
          rw [Site.declared, hexpected]
          exact Option.filter_eq_some_iff.2 ⟨rfl, by simpa using hvalue⟩
        rw [h ty hdeclared, Ty.accepts_refl]
        cases ty <;> rfl

theorem finish_declared {folding : Bool} {e : Expr} (how : Option Narrowing)
    (h : ∀ t ∈ s.declared, e.type = t) (hconst : e.isConstant = false) :
    finish folding s how e = .ok e := by
  rw [finish, conform_declared how h]
  show settle folding s e = .ok e
  rw [settle, hconst, Bool.and_false]
  rfl

/-- An output that throws keeps the whole from being a constant. -/
theorem isConstant_of_throws {o : Operand} (ho : Throws o) {start i : Nat}
    {e : Expr} (hmem : (i, o) ∈ outputs start os)
    (h : Outputs s start os e) : e.isConstant = false := by
  obtain ⟨hlength, hfrom⟩ := List.forall₂_iff_get.1 h.1
  obtain ⟨⟨k, hk⟩, hget⟩ := List.mem_iff_get.1 hmem
  obtain ⟨ty, hcompile⟩ := hfrom k hk (hlength ▸ hk)
  obtain ⟨thrown, -, hthrown, hthrows⟩ := ho
  rw [hget] at hcompile
  have hchild : thrown ∈ e.children := by
    refine Expr.mem_children_of_mem_outputs ?_
    rw [Except.ok.inj ((hthrows _ _).symm.trans hcompile)]
    exact List.get_mem _ _
  refine Bool.eq_false_iff.2 fun hconst => ?_
  have hparts := (Expr.operands_of_isConstant hconst).1
  rw [hparts thrown (Expr.mem_operands_of_mem_children hchild)] at hthrown
  cases hthrown

/-- With such an output, an application compiles if the form does: it has the
type that is expected and is not folded. -/
theorem succeeds_finish_of_throws (hf : f.outputsFrom? = some (k + 1))
    (name : String) {o : Operand} (ho : Throws o) {i : Nat}
    (hmem : (i, o) ∈ outputs (k + 1) (args.drop k)) (folding : Bool)
    (how : Option Narrowing) :
    Succeeds (form f name s args >>= finish folding s how) ↔
      Succeeds (form f name s args) := by
  rw [succeeds_bind]
  refine exists_congr fun e => and_iff_left_of_imp fun he => ?_
  have houtputs := form_outputs hf name e he
  have hconst := isConstant_of_throws ho hmem houtputs
  exact ⟨e, finish_declared how houtputs.2 hconst⟩

/-- An application that compiles still does so with an output that throws,
unless that output sets the type of the others. -/
theorem succeeds_set_throws (hf : f.outputsFrom? = some (k + 1)) (name : String)
    (hok : Succeeds (form f name s args)) {o : Operand} (ho : Throws o)
    {i : Nat} (hi : IsOutput (k + 1) (args.length + 1) (i + 1))
    (folding : Bool) (how : Option Narrowing) :
    Succeeds (form f name s (args.set i o) >>= finish folding s how) ↔
      s.declared ≠ none ∨ i ≠ k + 1 ∨
        ∀ p ∈ outputs (k + 1) (args.drop k), p.1 ≠ i + 1 →
          Succeeds (p.2.compileAt s p.1 (some .error)) := by
  obtain ⟨hle, hlt, hturn⟩ := hi
  have hdrop : (args.set i o).drop k = (args.drop k).set (i - k) o := by
    rw [List.drop_set, if_neg (by omega)]
  have hk : IsOutput 0 (args.drop k).length (i - k) := by
    rw [List.length_drop]
    exact ⟨Nat.zero_le _, by omega, by omega⟩
  have hmem : (i + 1, o) ∈ outputs (k + 1) ((args.set i o).drop k) := by
    rw [mem_outputs, List.length_drop, List.length_set, List.getElem?_drop,
      show k + (i + 1 - (k + 1)) = i by omega]
    exact ⟨⟨hle, by omega, by omega⟩, List.getElem?_set_self (by omega)⟩
  rw [succeeds_finish_of_throws hf name ho hmem,
    form_agree hf name (List.take_set_of_le (by omega)) (hdrop ▸ .set hk) hok,
    hdrop, agree_set ho hk ((form_agree hf name rfl (.refl _) hok).1 hok),
    show k + 1 + (i - k) = i + 1 by omega]
  exact or_congr_right (or_congr_left (by omega))

end Compile

/-- The application of the operator that throws to a text. -/
def Json.throwing (text : String) : Json :=
  .array [.string "error", .string text]

namespace Compiler

open Compile

/-- What the application compiles to. -/
def thrown (text : String) : Expr :=
  .compound "error" .error .fail true [.literal .string (.string text)]

theorem compile_throwing (text : String) (s : Site) (how : Option Narrowing) :
    compile { registry := .standard } (.throwing text) s how =
      .ok (thrown text) := by
  have hconform : conform s how (thrown text) = .ok (thrown text) := by
    unfold conform
    split
    · rfl
    · next ty _ => cases ty <;> rfl
  show finish true s how (thrown text) = _
  rw [finish, hconform]
  rfl

theorem throws_throwing (text : String) : Throws
    ⟨.throwing text, compile { registry := .standard } (.throwing text)⟩ :=
  ⟨thrown text, rfl, rfl, compile_throwing text⟩

variable {name : String} {f : SpecialForm} {i : Nat} {items : List Json}
  {s : Site} {how : Option Narrowing} {e : Expr}

theorem operands_set (c : Compiler) (items : List Json) (i : Nat) (raw : Json) :
    c.operands (items.set i raw) =
      (c.operands items).set i ⟨raw, c.compile raw⟩ := by
  rw [operands_eq_map, operands_eq_map, List.map_set]

/-- The outputs among the operands of a document are its items at the
positions of outputs. -/
theorem mem_outputs_operands (c : Compiler) (head : Json) {k j : Nat}
    (hlength : k ≤ items.length) {o : Operand} :
    (j, o) ∈ outputs (k + 1) ((c.operands items).drop k) ↔
      IsOutput (k + 1) (items.length + 1) j ∧
        ∃ raw, (head :: items)[j]? = some raw ∧ ⟨raw, c.compile raw⟩ = o := by
  rw [mem_outputs, List.length_drop, length_operands,
    show k + 1 + (items.length - k) = items.length + 1 by omega,
    List.getElem?_drop]
  refine and_congr_right fun hj => ?_
  obtain ⟨j, rfl⟩ := Nat.exists_eq_add_of_le hj.1
  rw [show k + (k + 1 + j - (k + 1)) = k + j by omega,
    show k + 1 + j = k + j + 1 by omega, List.getElem?_cons_succ,
    operands_eq_map, List.getElem?_map, Option.map_eq_some_iff]

/-- An error can stand in place of any output, unless the type of the outputs is
open and the output is the first one. Then the others have to be errors too. -/
theorem compile_throwing_iff {start : Nat}
    (hname : Registry.standard.lookup name = some (.special name f))
    (hf : f.outputsFrom? = some start)
    (h : compile { registry := .standard } (.array (.string name :: items)) s
      how = .ok e)
    (hi : IsOutput start (items.length + 1) i) (text : String) :
    (∃ e', compile { registry := .standard } (.array
      ((.string name :: items).set i (.throwing text))) s how = .ok e') ↔
    s.declared ≠ none ∨ i ≠ start + 1 ∨
      ∀ j raw, IsOutput start (items.length + 1) j → j ≠ i →
        (Json.string name :: items)[j]? = some raw →
        ∃ e', compile { registry := .standard } raw
          (s.child j (some .error) []) none = .ok e' := by
  obtain ⟨k, rfl⟩ : ∃ k, start = k + 1 := by
    cases f <;> cases hf <;> exact ⟨_, rfl⟩
  cases i with
  | zero => cases hi.1
  | succ i =>
      let c : Compiler := { registry := .standard }
      have hlength : k ≤ items.length := by
        have hle := hi.1
        have hlt := hi.2.1
        omega
      rw [compile_form _ hname] at h
      obtain ⟨node, hnode, -⟩ := ok_of_bind h
      rw [← length_operands c items] at hi
      rw [List.set_cons_succ, compile_form _ hname, operands_set]
      refine (succeeds_set_throws hf name ⟨node, hnode⟩
        (throws_throwing text) hi true how).trans ?_
      refine or_congr_right (or_congr (by omega) ?_)
      constructor
      · intro hothers j raw hj hne hraw
        exact hothers (j, ⟨raw, c.compile raw⟩)
          ((mem_outputs_operands c _ hlength).2 ⟨hj, raw, hraw, rfl⟩) hne
      · rintro hothers ⟨j, o⟩ hmem hne
        obtain ⟨hj, raw, hraw, rfl⟩ :=
          (mem_outputs_operands c (.string name) hlength).1 hmem
        exact hothers j raw hj hne hraw

/-- `["has", "x"]`, a number if it holds and another number if it does not. -/
def caseItems : List Json :=
  [.array [.string "has", .string "x"], .number (.integer 1),
    .number (.integer 2)]

/-- What the document compiles to. -/
def caseExpression : Expr :=
  .conditional .number
    [(.compound "has" .boolean .hasProperty false
      [.literal .string (.string "x")],
      .literal .number (.number (Json.Number.integer 1).toFloat))]
    (.literal .number (.number (Json.Number.integer 2).toFloat))

theorem compile_caseItems : compile { registry := .standard }
    (.array (.string "case" :: caseItems)) {} none = .ok caseExpression := by
  rfl

/-- The fallback may throw. -/
theorem compile_throwing_iff_fallback :
    Registry.standard.lookup "case" = some (.special "case" .conditional) ∧
      SpecialForm.conditional.outputsFrom? = some 1 ∧
      IsOutput 1 (caseItems.length + 1) 3 ∧
      ∃ e, compile { registry := .standard } (.array
        ((.string "case" :: caseItems).set 3 (.throwing "none"))) {} none =
          .ok e := by
  have hname : Registry.standard.lookup "case" =
    some (.special "case" .conditional) := rfl
  have hi : IsOutput 1 (caseItems.length + 1) 3 := by decide
  exact ⟨hname, rfl, hi, (compile_throwing_iff hname rfl compile_caseItems hi
    "none").2 (.inr (.inl (by decide)))⟩

/-- The first output may not: the number after it is no error. -/
theorem case_throwing_first :
    (∃ e, compile { registry := .standard }
      (.array (.string "case" :: caseItems)) {} none = .ok e) ∧
    IsOutput 1 (caseItems.length + 1) 2 ∧
    ¬ ∃ e, compile { registry := .standard } (.array
      ((.string "case" :: caseItems).set 2 (.throwing "none"))) {} none =
        .ok e := by
  refine ⟨⟨_, compile_caseItems⟩, by decide, ?_⟩
  rintro ⟨e, he⟩
  cases he

end Compiler

end MapStyle
