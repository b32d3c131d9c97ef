import MapStyle.Proofs.Compile.Labels
import MapStyle.Proofs.Filter.Operators

/-!
# Searching and scanning

A legacy filter for membership in a long list of one kind is expressed by the
operator that searches the sorted list; any other by the operator that looks at
all values in the order of their author. Either operator may stand for the
other where the values are of one kind: `search_agrees` exchanges the two
documents at any site and with any operand for the key.

Only the choice of the operator looks at the number of values. The statements
here are about lists of any length, the empty one included.
-/

namespace MapStyle

namespace Compiler

open Compile

/-- Two runs that fail for the same reasons, or give trees of one type that have
the same outcome in every context. -/
inductive SameOutcome : Compiled Expr → Compiled Expr → Prop where
  | error (ds : List Diagnostic) : SameOutcome (.error ds) (.error ds)
  | ok {e e' : Expr} (type_eq : e.type = e'.type)
      (evaluate_eq : ∀ ctx, e.evaluate ctx = e'.evaluate ctx) :
      SameOutcome (.ok e) (.ok e')

namespace SameOutcome

/-- A step that both runs take with the result of one and the same operand. -/
theorem bind {x : Compiled Expr} {f g : Expr → Compiled Expr}
    (h : ∀ e, SameOutcome (f e) (g e)) : SameOutcome (x >>= f) (x >>= g) := by
  cases x with
  | error ds => exact .error ds
  | ok e => exact h e

/-- Tests of the same outcome are finished alike. Where a boolean may not stand
both are refused, and anywhere else they stay as they are: their type needs no
narrowing, and they are not constants. -/
theorem finish {e e' : Expr} (htype : e.type = .boolean)
    (htype' : e'.type = .boolean) (hconst : e.isConstant = false)
    (hconst' : e'.isConstant = false)
    (h : ∀ ctx, e.evaluate ctx = e'.evaluate ctx) (folding : Bool) (s : Site)
    (how : Option Narrowing) :
    SameOutcome (Compile.finish folding s how e)
      (Compile.finish folding s how e') := by
  have hsettled : settle folding s e = .ok e := by
    rw [settle, hconst, Bool.and_false]
    rfl
  have hsettled' : settle folding s e' = .ok e' := by
    rw [settle, hconst', Bool.and_false]
    rfl
  have hok : SameOutcome (settle folding s e) (settle folding s e') := by
    rw [hsettled, hsettled']
    exact .ok (htype.trans htype'.symm) h
  cases hexpected : s.expected with
  | none =>
      rw [Compile.finish, Compile.finish, conform, conform, hexpected]
      exact hok
  | some ty =>
      by_cases hty : ty.accepts .boolean = true
      · have hcolor : ty ≠ .color := by
          rintro rfl
          cases hty
        have hconform {a : Expr} (ha : a.type = .boolean) :
            conform s how a = .ok a :=
          conform_of_accepts hexpected hcolor (by simp [ha]) (by rwa [ha]) how
        rw [Compile.finish, Compile.finish, hconform htype, hconform htype']
        exact hok
      · have hconform {a : Expr} (ha : a.type = .boolean) :
            conform s how a = s.fail (.mismatch ty .boolean) := by
          simp [conform, hexpected, ha, hty]
        rw [Compile.finish, Compile.finish, hconform htype, hconform htype']
        exact .error _

theorem exists_ok {x : Compiled Expr} {e' : Expr} (h : SameOutcome x (.ok e')) :
    ∃ e, x = .ok e ∧ ∀ ctx, e.evaluate ctx = e'.evaluate ctx := by
  cases h with
  | ok _ heval => exact ⟨_, rfl, heval⟩

end SameOutcome

end Compiler

namespace Filter

open Compiler Compile

/-! ## The two tests -/

variable {values : List Json}

/-- Whatever the operand for the key comes to, the two tests agree. -/
theorem apply_propertyInSorted (hkind : areOfOneKind values = true)
    (hproper : Json.areProper values = true) (ctx : Context) (key : Outcome) :
    Primitive.propertyInSorted.apply ctx
        [key, .ok (.array ((sortValues values).map Value.ofJson))] =
      Primitive.propertyIn.apply ctx
        [key, .ok (.array (values.map Value.ofJson))] := by
  have hnumber : ∀ j ∈ values, ∀ x, j.number? = some x → x.isNaN = false :=
    fun j hj x hx => Json.isNaN_of_isProper (Json.areProper_iff.1 hproper j hj) hx
  have hsearch (p : Value) := Value.isInSorted_sortValues hkind hnumber p
  cases hkey : key.string with
  | error failure =>
      simp only [Primitive.apply, hkey]
      rfl
  | ok name =>
      simp only [Primitive.apply, hkey]
      exact congrArg (fun test => Except.ok (Primitive.testProperty ctx name test))
        (funext hsearch)

/-- A test of a property for membership reads the feature. -/
theorem isConstant_membership {primitive : Primitive}
    (hreads : primitive.reads = [.feature]) (name : String) (args : List Expr) :
    (Expr.compound name .boolean primitive false args).isConstant = false := by
  rw [Expr.isConstant.eq_def]
  refine Bool.and_eq_false_imp.2 fun _ => Bool.eq_false_iff.2 fun hnothing => ?_
  have hnone := Expr.reads_of_readsNothing hnothing
  rw [hreads] at hnone
  cases hnone

/-! ## The two documents -/

/-- A list of any length yields its values where any array is expected: the
empty one takes the type that is expected. -/
theorem yields_literals_of_any (js : List Json) :
    compiler.Yields .anyArray (literals js)
      fun _ => .array (js.map Value.ofJson) := by
  cases js with
  | nil =>
      intro s hs
      let e : Expr := .literal .anyArray (.array [])
      have htype : e.type ≠ .value := nofun
      have hcolor : Ty.anyArray ≠ .color := nofun
      have hliteral (compile : Site → Option Narrowing → Compiled Expr) :
          literal s [⟨.array [], compile⟩] = .ok e := by
        simp only [literal, hs]
        rfl
      have hcompile : compiler.compile (literals []) s none =
          finish true s none e := by
        simp only [literals, apply, compile, operands, application]
        rw [show Registry.standard.lookup "literal" =
          some (.special "literal" .literal) from rfl]
        simp only [form]
        rw [hliteral]
        rfl
      rw [hcompile]
      exact finish_yields (c := compiler) (f := fun _ => .array []) hs hcolor
        htype (Ty.accepts_refl _) fun _ => rfl
  | cons j js => exact yields_literals (List.cons_ne_nil j js)

/-- The compilation of a membership test: the key as a string, the values as an
array, and a node of the two. -/
theorem compile_membership {name : String} {primitive : Primitive}
    (hlookup : Registry.standard.lookup name = some (.compound
      (Registry.simple name [.string, .anyArray] .boolean primitive)))
    (field list : Json) (s : Site) (how : Option Narrowing) :
    compiler.compile (apply name [field, list]) s how =
      compiler.compile field (s.child 1 (some .string) []) none >>= fun key =>
        compiler.compile list (s.child 2 (some .anyArray) []) none >>= fun vs =>
          finish true s how
            (.compound name .boolean primitive false [key, vs]) := by
  simp only [apply, compile, operands, application]
  rw [hlookup]
  show ((operandsAgainst s 1 [.string, .anyArray] _ >>= _) >>= _) >>= _ = _
  simp only [operandsAgainst, Operand.compileAt]
  cases compiler.compile field (s.child 1 (some .string) []) none with
  | error ds => rfl
  | ok key =>
      show ((((compiler.compile list (s.child 2 (some .anyArray) []) none >>= _)
        >>= _) >>= _) >>= _) >>= _ = _
      cases compiler.compile list (s.child 2 (some .anyArray) []) none <;> rfl

/-- A test of a property for being one of the values. -/
theorem tests_scan (key : String) (values : List Json) :
    compiler.Tests (apply "filter-in-small" [.string key, literals values])
      fun ctx => (ctx.property? key).any fun p =>
        (values.map Value.ofJson).any (·.equals p) :=
  tests_operator rfl rfl rfl
    (.cons (yields_key key) (.cons (yields_literals_of_any values) .nil))
    fun _ => rfl

/-- Whatever stands for the key, and wherever the test stands, searching the
sorted values comes to the same as scanning the values. -/
theorem sameOutcome_membership (hkind : areOfOneKind values = true)
    (hproper : Json.areProper values = true) (field : Json) (s : Site)
    (how : Option Narrowing) :
    SameOutcome
      (compiler.compile
        (apply "filter-in-large" [field, literals (sortValues values)]) s how)
      (compiler.compile
        (apply "filter-in-small" [field, literals values]) s how) := by
  let inner := s.child 2 (some .anyArray) []
  obtain ⟨sorted, hsorted, hsortedValue⟩ :=
    yields_literals_of_any (sortValues values) inner rfl
  obtain ⟨list, hlist, hlistValue⟩ := yields_literals_of_any values inner rfl
  rw [compile_membership rfl, compile_membership rfl]
  refine SameOutcome.bind fun key => ?_
  rw [hsorted, hlist]
  refine SameOutcome.finish rfl rfl (isConstant_membership rfl ..)
    (isConstant_membership rfl ..) (fun ctx => ?_) true s how
  simp only [Expr.evaluate, Expr.evaluateList, hsortedValue, hlistValue]
  exact apply_propertyInSorted hkind hproper ctx (key.evaluate ctx)

/-- Sorting values of one kind loses none and repeats none, and a search in the
sorted values agrees with a scan of the values as they were written: at every
site and with every operand for the key, the two tests are refused for the same
reasons or have the same outcome in every context. With the name of a property
for the key they compile wherever a boolean is expected, and test whether the
feature has the property and it equals one of the values. -/
theorem search_agrees (hkind : areOfOneKind values = true)
    (hproper : Json.areProper values = true) :
    (sortValues values).Perm values ∧
    (∀ (field : Json) (s : Site) (how : Option Narrowing), SameOutcome
      (compiler.compile
        (apply "filter-in-large" [field, literals (sortValues values)]) s how)
      (compiler.compile
        (apply "filter-in-small" [field, literals values]) s how)) ∧
    ∀ key : String,
      let isAmong (ctx : Context) := (ctx.property? key).any fun p =>
        (values.map Value.ofJson).any (·.equals p)
      compiler.Tests (apply "filter-in-large"
        [.string key, literals (sortValues values)]) isAmong ∧
      compiler.Tests (apply "filter-in-small"
        [.string key, literals values]) isAmong := by
  have hsame := sameOutcome_membership hkind hproper
  refine ⟨List.mergeSort_perm .., hsame, fun key => ⟨fun s hs => ?_, ?_⟩⟩
  · obtain ⟨small, hsmall, hvalue⟩ := tests_scan key values s hs
    obtain ⟨large, hlarge, heq⟩ :=
      (hsmall ▸ hsame (.string key) s none).exists_ok
    exact ⟨large, hlarge, fun ctx => (heq ctx).trans (hvalue ctx)⟩
  · exact tests_scan key values

/-- Numbers, one of them twice. -/
theorem search_agrees_numbers :
    let values : List Json :=
      [.number (.integer 3), .number (.integer 1), .number (.integer 3)]
    areOfOneKind values = true ∧ Json.areProper values = true ∧
      (sortValues values).Perm values ∧
      compiler.Tests (apply "filter-in-large"
          [.string "rank", literals (sortValues values)])
        fun ctx => (ctx.property? "rank").any fun p =>
          (values.map Value.ofJson).any (·.equals p) := by
  intro values
  have hkind : areOfOneKind values = true := by rfl
  have hproper : Json.areProper values = true := by rfl
  obtain ⟨hperm, -, htests⟩ := search_agrees hkind hproper
  exact ⟨hkind, hproper, hperm, (htests "rank").1⟩

end Filter

end MapStyle
