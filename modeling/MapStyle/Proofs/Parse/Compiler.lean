import MapStyle.Parse.Compiler
import MapStyle.Proofs.Compile.Expectation
import MapStyle.Proofs.Compile.Parametric
import MapStyle.Proofs.Parse.Forms
import MapStyle.Property.StyleExpression

/-!
# The compiler as a rule

Compiling in a session does to it what the result of compiling says
(`Compiler.parse_eq`): a tree comes with no diagnostic, and where there is none
the diagnostics of the compilation are recorded behind the earlier ones.

The choice among signatures is where this is not a matter of putting rules
together. An attempt goes on to the next signature when an operand gives
nothing, and it counts if its session has no diagnostic in the end. That comes
to the same because the attempt starts from none and because the second check of
the types finds nothing: what has been parsed against a type is of that type
(`Compiler.accepts_of_compile`).
-/

namespace MapStyle

/-! ## What is parsed against a type -/

namespace Compile

variable {s : Site} {ty : Ty}

/-- What is not left to others to narrow is of the expected type. -/
theorem accepts_of_conform {e a : Expr} (hexpected : s.expected = some ty)
    (h : conform s none e = .ok a) : ty.accepts a.type = true := by
  have hnarrow (how : Narrowing) (hhow : how ≠ .omit) :
      ty.accepts (narrow how ty e).type = true := by
    rw [(type_narrow how ty e).resolve_right hhow]
    exact Ty.accepts_refl ty
  cases conformed h with
  | free hnone =>
      rw [hnone] at hexpected
      cases hexpected
  | accepted hty _ haccepts =>
      obtain rfl := Option.some.inj (hexpected.symm.trans hty)
      exact haccepts
  | asserted hty _ _ =>
      obtain rfl := Option.some.inj (hexpected.symm.trans hty)
      exact hnarrow .assert nofun
  | colored hcolor _ =>
      obtain rfl := Option.some.inj (hexpected.symm.trans hcolor)
      exact hnarrow .coerce nofun

theorem accepts_of_finish {folding : Bool} {e a : Expr}
    (hexpected : s.expected = some ty)
    (h : finish folding s none e = .ok a) : ty.accepts a.type = true := by
  obtain ⟨b, hb, ha⟩ := ok_of_bind h
  rw [type_of_settle ha]
  exact accepts_of_conform hexpected hb

end Compile

/-- What compiles against a type is of that type, with any operators. -/
theorem Compiler.accepts_of_compile {c : Compiler} {s : Site} {raw : Json}
    {ty : Ty} {e : Expr} (hexpected : s.expected = some ty)
    (h : c.compile raw s none = .ok e) : ty.accepts e.type = true := by
  cases raw with
  | array items =>
      obtain ⟨a, -, h⟩ := ok_of_bind h
      exact Compile.accepts_of_finish hexpected h
  | object fields => cases h
  | null | boolean _ | number _ | string _ =>
      exact Compile.accepts_of_finish hexpected h

/-- What the operand compiles to against a type is of that type. -/
def Operand.Conforms (o : Operand) : Prop :=
  ∀ ⦃s : Site⦄ ⦃ty : Ty⦄ ⦃e : Expr⦄, s.expected = some ty →
    o.compile s none = .ok e → ty.accepts e.type = true

/-! ## Choosing a signature -/

namespace Compile

variable {ω : Type} {op : CompoundOperator ω} {s : Site} {args : List Operand}

theorem attempt_of_firstFitting_none {signatures : List (Signature ω)}
    (h : firstFitting op s args signatures = none) :
    ∀ o ∈ signatures, ∃ ds, attempt op s args o = .error ds := by
  induction signatures with
  | nil => nofun
  | cons signature rest ih =>
      rw [firstFitting] at h
      cases hattempt : attempt op s args signature with
      | ok a =>
          rw [hattempt] at h
          cases h
      | error ds =>
          rw [hattempt] at h
          exact List.forall_mem_cons.2 ⟨⟨ds, hattempt⟩, ih h⟩

/-- One signature in question is tried, and its failure is the operator's. -/
theorem choice_of_only {only : Signature ω}
    (hcandidates : op.candidates args.length = [only]) :
    choice op s args = attempt op s args only := by
  unfold CompoundOperator.candidates at hcandidates
  rw [choice, hcandidates]

theorem choice_of_firstFitting {a : Application ω}
    (h : firstFitting op s args (op.candidates args.length) = some a) :
    choice op s args = .ok a := by
  cases hcandidates : op.candidates args.length with
  | nil =>
      rw [hcandidates] at h
      cases h
  | cons first rest =>
      rw [hcandidates] at h
      cases rest with
      | nil =>
          rw [firstFitting] at h
          rw [choice_of_only hcandidates]
          cases hfirst : attempt op s args first with
          | ok b =>
              rw [hfirst] at h
              cases h
              rfl
          | error ds =>
              rw [hfirst] at h
              cases h
      | cons second rest =>
          unfold CompoundOperator.candidates at hcandidates
          rw [choice, hcandidates]
          simp only [h]
          rfl

theorem choice_of_none
    (hcandidates : (op.candidates args.length).length ≠ 1)
    (h : firstFitting op s args (op.candidates args.length) = none) :
    choice op s args = noSignature s args (op.named args.length) := by
  rw [CompoundOperator.named]
  cases hfilter : op.candidates args.length with
  | nil =>
      unfold CompoundOperator.candidates at hfilter
      rw [choice, hfilter]
      rfl
  | cons first rest =>
      rw [hfilter] at h hcandidates
      cases rest with
      | nil => exact absurd rfl hcandidates
      | cons second rest =>
          unfold CompoundOperator.candidates at hfilter
          rw [choice, hfilter]
          simp only [h]
          rfl

end Compile

namespace Parse

open Rule

variable {ω : Type} {op : CompoundOperator ω} {signature : Signature ω}
  {signatures : List (Signature ω)} {s : Session} {args : List Operand}
  {i : Nat} {tys : List Ty}

/-- The second check of the types finds nothing. -/
theorem run_checkEach {es : List Expr}
    (h : List.Forall₂ (fun ty (e : Expr) => ty.accepts e.type = true) tys es) :
    s.run (checkEach i tys es) = (some (), s) := by
  induction h generalizing i with
  | nil => rfl
  | @cons ty e tys es haccepts _ ih =>
      have hcheck : s.run (checkType [i] ty e.type) = (some false, s) := by
        show ((s.checkType [i] ty e.type).map some id) = _
        rw [Session.checkType, if_pos haccepts]
        rfl
      exact (Session.run_bind_some hcheck _).trans ih

/-- Operands against types all compile, and to trees of those types, or the
first that does not ends the attempt with fewer trees than operands. -/
theorem operandsAgainst_cases (hargs : ∀ o ∈ args, o.Conforms)
    (hlength : tys.length = args.length) :
    (∃ es, Compile.operandsAgainst s.site i tys args = .ok es ∧
        s.run (operandsAgainst i tys (args.map Operand.part)) = (some es, s) ∧
        List.Forall₂ (fun ty (e : Expr) => ty.accepts e.type = true) tys es) ∨
      ∃ es ds, Compile.operandsAgainst s.site i tys args = .error ds ∧
        s.run (operandsAgainst i tys (args.map Operand.part)) =
          (some es, s.record ds) ∧
        es.length < args.length := by
  induction args generalizing i tys with
  | nil =>
      obtain rfl := List.length_eq_zero_iff.1 hlength
      exact .inl ⟨[], rfl, rfl, .nil⟩
  | cons o args ih =>
      obtain ⟨ho, hargs⟩ := List.forall_mem_cons.1 hargs
      match tys with
      | ty :: tys =>
          have hparse : s.run (o.part.parseAt i (some ty)) =
              s.absorbResult (o.compileAt s.site i (some ty)) :=
            Simulates.parseAt
          rw [List.map_cons, operandsAgainst, Session.run_bind,
            Session.run_outcome, hparse, Compile.operandsAgainst]
          cases hcompile : o.compileAt s.site i (some ty) with
          | error ds => exact .inr ⟨[], ds, rfl, rfl, Nat.succ_pos _⟩
          | ok e =>
              have haccepts : ty.accepts e.type = true := ho rfl hcompile
              simp only [Session.absorbResult]
              rcases ih (i := i + 1) hargs (Nat.succ.inj hlength) with
                ⟨es, hes, hrun, htypes⟩ | ⟨es, ds, hes, hrun, hfew⟩
              · refine .inl ⟨e :: es, ?_, ?_, .cons haccepts htypes⟩
                · rw [hes]
                  rfl
                · exact Session.run_bind_some hrun _
              · refine .inr ⟨e :: es, ds, ?_, ?_, Nat.succ_lt_succ hfew⟩
                · rw [hes]
                  rfl
                · exact Session.run_bind_some hrun _

/-- An attempt in a session without diagnostics. -/
theorem attempt_simulates (hargs : ∀ o ∈ args, o.Conforms)
    (hcount : signature.params.acceptsCount args.length = true)
    (hclean : s.diagnostics = []) :
    Simulates s (attempt op (args.map Operand.part) signature)
      (Compile.attempt op s.site args signature) := by
  have hlength := Compile.length_expected hcount
  rw [Simulates, attempt, Compile.attempt, List.length_map]
  rcases operandsAgainst_cases (s := s) (i := 1) hargs hlength with
    ⟨es, hes, hrun, htypes⟩ | ⟨es, ds, hes, hrun, hfew⟩
  · have hsame : es.length = args.length := htypes.length_eq.symm.trans hlength
    have herrors : s.hasErrors = false := by
      rw [Session.hasErrors, hclean]
      rfl
    rw [Session.run_bind_some hrun, hes, hsame, beq_self_eq_true, if_pos rfl,
      Session.run_bind_some (run_checkEach htypes)]
    show s.run (if s.hasErrors then failure else pure _) = _
    rw [herrors]
    rfl
  · have hother : (es.length == args.length) = false :=
      beq_false_of_ne (Nat.ne_of_lt hfew)
    rw [Session.run_bind_some hrun, hes, hother]
    rfl

/-- An attempt in a session of its own. -/
theorem run_attempt (hargs : ∀ o ∈ args, o.Conforms)
    (hcount : signature.params.acceptsCount args.length = true) :
    s.fork.run (attempt op (args.map Operand.part) signature) =
      s.fork.absorbResult (Compile.attempt op s.site args signature) := by
  have hsite : Compile.attempt op s.fork.site args signature =
      Compile.attempt op s.site args signature := by
    rw [Compile.attempt, Compile.attempt]
    exact congrArg (· >>= _) (Compile.operandsAgainst_expecting none _ _ _)
  rw [← hsite]
  exact attempt_simulates hargs hcount rfl

/-- The search leaves the session as it is. What it keeps of attempts that fail
matters where there is only one. -/
theorem run_firstFitting (hargs : ∀ o ∈ args, o.Conforms)
    (hcount : ∀ o ∈ signatures, o.params.acceptsCount args.length = true)
    (last : Option Session) :
    ∃ last', s.run (firstFitting op (args.map Operand.part) signatures last) =
        (some (Compile.firstFitting op s.site args signatures, last'), s) ∧
      ∀ only ds, signatures = [only] →
        Compile.attempt op s.site args only = .error ds →
          last' = some (s.fork.record ds) := by
  induction signatures generalizing last with
  | nil => exact ⟨last, rfl, nofun⟩
  | cons signature rest ih =>
      obtain ⟨hsignature, hrest⟩ := List.forall_mem_cons.1 hcount
      rw [firstFitting, Compile.firstFitting, Session.run_get_bind,
        run_attempt hargs hsignature]
      cases hattempt : Compile.attempt op s.site args signature with
      | ok a =>
          refine ⟨_, rfl, fun only ds hone hfails => ?_⟩
          cases hone
          rw [hattempt] at hfails
          cases hfails
      | error ds =>
          obtain ⟨last', hrun, -⟩ := ih hrest (some (s.fork.record ds))
          refine ⟨last', hrun, fun only es hone hfails => ?_⟩
          cases hone
          rw [hattempt] at hfails
          cases hfails
          cases hrun
          rfl

theorem noSignature_simulates :
    Simulates s (noSignature (args.map Operand.part) signatures)
      (Compile.noSignature s.site args signatures) :=
  (Simulates.parseAll args).bind fun _ => .error

theorem choice_simulates (hargs : ∀ o ∈ args, o.Conforms) :
    Simulates s (choice op (args.map Operand.part))
      (Compile.choice op s.site args) := by
  have hcount : ∀ o ∈ op.candidates args.length,
      o.params.acceptsCount args.length = true :=
    fun o ho => (List.mem_filter.1 ho).2
  obtain ⟨last, hrun, hlast⟩ :=
    run_firstFitting (s := s) hargs hcount none
  rw [Simulates, choice, List.length_map, Session.run_bind_some hrun]
  cases hfirst : Compile.firstFitting op s.site args
      (op.candidates args.length) with
  | some a =>
      rw [Compile.choice_of_firstFitting hfirst]
      rfl
  | none =>
      by_cases hone : (op.candidates args.length).length = 1
      · obtain ⟨only, honly⟩ := List.length_eq_one_iff.1 hone
        rw [honly] at hfirst
        obtain ⟨ds, hattempt⟩ := Compile.attempt_of_firstFitting_none hfirst only
          (List.mem_singleton_self only)
        rw [Compile.choice_of_only honly, hattempt, hlast only ds honly hattempt]
        simp only [honly]
        rfl
      · have hmany : ((op.candidates args.length).length == 1) = false :=
          beq_false_of_ne hone
        rw [Compile.choice_of_none hone hfirst]
        simp only [hmany]
        exact noSignature_simulates

theorem compound_simulates {op : CompoundOperator Primitive}
    (hargs : ∀ o ∈ args, o.Conforms) :
    Simulates s (compound op (args.map Operand.part))
      (Compile.compound op s.site args) :=
  (choice_simulates hargs).bind fun _ => .pure

/-! ## Applications -/

theorem form_simulates {f : SpecialForm} {name : String} :
    Simulates s (form f name (args.map Operand.part))
      (Compile.form f name s.site args) := by
  cases f with
  | literal => exact literal_simulates
  | assertion => exact assertion_simulates
  | coercion => exact conversion_simulates
  | binding => exact binding_simulates
  | reference => exact reference_simulates
  | item => exact item_simulates
  | membership => exact membership_simulates
  | position => exact position_simulates
  | slice => exact slice_simulates
  | length => exact length_simulates
  | conditional => exact conditional_simulates
  | selection => exact selection_simulates
  | coalesce => exact coalesce_simulates
  | step => exact step_simulates
  | interpolate => exact interpolate_simulates
  | comparison => exact comparison_simulates
  | all | any => exact connective_simulates
  | globalState => exact globalState_simulates
  | within => exact within_simulates
  | distance => exact distance_simulates

theorem application_simulates {registry : Registry}
    (hargs : ∀ o ∈ args, o.Conforms) :
    Simulates s (application registry (args.map Operand.part))
      (Compile.application registry s.site args) := by
  match args with
  | [] => exact .error
  | head :: args =>
      obtain ⟨-, hargs⟩ := List.forall_mem_cons.1 hargs
      have hraw : head.part.raw = head.raw := rfl
      rw [List.map_cons, application, Compile.application, hraw]
      cases head.raw with
      | string name =>
          dsimp only
          cases registry.lookup name with
          | none => exact .errorAt
          | some op =>
              cases op with
              | special name f => exact form_simulates
              | compound op => exact compound_simulates hargs
      | null | boolean _ | number _ | array _ | object _ => exact .errorAt

/-! ## Expressions -/

theorem conform_simulates {how : Option Narrowing} {e : Expr} :
    Simulates s (conform how e) (Compile.conform s.site how e) := by
  refine .expected ?_
  unfold Compile.conform
  cases s.site.expected with
  | none => exact .pure
  | some ty =>
      refine .ite (fun _ => .pure) fun _ => .ite (fun _ => .pure) fun _ => ?_
      have hcheck : (if ty.accepts e.type then return e
            else s.site.fail (.mismatch ty e.type) : Compiled Expr) =
          (if ty.accepts e.type then .ok ()
            else s.site.failAt [] (.mismatch ty e.type)) >>= fun _ => pure e := by
        rw [Site.failAt, List.append_nil]
        cases ty.accepts e.type <;> rfl
      rw [hcheck]
      exact Simulates.expectType.bind fun _ => .pure

theorem settle_simulates {folding : Bool} {e : Expr} :
    Simulates s (settle folding e) (Compile.settle folding s.site e) := by
  refine .ite (fun _ => ?_) fun _ => .pure
  cases e.evaluate {} with
  | ok v => exact .pure
  | error failure => exact .error

theorem finish_simulates {folding : Bool} {how : Option Narrowing} {e : Expr} :
    Simulates s (finish folding how e) (Compile.finish folding s.site how e) :=
  conform_simulates.bind fun _ => settle_simulates

end Parse

namespace Compiler

open Rule

variable {c : Compiler}

theorem conforms_operands {raws : List Json} :
    ∀ o ∈ c.operands raws, o.Conforms := by
  rw [operands_eq_map]
  exact List.forall_mem_map.2 fun raw _ _ _ _ => accepts_of_compile

mutual

/-- Compiling in a session gives what compiling gives, and records what that
fails with. -/
theorem parse_eq (raw : Json) (how : Option Narrowing) :
    c.parse raw how =
      OptionT.mk fun s => s.absorbResult (c.compile raw s.site how) := by
  refine funext fun s => ?_
  match raw with
  | .array items =>
      have happly : Simulates s (Parse.application c.registry (c.parts items))
          (Compile.application c.registry s.site (c.operands items)) := by
        rw [parts_eq items]
        exact Parse.application_simulates conforms_operands
      exact happly.bind fun _ => Parse.finish_simulates
  | .object _ => exact Simulates.error
  | .null | .boolean _ | .number _ | .string _ => exact Parse.finish_simulates

theorem parts_eq (raws : List Json) :
    c.parts raws = (c.operands raws).map Operand.part := by
  match raws with
  | [] => rfl
  | raw :: raws =>
      rw [parts, operands, List.map_cons, parts_eq raws]
      exact congrArg (· :: _) (congrArg (Part.mk raw) (funext (parse_eq raw)))

end

end Compiler

namespace Session

theorem compileRoot_eq (s : Session) (raw : Json) (how : Option Narrowing) :
    s.compileRoot raw how =
      s.absorbResult (s.compiler.compile raw s.site how) := by
  rw [compileRoot, Compiler.parse_eq]
  rfl

theorem compileOperand_eq (s : Session) (raw : Json) (position : Nat)
    (expected : Option Ty) (names : List (String × Expr))
    (how : Option Narrowing) :
    s.compileOperand raw position expected names how = s.absorbResult
      (s.compiler.compile raw (s.site.child position expected names) how) := by
  have hpart : (⟨raw, s.compiler.parse raw⟩ : Part) =
      Operand.part ⟨raw, s.compiler.compile raw⟩ :=
    congrArg (Part.mk raw) (funext (Compiler.parse_eq raw))
  rw [compileOperand, hpart]
  exact Rule.Simulates.parseWith

end Session

namespace StyleExpression

variable {r : Registry} {spec : Option PropertySpecification} {raw : Json}

/-- There is never a tree in a session that has a diagnostic. -/
theorem compile_eq (r : Registry) (spec : Option PropertySpecification)
    (raw : Json) :
    compile r spec raw = (do
      let expression ← Compiler.compile { registry := r } raw
        { expected := spec.map PropertySpecification.expectedType }
        (if spec.any (·.type == .string) then some .coerce else none)
      return {
        expression
        fallback := (spec.bind PropertySpecification.fallback?).getD .null
        allowed := (spec.filter (·.type == .enum)).bind
          PropertySpecification.values }) := by
  simp only [compile, Session.start, Session.compileRoot_eq]
  cases Compiler.compile { registry := r } raw
    { expected := spec.map PropertySpecification.expectedType }
    (if spec.any (·.type == .string) then some .coerce else none) <;> rfl

/-- The expressions that compile are those whose documents do. -/
theorem exists_compile_iff {tree : Expr} :
    (∃ e, compile r spec raw = .ok e ∧ e.expression = tree) ↔
      Compiler.compile { registry := r } raw
        { expected := spec.map PropertySpecification.expectedType }
        (if spec.any (·.type == .string) then some .coerce else none) =
          .ok tree := by
  rw [compile_eq]
  constructor
  · rintro ⟨e, h, rfl⟩
    obtain ⟨tree, htree, h⟩ := ok_of_bind h
    obtain rfl := ok_of_pure h
    exact htree
  · intro h
    rw [h]
    exact ⟨_, rfl, rfl⟩

theorem expression_of_compile {e : StyleExpression}
    (h : compile r spec raw = .ok e) :
    Compiler.compile { registry := r } raw
      { expected := spec.map PropertySpecification.expectedType }
      (if spec.any (·.type == .string) then some .coerce else none) =
        .ok e.expression :=
  exists_compile_iff.1 ⟨e, h, rfl⟩

theorem compile_eq_error_iff {ds : List Diagnostic} :
    compile r spec raw = .error ds ↔
      Compiler.compile { registry := r } raw
        { expected := spec.map PropertySpecification.expectedType }
        (if spec.any (·.type == .string) then some .coerce else none) =
          .error ds := by
  rw [compile_eq]
  cases Compiler.compile { registry := r } raw
    { expected := spec.map PropertySpecification.expectedType }
    (if spec.any (·.type == .string) then some .coerce else none) with
  | ok tree => exact ⟨nofun, nofun⟩
  | error es => exact ⟨fun h => by cases h; rfl, fun h => by cases h; rfl⟩

end StyleExpression

end MapStyle
