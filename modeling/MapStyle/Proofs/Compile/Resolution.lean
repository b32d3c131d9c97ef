import MapStyle.Proofs.Compile.Diagnostics

/-!
# Choosing among signatures

A compound operator may have several signatures for one number of operands.
They are tried in order, each in a session of its own at the same place, where
its operands are compiled one by one against the types of its parameters and
the types that come out are checked once more. The first session without
diagnostics decides; the others are thrown away. If none is without, the
diagnostics of the only session count, and where there was not exactly one, the
operands are compiled again with nothing expected of them.

`Parse.choice` is this search, with the sessions that it opens and drops, and
what it does to the session of the application is the result of the compiler's
choice (`resolve_eq`). What it amounts to does not depend on the order of
attempts in time: a signature `Takes` operands if each of them compiles against
the type of its parameter without a diagnostic, and `Resolution` lists what may
come out, by the first signature that does or, without one, by the number of
signatures in question.

Nothing is asked of the operator or the registry here. Operations may be
anything, since a signature is chosen by its parameters, and operands may be
applications of overloaded operators themselves.
-/

namespace MapStyle

/-! ## Operands one by one -/

namespace Compiler

variable {c : Compiler} {s : Site}

/-- Compiles documents from a position on, each against what is expected of
it. -/
def compileEach (c : Compiler) (s : Site) :
    Nat → List (Json × Option Ty) → Compiled (List Expr)
  | _, [] => return []
  | i, (raw, expected) :: rest => do
    let e ← c.compile raw (s.child i expected []) none
    return e :: (← c.compileEach s (i + 1) rest)

theorem compileEach_cons {i : Nat} {raw : Json} {expected : Option Ty} {e : Expr}
    (h : c.compile raw (s.child i expected []) none = .ok e)
    (rest : List (Json × Option Ty)) :
    c.compileEach s i ((raw, expected) :: rest) =
      (do return e :: (← c.compileEach s (i + 1) rest)) := by
  rw [compileEach, h]
  rfl

/-- The operands of a signature with their types. -/
theorem operandsAgainst_eq (i : Nat) (tys : List Ty) (raws : List Json) :
    Compile.operandsAgainst s i tys (c.operands raws) =
      c.compileEach s i (raws.zip (tys.map some)) := by
  induction raws generalizing i tys with
  | nil => cases tys <;> rfl
  | cons raw raws ih =>
      cases tys with
      | nil => rfl
      | cons ty tys =>
          rw [operands, Compile.operandsAgainst, ih]
          rfl

/-- Operands with nothing expected of them. -/
theorem compileAll_eq (i : Nat) (raws : List Json) :
    Operand.compileAll s none i (c.operands raws) =
      c.compileEach s i (raws.map fun raw => (raw, none)) := by
  induction raws generalizing i with
  | nil => rfl
  | cons raw raws ih =>
      rw [operands, Operand.compileAll, ih]
      rfl

end Compiler

namespace Session

variable {s : Session} {i : Nat} {raw : Json} {expected : Option Ty}
  {rest : List (Json × Option Ty)} {es : List Expr}

/-- Documents that compile without a diagnostic, each at its position and
against what is expected of it. -/
inductive CompilesFrom (s : Session) :
    Nat → List (Json × Option Ty) → List Expr → Prop where
  | nil {i : Nat} : CompilesFrom s i [] []
  | cons {i : Nat} {raw : Json} {expected : Option Ty} {e : Expr}
      {rest : List (Json × Option Ty)} {es : List Expr}
      (head : s.compileOperand raw i expected [] none = (some e, s))
      (tail : CompilesFrom s (i + 1) rest es) :
      CompilesFrom s i ((raw, expected) :: rest) (e :: es)

/-- Documents of which one does not compile, and the diagnostics of the first
that does not. -/
inductive StopsFrom (s : Session) :
    Nat → List (Json × Option Ty) → List Diagnostic → Prop where
  | here {i : Nat} {raw : Json} {expected : Option Ty}
      {rest : List (Json × Option Ty)} {ds : List Diagnostic} (hne : ds ≠ [])
      (h : s.compileOperand raw i expected [] none = (none, s.record ds)) :
      StopsFrom s i ((raw, expected) :: rest) ds
  | later {i : Nat} {raw : Json} {expected : Option Ty} {e : Expr}
      {rest : List (Json × Option Ty)} {ds : List Diagnostic}
      (head : s.compileOperand raw i expected [] none = (some e, s))
      (tail : StopsFrom s (i + 1) rest ds) :
      StopsFrom s i ((raw, expected) :: rest) ds

/-- An operand compiles without a diagnostic, or does not compile and records
some. -/
theorem compileOperand_cases (s : Session) (raw : Json) (i : Nat)
    (expected : Option Ty) :
    (∃ e, s.compiler.compile raw (s.site.child i expected []) none = .ok e ∧
        s.compileOperand raw i expected [] none = (some e, s)) ∨
      ∃ ds, s.compiler.compile raw (s.site.child i expected []) none =
          .error ds ∧ ds ≠ [] ∧
        s.compileOperand raw i expected [] none = (none, s.record ds) := by
  cases hresult :
      s.compiler.compile raw (s.site.child i expected []) none with
  | ok e =>
      refine .inl ⟨e, rfl, ?_⟩
      rw [compileOperand_eq, hresult, absorbResult]
  | error ds =>
      have hne := (s.compiler.compile_explained raw _ none ds hresult).1
      refine .inr ⟨ds, rfl, hne, ?_⟩
      rw [compileOperand_eq, hresult, absorbResult]

/-- An operand that compiles in the session compiles to the same tree. -/
theorem compile_of_compileOperand {e : Expr}
    (h : s.compileOperand raw i expected [] none = (some e, s)) :
    s.compiler.compile raw (s.site.child i expected []) none = .ok e := by
  rcases s.compileOperand_cases raw i expected with
    ⟨e', hcompile, hrun⟩ | ⟨ds, -, -, hrun⟩
  · rw [hrun] at h
    cases h
    exact hcompile
  · rw [hrun] at h
    cases h

/-- Documents compile one by one to the trees of all, or to the diagnostics of
the first that does not compile. -/
theorem compileEach_cases (s : Session) (i : Nat)
    (rest : List (Json × Option Ty)) :
    (∃ es, s.CompilesFrom i rest es ∧
        s.compiler.compileEach s.site i rest = .ok es) ∨
      ∃ ds, s.StopsFrom i rest ds ∧
        s.compiler.compileEach s.site i rest = .error ds := by
  induction rest generalizing i with
  | nil => exact .inl ⟨[], .nil, rfl⟩
  | cons first rest ih =>
      obtain ⟨raw, expected⟩ := first
      rcases s.compileOperand_cases raw i expected with
        ⟨e, hcompile, hrun⟩ | ⟨ds, hcompile, hne, hrun⟩
      · rw [Compiler.compileEach_cons hcompile]
        rcases ih (i + 1) with ⟨es, hall, hes⟩ | ⟨ds, hstops, hds⟩
        · rw [hes]
          exact .inl ⟨e :: es, .cons hrun hall, rfl⟩
        · rw [hds]
          exact .inr ⟨ds, .later hrun hstops, rfl⟩
      · rw [Compiler.compileEach, hcompile]
        exact .inr ⟨ds, .here hne hrun, rfl⟩

theorem compilesFrom_iff : s.CompilesFrom i rest es ↔
    s.compiler.compileEach s.site i rest = .ok es := by
  constructor
  · intro h
    induction h with
    | nil => rfl
    | cons head _ ih =>
        rw [Compiler.compileEach_cons (compile_of_compileOperand head), ih]
        rfl
  · intro h
    rcases s.compileEach_cases i rest with
      ⟨es', hall, hcompiles⟩ | ⟨ds, -, hcompiles⟩
    · rw [hcompiles] at h
      cases h
      exact hall
    · rw [hcompiles] at h
      cases h

/-! ## One signature -/

variable {ω : Type} {op : CompoundOperator ω} {raws : List Json}
  {signature : Signature ω} {node : Application ω → Expr}

/-- Whether a signature takes operands, and what they compile to: it has so many
parameters, and each operand compiles against the type of its parameter without
a diagnostic. -/
structure Takes (s : Session) (raws : List Json) (signature : Signature ω)
    (es : List Expr) : Prop where
  count : signature.params.acceptsCount raws.length = true
  operands : s.CompilesFrom 1
    (raws.zip ((signature.params.expected raws.length).map some)) es

/-- What comes of trying a signature in a session of its own. -/
def attempt (s : Session) (op : CompoundOperator ω) (raws : List Json)
    (signature : Signature ω) : Option (Application ω) × Session :=
  s.fork.run (Parse.attempt op (s.compiler.parts raws) signature)

/-- An attempt leaves in its session what compiling records, and nothing if the
signature takes the operands. -/
theorem attempt_eq
    (hcount : signature.params.acceptsCount raws.length = true) :
    s.attempt op raws signature = s.fork.absorbResult
      (Compile.attempt op s.site (s.compiler.operands raws) signature) := by
  rw [attempt, Compiler.parts_eq]
  rw [← s.compiler.length_operands raws] at hcount
  exact Parse.run_attempt Compiler.conforms_operands hcount

/-- A signature takes operands exactly if the attempt makes an application of
them. -/
theorem takes_iff : s.Takes raws signature es ↔
    signature.params.acceptsCount raws.length = true ∧
      Compile.attempt op s.site (s.compiler.operands raws) signature =
        .ok ⟨op.name, op.output, signature.primitive, op.impure, es⟩ := by
  rw [Compile.attempt, Compiler.length_operands, Compiler.operandsAgainst_eq]
  constructor
  · rintro ⟨hcount, hoperands⟩
    refine ⟨hcount, ?_⟩
    rw [compilesFrom_iff.1 hoperands]
    rfl
  · rintro ⟨hcount, h⟩
    obtain ⟨es', hes, h⟩ := ok_of_bind h
    cases h
    exact ⟨hcount, compilesFrom_iff.2 hes⟩

theorem attempt_fails
    (hcount : signature.params.acceptsCount raws.length = true)
    (hnot : ∀ es, ¬ s.Takes raws signature es) :
    ∃ ds, Compile.attempt op s.site (s.compiler.operands raws) signature =
      .error ds := by
  cases hattempt :
      Compile.attempt op s.site (s.compiler.operands raws) signature with
  | error ds => exact ⟨ds, rfl⟩
  | ok a =>
      obtain ⟨es, -, hnode⟩ := ok_of_bind hattempt
      obtain rfl := ok_of_pure hnode
      exact absurd (takes_iff.2 ⟨hcount, hattempt⟩) (hnot es)

end Session

/-! ## All signatures -/

namespace Compile

variable {ω : Type} {op : CompoundOperator ω} {s : Site} {args : List Operand}

theorem firstFitting_append {before : List (Signature ω)}
    (h : ∀ b ∈ before, ∃ ds, attempt op s args b = .error ds)
    (rest : List (Signature ω)) :
    firstFitting op s args (before ++ rest) = firstFitting op s args rest := by
  induction before with
  | nil => rfl
  | cons b before ih =>
      obtain ⟨⟨ds, hb⟩, hbefore⟩ := List.forall_mem_cons.1 h
      rw [List.cons_append, firstFitting, hb]
      exact ih hbefore

theorem firstFitting_eq_none {signatures : List (Signature ω)}
    (h : ∀ b ∈ signatures, ∃ ds, attempt op s args b = .error ds) :
    firstFitting op s args signatures = none := by
  have happend := firstFitting_append h []
  rwa [List.append_nil] at happend

end Compile

namespace Session

variable {s : Session} {ω : Type} {op : CompoundOperator ω} {raws : List Json}
  {node : Application ω → Expr}

/-- What an application of an operator comes to in the session, with the nodes
that are made of applications. -/
def resolve (s : Session) (op : CompoundOperator ω)
    (node : Application ω → Expr) (raws : List Json) : Option Expr × Session :=
  s.run do return node (← Parse.choice op (s.compiler.parts raws))

/-- What may come of an operator and operands: the first signature that takes
the operands, with no trace in the session, or the diagnostics of the only
signature in question, of the first operand that does not compile at all, or of
the operator itself. -/
inductive Resolution (s : Session) (op : CompoundOperator ω)
    (node : Application ω → Expr) (raws : List Json) :
    Option Expr × Session → Prop where
  | first {before after : List (Signature ω)} {signature : Signature ω}
      {es : List Expr} (hsignatures : op.signatures = before ++ signature :: after)
      (hbefore : ∀ b ∈ before, ∀ es, ¬ s.Takes raws b es)
      (htakes : s.Takes raws signature es) :
      Resolution s op node raws
        (some (node ⟨op.name, op.output, signature.primitive, op.impure, es⟩), s)
  | only {signature : Signature ω}
      (hnone : ∀ o ∈ op.signatures, ∀ es, ¬ s.Takes raws o es)
      (hcandidates : op.candidates raws.length = [signature]) :
      Resolution s op node raws
        (none, s.absorb (s.attempt op raws signature).2)
  | operand {ds : List Diagnostic}
      (hnone : ∀ o ∈ op.signatures, ∀ es, ¬ s.Takes raws o es)
      (hcandidates : (op.candidates raws.length).length ≠ 1)
      (hstops : s.StopsFrom 1 (raws.map fun raw => (raw, none)) ds) :
      Resolution s op node raws (none, s.record ds)
  | types {es : List Expr}
      (hnone : ∀ o ∈ op.signatures, ∀ es, ¬ s.Takes raws o es)
      (hcandidates : (op.candidates raws.length).length ≠ 1)
      (hoperands : s.CompilesFrom 1 (raws.map fun raw => (raw, none)) es) :
      Resolution s op node raws (none, s.record [⟨s.site.path,
        .noSignature ((op.named raws.length).map Signature.params)
          (es.map Expr.type)⟩])

theorem count_of_mem_candidates {o : Signature ω} {n : Nat}
    (h : o ∈ op.candidates n) : o.params.acceptsCount n = true :=
  (List.mem_filter.1 h).2

/-- The search does to the session what the compiler's choice says. -/
theorem resolve_eq (s : Session) (op : CompoundOperator ω)
    (node : Application ω → Expr) (raws : List Json) :
    s.resolve op node raws = s.absorbResult (do
      return node (← Compile.choice op s.site (s.compiler.operands raws))) := by
  rw [resolve, Compiler.parts_eq]
  exact (Parse.choice_simulates Compiler.conforms_operands).bind fun _ => .pure

/-- A search without a fitting signature goes by the number of signatures in
question. -/
theorem resolution_of_none
    (hnone : ∀ o ∈ op.signatures, ∀ es, ¬ s.Takes raws o es) :
    s.Resolution op node raws (s.resolve op node raws) := by
  have hargs := s.compiler.length_operands raws
  have hcount : ∀ o ∈ op.candidates raws.length,
      o.params.acceptsCount raws.length = true :=
    fun o ho => count_of_mem_candidates ho
  have hfails : ∀ o ∈ op.candidates raws.length,
      ∃ ds, Compile.attempt op s.site (s.compiler.operands raws) o =
        .error ds :=
    fun o ho => attempt_fails (hcount o ho) (hnone o (List.mem_filter.1 ho).1)
  rw [resolve_eq]
  by_cases hone : (op.candidates raws.length).length = 1
  · obtain ⟨only, honly⟩ := List.length_eq_one_iff.1 hone
    have hmem : only ∈ op.candidates raws.length :=
      honly ▸ List.mem_singleton_self only
    obtain ⟨ds, hds⟩ := hfails only hmem
    have honce : s.Resolution op node raws
        (none, s.absorb (s.attempt op raws only).2) := .only hnone honly
    rw [attempt_eq (hcount only hmem), hds] at honce
    rw [← hargs] at honly
    rw [Compile.choice_of_only honly, hds]
    exact honce
  · have hfirst := Compile.firstFitting_eq_none hfails
    rw [← hargs] at hone hfirst
    rw [Compile.choice_of_none hone hfirst, Compile.noSignature,
      Compiler.compileAll_eq]
    rw [hargs] at hone ⊢
    rcases s.compileEach_cases 1 (raws.map fun raw => (raw, none)) with
      ⟨es, hall, hcompiles⟩ | ⟨ds, hstops, hcompiles⟩
    · rw [hcompiles]
      exact .types hnone hone hall
    · rw [hcompiles]
      exact .operand hnone hone hstops

/-- The first signature that takes the operands is the one that the search
finds. -/
theorem resolve_of_takes {before after : List (Signature ω)}
    {signature : Signature ω} {es : List Expr}
    (hsignatures : op.signatures = before ++ signature :: after)
    (hbefore : ∀ b ∈ before, ∀ es, ¬ s.Takes raws b es)
    (htakes : s.Takes raws signature es) :
    s.resolve op node raws =
      (some (node ⟨op.name, op.output, signature.primitive, op.impure, es⟩),
        s) := by
  have hattempts : signature.params.acceptsCount raws.length = true ∧
      Compile.attempt op s.site (s.compiler.operands raws) signature = .ok
        ⟨op.name, op.output, signature.primitive, op.impure, es⟩ :=
    takes_iff.1 htakes
  obtain ⟨hcount, hattempt⟩ := hattempts
  have hfails : ∀ b ∈ before.filter fun o => o.params.acceptsCount raws.length,
      ∃ ds, Compile.attempt op s.site (s.compiler.operands raws) b =
        .error ds := by
    intro b hb
    obtain ⟨hmem, hb⟩ := List.mem_filter.1 hb
    exact attempt_fails hb (hbefore b hmem)
  have hfirst : Compile.firstFitting op s.site (s.compiler.operands raws)
      (op.candidates raws.length) =
        some ⟨op.name, op.output, signature.primitive, op.impure, es⟩ := by
    rw [CompoundOperator.candidates, hsignatures, List.filter_append,
      Compile.firstFitting_append hfails, List.filter_cons, if_pos hcount,
      Compile.firstFitting, hattempt]
  rw [← s.compiler.length_operands raws] at hfirst
  rw [resolve_eq, Compile.choice_of_firstFitting hfirst]
  rfl

/-- Every search ends in one of the listed ways. -/
theorem resolution (s : Session) (op : CompoundOperator ω)
    (node : Application ω → Expr) (raws : List Json) :
    s.Resolution op node raws (s.resolve op node raws) := by
  classical
  cases hfind : op.signatures.find? fun o => ∃ es, s.Takes raws o es with
  | none =>
      apply resolution_of_none
      intro o ho es htakes
      have hnot := List.find?_eq_none.1 hfind o ho
      exact hnot (decide_eq_true ⟨es, htakes⟩)
  | some signature =>
      obtain ⟨htakes, before, after, hsignatures, hbefore⟩ :=
        List.find?_eq_some_iff_append.1 hfind
      obtain ⟨es, htakes⟩ := of_decide_eq_true htakes
      have hbefore : ∀ b ∈ before, ∀ es, ¬ s.Takes raws b es := by
        intro b hb es hes
        have hnot := hbefore b hb
        rw [decide_eq_true ⟨es, hes⟩] at hnot
        cases hnot
      rw [resolve_of_takes hsignatures hbefore htakes]
      exact .first hsignatures hbefore htakes

theorem Resolution.isSome_iff {run : Option Expr × Session}
    (h : s.Resolution op node raws run) :
    run.1.isSome = true ↔ ∃ o ∈ op.signatures, ∃ es, s.Takes raws o es := by
  cases h with
  | @first before after signature es hsignatures _ htakes =>
      have hmem : signature ∈ op.signatures := by
        rw [hsignatures]
        exact List.mem_append_right before List.mem_cons_self
      exact ⟨fun _ => ⟨signature, hmem, es, htakes⟩, fun _ => rfl⟩
  | only hnone | operand hnone | types hnone =>
      refine ⟨nofun, ?_⟩
      rintro ⟨o, ho, es, htakes⟩
      exact absurd htakes (hnone o ho es)

/-- An application of an operator makes a node exactly if some signature takes
the operands. The node has the operation of the first that does, whatever
operations are and nodes are made of, and the session is as it was. Without a
node there are more diagnostics than before: those of the one attempt, if there
was one signature in question, and otherwise those of the first operand that
does not compile with nothing expected of it, or the types of all operands as
the operator's own. -/
theorem compound_resolution (s : Session) (op : CompoundOperator ω)
    (node : Application ω → Expr) (raws : List Json) :
    let run := s.absorbResult (do
      return node (← Compile.choice op s.site (s.compiler.operands raws)))
    s.resolve op node raws = run ∧ s.Resolution op node raws run ∧
      (run.1.isSome = true ↔ ∃ o ∈ op.signatures, ∃ es, s.Takes raws o es) ∧
      ∃ new, run.2 = s.record new ∧ (run.1 = none ↔ new ≠ []) := by
  intro run
  have hresolve : s.resolve op node raws = run := resolve_eq s op node raws
  have hresolution : s.Resolution op node raws run :=
    hresolve ▸ resolution s op node raws
  refine ⟨hresolve, hresolution, hresolution.isSome_iff, ?_⟩
  have hoperands : Operand.StandFrom (.null :: raws) 1
      (s.compiler.operands raws) := by
    have hexplains : ∀ o ∈ s.compiler.operands raws, o.Explains := by
      rw [Compiler.operands_eq_map]
      exact List.forall_mem_map.2 fun raw _ =>
        s.compiler.compile_explained raw
    have hfrom := Operand.standFrom_append [.null] hexplains
    rwa [Compiler.raws_operands] at hfrom
  have hexplained : Explained s.site.path (.array (.null :: raws)) (do
      return node (← Compile.choice op s.site (s.compiler.operands raws))) :=
    .bind (Compile.choice_explained op hoperands) fun _ => .pure
  obtain ⟨new, hnew, -, -, hfails⟩ := s.absorbResult_records hexplained
  exact ⟨new, hnew, hfails⟩

/-- An operator that doubles numbers and shouts texts. -/
def emphasis : CompoundOperator Primitive :=
  { name := "emphasis"
    output := .value
    signatures := [⟨.fixed [.number], .sum⟩, ⟨.fixed [.string], .upcase⟩] }

/-- A text fits the second signature; what was recorded before is all that is
recorded. -/
example :
    let s := (Session.start { registry := .standard } none).report [3] .bareObject
    s.resolve emphasis Application.node [.string "x"] =
      (some (.compound "emphasis" .value .upcase false
        [.literal .string (.string "x")]), s) := by
  rfl

end Session

end MapStyle
