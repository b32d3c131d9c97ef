import MapStyle.Expr.Evaluate
import MapStyle.Proofs.Access.Color
import MapStyle.Proofs.Access.Curves
import MapStyle.Proofs.Access.Primitives
import MapStyle.Proofs.Access.Sequences
import MapStyle.Proofs.Typing.Progress

/-!
# Evaluation with bounds

The evaluator over the rules with indices and ranges. It evaluates every
operand of a node, also the ones that the rule of the node would not look at,
so a missing access anywhere in the tree shows. Labels and outputs are kept in
lists of their own, as the rules look them up.

Only two rules ask something of the tree: a curve has a stop, and a primitive
has the operands that it takes. Both are part of being typed, under a registry
that supplies its primitives.
-/

namespace MapStyle.Checked

variable (ctx : Context)

mutual

def evaluate : Expr → Option Outcome
  | .literal _ value => some (.ok value)
  | .assertion ty args => do
    return Semantics.assertType ty .null (← evaluateList args)
  | .coercion ty args => do (convert ty (← evaluateList args)).run
  | .binding _ body => evaluate body
  | .reference _ bound => evaluate bound
  | .item _ index input => do
    (item input.type (← evaluate index) (← evaluate input)).run
  | .membership _ needle haystack => do
    return Semantics.contains (← evaluate needle) (← evaluate haystack)
  | .position _ needle haystack start => do
    let needle ← evaluate needle
    let haystack ← evaluate haystack
    (position needle haystack (← evaluateOption start)).run
  | .slice _ input start stop => do
    let input ← evaluate input
    let start ← evaluate start
    (slice input start (← evaluateOption stop)).run
  | .length _ input => do return Semantics.length (← evaluate input)
  | .conditional _ branches otherwise => do
    let branches ← evaluateBranches branches
    return Semantics.conditional branches (← evaluate otherwise)
  | .selection _ inputTy input branches otherwise => do
    let input ← evaluate input
    let outputs ← evaluateLabelled branches
    let otherwise ← evaluate otherwise
    (selection inputTy input (branches.map Prod.fst) outputs otherwise).run
  | .coalesce _ args => do return Semantics.coalesce (← evaluateList args)
  | .step _ input stops => do
    let input ← evaluate input
    (step input (stops.map Prod.fst) (← evaluateStops stops)).run
  | .interpolate ty space kind input stops => do
    let input ← evaluate input
    let outputs ← evaluateStops stops
    (interpolate ty space kind input (stops.map Prod.fst) outputs).run
  | .comparison _ op untyped lhs rhs => do
    return Semantics.comparison op untyped (← evaluate lhs) (← evaluate rhs)
  | .all _ args => do return Semantics.all (← evaluateList args)
  | .any _ args => do return Semantics.any (← evaluateList args)
  | .globalState _ key => some (.ok (ctx.globalValue key))
  | .within _ region => do return .ok (.boolean (← within ctx region))
  | .distance _ shapes => do return .ok (← distance ctx shapes)
  | .compound _ _ p _ args => do
    (primitive ctx (← evaluateList args) p).run

def evaluateList : List Expr → Option (List Outcome)
  | [] => some []
  | e :: es => do return (← evaluate e) :: (← evaluateList es)

def evaluateOption : Option Expr → Option (Option Outcome)
  | none => some none
  | some e => do return some (← evaluate e)

def evaluateBranches : List (Expr × Expr) → Option (List (Outcome × Outcome))
  | [] => some []
  | (test, output) :: rest => do
    let test ← evaluate test
    let output ← evaluate output
    return (test, output) :: (← evaluateBranches rest)

def evaluateLabelled : List (List Label × Expr) → Option (List Outcome)
  | [] => some []
  | (_, e) :: rest => do return (← evaluate e) :: (← evaluateLabelled rest)

def evaluateStops : List (Float × Expr) → Option (List Outcome)
  | [] => some []
  | (_, e) :: rest => do return (← evaluate e) :: (← evaluateStops rest)

end

/-- No access is missing in the evaluation of a tree. -/
def Evaluates (e : Expr) : Prop := evaluate ctx e = some (e.evaluate ctx)

variable {ctx}

theorem evaluateList_eq {es : List Expr} (h : ∀ e ∈ es, Evaluates ctx e) :
    evaluateList ctx es = some (Expr.evaluateList ctx es) := by
  induction es with
  | nil => rfl
  | cons e es ih =>
      obtain ⟨he, hes⟩ := List.forall_mem_cons.1 h
      rw [evaluateList, he, ih hes]
      rfl

theorem evaluateOption_eq {o : Option Expr} (h : ∀ e ∈ o, Evaluates ctx e) :
    evaluateOption ctx o = some (Expr.evaluateOption ctx o) := by
  cases o with
  | none => rfl
  | some e =>
      rw [evaluateOption, h e rfl]
      rfl

theorem evaluateBranches_eq {branches : List (Expr × Expr)}
    (h : ∀ b ∈ branches, Evaluates ctx b.1 ∧ Evaluates ctx b.2) :
    evaluateBranches ctx branches =
      some (Expr.evaluateBranches ctx branches) := by
  induction branches with
  | nil => rfl
  | cons b rest ih =>
      obtain ⟨⟨htest, houtput⟩, hrest⟩ := List.forall_mem_cons.1 h
      rw [evaluateBranches, htest, houtput, ih hrest]
      rfl

theorem evaluateLabelled_eq {branches : List (List Label × Expr)}
    (h : ∀ b ∈ branches, Evaluates ctx b.2) :
    evaluateLabelled ctx branches =
      some ((Expr.evaluateLabelled ctx branches).map Prod.snd) := by
  induction branches with
  | nil => rfl
  | cons b rest ih =>
      obtain ⟨hb, hrest⟩ := List.forall_mem_cons.1 h
      rw [evaluateLabelled, hb, ih hrest]
      rfl

theorem evaluateStops_eq {stops : List (Float × Expr)}
    (h : ∀ s ∈ stops, Evaluates ctx s.2) : evaluateStops ctx stops =
      some ((Expr.evaluateStops ctx stops).map Prod.snd) := by
  induction stops with
  | nil => rfl
  | cons s rest ih =>
      obtain ⟨hs, hrest⟩ := List.forall_mem_cons.1 h
      rw [evaluateStops, hs, ih hrest]
      rfl

/-! ## Single nodes -/

open MapStyle.Expr (operands children)

variable {r : Registry} {e : Expr}

theorem evaluates_selection {ty inputTy : Ty} {input otherwise : Expr}
    {branches : List (List Label × Expr)} (hinput : Evaluates ctx input)
    (hbranches : ∀ b ∈ branches, Evaluates ctx b.2)
    (hotherwise : Evaluates ctx otherwise) :
    Evaluates ctx (.selection ty inputTy input branches otherwise) := by
  have hlabels : branches.map Prod.fst =
      (Expr.evaluateLabelled ctx branches).map Prod.fst := by
    rw [Expr.evaluateLabelled_eq_map, List.map_map]
    rfl
  rw [Evaluates, evaluate, hinput, evaluateLabelled_eq hbranches, hotherwise,
    Expr.evaluate, hlabels]
  exact selection_returns ..

theorem labels_eq (stops : List (Float × Expr)) : stops.map Prod.fst =
    (Expr.evaluateStops ctx stops).map Prod.fst := by
  rw [Expr.evaluateStops_eq_map, List.map_map]
  rfl

theorem evaluateStops_ne_nil {stops : List (Float × Expr)} (h : stops ≠ []) :
    Expr.evaluateStops ctx stops ≠ [] := by
  rw [Expr.evaluateStops_eq_map]
  simpa using h

theorem evaluates_compound (hr : r.Supplies) {name : String} {ty : Ty}
    {p : Primitive} {impure : Bool} {args : List Expr}
    (hobeys : (Expr.compound name ty p impure args).Obeys r)
    (hargs : ∀ e ∈ args, Evaluates ctx e) :
    Evaluates ctx (.compound name ty p impure args) := by
  obtain ⟨op, hop, -, -, -, sig, hsig, rfl, haccepts⟩ := hobeys
  rw [Evaluates, evaluate, evaluateList_eq hargs, Expr.evaluate]
  have houtcomes : List.Forall₂ (fun _ _ => True)
      (sig.params.expected (Expr.evaluateList ctx args).length)
      (Expr.evaluateList ctx args) := by
    rw [Expr.evaluateList_eq_map, List.length_map, List.forall₂_map_right_iff]
    exact haccepts.imp fun _ _ _ => trivial
  exact primitive_returns (hr op hop sig hsig) houtcomes

/-- A node that obeys its rule, if there is no missing access in its
operands. -/
theorem evaluates_of_operands (hr : r.Supplies) (hobeys : e.Obeys r)
    (hop : ∀ c ∈ e.operands, Evaluates ctx c) : Evaluates ctx e := by
  cases e with
  | literal ty value => rfl
  | assertion ty args =>
      have hargs : ∀ e ∈ args, Evaluates ctx e := hop
      rw [Evaluates, evaluate, evaluateList_eq hargs, Expr.evaluate]
      rfl
  | coercion ty args =>
      have hargs : ∀ e ∈ args, Evaluates ctx e := hop
      rw [Evaluates, evaluate, evaluateList_eq hargs, Expr.evaluate]
      exact convert_returns ..
  | binding names body =>
      rw [Evaluates, evaluate, Expr.evaluate]
      exact hop body (by simp [operands, children])
  | reference name bound =>
      rw [Evaluates, evaluate, Expr.evaluate]
      exact hop bound List.mem_cons_self
  | item ty index input =>
      rw [Evaluates, evaluate, hop index (by simp [operands, children]),
        hop input (by simp [operands, children]), Expr.evaluate]
      exact item_returns ..
  | membership ty needle haystack =>
      rw [Evaluates, evaluate, hop needle (by simp [operands, children]),
        hop haystack (by simp [operands, children]), Expr.evaluate]
      rfl
  | position ty needle haystack start =>
      have hstart : ∀ e ∈ start, Evaluates ctx e := fun e he =>
        hop e (by simp [operands, children, Option.mem_def.1 he])
      rw [Evaluates, evaluate, hop needle (by simp [operands, children]),
        hop haystack (by simp [operands, children]), evaluateOption_eq hstart,
        Expr.evaluate]
      exact position_returns ..
  | slice ty input start stop =>
      have hstop : ∀ e ∈ stop, Evaluates ctx e := fun e he =>
        hop e (by simp [operands, children, Option.mem_def.1 he])
      rw [Evaluates, evaluate, hop input (by simp [operands, children]),
        hop start (by simp [operands, children]), evaluateOption_eq hstop,
        Expr.evaluate]
      exact slice_returns ..
  | length ty input =>
      rw [Evaluates, evaluate, hop input (by simp [operands, children]),
        Expr.evaluate]
      rfl
  | conditional ty branches otherwise =>
      have hbranches : ∀ b ∈ branches,
          Evaluates ctx b.1 ∧ Evaluates ctx b.2 := by
        refine fun b hb => ⟨hop b.1 ?_, hop b.2 ?_⟩ <;>
        · simp only [operands, children, List.mem_append, List.mem_flatMap]
          exact .inl ⟨b, hb, by simp⟩
      rw [Evaluates, evaluate, evaluateBranches_eq hbranches,
        hop otherwise (by simp [operands, children]), Expr.evaluate]
      rfl
  | selection ty inputTy input branches otherwise =>
      refine evaluates_selection (hop input (by simp [operands, children]))
        (fun b hb => hop b.2 ?_) (hop otherwise (by simp [operands, children]))
      simp only [operands, children, List.mem_append, List.mem_cons,
        List.mem_map]
      exact .inl (.inr ⟨b, hb, rfl⟩)
  | coalesce ty args =>
      have hargs : ∀ e ∈ args, Evaluates ctx e := hop
      rw [Evaluates, evaluate, evaluateList_eq hargs, Expr.evaluate]
      rfl
  | step ty input stops =>
      have hstops : ∀ s ∈ stops, Evaluates ctx s.2 := fun s hs =>
        hop s.2 (List.mem_cons_of_mem _ (List.mem_map_of_mem hs))
      rw [Evaluates, evaluate, hop input List.mem_cons_self,
        evaluateStops_eq hstops, labels_eq, Expr.evaluate]
      exact step_returns (evaluateStops_ne_nil hobeys.2.1)
  | interpolate ty space kind input stops =>
      have hstops : ∀ s ∈ stops, Evaluates ctx s.2 := fun s hs =>
        hop s.2 (List.mem_cons_of_mem _ (List.mem_map_of_mem hs))
      rw [Evaluates, evaluate, hop input List.mem_cons_self,
        evaluateStops_eq hstops, labels_eq, Expr.evaluate]
      exact interpolate_returns (evaluateStops_ne_nil hobeys.2.1) ..
  | comparison ty op untyped lhs rhs =>
      rw [Evaluates, evaluate, hop lhs (by simp [operands, children]),
        hop rhs (by simp [operands, children]), Expr.evaluate]
      rfl
  | all ty args | any ty args =>
      have hargs : ∀ e ∈ args, Evaluates ctx e := hop
      rw [Evaluates, evaluate, evaluateList_eq hargs, Expr.evaluate]
      rfl
  | globalState ty key => rfl
  | within ty region =>
      rw [Evaluates, evaluate, within_eq, Expr.evaluate]
      rfl
  | distance ty shapes =>
      rw [Evaluates, evaluate, distance_eq, Expr.evaluate]
      rfl
  | compound name ty p impure args => exact evaluates_compound hr hobeys hop

/-! ## Trees -/

theorem evaluates_of_typed (hr : r.Supplies) (he : e.Typed r) :
    Evaluates ctx e := by
  induction e using Expr.induction with
  | step e ih =>
      refine evaluates_of_operands hr (he e .refl) fun c hc => ih c hc ?_
      exact fun p hp => he p (.operand hc hp)

end MapStyle.Checked
