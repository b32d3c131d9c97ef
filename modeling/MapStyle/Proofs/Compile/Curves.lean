import MapStyle.Operator.Standard
import MapStyle.Proofs.Compile.Agreement
import MapStyle.Proofs.Compile.Labels
import MapStyle.Proofs.Curve.Nodes

/-!
# Curves that compile select their stops

What a curve does with its input rests on its labels being in order. The
compiler sees to that: it compares each label of the document with the one
before it, where negative infinity stands before the first label of a step and
goes with the output that has none. So every step and every interpolation that
it makes selects the outputs that a scan of the labels would select
(`curve_selects`), and this does not depend on whether the node is folded or
narrowed afterwards.
-/

namespace MapStyle

namespace Compile

variable {s : Site} {args : List Operand}

/-- The stops of a curve: labels that ascend, and an output for each of them,
which is compiled from an operand. -/
structure StopsFrom (s : Site) (start : Nat) (os : List Operand)
    (labels : List Float) (stops : List (Float × Expr)) : Prop where
  labels_eq : stops.map Prod.fst = labels
  ascend : labels.Pairwise (· < ·)
  outputs : List.Forall₂ (CompiledFrom s) (outputs start os)
    (stops.map Prod.snd)

/-- A node that a curve form makes of its operands, and what it does with its
input. -/
inductive Selects (s : Site) : SpecialForm → List Operand → Expr → Prop where
  | step {input first : Operand} {rest : List Operand} {ty : Ty} {e : Expr}
      {stops : List (Float × Expr)}
      (hinput : input.compileAt s 1 (some .number) = .ok e)
      (hstops : StopsFrom s 1 (input :: first :: rest)
        (-Number.infinity :: stopLabels (rest.map Operand.raw)) stops)
      (hseveral : 2 ≤ stops.length)
      (hselects : Expr.StepSelects ty e stops) :
      Selects s .step (input :: first :: rest) (.step ty e stops)
  | interpolate {raw input : Operand} {rest : List Operand} {ty : Ty}
      {space : ColorSpace} {kind : Interpolation} {e : Expr}
      {stops : List (Float × Expr)}
      (hkind : interpolation s raw.raw = .ok kind)
      (hinput : input.compileAt s 2 (some .number) = .ok e)
      (hstops : StopsFrom s 3 rest (stopLabels (rest.map Operand.raw)) stops)
      (hsome : stops ≠ [])
      (hsingle : ∀ p, stops = [p] → ∀ ctx,
        (Expr.interpolate ty space kind e stops).evaluate ctx =
          p.2.evaluate ctx)
      (hseveral : 2 ≤ stops.length →
        Expr.InterpolateSelects ty space kind e stops) :
      Selects s .interpolate (raw :: input :: rest)
        (.interpolate ty space kind e stops)

theorem stops_ne_nil {name : String} {os : List Operand}
    (hos : 2 ≤ os.length) (i : Nat) (previous : Option Float)
    (ty : Option Ty) : Ensures (fun p => p.1 ≠ [])
      (stops name s i previous ty os) := by
  match os with
  | [] => cases hos
  | [_] => exact absurd hos (by simp)
  | l :: o :: rest =>
      exact .skip fun x => .skip fun e => .skip fun p => .pure nofun

theorem step_selects (hargs : ∀ o ∈ args, o.raw.isProper = true) :
    Ensures (Selects s .step args) (step s args) := by
  intro node hnode
  have hascends := step_ascends hargs node hnode
  have houtputs := (step_outputs node hnode).1
  obtain ⟨_, hpairs, h⟩ := ok_of_bind hnode
  obtain ⟨hleast, -⟩ := expectPairs_ok hpairs
  match args with
  | [] | [_] => cases h
  | input :: first :: rest =>
      have hrest : 2 ≤ rest.length := by
        simp only [List.length_cons] at hleast
        omega
      obtain ⟨e, he, h⟩ := ok_of_bind h
      obtain ⟨output, -, h⟩ := ok_of_bind h
      obtain ⟨⟨more, ty⟩, hmore, h⟩ := ok_of_bind h
      obtain rfl := ok_of_pure h
      have hlabels := (stops_labels "step" _ _ _ _ _ hmore).1
      have hne : more ≠ [] := stops_ne_nil hrest _ _ _ _ hmore
      refine .step he ⟨?_, ?_, houtputs⟩ ?_ (Expr.stepSelects hascends hne)
      · exact congrArg (-Number.infinity :: ·) hlabels
      · rw [← hlabels]
        exact hascends
      · exact Nat.succ_le_succ (List.length_pos_iff.2 hne)

theorem interpolate_selects {name : String}
    (hargs : ∀ o ∈ args, o.raw.isProper = true) :
    Ensures (Selects s .interpolate args) (interpolate name s args) := by
  intro node hnode
  have hascends := interpolate_ascends hargs node hnode
  match args with
  | [] => cases hnode
  | raw :: operands =>
      obtain ⟨kind, hkind, h⟩ := ok_of_bind hnode
      obtain ⟨_, hpairs, h⟩ := ok_of_bind h
      obtain ⟨hleast, heven⟩ := expectPairs_ok hpairs
      match operands with
      | [] => cases h
      | input :: rest =>
          simp only [List.length_cons] at hleast heven
          obtain ⟨e, he, h⟩ := ok_of_bind h
          obtain ⟨⟨stops, ty⟩, hstops, h⟩ := ok_of_bind h
          have hlabels := (stops_labels name _ _ _ _ _ hstops).1
          have hne : stops ≠ [] := stops_ne_nil (by omega) _ _ _ _ hstops
          have houtputs := stops_outputs rest (by omega) _ _ _ _ hstops
          simp only at h
          split at h
          · obtain rfl := ok_of_pure h
            refine .interpolate hkind he ⟨hlabels, ?_, houtputs⟩ hne ?_
              (Expr.interpolateSelects hascends)
            · rw [← hlabels]
              exact hascends
            · rintro p rfl ctx
              exact Expr.evaluate_interpolate_single ctx p
          · cases h

end Compile

namespace Compiler

open Compile

variable {name : String} {f : SpecialForm} {items : List Json} {s : Site}
  {how : Option Narrowing} {e : Expr}

/-- Every curve that compiles selects its stops as a scan of its labels would,
whatever becomes of the node where it stands. -/
theorem curve_selects
    (hname : Registry.standard.lookup name = some (.special name f))
    (hf : f = .step ∨ f = .interpolate)
    (hitems : ∀ raw ∈ items, raw.isProper = true)
    (h : compile { registry := .standard } (.array (.string name :: items)) s
      how = .ok e) :
    ∃ node, finish true s how node = .ok e ∧
      Selects s f (operands { registry := .standard } items) node := by
  rw [compile_form _ hname] at h
  obtain ⟨node, hnode, hfinish⟩ := ok_of_bind h
  have hargs : ∀ o ∈ operands { registry := .standard } items,
      o.raw.isProper = true := by
    rw [operands_eq_map]
    exact List.forall_mem_map.2 hitems
  rcases hf with rfl | rfl
  · exact ⟨node, hfinish, step_selects hargs node hnode⟩
  · exact ⟨node, hfinish, interpolate_selects hargs node hnode⟩

/-- An interpolation over the zoom level, from zero at five to one at ten. -/
def rampItems : List Json :=
  [.array [.string "linear"], .array [.string "zoom"], .number (.integer 5),
    .number (.integer 0), .number (.integer 10), .number (.integer 1)]

/-- What the interpolation compiles to. -/
def rampExpression : Expr :=
  .interpolate .number .rgb .linear (.compound "zoom" .number .zoom false [])
    [(Float.ofInt 5, .literal .number (.number (Float.ofInt 0))),
      (Float.ofInt 10, .literal .number (.number (Float.ofInt 1)))]

theorem compile_rampItems : compile { registry := .standard }
    (.array (.string "interpolate" :: rampItems)) {} none =
      .ok rampExpression := by
  rfl

theorem curve_selects_ramp :
    Registry.standard.lookup "interpolate" =
        some (.special "interpolate" .interpolate) ∧
      (∀ raw ∈ rampItems, raw.isProper = true) ∧
      compile { registry := .standard }
        (.array (.string "interpolate" :: rampItems)) {} none =
          .ok rampExpression ∧
      ∃ node, finish true {} none node = .ok rampExpression ∧
        Selects {} .interpolate
          (operands { registry := .standard } rampItems) node ∧
        node.evaluate { zoom := 15 / 2 } = .ok (.number (1 / 2)) := by
  have hname : Registry.standard.lookup "interpolate" =
    some (.special "interpolate" .interpolate) := rfl
  have hproper : ∀ raw ∈ rampItems, raw.isProper = true := by
    rw [← Json.areProper_iff]
    rfl
  obtain ⟨node, hfinish, hselects⟩ :=
    curve_selects hname (.inr rfl) hproper compile_rampItems
  refine ⟨hname, hproper, compile_rampItems, node, hfinish, hselects, ?_⟩
  obtain rfl := eq_of_finish rfl hfinish rfl
  have hblend : blend (Float.ofInt 0) (Float.ofInt 1)
      (Interpolation.linear.factor (15 / 2) (Float.ofInt 5) (Float.ofInt 10)) =
        1 / 2 := by
    decide +kernel
  cases hselects with
  | interpolate _ _ _ _ _ hseveral =>
      obtain ⟨i, lower, upper, hlower, hupper, -, -, heq⟩ :=
        (hseveral le_rfl).between { zoom := 15 / 2 } (15 / 2) rfl rfl _ _ rfl
          rfl (by decide +kernel) (by decide +kernel)
      -- Only the first of two stops has one after it.
      cases i with
      | zero =>
          cases hlower
          cases hupper
          rw [← hblend]
          exact heq
      | succ i => cases hupper

end Compiler

end MapStyle
