import MapStyle.Proofs.Compile.Curves
import MapStyle.Proofs.Curve.Interpolant

/-!
# Linear interpolations that compile

A linear interpolation between numbers is the curve through its stops, and what
it computes with doubles is that curve computed with doubles. Read exactly, with
the labels that the compiler has accepted, the curve is the piecewise linear
interpolant of its stops, whatever its outputs are (`linear_interpolant`).
-/

namespace MapStyle

namespace Expr

/-- The values of the labels of a curve. They are exact, for no label is
infinite. -/
def exactLabels (stops : List (Float × Expr)) : List ℚ :=
  stops.map fun s => Number.value s.1

/-- A linear interpolation between numbers is the curve through its stops, and
the exact curve interpolates them. -/
structure LinearCurve (space : ColorSpace) (input : Expr)
    (stops : List (Float × Expr)) : Prop where
  outcome : ∀ ctx x ys, input.evaluate ctx = .ok (.number x) →
    List.Forall₂ (fun s y => s.2.evaluate ctx = .ok (.number y)) stops ys →
    (interpolate .number space .linear input stops).evaluate ctx =
      match Curve.linear? ((stops.map Prod.fst).zip ys) x with
      | some y => .ok (.number y)
      | none => .error .inputNotANumber
  interpolates : ∀ ys : List ℚ, ys.length = stops.length →
    Curve.Interpolant ((exactLabels stops).zip ys)
      (Curve.linear? ((exactLabels stops).zip ys))

variable {ctx : Context} {stops : List (Float × Expr)} {ys : List Float}

/-- Stops whose outputs are the given numbers have them as outcomes. -/
theorem outcomes_of_numbers
    (h : List.Forall₂ (fun s y => s.2.evaluate ctx = .ok (.number y)) stops ys) :
    List.Forall₂ (SameKey Semantics.IsNumber)
      ((stops.map Prod.fst).zip ys) (evaluateStops ctx stops) := by
  rw [evaluateStops_eq_map]
  induction h with
  | nil => exact .nil
  | cons hs _ ih => exact .cons ⟨rfl, hs⟩ ih

theorem exactLabels_ascend (h : (stops.map Prod.fst).Pairwise (· < ·))
    (hfinite : ∀ s ∈ stops, s.1.isFinite = true) :
    (exactLabels stops).Pairwise (· < ·) := by
  rw [exactLabels, List.pairwise_map]
  exact (List.pairwise_map.1 h).imp_of_mem fun hs ht hlt =>
    (Number.lt_iff_value (hfinite _ hs) (hfinite _ ht)).1 hlt

theorem linearCurve {space : ColorSpace} {input : Expr} (hstops : stops ≠ [])
    (h : (stops.map Prod.fst).Pairwise (· < ·))
    (hfinite : ∀ s ∈ stops, s.1.isFinite = true) :
    LinearCurve space input stops where
  outcome ctx x ys hinput hys := by
    have houtcomes := outcomes_of_numbers hys
    have hsome : (stops.map Prod.fst).zip ys ≠ [] := by
      intro hnil
      rw [hnil, List.forall₂_nil_left_iff, evaluateStops_eq_map,
        List.map_eq_nil_iff] at houtcomes
      exact hstops houtcomes
    rw [evaluate, hinput]
    exact Semantics.interpolate_eq space hsome houtcomes x
  interpolates ys hlength := by
    have hlabels : ((exactLabels stops).zip ys).map Prod.fst =
        exactLabels stops := by
      refine List.map_fst_zip ?_
      rw [exactLabels, List.length_map, hlength]
    refine Curve.interpolant_linear? ?_ ?_
    · rw [hlabels]
      exact exactLabels_ascend h hfinite
    · intro hnil
      rw [hnil, List.map_nil] at hlabels
      exact hstops (List.map_eq_nil_iff.1 hlabels.symm)

end Expr

namespace Compile

theorem mem_stopLabels {raws : List Json} {x : Float}
    (h : x ∈ stopLabels raws) : ∃ raw ∈ raws, raw.number? = some x := by
  match raws with
  | [] | [_] => cases h
  | label :: output :: rest =>
      rw [stopLabels, List.mem_append, Option.mem_toList] at h
      rcases h with h | h
      · exact ⟨label, by simp, h⟩
      · obtain ⟨raw, hraw, hx⟩ := mem_stopLabels h
        exact ⟨raw, by simp [hraw], hx⟩

end Compile

namespace Compiler

open Compile

variable {name : String} {items : List Json} {s : Site}
  {how : Option Narrowing} {e : Expr}

/-- Every linear interpolation between numbers that compiles is the curve
through its stops, and read exactly it is their piecewise linear interpolant. -/
theorem linear_interpolant
    (hname : Registry.standard.lookup name = some (.special name .interpolate))
    (hitems : ∀ raw ∈ items, raw.isProper = true)
    (hfinite : ∀ raw ∈ items, ∀ x, raw.number? = some x → x.isFinite = true)
    (h : compile { registry := .standard } (.array (.string name :: items)) s
      how = .ok e) :
    ∃ ty space kind input stops,
      finish true s how (.interpolate ty space kind input stops) = .ok e ∧
      Selects s .interpolate (operands { registry := .standard } items)
        (.interpolate ty space kind input stops) ∧
      (ty = .number → kind = .linear →
        Expr.LinearCurve space input stops) := by
  rw [compile_form _ hname] at h
  obtain ⟨node, hnode, hfinish⟩ := ok_of_bind h
  have hargs : ∀ o ∈ operands { registry := .standard } items,
      o.raw.isProper = true := by
    rw [operands_eq_map]
    exact List.forall_mem_map.2 hitems
  have hselects := interpolate_selects hargs node hnode
  have hraws := raws_operands { registry := .standard } items
  generalize operands { registry := .standard } items = os at hselects hraws ⊢
  have hmade := hselects
  cases hselects with
  | interpolate _ _ hstops hsome =>
      refine ⟨_, _, _, _, _, hfinish, hmade, fun _ _ => ?_⟩
      refine Expr.linearCurve hsome (hstops.labels_eq ▸ hstops.ascend) ?_
      intro stop hstop
      have hlabel := List.mem_map_of_mem (f := Prod.fst) hstop
      rw [hstops.labels_eq] at hlabel
      obtain ⟨raw, hraw, hx⟩ := mem_stopLabels hlabel
      refine hfinite raw ?_ _ hx
      rw [← hraws]
      exact List.mem_cons_of_mem _ (List.mem_cons_of_mem _ hraw)

/-- A curve over the zoom level that falls and rises: ten at zero, zero at five
and twenty at ten. -/
def valleyItems : List Json :=
  [.array [.string "linear"], .array [.string "zoom"], .number (.integer 0),
    .number (.integer 10), .number (.integer 5), .number (.integer 0),
    .number (.integer 10), .number (.integer 20)]

/-- What the interpolation compiles to. -/
def valleyExpression : Expr :=
  .interpolate .number .rgb .linear (.compound "zoom" .number .zoom false [])
    [(Float.ofInt 0, .literal .number (.number (Float.ofInt 10))),
      (Float.ofInt 5, .literal .number (.number (Float.ofInt 0))),
      (Float.ofInt 10, .literal .number (.number (Float.ofInt 20)))]

theorem compile_valleyItems : compile { registry := .standard }
    (.array (.string "interpolate" :: valleyItems)) {} none =
      .ok valleyExpression := by
  rfl

theorem linear_interpolant_valley :
    Registry.standard.lookup "interpolate" =
        some (.special "interpolate" .interpolate) ∧
      (∀ raw ∈ valleyItems, raw.isProper = true) ∧
      (∀ raw ∈ valleyItems, ∀ x, raw.number? = some x → x.isFinite = true) ∧
      compile { registry := .standard }
        (.array (.string "interpolate" :: valleyItems)) {} none =
          .ok valleyExpression ∧
      ∃ ty space kind input stops,
        finish true {} none (.interpolate ty space kind input stops) =
          .ok valleyExpression ∧
        Selects {} .interpolate
          (operands { registry := .standard } valleyItems)
          (.interpolate ty space kind input stops) ∧
        (ty = .number → kind = .linear →
          Expr.LinearCurve space input stops) ∧
        (Expr.interpolate ty space kind input stops).evaluate { zoom := 8 } =
          .ok (.number 12) := by
  have hname : Registry.standard.lookup "interpolate" =
    some (.special "interpolate" .interpolate) := rfl
  have hproper : ∀ raw ∈ valleyItems, raw.isProper = true := by
    rw [← Json.areProper_iff]
    rfl
  have hfinite : ∀ raw ∈ valleyItems, ∀ x, raw.number? = some x →
      x.isFinite = true := by
    have hall : valleyItems.all (fun raw => raw.number?.all Float.isFinite) =
      true := rfl
    intro raw hraw x hx
    have hnumber := List.all_eq_true.1 hall raw hraw
    rw [hx] at hnumber
    exact hnumber
  obtain ⟨ty, space, kind, input, stops, hfinish, hselects, hcurve⟩ :=
    linear_interpolant hname hproper hfinite compile_valleyItems
  refine ⟨hname, hproper, hfinite, compile_valleyItems, ty, space, kind, input,
    stops, hfinish, hselects, hcurve, ?_⟩
  have hblend : Curve.linear? [(Float.ofInt 0, Float.ofInt 10),
      (Float.ofInt 5, Float.ofInt 0), (Float.ofInt 10, Float.ofInt 20)] 8 =
        some 12 := by
    decide +kernel
  cases eq_of_finish rfl hfinish rfl
  refine ((hcurve rfl rfl).outcome { zoom := 8 } 8
    [Float.ofInt 10, Float.ofInt 0, Float.ofInt 20] rfl ?_).trans ?_
  · exact .cons rfl (.cons rfl (.cons rfl .nil))
  · simp only [List.map_cons, List.map_nil, List.zip_cons_cons,
      List.zip_nil_right, hblend]

end Compiler

end MapStyle
