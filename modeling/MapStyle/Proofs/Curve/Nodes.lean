import MapStyle.Expr.Evaluate
import MapStyle.Proofs.Curve.Blend
import MapStyle.Proofs.Curve.Locate
import MapStyle.Proofs.Number.Arithmetic

/-!
# Which outputs a curve looks at

A curve with ascending labels finds the stop of its input as if it compared it
with one label after the other. A step has the output of the greatest label that
the input reaches; an interpolation has that of its first or its last stop where
the input is not between the two, and blends those of two neighbouring stops
where it is (`InterpolateSelects`; what the blend is, `between_numbers` says for
numbers). NaN is in no order with the labels and has no stop.
-/

namespace MapStyle.Expr

variable {ctx : Context} {ty : Ty} {space : ColorSpace} {kind : Interpolation}
  {input : Expr} {stops : List (Float × Expr)} {x : Float} {i : Nat}
  {s : Float × Expr}

/-! ## The outcomes of stops -/

theorem map_fst_evaluateStops (ctx : Context) (stops : List (Float × Expr)) :
    (evaluateStops ctx stops).map Prod.fst = stops.map Prod.fst := by
  rw [evaluateStops_eq_map, List.map_map]
  rfl

theorem length_evaluateStops (ctx : Context) (stops : List (Float × Expr)) :
    (evaluateStops ctx stops).length = stops.length := by
  rw [evaluateStops_eq_map, List.length_map]

theorem getElem?_evaluateStops_eq_some {o : Float × Outcome} :
    (evaluateStops ctx stops)[i]? = some o ↔
      ∃ s, stops[i]? = some s ∧ (s.1, s.2.evaluate ctx) = o := by
  rw [evaluateStops_eq_map, List.getElem?_map, Option.map_eq_some_iff]

/-! ## Steps -/

/-- A step has the output of the last stop that its input reaches. -/
theorem evaluate_step_of_reached
    (hinput : input.evaluate ctx = .ok (.number x))
    (hascends : (stops.map Prod.fst).Pairwise (· < ·))
    (hs : stops[i]? = some s) (hle : s.1 ≤ x)
    (hnext : ∀ n, stops[i + 1]? = some n → x < n.1) :
    (step ty input stops).evaluate ctx = s.2.evaluate ctx := by
  rw [evaluate, hinput]
  refine Semantics.step_eq (i := i) (s := (s.1, s.2.evaluate ctx)) ?_ ?_ hle ?_
  · rw [map_fst_evaluateStops]
    exact hascends
  · exact getElem?_evaluateStops_eq_some.2 ⟨s, hs, rfl⟩
  · intro n hn
    obtain ⟨next, hnext', rfl⟩ := getElem?_evaluateStops_eq_some.1 hn
    exact hnext next hnext'

/-- A curve that `node` makes of stops fails at NaN, whatever its outputs
are. -/
def RefusesNaN (node : List (Float × Expr) → Expr) (input : Expr)
    (labels : List Float) : Prop :=
  ∀ ctx x, input.evaluate ctx = .ok (.number x) → x.isNaN = true →
    ∀ stops, stops.map Prod.fst = labels →
      (node stops).evaluate ctx = .error .inputNotANumber

/-- A step has the output of the greatest label that its input reaches. -/
structure StepSelects (ty : Ty) (input : Expr) (stops : List (Float × Expr)) :
    Prop where
  greatest : ∀ ctx x, input.evaluate ctx = .ok (.number x) → x.isNaN = false →
    ∃ s ∈ stops, s.1 ≤ x ∧ (∀ t ∈ stops, t.1 ≤ x → t.1 ≤ s.1) ∧
      (step ty input stops).evaluate ctx = s.2.evaluate ctx
  refuses : RefusesNaN (step ty input) input (stops.map Prod.fst)

theorem stepSelects {first : Expr} {rest : List (Float × Expr)}
    (h : (((-Number.infinity, first) :: rest).map Prod.fst).Pairwise (· < ·))
    (hrest : rest ≠ []) :
    StepSelects ty input ((-Number.infinity, first) :: rest) where
  greatest ctx x hinput hx := by
    obtain ⟨i, s, hs, hle, hnext⟩ :=
      Curve.exists_last_reached h (Number.neg_infinity_le hx)
    exact ⟨s, List.mem_of_getElem? hs, hle,
      fun t ht => Curve.le_of_reached h hs hle hnext ht,
      evaluate_step_of_reached hinput h hs hle hnext⟩
  refuses ctx x hinput hx stops hstops := by
    rw [evaluate, hinput]
    refine Semantics.step_of_isNaN ?_ hx
    rw [length_evaluateStops, ← List.length_map, hstops, List.map_cons,
      List.length_cons, List.length_map]
    exact Nat.succ_le_succ (List.length_pos_iff.2 hrest)

/-! ## Interpolations -/

/-- The output of an interpolation with several stops, by where its input is. -/
structure InterpolateSelects (ty : Ty) (space : ColorSpace)
    (kind : Interpolation) (input : Expr) (stops : List (Float × Expr)) :
    Prop where
  first : ∀ ctx x, input.evaluate ctx = .ok (.number x) →
    ∀ a, stops.head? = some a → x ≤ a.1 →
      (interpolate ty space kind input stops).evaluate ctx = a.2.evaluate ctx
  last : ∀ ctx x, input.evaluate ctx = .ok (.number x) →
    ∀ z, stops.getLast? = some z → z.1 ≤ x →
      (interpolate ty space kind input stops).evaluate ctx = z.2.evaluate ctx
  between : ∀ ctx x, input.evaluate ctx = .ok (.number x) → x.isNaN = false →
    ∀ a z, stops.head? = some a → stops.getLast? = some z →
      ¬ x ≤ a.1 → ¬ z.1 ≤ x →
      ∃ i lower upper, stops[i]? = some lower ∧ stops[i + 1]? = some upper ∧
        lower.1 ≤ x ∧ x < upper.1 ∧
        (interpolate ty space kind input stops).evaluate ctx =
          Semantics.blendOutputs ty space (kind.factor x lower.1 upper.1)
            (lower.2.evaluate ctx) (upper.2.evaluate ctx)
  refuses : RefusesNaN (interpolate ty space kind input) input
    (stops.map Prod.fst)

/-- A curve of numbers that has a value between two stops has the one that lies
between their outputs, in proportion to the factor. -/
theorem InterpolateSelects.between_numbers
    (h : InterpolateSelects .number space kind input stops) {v : Value}
    {a z : Float × Expr} (hinput : input.evaluate ctx = .ok (.number x))
    (hx : x.isNaN = false) (ha : stops.head? = some a)
    (hz : stops.getLast? = some z) (hlow : ¬ x ≤ a.1) (hhigh : ¬ z.1 ≤ x)
    (hv : (interpolate .number space kind input stops).evaluate ctx = .ok v) :
    ∃ i lower upper p q, stops[i]? = some lower ∧
      stops[i + 1]? = some upper ∧ lower.1 ≤ x ∧ x < upper.1 ∧
      lower.2.evaluate ctx = .ok (.number p) ∧
      upper.2.evaluate ctx = .ok (.number q) ∧
      v = .number (p * (1 - kind.factor x lower.1 upper.1) +
        q * kind.factor x lower.1 upper.1) := by
  obtain ⟨i, lower, upper, hlower, hupper, hle, hlt, heq⟩ :=
    h.between ctx x hinput hx a z ha hz hlow hhigh
  obtain ⟨p, q, hp, hq, hblend⟩ :=
    Semantics.blendOutputs_number_eq_ok.1 (heq.symm.trans hv)
  exact ⟨i, lower, upper, p, q, hlower, hupper, hle, hlt, hp, hq, hblend⟩

/-- An interpolation with one stop does not look at its input. -/
theorem evaluate_interpolate_single (ctx : Context) (s : Float × Expr) :
    (interpolate ty space kind input [s]).evaluate ctx = s.2.evaluate ctx := by
  rw [evaluate]
  rfl

theorem interpolateSelects (h : (stops.map Prod.fst).Pairwise (· < ·))
    (hstops : 2 ≤ stops.length) :
    InterpolateSelects ty space kind input stops where
  first ctx x hinput a ha hlow := by
    rw [evaluate, hinput]
    refine Semantics.interpolate_first (a := (a.1, a.2.evaluate ctx)) ?_ ?_ hlow
    · rwa [length_evaluateStops]
    · rw [evaluateStops_eq_map, List.head?_map, ha]
      rfl
  last ctx x hinput z hz hhigh := by
    rw [evaluate, hinput]
    refine Semantics.interpolate_last (a := (z.1, z.2.evaluate ctx)) ?_ ?_ ?_
      hhigh
    · rwa [map_fst_evaluateStops]
    · rwa [length_evaluateStops]
    · rw [evaluateStops_eq_map, List.getLast?_map, hz]
      rfl
  between ctx x hinput hx a z ha hz hlow hhigh := by
    have hfirst : (evaluateStops ctx stops).head? =
        some (a.1, a.2.evaluate ctx) := by
      rw [evaluateStops_eq_map, List.head?_map, ha]
      rfl
    have hlast : (evaluateStops ctx stops).getLast? =
        some (z.1, z.2.evaluate ctx) := by
      rw [evaluateStops_eq_map, List.getLast?_map, hz]
      rfl
    obtain ⟨i, _, _, hi, hi', hle, hlt, heq⟩ :=
      Semantics.interpolate_between ty space kind
        ((map_fst_evaluateStops ctx stops).symm ▸ h)
        ((length_evaluateStops ctx stops).symm ▸ hstops) hfirst hlast hlow hhigh
        hx
    obtain ⟨lower, hlower, rfl⟩ := getElem?_evaluateStops_eq_some.1 hi
    obtain ⟨upper, hupper, rfl⟩ := getElem?_evaluateStops_eq_some.1 hi'
    refine ⟨i, lower, upper, hlower, hupper, hle, hlt, ?_⟩
    rw [evaluate, hinput, heq]
  refuses ctx x hinput hx others hothers := by
    rw [evaluate, hinput]
    refine Semantics.interpolate_of_isNaN ?_ hx
    rwa [length_evaluateStops, ← List.length_map, hothers, List.length_map]

end MapStyle.Expr
