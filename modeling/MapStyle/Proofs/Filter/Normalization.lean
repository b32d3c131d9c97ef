import MapStyle.Filter.Legacy

/-!
# Normalisation is done in one step

A filter is normalised before it is compiled, and what comes out has to be in
the grammar of expressions, or compiling would read it another way than
conversion meant it. Conversion is total, so this is claimed of any document.

What can go wrong is in the heads. Conversion puts most of what it makes under
heads that legacy filters do not have (`filter-==`, `!` and their kin), and
these are expressions whatever their operands are. The two others are `all` and
`any`, which belong to both grammars: they are expressions only if all their
operands are, and their operands are conversions again. So the induction is on
the nesting of combinations, and everything else is a look at one head.
-/

namespace MapStyle.Filter

/-! ## Expressions -/

theorem areExpressions_iff {fs : List Json} :
    areExpressions fs = true ↔ ∀ f ∈ fs, isExpression f = true := by
  induction fs with
  | nil => simp [areExpressions]
  | cons f fs ih => simp [areExpressions, ih]

/-- The heads of which the operands decide to which grammar they belong. -/
def sharedHeads : List String :=
  ["has", "in", "!in", "!has", "none", "any", "all"] ++ comparisonHeads

/-- An application of an operator that only expressions have. -/
theorem isExpression_apply {op : String} (hop : op ∉ sharedHeads)
    (args : List Json) : isExpression (apply op args) = true := by
  have hcomparison : op ∉ comparisonHeads :=
    fun hmem => hop (List.mem_append_right _ hmem)
  have hother : op ∉ ["has", "in", "!in", "!has", "none", "any", "all"] :=
    fun hmem => hop (List.mem_append_left _ hmem)
  simp only [List.mem_cons, List.not_mem_nil, or_false, not_or] at hother
  obtain ⟨hhas, hin, hnotIn, hnotHas, hnone, hany, hall⟩ := hother
  simp [apply, isExpression, hhas, hin, hnotIn, hnotHas, hnone, hany, hall,
    hcomparison]

theorem isExpression_connective {op : String} (hop : op = "any" ∨ op = "all")
    {args : List Json} (hargs : ∀ f ∈ args, isExpression f = true) :
    isExpression (apply op args) = true := by
  have hargs := areExpressions_iff.2 hargs
  rcases hop with rfl | rfl
  · exact hargs
  · exact hargs

/-! ## What conversion makes -/

theorem isExpression_negate (f : Json) : isExpression (negate f) = true :=
  isExpression_apply (by decide) [f]

theorem isExpression_equality (field value : Json) :
    isExpression (equality field value) = true := by
  unfold equality
  split
  · exact isExpression_apply (by decide) _
  · exact isExpression_apply (by decide) _
  · exact isExpression_apply (by decide) _

theorem isExpression_presence (field : Json) :
    isExpression (presence field) = true := by
  unfold presence
  split
  · rfl
  · exact isExpression_apply (by decide) _
  · exact isExpression_apply (by decide) _

theorem isExpression_membership (field : Json) (values : List Json) :
    isExpression (membership field values) = true := by
  unfold membership
  simp only
  split
  · rfl
  · split
    · exact isExpression_apply (by decide) _
    · exact isExpression_apply (by decide) _
    · split
      · exact isExpression_apply (by decide) _
      · exact isExpression_apply (by decide) _

/-- A comparison under the head that it has as an expression. -/
theorem isExpression_comparison {op : String} (hop : op ∈ comparisonHeads)
    (args : List Json) : isExpression (apply ("filter-" ++ op) args) = true := by
  have hheads : ∀ op ∈ comparisonHeads, "filter-" ++ op ∉ sharedHeads := by
    decide
  exact isExpression_apply (hheads op hop) args

mutual

/-- Conversion makes an expression of any document. -/
theorem isExpression_express : ∀ f : Json, isExpression (express f) = true
  | .null | .boolean _ | .number _ | .string _ | .object _ => rfl
  | .array [] | .array [_] => by simp [express, isExpression]
  | .array (.null :: _ :: _) | .array (.boolean _ :: _ :: _)
  | .array (.number _ :: _ :: _) | .array (.array _ :: _ :: _)
  | .array (.object _ :: _ :: _) => rfl
  | .array (.string op :: field :: rest) => by
      have hfield := isExpression_express field
      have hrest := isExpression_of_mem_expressAll rest
      -- The cases are the heads in the order in which conversion tests them.
      rw [express]
      split
      · exact isExpression_equality field _
      split
      · exact isExpression_negate _
      split
      · next h => exact isExpression_comparison (List.contains_iff_mem.1 h) _
      split
      · next h =>
          have hop : op = "any" ∨ op = "all" := by simpa using h
          exact isExpression_connective hop
            (List.forall_mem_cons.2 ⟨hfield, hrest⟩)
      split
      · refine isExpression_connective (.inr rfl) ?_
        intro f hf
        rcases List.mem_cons.1 hf with rfl | hf
        · exact isExpression_negate _
        · obtain ⟨g, -, rfl⟩ := List.mem_map.1 hf
          exact isExpression_negate g
      split
      · exact isExpression_membership field rest
      split
      · exact isExpression_negate _
      split
      · exact isExpression_presence field
      split
      · exact isExpression_negate _
      · rfl

theorem isExpression_of_mem_expressAll : ∀ fs : List Json,
    ∀ f ∈ expressAll fs, isExpression f = true
  | [] => by simp [expressAll]
  | f :: fs => by
      rw [expressAll, List.forall_mem_cons]
      exact ⟨isExpression_express f, isExpression_of_mem_expressAll fs⟩

end

/-! ## Normalisation -/

theorem toExpression_of_isExpression {f : Json} (h : isExpression f = true) :
    toExpression f = f := by
  unfold toExpression
  rw [if_pos h]
  cases f with
  | null => cases h
  | _ => rfl

theorem toExpression_of_not_isExpression {f : Json}
    (h : isExpression f = false) : toExpression f = express f := by
  unfold toExpression
  rw [if_neg (Bool.eq_false_iff.1 h)]
  cases f <;> rfl

theorem isExpression_of_toExpression (f : Json) :
    isExpression (toExpression f) = true := by
  cases h : isExpression f with
  | true => rwa [toExpression_of_isExpression h]
  | false =>
      rw [toExpression_of_not_isExpression h]
      exact isExpression_express f

/-- Whatever document is normalised becomes an expression, normalising it again
changes nothing, and nothing but an expression is left as it is. -/
theorem toExpression_settles (f : Json) :
    isExpression (toExpression f) = true ∧
      toExpression (toExpression f) = toExpression f ∧
      (toExpression f = f ↔ isExpression f = true) := by
  have hexpression := isExpression_of_toExpression f
  refine ⟨hexpression, toExpression_of_isExpression hexpression, ?_, ?_⟩
  · intro hfixed
    rwa [hfixed] at hexpression
  · exact toExpression_of_isExpression

end MapStyle.Filter
