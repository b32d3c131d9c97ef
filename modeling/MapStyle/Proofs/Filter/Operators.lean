import MapStyle.Proofs.Compile.Yields
import MapStyle.Proofs.Filter.Compilation
import MapStyle.Proofs.Filter.LegacyFilter
import MapStyle.Proofs.Filter.Membership

/-!
# What the operators of legacy filters test

Legacy filters are expressed in operators of their own, applied to literals.
For each form that a leaf of a filter can take there is a lemma here that says
which test of the feature it yields, in the terms of the direct meaning of
filters.
-/

namespace MapStyle

/-! ## Scalars and their values -/

theorem Value.equals_comm (v w : Value) : v.equals w = w.equals v := by
  cases v with
  | number x =>
      cases w with
      | number y => exact Number.beq_comm x y
      | _ => rfl
  | boolean a =>
      cases w with
      | boolean b => exact BEq.comm
      | _ => rfl
  | string s =>
      cases w with
      | string t => exact BEq.comm
      | _ => rfl
  | _ => cases w <;> rfl

namespace Comparator

variable {op : Comparator}

theorem relates_number (h : op.isOrdering = true) (x y : Float) :
    op.relates x y = (Number.order x y).any op.holds := by
  rw [Bool.eq_iff_iff]
  have hlt := Number.lt_iff_order x y
  have hgt := Number.gt_iff_order x y
  have heq := Number.beq_iff_order x y
  cases op with
  | eq | ne => cases h
  | _ =>
      simp only [relates, Bool.or_eq_true, decide_eq_true_eq, hlt, hgt, heq]
      cases Number.order x y with
      | none => simp
      | some o => cases o <;> simp [holds]

theorem relates_string (h : op.isOrdering = true) (s t : String) :
    op.relates s t = op.holds (compareOfLessAndEq s t) := by
  cases op with
  | eq | ne => cases h
  | _ =>
      rcases lt_trichotomy s t with hst | rfl | hst
      · have hc : compareOfLessAndEq s t = .lt := if_pos hst
        simp [relates, holds, hc, hst, hst.not_gt, hst.ne]
      · simp [relates, holds, compareOfLessAndEq]
      · simp [relates, holds, compareOfLessAndEq, hst, hst.not_gt, hst.ne']

end Comparator

namespace Scalar

theorem equals_eq (v : Scalar) :
    v.equals = fun p => p.equals (.ofJson v.toJson) := by
  funext p
  cases v <;> cases p <;> rfl

/-- Membership among the values that scalars stand for. -/
theorem any_equals (vs : List Scalar) (p : Value) :
    ((vs.map toJson).map Value.ofJson).any (·.equals p) =
      vs.any (·.equals p) := by
  rw [List.map_map, List.any_map]
  refine congrArg vs.any (funext fun v => ?_)
  rw [v.equals_eq]
  exact Value.equals_comm _ p

theorem exists_strings {vs : List Scalar} (h : ∀ v ∈ vs, v.isString = true) :
    ∃ names : List String, vs = names.map .string := by
  induction vs with
  | nil => exact ⟨[], rfl⟩
  | cons v vs ih =>
      obtain ⟨names, rfl⟩ := ih fun w hw => h w (List.mem_cons_of_mem v hw)
      have hv := h v List.mem_cons_self
      cases v with
      | string s => exact ⟨s :: names, rfl⟩
      | _ => cases hv

theorem proper_of_mem {vs : List Scalar} : ∀ j ∈ vs.map toJson, ∀ x,
    j.number? = some x → x.isNaN = false := by
  intro j hj x hx
  obtain ⟨v, -, rfl⟩ := List.mem_map.1 hj
  cases v with
  | number n proper =>
      obtain rfl : n.toFloat = x := Option.some_inj.1 hx
      exact proper
  | _ => cases hx

theorem orders_eq {op : Comparator} (h : op.isOrdering = true) (v : Scalar) :
    v.orders op =
      fun p => (p.compare? (.ofJson v.toJson)).any op.holds := by
  funext p
  cases v with
  | null => cases p <;> rfl
  | boolean b =>
      cases p with
      | boolean a =>
        cases op with
        | eq | ne => cases h
        | _ => cases a <;> cases b <;> rfl
      | _ => rfl
  | number n =>
      cases p with
      | number x =>
          show op.relates x n.toFloat = _
          rw [Comparator.relates_number h, ← Ranking.compare?_number]
          rfl
      | _ => rfl
  | string s =>
      cases p with
      | string t => exact Comparator.relates_string h t s
      | _ => rfl

end Scalar

namespace Filter

open Compiler

/-! ## Operands -/

theorem yields_key (key : String) :
    compiler.Yields .string (.string key) fun _ => .string key :=
  yields_scalar rfl rfl (by simp) rfl

theorem yields_value (v : Scalar) :
    compiler.Yields .value v.toJson fun _ => .ofJson v.toJson := by
  cases v <;> exact yields_scalar rfl rfl (by simp) (Ty.value_accepts _)

theorem tests_operator {name : String} {op : CompoundOperator Primitive}
    {primitive : Primitive} {tys : List Ty} {raws : List Json}
    {fs : List (Context → Value)} {m : Context → Bool}
    (hlookup : Registry.standard.lookup name = some (.compound op))
    (hsignature : (op.signatures.filter fun o =>
      o.params.acceptsCount raws.length) = [⟨.fixed tys, primitive⟩])
    (houtput : op.output = .boolean) (hargs : compiler.AllYield tys raws fs)
    (hm : ∀ ctx, primitive.apply ctx (fs.map fun f => .ok (f ctx)) =
      .ok (.boolean (m ctx))) : compiler.Tests (apply name raws) m :=
  yields_compound hlookup hsignature hargs (by simp) (by simp [houtput])
    (by rw [houtput]; rfl) hm

/-! ## Comparisons -/

variable (key : String) (v : Scalar)

theorem tests_propertyEquals :
    compiler.Tests (apply "filter-==" [.string key, v.toJson])
      fun ctx => (ctx.property? key).any v.equals := by
  refine tests_operator rfl rfl rfl
    (.cons (yields_key key) (.cons (yields_value v) .nil)) fun ctx => ?_
  rw [v.equals_eq]
  rfl

theorem tests_idEquals :
    compiler.Tests (apply "filter-id-==" [v.toJson])
      fun ctx => v.equals ctx.id := by
  refine tests_operator rfl rfl rfl (.cons (yields_value v) .nil) fun ctx => ?_
  rw [v.equals_eq]
  rfl

theorem tests_kindEquals :
    compiler.Tests (apply "filter-type-==" [.string key])
      fun ctx => ctx.kind?.any (·.name == key) :=
  tests_operator rfl rfl rfl (.cons (yields_key key) .nil) fun _ => rfl

theorem tests_propertyCompares {op : Comparator} (h : op.isOrdering = true) :
    compiler.Tests (apply ("filter-" ++ op.symbol) [.string key, v.toJson])
      fun ctx => (ctx.property? key).any (v.orders op) := by
  have hlookup : Registry.standard.lookup ("filter-" ++ op.symbol) =
      some (.compound (Registry.simple ("filter-" ++ op.symbol)
        [.string, .value] .boolean (.propertyCompares op))) := by
    cases op with
    | eq | ne => cases h
    | _ => rfl
  refine tests_operator hlookup rfl rfl
    (.cons (yields_key key) (.cons (yields_value v) .nil)) fun ctx => ?_
  rw [v.orders_eq h]
  rfl

/-! ## Presence -/

theorem tests_propertyPresent :
    compiler.Tests (apply "filter-has" [.string key])
      fun ctx => (ctx.property? key).isSome :=
  tests_operator rfl rfl rfl (.cons (yields_value (.string key)) .nil)
    fun _ => rfl

theorem tests_idPresent :
    compiler.Tests (apply "filter-has-id" []) fun ctx => !ctx.id.isNull :=
  tests_operator rfl rfl rfl .nil fun _ => rfl

/-- The presence of a property in the grammar of expressions. -/
theorem tests_hasProperty :
    compiler.Tests (apply "has" [.string key])
      fun ctx => (ctx.property? key).isSome :=
  tests_operator rfl rfl rfl (.cons (yields_key key) .nil) fun _ => rfl

/-! ## Membership -/

/-- A list of values as an operand. -/
def literals (js : List Json) : Json := apply "literal" [.array js]

theorem yields_literals {js : List Json} (hjs : js ≠ []) :
    compiler.Yields .anyArray (literals js)
      fun _ => .array (js.map Value.ofJson) :=
  yields_list rfl hjs (Value.accepts_array_iff.2 ⟨.inl rfl, .inl rfl⟩)

variable {vs : List Scalar}

theorem tests_propertyIn (hvs : vs ≠ []) :
    compiler.Tests (apply "filter-in-small"
        [.string key, literals (vs.map Scalar.toJson)])
      fun ctx => (ctx.property? key).any fun p => vs.any (·.equals p) := by
  have hjs : vs.map Scalar.toJson ≠ [] := by simpa using hvs
  refine tests_operator rfl rfl rfl
    (.cons (yields_key key) (.cons (yields_literals hjs) .nil)) fun ctx => ?_
  simp only [← Scalar.any_equals]
  rfl

/-- The search in the sorted list is the look at all values. -/
theorem tests_propertyInSorted (hvs : vs ≠ [])
    (hkind : areOfOneKind (vs.map Scalar.toJson) = true) :
    compiler.Tests (apply "filter-in-large"
        [.string key, literals (sortValues (vs.map Scalar.toJson))])
      fun ctx => (ctx.property? key).any fun p => vs.any (·.equals p) := by
  have hjs : sortValues (vs.map Scalar.toJson) ≠ [] := by
    intro hnil
    have hlength := congrArg List.length hnil
    rw [sortValues, List.length_mergeSort, List.length_map] at hlength
    exact hvs (List.length_eq_zero_iff.1 hlength)
  refine tests_operator rfl rfl rfl
    (.cons (yields_key key) (.cons (yields_literals hjs) .nil)) fun ctx => ?_
  simp only [← Scalar.any_equals, ← Value.isInSorted_sortValues hkind
    Scalar.proper_of_mem]
  rfl

theorem tests_idIn (hvs : vs ≠ []) :
    compiler.Tests (apply "filter-id-in" [literals (vs.map Scalar.toJson)])
      fun ctx => vs.any (·.equals ctx.id) := by
  have hjs : vs.map Scalar.toJson ≠ [] := by simpa using hvs
  refine tests_operator rfl rfl rfl (.cons (yields_literals hjs) .nil)
    fun ctx => ?_
  simp only [← Scalar.any_equals]
  rfl

theorem tests_kindIn (hvs : vs ≠ []) (hstring : ∀ v ∈ vs, v.isString = true) :
    compiler.Tests (apply "filter-type-in" [literals (vs.map Scalar.toJson)])
      fun ctx => ctx.kind?.any fun k => vs.any (·.equals (.string k.name)) := by
  have hjs : vs.map Scalar.toJson ≠ [] := by simpa using hvs
  obtain ⟨names, rfl⟩ := Scalar.exists_strings hstring
  have hty : ∀ v ∈ ((names.map Scalar.string).map Scalar.toJson).map
      Value.ofJson, v.type = .string := by
    intro v hv
    rw [List.map_map, List.map_map] at hv
    obtain ⟨name, -, rfl⟩ := List.mem_map.1 hv
    rfl
  have hany (name : String) :
      (((names.map Scalar.string).map Scalar.toJson).map Value.ofJson).any
        (fun v => v.string? == some name) =
      (names.map Scalar.string).any (·.equals (.string name)) := by
    rw [List.map_map, List.map_map, List.any_map, List.any_map]
    exact congrArg names.any (funext fun s => BEq.comm)
  refine tests_operator rfl rfl rfl (.cons (yields_list rfl hjs ?_) .nil)
    fun ctx => ?_
  · exact Value.accepts_array_iff.2 ⟨.inr ⟨.string, rfl, hty⟩, .inl rfl⟩
  · simp only [← hany]
    rfl

end Filter

end MapStyle
