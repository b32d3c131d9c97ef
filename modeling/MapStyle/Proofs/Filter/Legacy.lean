import MapStyle.Proofs.Filter.Operators

/-!
# Legacy filters keep their meaning

Every legacy filter compiles, and the compiled filter passes exactly the
features for which the legacy filter holds.

A filter reaches the compiler in one of two forms. If all its leaves belong to
the grammar of expressions as well, it is compiled as it stands; otherwise it is
expressed by the operators of legacy filters, down to the leaves, those
included that would have been expressions by themselves. Both forms are shown to
test what the filter means, each by induction on the filter.
-/

namespace MapStyle

namespace Filter

open Compiler LegacyFilter

/-! ## Fields -/

theorem any_kind (ctx : Context) (test : Value → Bool) :
    (field? ctx "$type").any test =
      ctx.kind?.any fun kind => test (.string kind.name) := by
  rw [field?, if_pos rfl, Option.any_map]

section Fields

variable {key : String} (htype : key ≠ "$type") (hid : key ≠ "$id")
include htype hid

theorem field?_property (ctx : Context) :
    field? ctx key = ctx.property? key := by
  rw [field?, if_neg htype, if_neg hid]

theorem hasField_property (ctx : Context) :
    hasField ctx key = (ctx.property? key).isSome := by
  rw [hasField, if_neg htype, if_neg hid]

theorem equality_property (value : Json) :
    equality (.string key) value =
      apply "filter-==" [.string key, value] := by
  unfold equality
  split
  · next heq => exact absurd (Option.some_inj.1 heq) htype
  · next heq => exact absurd (Option.some_inj.1 heq) hid
  · rfl

theorem presence_property :
    presence (.string key) = apply "filter-has" [.string key] := by
  unfold presence
  split
  · next heq => exact absurd (Option.some_inj.1 heq) htype
  · next heq => exact absurd (Option.some_inj.1 heq) hid
  · rfl

theorem membership_property {values : List Json} (hvalues : values ≠ []) :
    membership (.string key) values =
      if largeMembership < values.length && areOfOneKind values then
        apply "filter-in-large" [.string key, literals (sortValues values)]
      else apply "filter-in-small" [.string key, literals values] := by
  unfold membership
  rw [if_neg (by simpa using hvalues)]
  split
  · next heq => exact absurd (Option.some_inj.1 heq) htype
  · next heq => exact absurd (Option.some_inj.1 heq) hid
  · rfl

end Fields

/-! ## Leaves as they are expressed -/

theorem tests_negate {raw : Json} {m : Context → Bool}
    (h : compiler.Tests raw m) :
    compiler.Tests (negate raw) fun ctx => !m ctx :=
  tests_operator rfl rfl rfl (.cons h .nil) fun _ => rfl

variable {key : String}

theorem tests_equality {v : Scalar}
    (typed : key = "$type" → v.isString = true) :
    compiler.Tests (equality (.string key) v.toJson)
      fun ctx => (field? ctx key).any v.equals := by
  rcases eq_or_ne key "$type" with rfl | htype
  · cases v with
    | string name =>
        simp only [any_kind]
        exact tests_kindEquals name
    | _ => cases typed rfl
  · rcases eq_or_ne key "$id" with rfl | hid
    · exact tests_idEquals v
    · rw [equality_property htype hid]
      simp only [field?_property htype hid]
      exact tests_propertyEquals key v

theorem tests_presence (key : String) :
    compiler.Tests (presence (.string key)) fun ctx => hasField ctx key := by
  rcases eq_or_ne key "$type" with rfl | htype
  · exact tests_boolean true
  · rcases eq_or_ne key "$id" with rfl | hid
    · exact tests_idPresent
    · rw [presence_property htype hid]
      simp only [hasField_property htype hid]
      exact tests_propertyPresent key

theorem tests_membership {vs : List Scalar}
    (typed : key = "$type" → ∀ v ∈ vs, v.isString = true) :
    compiler.Tests (membership (.string key) (vs.map Scalar.toJson))
      fun ctx => (field? ctx key).any fun p => vs.any (·.equals p) := by
  rcases eq_or_ne vs [] with rfl | hvs
  · have hnone (o : Option Value) :
        (o.any fun p => ([] : List Scalar).any (·.equals p)) = false := by
      cases o <;> rfl
    simp only [hnone]
    exact tests_boolean false
  have hvalues : vs.map Scalar.toJson ≠ [] := by simpa using hvs
  rcases eq_or_ne key "$type" with rfl | htype
  · rw [membership, if_neg (by simpa using hvs)]
    simp only [any_kind]
    exact tests_kindIn hvs (typed rfl)
  · rcases eq_or_ne key "$id" with rfl | hid
    · rw [membership, if_neg (by simpa using hvs)]
      exact tests_idIn hvs
    · rw [membership_property htype hid hvalues]
      simp only [field?_property htype hid]
      split
      · next h =>
          exact tests_propertyInSorted key hvs (Bool.and_eq_true_iff.1 h).2
      · exact tests_propertyIn key hvs

/-! ## Filters as they are expressed -/

theorem tests_negated {raw : Json} {m : Context → Bool}
    (h : compiler.Tests raw m) (negated : Bool) :
    compiler.Tests (if negated then negate raw else raw)
      fun ctx => negated ^^ m ctx := by
  cases negated with
  | true =>
    simp only [Bool.true_xor]
    exact tests_negate h
  | false =>
    simp only [Bool.false_xor]
    exact h

theorem tests_negateAll {raws : List Json} {ms : List (Context → Bool)}
    (h : List.Forall₂ compiler.Tests raws ms) :
    List.Forall₂ compiler.Tests (raws.map negate)
      (ms.map fun m ctx => !m ctx) := by
  rw [List.forall₂_map_left_iff, List.forall₂_map_right_iff]
  exact h.imp fun _ _ => tests_negate

variable {fs : List LegacyFilter} {raws : List Json}

theorem tests_anyHolds (h : List.Forall₂ compiler.Tests raws
    (fs.map fun f ctx => f.holds ctx)) :
    compiler.Tests (apply "any" raws) fun ctx => anyHolds ctx fs := by
  simp only [anyHolds_eq]
  have htests := tests_any rfl h
  simp only [List.any_map, Function.comp_def] at htests
  exact htests

theorem tests_allHold (h : List.Forall₂ compiler.Tests raws
    (fs.map fun f ctx => f.holds ctx)) :
    compiler.Tests (apply "all" raws) fun ctx => allHold ctx fs := by
  simp only [allHold_eq]
  have htests := tests_all rfl h
  simp only [List.all_map, Function.comp_def] at htests
  exact htests

/-- None of the operands holds when the negations of all hold. -/
theorem tests_noneHolds (h : List.Forall₂ compiler.Tests raws
    (fs.map fun f ctx => f.holds ctx)) :
    compiler.Tests (apply "all" (raws.map negate))
      fun ctx => !anyHolds ctx fs := by
  simp only [anyHolds_eq, List.not_any_eq_all_not]
  have htests := tests_all rfl (tests_negateAll h)
  simp only [List.all_map, Function.comp_def] at htests
  exact htests

mutual

theorem tests_express : ∀ f : LegacyFilter,
    compiler.Tests (express f.toJson) fun ctx => f.holds ctx
  | .equality negated key value typed => by
      have h := tests_negated (tests_equality typed) negated
      cases negated with
      | true => exact h
      | false => exact h
  | .ordering op horders key value => by
      have h := tests_propertyCompares key value horders
      cases op with
      | eq | ne => cases horders
      | _ => exact h
  | .membership negated key values typed => by
      have h := tests_negated (tests_membership typed) negated
      cases negated with
      | true => exact h
      | false => exact h
  | .presence negated key => by
      have h := tests_negated (tests_presence key) negated
      cases negated with
      | true => exact h
      | false => exact h
  | .any fs => by
      have h := tests_anyHolds (tests_expressAll fs)
      -- Without operands a connective is expressed by its value.
      cases fs with
      | nil => exact tests_boolean false
      | cons f fs => exact h
  | .all fs => by
      have h := tests_allHold (tests_expressAll fs)
      cases fs with
      | nil => exact tests_boolean true
      | cons f fs => exact h
  | .none fs => by
      have h := tests_noneHolds (tests_expressAll fs)
      cases fs with
      | nil => exact tests_boolean true
      | cons f fs => exact h

theorem tests_expressAll : ∀ fs : List LegacyFilter,
    List.Forall₂ compiler.Tests (expressAll (toJsons fs))
      (fs.map fun f ctx => f.holds ctx)
  | [] => by
      rw [toJsons, expressAll]
      exact .nil
  | f :: fs => by
      rw [toJsons, expressAll]
      exact .cons (tests_express f) (tests_expressAll fs)

end

/-! ## Filters as they stand -/

theorem not_isArray (v : Scalar) : ¬ v.toJson.isArray = true := by
  cases v <;> exact Bool.false_ne_true

/-- A leaf belongs to both grammars only if it asks for a property. -/
theorem ne_of_not_isReserved (h : (!isReserved (.string key)) = true) :
    key ≠ "$type" ∧ key ≠ "$id" := by
  constructor <;> rintro rfl <;> cases h

mutual

theorem tests_expression : ∀ f : LegacyFilter, isExpression f.toJson = true →
    compiler.Tests f.toJson fun ctx => f.holds ctx
  | .equality negated key value typed, h => by
      have h : value.toJson.isArray = true := by cases negated <;> exact h
      exact absurd h (not_isArray value)
  | .ordering op horders key value, h => by
      have h : value.toJson.isArray = true := by
        cases op with
        | eq | ne => cases horders
        | _ => exact h
      exact absurd h (not_isArray value)
  | .membership negated key values typed, h => by
      cases negated with
      | true => cases h
      | false =>
          cases values with
          | nil => cases h
          | cons v vs => exact absurd h (not_isArray v)
  | .presence negated key, h => by
      cases negated with
      | true => cases h
      | false =>
          obtain ⟨htype, hid⟩ := ne_of_not_isReserved h
          simp only [holds, Bool.false_xor, hasField_property htype hid]
          exact tests_hasProperty key
  | .any fs, h => tests_anyHolds (tests_expressions fs h)
  | .all fs, h => tests_allHold (tests_expressions fs h)
  | .none fs, h => nomatch h

theorem tests_expressions : ∀ fs : List LegacyFilter,
    areExpressions (toJsons fs) = true →
    List.Forall₂ compiler.Tests (toJsons fs) (fs.map fun f ctx => f.holds ctx)
  | [], _ => by
      rw [toJsons]
      exact .nil
  | f :: fs, h => by
      rw [toJsons, areExpressions] at h
      obtain ⟨hf, hfs⟩ := Bool.and_eq_true_iff.1 h
      rw [toJsons]
      exact .cons (tests_expression f hf) (tests_expressions fs hfs)

end

theorem tests_toExpression (f : LegacyFilter) :
    compiler.Tests (toExpression f.toJson) fun ctx => f.holds ctx := by
  have hnull : f.toJson.isNull = false := by
    cases f <;> rw [toJson] <;> rfl
  unfold toExpression
  rw [hnull, if_neg Bool.false_ne_true]
  split
  · next h => exact tests_expression f h
  · exact tests_express f

end Filter

namespace FeatureFilter

/-- A filter that is brought to a test compiles and passes what passes the
test. -/
theorem compile_of_tests {raw : Json} {m : Context → Bool}
    (h : Filter.compiler.Tests (Filter.toExpression raw) m) :
    ∃ g, compile .standard raw = .ok g ∧ ∀ ctx, g.passes ctx = m ctx := by
  obtain ⟨e, he, hv⟩ := h Filter.root rfl
  exact ⟨ofTree raw e, compile_iff.2 ⟨e, he, rfl⟩,
    fun ctx => passes_ofTree (hv ctx)⟩

end FeatureFilter

/-- Every legacy filter compiles and keeps its meaning. -/
theorem LegacyFilter.compile_passes (f : LegacyFilter) :
    ∃ g, FeatureFilter.compile .standard f.toJson = .ok g ∧
      ∀ ctx, g.passes ctx = f.holds ctx :=
  FeatureFilter.compile_of_tests (Filter.tests_toExpression f)

end MapStyle
