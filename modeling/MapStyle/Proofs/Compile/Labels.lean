import MapStyle.Property.PropertyExpression
import MapStyle.Proofs.Compile.Documents
import MapStyle.Proofs.Compile.Scoping
import MapStyle.Proofs.Number.Rank

/-!
# The labels of curves ascend

The compiler compares each label of a curve with the one before it, and a step
counts from negative infinity. Since doubles that are numbers are in order one
way or the other, the labels of every curve in a compiled tree are strictly
ascending, as far as they are numbers: a label that is NaN would pass the
comparison, but no JSON document has one. `Json.isProper` keeps such documents
out, which the type of documents admits.
-/

namespace MapStyle

namespace Json

mutual

/-- Whether no number of a document is NaN. -/
def isProper : Json → Bool
  | .number n => !n.toFloat.isNaN
  | .array items => areProper items
  | .object fields => haveProper fields
  | .null | .boolean _ | .string _ => true

def areProper : List Json → Bool
  | [] => true
  | j :: js => isProper j && areProper js

def haveProper : List (String × Json) → Bool
  | [] => true
  | (_, j) :: fields => isProper j && haveProper fields

end

theorem areProper_iff {js : List Json} :
    areProper js = true ↔ ∀ j ∈ js, j.isProper = true := by
  induction js with
  | nil => simp [areProper]
  | cons j js ih => simp [areProper, ih]

theorem isNaN_of_isProper {raw : Json} (h : raw.isProper = true) {x : Float}
    (hx : raw.number? = some x) : x.isNaN = false := by
  cases raw with
  | number n =>
      obtain rfl := Option.some.inj hx
      rw [isProper] at h
      simpa using h
  | _ => cases hx

end Json

/-- The labels of a curve, from its operands behind the input: labels and
outputs in turns. -/
def stopLabels : List Json → List Float
  | label :: _ :: rest => label.number?.toList ++ stopLabels rest
  | _ => []

/-- Whether the labels of the node, if it is a curve, are strictly
ascending. -/
def Expr.Ascends (e : Expr) : Prop :=
  (PropertyExpression.labelsOf e).Pairwise (· < ·)

namespace Compile

variable {s : Site} {args : List Operand}

/-- A label is a number and comes after the one before it. -/
theorem stopLabel_follows_previous {name : String} {i : Nat}
    {previous : Option Float} {raw : Json} (hraw : raw.isProper = true)
    (hprevious : ∀ p ∈ previous, p.isNaN = false) :
    Ensures (fun x => x.isNaN = false ∧ ∀ p ∈ previous, p < x)
      (stopLabel name s i previous raw) := by
  unfold stopLabel
  split
  · exact .failAt
  · next x hx =>
      have hnumber := Json.isNaN_of_isProper hraw hx
      split
      · exact .failAt
      · next horder =>
          refine .pure ⟨hnumber, ?_⟩
          rintro p rfl
          refine Number.lt_of_not_le hnumber (hprevious p rfl) ?_
          simpa using horder

theorem number?_of_stopLabel {name : String} {i : Nat}
    {previous : Option Float} {raw : Json} {x : Float}
    (h : stopLabel name s i previous raw = .ok x) : raw.number? = some x := by
  unfold stopLabel at h
  split at h
  · cases h
  · next hx =>
      split at h
      · cases h
      · rw [hx, ok_of_pure h]

/-- The labels of the stops are those of the document, and the outputs keep the
type that is given to them. -/
theorem stops_labels (name : String) : ∀ (os : List Operand) (i : Nat)
    (previous : Option Float) (ty : Option Ty),
    Ensures (fun p => p.1.map Prod.fst = stopLabels (os.map Operand.raw) ∧
        ∀ t ∈ ty, p.2 = some t)
      (stops name s i previous ty os)
  | [], _, _, _ | [_], _, _, _ => .pure ⟨rfl, fun _ ht => ht⟩
  | l :: o :: rest, i, previous, ty => by
      intro p hp
      obtain ⟨x, hx, hp⟩ := ok_of_bind hp
      obtain ⟨e, -, hp⟩ := ok_of_bind hp
      obtain ⟨p', hp', hp⟩ := ok_of_bind hp
      obtain rfl := ok_of_pure hp
      obtain ⟨hlabels, hset⟩ := stops_labels name rest _ _ _ p' hp'
      refine ⟨?_, ?_⟩
      · rw [List.map_cons, hlabels, List.map_cons, List.map_cons, stopLabels,
          number?_of_stopLabel hx]
        rfl
      · rintro t ht
        obtain rfl : ty = some t := ht
        exact hset t rfl

/-- The labels of stops ascend from the one before them on. -/
theorem stops_ascend {name : String} {os : List Operand}
    (hos : ∀ o ∈ os, o.raw.isProper = true) (i : Nat)
    {previous : Option Float} (hprevious : ∀ p ∈ previous, p.isNaN = false)
    (ty : Option Ty) :
    Ensures (fun p => (p.1.map Prod.fst).Pairwise (· < ·) ∧
      ∀ q ∈ previous, ∀ x ∈ p.1.map Prod.fst, q < x)
      (stops name s i previous ty os) := by
  match os with
  | [] | [_] => exact .pure ⟨.nil, nofun⟩
  | l :: o :: rest =>
      have hrest : ∀ o ∈ rest, o.raw.isProper = true :=
        (List.forall_mem_cons.1 (List.forall_mem_cons.1 hos).2).2
      refine .bind (stopLabel_follows_previous (hos l (by simp)) hprevious) ?_
      rintro x ⟨hx, hafter⟩
      refine .skip fun e => ?_
      have hnumber : ∀ p ∈ some x, p.isNaN = false := by
        rintro _ ⟨⟩
        exact hx
      refine .bind (stops_ascend hrest (i + 2) hnumber _) ?_
      rintro ⟨more, ty⟩ ⟨hmore, hfrom⟩
      have hfirst : ∀ y ∈ more.map Prod.fst, x < y := hfrom x rfl
      refine .pure ⟨List.pairwise_cons.2 ⟨hfirst, hmore⟩, fun q hq => ?_⟩
      refine List.forall_mem_cons.2 ⟨hafter q hq, fun y hy => ?_⟩
      exact Number.lt_trans (hafter q hq) (hfirst y hy)

theorem isNaN_neg_infinity : (-Number.infinity).isNaN = false := by
  rfl

theorem step_ascends (hargs : ∀ o ∈ args, o.raw.isProper = true) :
    Ensures Expr.Ascends (step s args) := by
  refine .skip fun _ => ?_
  split
  · next input first rest =>
      have hrest : ∀ o ∈ rest, o.raw.isProper = true :=
        (List.forall_mem_cons.1 (List.forall_mem_cons.1 hargs).2).2
      have hstart : ∀ p ∈ some (-Number.infinity), p.isNaN = false :=
        fun p hp => Option.some.inj hp ▸ isNaN_neg_infinity
      refine .skip fun input => .skip fun first => ?_
      refine .bind (stops_ascend hrest 3 hstart _) ?_
      rintro ⟨more, ty⟩ ⟨hmore, hfrom⟩
      exact .pure (List.pairwise_cons.2 ⟨hfrom _ rfl, hmore⟩)
  · exact .fail

theorem interpolate_ascends {name : String}
    (hargs : ∀ o ∈ args, o.raw.isProper = true) :
    Ensures Expr.Ascends (interpolate name s args) := by
  unfold interpolate
  split
  · exact .failAt
  · next kind operands =>
      refine .skip fun interpolation => .skip fun _ => ?_
      split
      · next input rest =>
          have hrest : ∀ o ∈ rest, o.raw.isProper = true :=
            (List.forall_mem_cons.1 (List.forall_mem_cons.1 hargs).2).2
          refine .skip fun input => ?_
          have hstart : ∀ p ∈ (none : Option Float), p.isNaN = false :=
            fun p hp => absurd hp (Option.not_mem_none p)
          refine .bind (stops_ascend hrest 3 hstart _) ?_
          rintro ⟨stops, ty⟩ ⟨hstops, -⟩
          simp only
          split
          · exact .pure hstops
          · exact .fail
      · exact .fail

/-- Only steps and interpolations have labels. -/
theorem ascends_of_form? {e : Expr} (hstep : e.form? ≠ some .step)
    (hinterpolate : e.form? ≠ some .interpolate) : e.Ascends := by
  cases e with
  | step => exact absurd rfl hstep
  | interpolate => exact absurd rfl hinterpolate
  | _ => exact .nil

theorem form_ascends (f : SpecialForm) (name : String)
    (hargs : ∀ o ∈ args, o.raw.isProper = true) :
    Ensures Expr.Ascends (form f name s args) := by
  by_cases hstep : f = .step
  · subst hstep
    exact step_ascends hargs
  · by_cases hinterpolate : f = .interpolate
    · subst hinterpolate
      exact interpolate_ascends hargs
    · refine (form_assembled f name).mono fun e ⟨hform, _⟩ => ?_
      refine ascends_of_form? ?_ ?_
      · simpa [hform] using hstep
      · simpa [hform] using hinterpolate

theorem application_ascends (r : Registry)
    (hargs : ∀ o ∈ args, o.raw.isProper = true) :
    Ensures Expr.Ascends (application r s args) := by
  cases args with
  | nil => exact .fail
  | cons head args =>
      have hargs := (List.forall_mem_cons.1 hargs).2
      simp only [application]
      split
      · split
        · exact form_ascends _ _ hargs
        · refine (compound_plain _).mono fun e ⟨hform, _⟩ => ?_
          exact ascends_of_form? (by simp [hform]) (by simp [hform])
        · exact .failAt
      · exact .failAt

theorem ascends_law (r : Registry) :
    NodeLaw r (fun raw => raw.isProper = true) Expr.Ascends where
  part raws h := Json.areProper_iff.1 (by rwa [Json.isProper] at h)
  literal _ _ := .nil
  assertion _ _ := .nil
  coercion _ _ := .nil
  application _ _ := application_ascends r

end Compile

end MapStyle
