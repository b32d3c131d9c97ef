import MapStyle.Proofs.Curve.Newton

/-!
# Easing curves stay in range

Over exact numbers an easing curve with control points in the unit square takes
every input to a number between zero and one (`Bezier.solve_mem`).
-/

namespace MapStyle.Curve

variable {α : Type} [Field α] [LinearOrder α] [IsStrictOrderedRing α]

namespace Cubic

variable {f : Cubic α} {p q x epsilon : α}

/-- Bisection does not leave the interval that it starts with. -/
theorem bisect_mem {n : ℕ} {lo hi t : α} (ht : t ∈ Set.Icc lo hi) :
    f.bisect x epsilon n lo hi t ∈ Set.Icc lo hi := by
  induction n generalizing lo hi t with
  | zero => exact ht
  | succ n ih =>
      rw [bisect]
      split
      · exact ht
      · split
        · have hmem : (hi - t) * 0.5 + t ∈ Set.Icc t hi := by
            constructor <;> norm_num <;> linarith [ht.2]
          exact ⟨ht.1.trans (ih hmem).1, (ih hmem).2⟩
        · have hmem : (t - lo) * 0.5 + lo ∈ Set.Icc lo t := by
            constructor <;> norm_num <;> linarith [ht.1]
          exact ⟨(ih hmem).1, (ih hmem).2.trans ht.2⟩

theorem invert_mem (hp : p ∈ Set.Icc 0 1) (hq : q ∈ Set.Icc 0 1)
    (hepsilon : 0 < epsilon) (hepsilon' : epsilon ≤ 1 / 16) :
    (ofControl p q).invert x epsilon ∈ Set.Icc 0 1 := by
  rw [invert]
  split
  · exact ⟨le_rfl, zero_le_one⟩
  · next hlow =>
    split
    · exact ⟨zero_le_one, le_rfl⟩
    · next hhigh =>
      have hx : x ∈ Set.Icc 0 1 := ⟨not_lt.1 hlow, not_lt.1 hhigh⟩
      split
      · next t h => exact newton?_mem hp hq hx hepsilon hepsilon' h
      · exact bisect_mem hx

end Cubic

theorem Bezier.solve_mem {x₁ y₁ x₂ y₂ x epsilon : α} (hx₁ : x₁ ∈ Set.Icc 0 1)
    (hy₁ : y₁ ∈ Set.Icc 0 1) (hx₂ : x₂ ∈ Set.Icc 0 1) (hy₂ : y₂ ∈ Set.Icc 0 1)
    (hepsilon : 0 < epsilon) (hepsilon' : epsilon ≤ 1 / 16) :
    (ofControl x₁ y₁ x₂ y₂).solve x epsilon ∈ Set.Icc 0 1 :=
  Cubic.value_mem hy₁ hy₂ (Cubic.invert_mem hx₁ hx₂ hepsilon hepsilon')

end MapStyle.Curve
