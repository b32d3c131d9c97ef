import Mathlib.Analysis.SpecialFunctions.Pow.Real
import MapStyle.Compile.Curve
import MapStyle.Proofs.Curve.Easing
import MapStyle.Proofs.Number.Ranges

/-!
# The range of factors

How far an input is between two labels is a number between zero and one, if the
arithmetic is exact: for linear interpolations, for easing curves, and for
exponential ones whose base is not negative (`inRange_iff_base_nonneg`). A
negative base is accepted as well, and with it the factor can be any number, and
the division it comes from can be one by zero.
-/

namespace MapStyle

/-! ## Doubles in a range -/

namespace Number

variable {x : Float}

/-- The real number that a finite double stands for. -/
noncomputable def real (x : Float) : ℝ := (value x : ℝ)

theorem real_ofNat {n : ℕ} (hn : n ≤ 2 ^ 53) : real (Float.ofNat n) = n := by
  rw [real, (value_ofNat_of_le hn).2, Rat.cast_natCast]

theorem real_mem (h : 0 ≤ x) (h' : x ≤ 1) : real x ∈ Set.Icc (0 : ℝ) 1 := by
  obtain ⟨-, hlow, hhigh⟩ := between_zero_one_iff.2 ⟨h, h'⟩
  rw [real, Set.mem_Icc]
  exact ⟨by exact_mod_cast hlow, by exact_mod_cast hhigh⟩

end Number

namespace Interpolation

open Number (real)

/-- What a factor for two labels that are `length` apart is divided by. -/
noncomputable def divisor : Interpolation → (length : ℝ) → ℝ
  | .exponential base, length =>
    if real base = 1 then length else real base ^ length - 1
  | .linear, length => length
  | .cubicBezier .., length => length

/-- Whether the factor of an input, computed exactly, is between zero and
one. -/
structure InRange (kind : Interpolation) (input lower upper : ℝ) : Prop where
  divisor_ne_zero : kind.divisor (upper - lower) ≠ 0
  nonneg : 0 ≤ kind.factorIn real input lower upper
  le_one : kind.factorIn real input lower upper ≤ 1

/-- Whether the powers that a factor takes exist: the exponents of a base that
is not positive have to be integers. -/
def HasPowers (kind : Interpolation) (input lower upper : ℝ) : Prop :=
  ∀ base, kind = .exponential base → real base ≤ 0 →
    (∃ n : ℤ, input - lower = n) ∧ ∃ n : ℤ, upper - lower = n

section

variable {input lower upper : ℝ}

theorem linearFactor_mem (hlow : lower ≤ input) (hhigh : input ≤ upper)
    (hlt : lower < upper) :
    linearFactor input lower upper ∈ Set.Icc (0 : ℝ) 1 := by
  have hpos := sub_pos.2 hlt
  rw [linearFactor, if_neg (by rw [beq_iff_eq]; exact hpos.ne')]
  exact ⟨div_nonneg (sub_nonneg.2 hlow) hpos.le,
    (div_le_one hpos).2 (sub_le_sub_right hhigh lower)⟩

/-- The share of the way from one to `z` that lies before `y`. -/
theorem share_mem {y z : ℝ} (hy : y ∈ Set.uIcc 1 z) :
    (y - 1) / (z - 1) ∈ Set.Icc (0 : ℝ) 1 := by
  rcases Set.mem_uIcc.1 hy with ⟨hle, hle'⟩ | ⟨hle, hle'⟩
  · exact ⟨div_nonneg (by linarith) (by linarith),
      div_le_one_of_le₀ (by linarith) (by linarith)⟩
  · exact ⟨div_nonneg_of_nonpos (by linarith) (by linarith),
      div_le_one_of_ge (by linarith) (by linarith)⟩

/-- The powers of a base that is not negative run from one in one direction. -/
theorem rpow_mem {base p d : ℝ} (hbase : 0 ≤ base) (hp : 0 ≤ p) (hpd : p ≤ d) :
    base ^ p ∈ Set.uIcc 1 (base ^ d) := by
  rw [Set.mem_uIcc]
  rcases le_total 1 base with hle | hle
  · exact .inl ⟨Real.one_le_rpow hle hp,
      Real.rpow_le_rpow_of_exponent_le hle hpd⟩
  · exact .inr ⟨Real.rpow_le_rpow_of_exponent_ge' hbase hle hp hpd,
      Real.rpow_le_one hbase hle hp⟩

theorem rpow_ne_one {base d : ℝ} (hbase : 0 ≤ base) (hone : base ≠ 1)
    (hd : 0 < d) : base ^ d ≠ 1 := by
  rcases hone.lt_or_gt with hlt | hgt
  · exact (Real.rpow_lt_one hbase hlt hd).ne
  · exact (Real.one_lt_rpow hgt hd).ne'

theorem factorIn_exponential {base : Float} (hone : real base ≠ 1)
    (hlt : lower < upper) : (exponential base).factorIn real input lower upper =
      (real base ^ (input - lower) - 1) /
        (real base ^ (upper - lower) - 1) := by
  rw [factorIn, exponentialFactor, if_neg, if_neg]
  · rw [beq_iff_eq]
    exact (sub_pos.2 hlt).ne'
  · rw [beq_iff_eq]
    exact hone

theorem exponential_inRange {base : Float} (hbase : 0 ≤ real base)
    (hlow : lower ≤ input) (hhigh : input ≤ upper) (hlt : lower < upper) :
    InRange (.exponential base) input lower upper := by
  have hpos := sub_pos.2 hlt
  by_cases hone : real base = 1
  · have hmem := linearFactor_mem hlow hhigh hlt
    have hfactor : (exponential base).factorIn real input lower upper =
        linearFactor input lower upper := by
      rw [factorIn, exponentialFactor, hone, if_pos (beq_self_eq_true _)]
    refine ⟨?_, hfactor ▸ hmem.1, hfactor ▸ hmem.2⟩
    rw [divisor, if_pos hone]
    exact hpos.ne'
  · have hmem := share_mem (rpow_mem hbase (sub_nonneg.2 hlow)
      (sub_le_sub_right hhigh lower))
    rw [← factorIn_exponential hone hlt] at hmem
    refine ⟨?_, hmem.1, hmem.2⟩
    rw [divisor, if_neg hone, sub_ne_zero]
    exact rpow_ne_one hbase hone hpos

end

/-! ## Interpolations of documents -/

open Compile

theorem control?_mem {items : List Json} {x₁ y₁ x₂ y₂ : Float}
    (h : control? items = some (.cubicBezier x₁ y₁ x₂ y₂)) :
    ∀ x ∈ [x₁, y₁, x₂, y₂], 0 ≤ x ∧ x ≤ 1 := by
  unfold control? at h
  split at h
  · simp only [Option.ite_none_right_eq_some, Option.some_inj,
      Bool.and_eq_true, decide_eq_true_iff] at h
    obtain ⟨hrange, hkind⟩ := h
    cases hkind
    simp only [List.forall_mem_cons]
    tauto
  · cases h

theorem controls_of_interpolation {s : Site} {raw : Json} {x₁ y₁ x₂ y₂ : Float}
    (h : interpolation s raw = .ok (.cubicBezier x₁ y₁ x₂ y₂)) :
    ∀ x ∈ [x₁, y₁, x₂, y₂], 0 ≤ x ∧ x ≤ 1 := by
  unfold interpolation at h
  split at h
  · split at h
    · cases h
    · split at h <;> cases h
    · split at h
      · next hcontrol =>
        cases h
        exact control?_mem hcontrol
      · cases h
    · cases h
    · cases h
  · cases h

theorem inRange_of_base_nonneg {s : Site} {raw : Json} {kind : Interpolation}
    (h : interpolation s raw = .ok kind)
    (hbase : ∀ base, kind = .exponential base → 0 ≤ real base)
    {input lower upper : ℝ} (hlow : lower ≤ input) (hhigh : input ≤ upper)
    (hlt : lower < upper) : kind.InRange input lower upper := by
  have hpos := sub_pos.2 hlt
  cases kind with
  | linear =>
      have hmem := linearFactor_mem hlow hhigh hlt
      exact ⟨hpos.ne', hmem.1, hmem.2⟩
  | exponential base =>
      exact exponential_inRange (hbase base rfl) hlow hhigh hlt
  | cubicBezier x₁ y₁ x₂ y₂ =>
      have hcontrol := controls_of_interpolation h
      simp only [List.forall_mem_cons, List.not_mem_nil, false_imp_iff,
        implies_true, and_true] at hcontrol
      obtain ⟨hx₁, hy₁, hx₂, hy₂⟩ := hcontrol
      have hmem : (cubicBezier x₁ y₁ x₂ y₂).factorIn real input lower upper ∈
          Set.Icc 0 1 :=
        Curve.Bezier.solve_mem
          (Number.real_mem hx₁.1 hx₁.2) (Number.real_mem hy₁.1 hy₁.2)
          (Number.real_mem hx₂.1 hx₂.2) (Number.real_mem hy₂.1 hy₂.2)
          (by norm_num) (by norm_num)
      exact ⟨hpos.ne', hmem.1, hmem.2⟩

/-- With a negative base the factor of one between zero and two is out of range
or the division is one by zero. -/
theorem not_inRange_of_base_neg {base : Float} (h : real base < 0) :
    ¬ InRange (.exponential base) 1 0 2 := by
  intro hrange
  have hone : real base ≠ 1 := (h.trans zero_lt_one).ne
  have hfactor : (exponential base).factorIn real 1 0 2 =
      (real base - 1) / (real base ^ 2 - 1) := by
    rw [factorIn_exponential hone zero_lt_two, sub_zero, sub_zero,
      Real.rpow_one, Real.rpow_two]
  have hne := hrange.divisor_ne_zero
  rw [divisor, if_neg hone, sub_zero, Real.rpow_two] at hne
  have hnonneg := hfactor ▸ hrange.nonneg
  have hle := hfactor ▸ hrange.le_one
  rcases hne.lt_or_gt with hneg | hpos
  · have hsquare := (div_le_one_of_neg hneg).1 hle
    have := sq_nonneg (real base)
    linarith
  · exact hnonneg.not_gt (div_neg_of_neg_of_pos (by linarith) hpos)

/-- Factors of a document's interpolation are between zero and one for all
inputs and labels, up to those for which there are no powers, just if it is not
an exponential one with a negative base. -/
theorem inRange_iff_base_nonneg {s : Site} {raw : Json} {kind : Interpolation}
    (h : interpolation s raw = .ok kind) :
    (∀ input lower upper : ℝ, lower ≤ input → input ≤ upper → lower < upper →
      kind.HasPowers input lower upper → kind.InRange input lower upper) ↔
        ∀ base, kind = .exponential base → 0 ≤ real base := by
  constructor
  · rintro hrange base rfl
    by_contra hneg
    refine not_inRange_of_base_neg (not_le.1 hneg) (hrange 1 0 2 ?_ ?_ ?_ ?_)
    · exact zero_le_one
    · exact one_le_two
    · exact zero_lt_two
    · exact fun _ _ _ => ⟨⟨1, by norm_num⟩, 2, by norm_num⟩
  · intro hbase input lower upper hlow hhigh hlt _
    exact inRange_of_base_nonneg h hbase hlow hhigh hlt

theorem inRange_iff_base_nonneg_doubling :
    interpolation {}
        (.array [.string "exponential", .number (.integer 2)]) =
          .ok (.exponential (Float.ofInt 2)) ∧
      InRange (.exponential (Float.ofInt 2)) 1 0 3 := by
  have hkind : interpolation {}
      (.array [.string "exponential", .number (.integer 2)]) =
        .ok (.exponential (Float.ofInt 2)) := rfl
  have hreal : real (Float.ofInt 2) = (2 : ℕ) := Number.real_ofNat (by decide)
  refine ⟨hkind, (inRange_iff_base_nonneg hkind).2 ?_ 1 0 3 ?_ ?_ ?_ ?_⟩
  · intro base heq
    cases heq
    rw [hreal]
    exact Nat.cast_nonneg 2
  · norm_num
  · norm_num
  · norm_num
  · exact fun _ _ _ => ⟨⟨1, by norm_num⟩, 3, by norm_num⟩

/-- The base minus two is accepted and takes one between zero and two to minus
one. With rounding, easing curves that are accepted pass the end as well. -/
theorem factor_out_of_range :
    interpolation {}
        (.array [.string "exponential", .number (.integer (-2))]) =
          .ok (.exponential (Float.ofInt (-2))) ∧
      (exponential (Float.ofInt (-2))).HasPowers 1 0 2 ∧
      (exponential (Float.ofInt (-2))).factorIn real 1 0 2 = -1 ∧
      interpolation {}
        (.array [.string "cubic-bezier", .number (.decimal 0.5),
          .number (.decimal 0.019), .number (.decimal 0.5),
          .number (.decimal 0.002)]) =
            .ok (.cubicBezier 0.5 0.019 0.5 0.002) ∧
      1 < (cubicBezier 0.5 0.019 0.5 0.002).factor 1 0 1 := by
  have hreal : real (Float.ofInt (-2)) = -(2 : ℕ) := by
    have hneg : Float.ofInt (-2) = -Float.ofNat 2 := rfl
    rw [hneg, real, Number.value_neg, Rat.cast_neg]
    exact congrArg _ (Number.real_ofNat (by decide))
  refine ⟨rfl, fun _ _ _ => ⟨⟨1, by norm_num⟩, 2, by norm_num⟩, ?_, ?_, ?_⟩
  · have hone : real (Float.ofInt (-2)) ≠ 1 := by
      rw [hreal]
      norm_num
    rw [factorIn_exponential hone zero_lt_two, hreal, sub_zero, sub_zero,
      Real.rpow_one, Real.rpow_two]
    norm_num
  · rfl
  · decide +kernel

end Interpolation

end MapStyle
