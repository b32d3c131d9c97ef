import MapStyle.Proofs.Geometry.Wrap

/-!
# Angles without rounding

Over the reals every angle is wrapped into -180 to 180 by full turns
(`exists_wrap_eq`). No angle that differs from it by full turns is smaller in
size (`abs_wrap_le`), so that two places are never farther apart around the
world than any difference of their longitudes says.
-/

namespace MapStyle.Geometry.Ruler

section Loops

variable {β : Type}

theorem stepWhile_eq_iterate {continues : β → Bool} {step : β → β} {n : ℕ}
    {start : β} (hbefore : ∀ m < n, continues (step^[m] start) = true)
    (h : continues (step^[n] start) = false) :
    stepWhile continues step start = step^[n] start := by
  induction n generalizing start with
  | zero =>
      have hdone : continues start = false := h
      rw [stepWhile_eq, hdone]
      rfl
  | succ n ih =>
      have hmore : continues start = true := hbefore 0 (Nat.zero_lt_succ n)
      rw [stepWhile_eq, if_pos hmore]
      exact ih (fun m hm => hbefore (m + 1) (Nat.succ_lt_succ hm)) h

/-- A loop stops at the first state at which it may. -/
theorem exists_stepWhile_eq (continues : β → Bool) (step : β → β) (start : β)
    (h : ∃ n, continues (step^[n] start) = false) :
    ∃ n, stepWhile continues step start = step^[n] start ∧
      continues (step^[n] start) = false ∧
      ∀ m < n, continues (step^[m] start) = true := by
  classical
  have hbefore : ∀ m < Nat.find h, continues (step^[m] start) = true :=
    fun m hm => Bool.eq_true_of_not_eq_false (Nat.find_min h hm)
  exact ⟨Nat.find h, stepWhile_eq_iterate hbefore (Nat.find_spec h),
    Nat.find_spec h, hbefore⟩

end Loops

theorem exists_raise_eq (x : ℝ) :
    ∃ n : ℕ, raise x = x + n * 360 ∧ -180 ≤ raise x := by
  have hiterate (n : ℕ) :
      (fun deg : ℝ => deg + ((360 : ℕ) : ℝ))^[n] x = x + n * 360 := by
    rw [add_right_iterate_apply, nsmul_eq_mul, Nat.cast_ofNat]
  obtain ⟨n, heq, hdone, -⟩ := exists_stepWhile_eq
    (fun deg : ℝ => decide (deg < -((180 : ℕ) : ℝ)))
    (fun deg : ℝ => deg + ((360 : ℕ) : ℝ)) x (by
      obtain ⟨n, hn⟩ := exists_nat_ge (-x)
      have : (0 : ℝ) ≤ n := Nat.cast_nonneg n
      refine ⟨n, decide_eq_false ?_⟩
      rw [hiterate, Nat.cast_ofNat, not_lt]
      linarith)
  refine ⟨n, heq.trans (hiterate n), ?_⟩
  rw [raise, heq]
  simpa using of_decide_eq_false hdone

theorem exists_lower_eq {x : ℝ} (h : -180 ≤ x) :
    ∃ n : ℕ, lower x = x - n * 360 ∧ |lower x| ≤ 180 := by
  have hiterate (n : ℕ) :
      (fun deg : ℝ => deg - ((360 : ℕ) : ℝ))^[n] x = x - n * 360 := by
    simp only [sub_eq_add_neg, add_right_iterate_apply, nsmul_eq_mul, mul_neg,
      Nat.cast_ofNat]
  obtain ⟨n, heq, hdone, hbefore⟩ := exists_stepWhile_eq
    (fun deg : ℝ => decide (((180 : ℕ) : ℝ) < deg))
    (fun deg : ℝ => deg - ((360 : ℕ) : ℝ)) x (by
      obtain ⟨n, hn⟩ := exists_nat_ge x
      have : (0 : ℝ) ≤ n := Nat.cast_nonneg n
      refine ⟨n, decide_eq_false ?_⟩
      rw [hiterate, Nat.cast_ofNat, not_lt]
      linarith)
  have hlower : lower x = x - n * 360 := heq.trans (hiterate n)
  rw [hiterate, Nat.cast_ofNat] at hdone
  have hhigh : x - n * 360 ≤ 180 := not_lt.1 (of_decide_eq_false hdone)
  refine ⟨n, hlower, abs_le.2 ⟨?_, hlower ▸ hhigh⟩⟩
  -- The last turn down started above 180.
  rw [hlower]
  cases n with
  | zero => simpa using h
  | succ n =>
      have hlast := hbefore n (Nat.lt_succ_self n)
      rw [hiterate, Nat.cast_ofNat, decide_eq_true_eq] at hlast
      push_cast
      linarith

theorem exists_wrap_eq (x : ℝ) :
    ∃ k : ℤ, wrap x = x + k * 360 ∧ |wrap x| ≤ 180 := by
  obtain ⟨m, hraise, hlow⟩ := exists_raise_eq x
  obtain ⟨n, hlower, hbound⟩ := exists_lower_eq hlow
  refine ⟨m - n, ?_, hbound⟩
  rw [wrap, hlower, hraise]
  push_cast
  ring

theorem abs_wrap (x : ℝ) : |wrap x| ≤ 180 := by
  obtain ⟨-, -, h⟩ := exists_wrap_eq x
  exact h

/-- Angles that differ by full turns differ by a whole one. -/
theorem eq_wrap_or_far {x y : ℝ} (k : ℤ) (h : y = x + k * 360) :
    y = wrap x ∨ 360 ≤ |y - wrap x| := by
  obtain ⟨n, hwrap, -⟩ := exists_wrap_eq x
  obtain rfl | hne := eq_or_ne k n
  · exact .inl (h.trans hwrap.symm)
  · have hdiff : y - wrap x = ((k - n : ℤ) : ℝ) * 360 := by
      rw [h, hwrap]
      push_cast
      ring
    have hone : (1 : ℝ) ≤ |((k - n : ℤ) : ℝ)| := by
      exact_mod_cast Int.one_le_abs (sub_ne_zero.2 hne)
    right
    rw [hdiff, abs_mul, abs_of_pos (by norm_num : (0 : ℝ) < 360)]
    linarith

/-- Full turns never make an angle smaller than the wrapped one. -/
theorem abs_wrap_le {x y : ℝ} (k : ℤ) (h : y = x + k * 360) : |wrap x| ≤ |y| := by
  obtain rfl | hfar := eq_wrap_or_far k h
  · exact le_rfl
  · linarith [abs_sub y (wrap x), abs_wrap x]

/-- An angle has one representative within less than a half turn. -/
theorem wrap_eq {x y : ℝ} (k : ℤ) (h : y = x + k * 360) (hy : |y| < 180) :
    wrap x = y := by
  obtain heq | hfar := eq_wrap_or_far k h
  · exact heq.symm
  · linarith [abs_sub y (wrap x), abs_wrap x]

/-- Within a half turn, an angle is wrapped to itself. -/
theorem wrap_eq_self {x : ℝ} (h : |x| ≤ 180) : wrap x = x := by
  obtain ⟨hlow, hhigh⟩ := abs_le.1 h
  rw [wrap, raise, stepWhile_eq, if_neg (by simpa using hlow), lower,
    stepWhile_eq, if_neg (by simpa using hhigh)]

theorem abs_wrap_neg (x : ℝ) : |wrap (-x)| = |wrap x| := by
  have hle (x : ℝ) : |wrap (-x)| ≤ |wrap x| := by
    obtain ⟨k, h, -⟩ := exists_wrap_eq x
    rw [← abs_neg (wrap x)]
    refine abs_wrap_le (-k) ?_
    rw [h]
    push_cast
    ring
  refine le_antisymm (hle x) ?_
  simpa using hle (-x)

end MapStyle.Geometry.Ruler
