import MapStyle.Proofs.Curve.Cubic

/-!
# Newton's method on easing curves

Over exact numbers a parameter that Newton's method returns for an input between
zero and one is between zero and one itself (`newton?_mem`), although the steps
on the way there may be far outside, and although the curve may come back to the
input out there.

By symmetry it is enough to look at one end (`newton?_reflect`). What keeps the
method inside depends on how the slope runs between the ends. If it bends up
(`f.a` is positive) the tangents near the end do not overshoot, or else the
curve stays above the end beyond it, so that nothing there is accepted. If it
bends down, the first step goes at most half of the way to the far end, and from
there on the steps stay between the input and the middle of the rest
(`Between`).
-/

namespace MapStyle.Curve.Cubic

variable {α : Type} [Field α] [LinearOrder α] [IsStrictOrderedRing α]
variable {f : Cubic α} {p q t x y epsilon : α} {n : ℕ}

/-! ## Slopes that bend up -/

theorem exists_eq_one_sub (ht : t ≤ 1) : ∃ s, 0 ≤ s ∧ t = 1 - s :=
  ⟨1 - t, sub_nonneg.2 ht, (sub_sub_cancel 1 t).symm⟩

/-- If the slope falls toward the far end, the tangents are above the end
there. -/
theorem next_le_one_of_falling (hq : q ≤ 1) (hbend : 3 * (q - p) ≤ 1)
    (hfall : 1 - q ≤ q - p) (hx : x ≤ 1) (ht : t ≤ 1)
    (hslope : (ofControl p q).slope t ≠ 0) : next (ofControl p q) x t ≤ 1 := by
  obtain ⟨s, hs, rfl⟩ := exists_eq_one_sub ht
  have hq' := sub_nonneg.2 hq
  have hbend' := sub_nonneg.2 hbend
  have hfall' := sub_nonneg.2 hfall
  have hpos : 0 < (ofControl p q).slope (1 - s) := by
    refine hslope.symm.lt_of_le ?_
    rw [slope_one_sub]
    positivity
  refine next_le hpos (hx.trans ?_)
  have htangent : (ofControl p q).value (1 - s)
      + (ofControl p q).slope (1 - s) * (1 - (1 - s)) = 1
        + 3 * ((q - p) - (1 - q)) * s ^ 2 + 2 * (1 - 3 * (q - p)) * s ^ 3 := by
    rw [value_one_sub, slope_one_sub]
    ring
  rw [htangent, add_assoc]
  exact le_add_of_nonneg_right (by positivity)

/-- If the slope rises toward the far end, the curve stays above it beyond. -/
theorem one_le_value_of_rising (hq : q ≤ 1) (hbend : 3 * (q - p) ≤ 1)
    (hrise : q - p ≤ 1 - q) (ht : 1 ≤ t) : 1 ≤ (ofControl p q).value t := by
  have hs := sub_nonneg.2 ht
  have hq' := sub_nonneg.2 hq
  have hbend' := sub_nonneg.2 hbend
  have hrise' := sub_nonneg.2 hrise
  have hvalue : (ofControl p q).value t = 1 + (3 * (1 - q) * (t - 1)
      + 3 * ((1 - q) - (q - p)) * (t - 1) ^ 2
      + (1 - 3 * (q - p)) * (t - 1) ^ 3) := by
    rw [value_ofControl]
    ring
  rw [hvalue]
  exact le_add_of_nonneg_right (by positivity)

/-- Near a far end where the slope is well above one, steps stay between the
input and the end. -/
theorem next_mem_of_steep (hp : p ≤ 1) (hq : 0 ≤ q) (hbend : 3 * (q - p) ≤ 1)
    (hrise : q - p ≤ 1 - q) (hx : 15 / 16 ≤ x)
    (hsteep : 2 - 4 * (1 - x) ^ 2 ≤ 3 * (1 - q)) (hxt : x ≤ t) (ht : t ≤ 1) :
    x ≤ next (ofControl p q) x t ∧ next (ofControl p q) x t ≤ 1 := by
  obtain ⟨s, hs, rfl⟩ := exists_eq_one_sub ht
  obtain ⟨r, hr₀, rfl⟩ := exists_eq_one_sub (hxt.trans ht)
  rw [sub_sub_cancel] at hsteep
  have hr : r ≤ 1 / 16 := by linarith
  have hsr : s ≤ r := by linarith
  -- How the slope changes, and how that changes.
  obtain ⟨d, hd, hd', hd0⟩ : ∃ d, (q - p) - (1 - q) = -d ∧ d ≤ 2 ∧ 0 ≤ d :=
    ⟨(1 - q) - (q - p), by ring, by linarith, by linarith⟩
  obtain ⟨a, ha, ha', ha0⟩ : ∃ a, 1 - 3 * (q - p) = a ∧ a ≤ 4 ∧ 0 ≤ a :=
    ⟨_, rfl, by linarith, by linarith⟩
  have hslope := slope_one_sub p q s
  have hvalue := value_one_sub p q s
  rw [hd, ha] at hslope hvalue
  have hss : s ^ 2 ≤ (1 / 16) ^ 2 := pow_le_pow_left₀ hs (hsr.trans hr) 2
  have hrr : r ^ 2 ≤ (1 / 16) ^ 2 := pow_le_pow_left₀ hr₀ hr 2
  have hds : d * s ≤ 2 * (1 / 16) :=
    mul_le_mul hd' (hsr.trans hr) hs zero_le_two
  have has : a * s ^ 2 ≤ 4 * (1 / 16) ^ 2 :=
    mul_le_mul ha' hss (by positivity) (by positivity)
  have hone : 6 / 5 ≤ (ofControl p q).slope (1 - s) := by
    have : 0 ≤ a * s ^ 2 := by positivity
    linarith
  have hpos : 0 < (ofControl p q).slope (1 - s) := by linarith
  constructor
  · refine le_next hpos ?_
    have htangent : (ofControl p q).value (1 - s)
        + (ofControl p q).slope (1 - s) * (1 - r - (1 - s))
          = 1 - (ofControl p q).slope (1 - s) * r
            - 3 * (d * s) * s + 2 * (a * s ^ 2) * s := by
      rw [hvalue, hslope]
      ring
    rw [htangent]
    have h₁ := mul_le_mul_of_nonneg_right hone hr₀
    have h₂ := mul_le_mul_of_nonneg_right has hs
    have h₃ : 0 ≤ d * s * s := by positivity
    linarith
  · refine next_le hpos ?_
    have htangent : (ofControl p q).value (1 - s)
        + (ofControl p q).slope (1 - s) * (1 - (1 - s))
          = 1 - 3 * (d * s) * s + 2 * (a * s ^ 2) * s := by
      rw [hvalue, hslope]
      ring
    rw [htangent]
    have h₁ := mul_le_mul_of_nonneg_right hds hs
    have h₂ : 0 ≤ a * s ^ 2 * s := by positivity
    linarith

/-- The curve is steep near its end if it is clearly below an input there. -/
theorem steep_of_value_le (hp : p ≤ 1) (hq : 0 ≤ q) (hrise : q - p ≤ 1 - q)
    (hx : x ≤ 1) (hnear : 1 - x < epsilon)
    (hvalue : (ofControl p q).value x ≤ x - epsilon) :
    2 - 4 * (1 - x) ^ 2 ≤ 3 * (1 - q) := by
  obtain ⟨r, hr, rfl⟩ := exists_eq_one_sub hx
  rw [sub_sub_cancel] at hnear ⊢
  rw [value_one_sub] at hvalue
  have hgap : 2 * r < (3 * (1 - q) - 3 * ((1 - q) - (q - p)) * r
      + (1 - 3 * (q - p)) * r ^ 2) * r := by
    linarith
  have hpos : 0 < r := by
    refine hr.lt_of_ne ?_
    rintro rfl
    simp at hgap
  have hslope := lt_of_mul_lt_mul_right hgap hr
  have hd : 0 ≤ ((1 - q) - (q - p)) * r := mul_nonneg (sub_nonneg.2 hrise) hr
  have ha : (1 - 3 * (q - p)) * r ^ 2 ≤ 4 * r ^ 2 :=
    mul_le_mul_of_nonneg_right (by linarith) (by positivity)
  linarith

/-- An end where the slope does not bend down is not passed. -/
theorem newton?_le_one (hp : p ∈ Set.Icc 0 1) (hq : q ∈ Set.Icc 0 1)
    (hx : x ∈ Set.Icc 0 1) (hbend : 3 * (q - p) ≤ 1)
    (hepsilon : epsilon ≤ 1 / 16)
    (h : newton? (ofControl p q) x epsilon n x = some y) : y ≤ 1 := by
  rcases le_total (1 - q) (q - p) with hfall | hrise
  · exact (newton?_invariant (I := (· ≤ 1)) (fun t ht hslope _ =>
      next_le_one_of_falling hq.2 hbend hfall hx.2 ht hslope) hx.2 h).1
  by_contra hy
  rw [not_le] at hy
  -- Only inputs near the end come with a parameter beyond it.
  have hclose := (newton?_invariant (I := fun _ => True)
    (fun _ _ _ _ => trivial) trivial h).2
  have hend := one_le_value_of_rising hq.2 hbend hrise hy.le
  have hnear : 1 - x < epsilon := by
    have := (abs_lt.1 hclose).2
    linarith
  by_cases hsmall : |(ofControl p q).value x - x| < epsilon
  · exact absurd (newton?_of_small hsmall h ▸ hx.2) hy.not_ge
  have hvalue : (ofControl p q).value x ≤ x - epsilon := by
    have htop := (value_mem hp hq hx).2
    rw [abs_lt, not_and_or, not_lt, not_lt] at hsmall
    rcases hsmall with hbelow | habove <;> linarith
  have hsteep := steep_of_value_le hp.2 hq.1 hrise hx.2 hnear hvalue
  have hinside := newton?_invariant (I := fun t => x ≤ t ∧ t ≤ 1)
    (fun t ht _ _ => next_mem_of_steep hp.2 hq.1 hbend hrise (by linarith)
      hsteep ht.1 ht.2) ⟨le_rfl, hx.2⟩ h
  exact hy.not_ge hinside.1.2

/-! ## Slopes that bend down -/

theorem value_le_tangent (ha : f.a ≤ 0) (hbend : 3 * f.a * t + f.b ≤ 0)
    (hty : t ≤ y) : f.value y ≤ f.value t + f.slope t * (y - t) := by
  rw [value_expand f t y, add_le_iff_nonpos_right]
  refine mul_nonpos_of_nonneg_of_nonpos (by positivity) (add_nonpos ?_ hbend)
  exact mul_nonpos_of_nonpos_of_nonneg ha (sub_nonneg.2 hty)

/-- Beyond two points where the curve bends up, the tangent at the second one is
above that at the first. -/
theorem tangent_le_tangent (ha : f.a ≤ 0) (hbend : 0 ≤ 3 * f.a * t + f.b)
    (hxt : x ≤ t) (hty : t ≤ y) :
    f.value x + f.slope x * (y - x) ≤ f.value t + f.slope t * (y - t) := by
  have hs := sub_nonneg.2 hxt
  have hr := sub_nonneg.2 hty
  have ha' := neg_nonneg.2 ha
  have hgap : f.value t + f.slope t * (y - t) = f.value x + f.slope x * (y - x)
      + (t - x) * ((t - x) * (3 * f.a * t + f.b + 2 * -f.a * (t - x))
        + (y - t) * (2 * (3 * f.a * t + f.b) + 3 * -f.a * (t - x))) := by
    rw [value_expand f x t, slope_expand f x t]
    ring
  rw [hgap]
  exact le_add_of_nonneg_right (by positivity)

theorem le_slope (hp : p ∈ Set.Icc 0 1) (hq : q ∈ Set.Icc 0 1) :
    6 * (q - p) * (t * (1 - t)) ≤ (ofControl p q).slope t := by
  have hp₀ := hp.1
  have hq₁ := sub_nonneg.2 hq.2
  have hslope : (ofControl p q).slope t = 6 * (q - p) * (t * (1 - t))
      + 3 * (p * (1 - t) ^ 2 + (1 - q) * t ^ 2) := by
    rw [slope_ofControl]
    ring
  rw [hslope]
  exact le_add_of_nonneg_right (by positivity)

theorem slope_nonneg (hp : p ∈ Set.Icc 0 1) (hq : q ∈ Set.Icc 0 1)
    (ht : t ∈ Set.Icc 0 1) (hpq : p ≤ q) : 0 ≤ (ofControl p q).slope t := by
  have hpq' := sub_nonneg.2 hpq
  have ht₀ := ht.1
  have ht₁ := sub_nonneg.2 ht.2
  exact le_trans (by positivity) (le_slope hp hq)

/-- The tangent at the input reaches it in the first half of the rest. -/
theorem le_tangent_middle (hp : 0 ≤ p) (hx : x ∈ Set.Icc 0 1)
    (hbend : 1 ≤ 3 * (q - p)) :
    x ≤ (ofControl p q).value x
      + (ofControl p q).slope x * ((1 + x) / 2 - x) := by
  have hx₀ := hx.1
  have hx₁ := sub_nonneg.2 hx.2
  have hbend' := sub_nonneg.2 hbend
  have hgap : (ofControl p q).value x
      + (ofControl p q).slope x * ((1 + x) / 2 - x) = x
        + (1 - x) * ((3 * (q - p) - 1) * (x / 2 + x * (1 - x) / 2)
          + 3 / 2 * p) := by
    rw [value_ofControl, slope_ofControl]
    ring
  rw [hgap]
  exact le_add_of_nonneg_right (by positivity)

/-- In the middle of the rest the curve has passed the input. -/
theorem le_value_middle (hp : 0 ≤ p) (hx : x ∈ Set.Icc 0 1)
    (hbend : 1 ≤ 3 * (q - p)) : x ≤ (ofControl p q).value ((1 + x) / 2) := by
  have hx₀ := hx.1
  have hx₁ := sub_nonneg.2 hx.2
  have hbend' := sub_nonneg.2 hbend
  have hgap : (ofControl p q).value ((1 + x) / 2) = x
      + (1 - x) / 2 * ((1 - x) / 2 + 3 * p * ((1 + x) / 2)
        + (3 * (q - p) - 1) * ((1 + x) / 2) ^ 2) := by
    rw [value_ofControl]
    ring
  rw [hgap]
  exact le_add_of_nonneg_right (by positivity)

/-- Where the steps stay for an input that the curve is not above: between the
input and the middle of the rest, and before the point that the first step goes
to, or else where the curve is still below the input. -/
structure Between (f : Cubic α) (x t : α) : Prop where
  start_le : x ≤ t
  le_middle : t ≤ (1 + x) / 2
  first : f.slope x * (t - x) ≤ x - f.value x ∨ f.value t ≤ x

theorem Between.mem (h : Between f x t) (hx : x ∈ Set.Icc 0 1) :
    t ∈ Set.Icc 0 1 :=
  ⟨hx.1.trans h.start_le, h.le_middle.trans (by linarith [hx.2])⟩

theorem between_start (hx : x ≤ 1) (h : f.value x ≤ x) : Between f x x where
  start_le := le_rfl
  le_middle := by linarith
  first := .inr h

/-- A step back from a point where the curve is above the input. -/
theorem Between.back (hp : p ∈ Set.Icc 0 1) (hq : q ∈ Set.Icc 0 1)
    (hx : x ∈ Set.Icc 0 1) (hbend : 1 ≤ 3 * (q - p))
    (h : Between (ofControl p q) x t) (hslope : 0 < (ofControl p q).slope t)
    (habove : x < (ofControl p q).value t) :
    Between (ofControl p q) x (next (ofControl p q) x t) := by
  have hfirst := h.first.resolve_right habove.not_ge
  have ht : t ∈ Set.Icc 0 1 := h.mem hx
  have hback : next (ofControl p q) x t ≤ t :=
    next_le hslope (by rw [sub_self, mul_zero, add_zero]; exact habove.le)
  have hslope₀ : 0 ≤ (ofControl p q).slope x :=
    slope_nonneg hp hq hx (by linarith)
  refine ⟨le_next hslope ?_, hback.trans h.le_middle, .inl ?_⟩
  · have hgap : (ofControl p q).value t + (ofControl p q).slope t * (x - t) = x
        - ((x - (ofControl p q).value x - (ofControl p q).slope x * (t - x))
          + (t - x) / 2 * ((ofControl p q).slope x + ((ofControl p q).slope t
            - (3 * (q - p) - 1) * (t - x) ^ 2))) := by
      simp only [value_ofControl, slope_ofControl]
      ring
    have hs := sub_nonneg.2 h.start_le
    have hsquare : (t - x) ^ 2 ≤ t * (1 - t) := by
      rw [sq]
      exact mul_le_mul (sub_le_self t hx.1) (by linarith [h.le_middle]) hs ht.1
    have hbend' : (3 * (q - p) - 1) * (t - x) ^ 2 ≤ (ofControl p q).slope t :=
      (mul_le_mul (by linarith) hsquare (sq_nonneg _) (by linarith)).trans
        (le_slope hp hq)
    rw [hgap]
    exact sub_le_self x (add_nonneg (sub_nonneg.2 hfirst)
      (mul_nonneg (div_nonneg hs zero_le_two)
        (add_nonneg hslope₀ (sub_nonneg.2 hbend'))))
  · exact (mul_le_mul_of_nonneg_left (sub_le_sub_right hback x) hslope₀).trans
      hfirst

/-- A step on from a point where the curve is below the input. -/
theorem Between.on (hp : 0 ≤ p) (hx : x ∈ Set.Icc 0 1)
    (hbend : 1 ≤ 3 * (q - p))
    (h : Between (ofControl p q) x t) (hslope : 0 < (ofControl p q).slope t)
    (hslope₀ : 0 ≤ (ofControl p q).slope x)
    (hbelow : (ofControl p q).value t < x) :
    Between (ofControl p q) x (next (ofControl p q) x t) := by
  have ha : (ofControl p q).a ≤ 0 := by
    rw [ofControl_a]
    exact sub_nonpos.2 hbend
  have hmiddle := le_value_middle hp hx hbend
  have htangent := le_tangent_middle hp hx hbend
  have hnext := slope_mul_next (x := x) hslope.ne'
  generalize ofControl p q = f at *
  have hon : t ≤ next f x t :=
    le_next hslope (by rw [sub_self, mul_zero, add_zero]; exact hbelow.le)
  rcases le_total (3 * f.a * t + f.b) 0 with hdown | hup
  · -- The curve stays below the tangent.
    refine ⟨h.start_le.trans hon, next_le hslope ?_, .inr ?_⟩
    · exact hmiddle.trans (value_le_tangent ha hdown h.le_middle)
    · refine (value_le_tangent ha hdown hon).trans_eq ?_
      rw [hnext, add_sub_cancel]
  · -- The tangent passes above the one at the input.
    have hbefore : f.slope x * (t - x) ≤ x - f.value x := by
      have := tangent_le_tangent ha hup h.start_le le_rfl
      rw [sub_self, mul_zero, add_zero] at this
      linarith
    refine ⟨h.start_le.trans hon, next_le hslope ?_, .inl ?_⟩
    · exact htangent.trans (tangent_le_tangent ha hup h.start_le h.le_middle)
    · rcases hslope₀.eq_or_lt with hzero | hpos
      · rw [← hzero, zero_mul] at hbefore ⊢
        exact hbefore
      · have hfirst := slope_mul_next (x := x) hpos.ne'
        rw [← hfirst] at hbefore ⊢
        have hle := le_of_mul_le_mul_left hbefore hpos
        refine mul_le_mul_of_nonneg_left
          (sub_le_sub_right (next_le hslope ?_) x) hslope₀
        refine le_trans ?_ (tangent_le_tangent ha hup h.start_le
          ((sub_le_sub_iff_right x).1 hle))
        rw [hfirst, add_sub_cancel]

/-- Where the slope bends down, an input that the curve is not above is found
after it and inside. -/
theorem newton?_mem_of_le (hp : p ∈ Set.Icc 0 1) (hq : q ∈ Set.Icc 0 1)
    (hx : x ∈ Set.Icc 0 1) (hbend : 1 ≤ 3 * (q - p)) (hepsilon : 0 < epsilon)
    (hvalue : (ofControl p q).value x ≤ x)
    (h : newton? (ofControl p q) x epsilon n x = some y) : y ∈ Set.Icc 0 1 := by
  have hpq : p ≤ q := by linarith
  refine (newton?_invariant (I := Between (ofControl p q) x)
    (fun t ht hslope hfar => ?_) (between_start hx.2 hvalue) h).1.mem hx
  have hpos := (slope_nonneg hp hq (ht.mem hx) hpq).lt_of_ne' hslope
  have hne : (ofControl p q).value t ≠ x := by
    intro heq
    rw [heq, sub_self, abs_zero] at hfar
    exact hepsilon.not_ge hfar
  rcases hne.lt_or_gt with hbelow | habove
  · exact ht.on hp.1 hx hbend hpos (slope_nonneg hp hq hx hpq) hbelow
  · exact ht.back hp hq hx hbend hpos habove

/-- A parameter that Newton's method finds is one of the curve between its
ends. -/
theorem newton?_mem (hp : p ∈ Set.Icc 0 1) (hq : q ∈ Set.Icc 0 1)
    (hx : x ∈ Set.Icc 0 1) (hepsilon : 0 < epsilon)
    (hepsilon' : epsilon ≤ 1 / 16)
    (h : newton? (ofControl p q) x epsilon n x = some y) : y ∈ Set.Icc 0 1 := by
  have hmirror : newton? (ofControl (1 - q) (1 - p)) (1 - x) epsilon n (1 - x) =
      some (1 - y) := by
    rw [newton?_reflect, h, Option.map_some]
  have hp' := one_sub_mem hp
  have hq' := one_sub_mem hq
  have hx' := one_sub_mem hx
  have hswap : (1 - p) - (1 - q) = q - p := sub_sub_sub_cancel_left p q 1
  rcases le_total (3 * (q - p)) 1 with hup | hdown
  · have hlow := newton?_le_one hq' hp' hx' (hswap ▸ hup) hepsilon' hmirror
    exact ⟨by linarith, newton?_le_one hp hq hx hup hepsilon' h⟩
  rcases le_total ((ofControl p q).value x) x with hbelow | habove
  · exact newton?_mem_of_le hp hq hx hdown hepsilon hbelow h
  · have hvalue : (ofControl (1 - q) (1 - p)).value (1 - x) ≤ 1 - x := by
      rw [value_reflect]
      exact sub_le_sub_left habove 1
    have hmem := one_sub_mem
      (newton?_mem_of_le hq' hp' hx' (hswap ▸ hdown) hepsilon hvalue hmirror)
    rwa [sub_sub_cancel] at hmem

end MapStyle.Curve.Cubic
