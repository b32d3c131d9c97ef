import MapStyle.Geometry.Earth
import MapStyle.Proofs.Number.Bounded
import MapStyle.Proofs.Number.Nearest
import MapStyle.Proofs.Number.Units

/-!
# Which angles can be wrapped

A full turn is taken with rounding. Up to `2 ^ 62` the doubles are dense enough
for a turn to come out as 208 degrees or more (`turn_spec`), so that the loops
end, in the range from -180 to 180. Beyond it the doubles are 1024 apart and a
turn is rounded away (`turn_stuck`). So the loops end for NaN and for the angles
of at most that size, and for no others (`isSome_wrap?`).
-/

namespace MapStyle

namespace Number

variable {q y : ℚ}

/-- A full turn from an angle that is not too large, with rounding. -/
theorem turn_spec (hq : Representable q) (hlow : 180 < q) (hhigh : q ≤ 2 ^ 62)
    (hy : IsNearest (q - 360) y) : -180 ≤ y ∧ y ≤ q - 208 := by
  have habs : |q| = q := abs_of_pos (by linarith)
  rcases le_or_gt q (2 ^ 56) with hsmall | hlarge
  · -- With units of at most eight degrees the turn is exact.
    obtain ⟨k, e, hk, he, he', rfl⟩ := hq.of_abs_le (n := 3) (by decide)
      (by rw [habs]; linarith)
    obtain ⟨j, hj⟩ := Int.le.dest he'
    have hunits : (360 : ℚ) = ((45 * 2 ^ j : ℤ) : ℚ) * 2 ^ e := by
      have hpow : (2 : ℚ) ^ (j : ℤ) * 2 ^ e = 8 := by
        rw [← two_zpow_add, add_comm, hj]
        norm_num
      push_cast
      rw [mul_assoc, ← zpow_natCast, hpow]
      norm_num
    have hexact : Representable (k * 2 ^ e - 360) := by
      rw [hunits]
      refine representable_sub hk he ?_
      rw [← hunits, habs, abs_le]
      constructor <;> linarith
    rw [hy.eq_self hexact]
    constructor <;> linarith
  · -- With units of at most 512 degrees it is a turn of 512 degrees at most.
    obtain ⟨k, e, hk, he, he', rfl⟩ := hq.of_abs_le (n := 9) (by decide)
      (by rw [habs]; linarith)
    obtain ⟨j, hj⟩ := Int.le.dest he'
    have hunits : (512 : ℚ) = ((2 ^ j : ℤ) : ℚ) * 2 ^ e := by
      have hpow : (2 : ℚ) ^ (j : ℤ) * 2 ^ e = 512 := by
        rw [← two_zpow_add, add_comm, hj]
        norm_num
      push_cast
      rw [← zpow_natCast, hpow]
    have hrepresentable : Representable (k * 2 ^ e - 512) := by
      rw [hunits]
      refine representable_sub hk he ?_
      rw [← hunits, habs, abs_le]
      constructor <;> linarith
    have hnear := hy.2 _ hrepresentable
    rw [sub_sub_sub_cancel_left, abs_le,
      abs_of_neg (by norm_num : (360 - 512 : ℚ) < 0)] at hnear
    constructor <;> linarith

/-- A full turn from an angle that is too large is rounded away. -/
theorem turn_stuck (hq : Representable q) (hlow : 2 ^ 62 < q)
    (hy : IsNearest (q - 360) y) : 2 ^ 62 < y := by
  have hnext : Representable (2 ^ 62 + 1024) :=
    ⟨2 ^ 52 + 1, 10, by norm_num, by decide, by norm_num⟩
  have habs : |q| = q := abs_of_pos (by linarith)
  obtain ⟨k, hunits⟩ := hq.of_lt_abs (n := 9) (by rw [habs]; linarith)
  obtain rfl : q = k * 2 ^ 10 := hunits
  have hk : (2 : ℤ) ^ 52 < k := by
    have : (2 : ℚ) ^ 52 < k := by linarith
    exact_mod_cast this
  have hk : (2 : ℚ) ^ 52 + 1 ≤ k := by exact_mod_cast hk
  by_contra hle
  rcases le_or_gt (2 ^ 62 + 1024) ((k : ℚ) * 2 ^ 10 - 360) with h | h
  · have := hy.ge_of_ge hnext h
    linarith
  · have hnear := hy.2 _ hnext
    rw [abs_of_neg (by linarith), abs_of_pos (by linarith)] at hnear
    linarith

end Number

namespace Geometry.Ruler

/-! ## Loops -/

section Loops

variable {β : Type} {continues : β → Bool} {step : β → β} {start : β}

/-- A loop comes to an end from a state on. -/
inductive Ends (continues : β → Bool) (step : β → β) : β → Prop where
  | done {state : β} (h : continues state = false) : Ends continues step state
  | again {state : β} (h : continues state = true)
    (hnext : Ends continues step (step state)) : Ends continues step state

theorem Ends.next (hends : Ends continues step start)
    (h : continues start = true) : Ends continues step (step start) := by
  cases hends with
  | done hdone =>
      rw [h] at hdone
      cases hdone
  | again _ hnext => exact hnext

/-- A loop does not end if it keeps a property of which follows that it goes
on. -/
theorem not_ends {P : β → Prop}
    (hstep : ∀ state, P state → continues state = true ∧ P (step state))
    (hstart : P start) : ¬ Ends continues step start := by
  intro hends
  induction hends with
  | done hdone =>
      rw [(hstep _ hstart).1] at hdone
      cases hdone
  | again _ _ ih => exact ih (hstep _ hstart).2

theorem stepWhile_eq : stepWhile continues step start =
    if continues start then stepWhile continues step (step start)
    else start := by
  have : Nonempty β := ⟨start⟩
  show repeatM (m := Id) _ start = _
  rw [repeatM_eq_of_monadTail, repeatM.body]
  cases h : continues start with
  | true =>
      simp only [h, if_true]
      rfl
  | false =>
      simp only [h]
      rfl

open Classical in
/-- The state that a loop leaves behind, if it ends. -/
noncomputable def stepWhile? (continues : β → Bool) (step : β → β)
    (start : β) : Option β :=
  if Ends continues step start then some (stepWhile continues step start)
  else none

theorem eq_stepWhile {state : β} (h : stepWhile? continues step start = some state) :
    state = stepWhile continues step start := by
  rw [stepWhile?] at h
  split at h
  · exact (Option.some_inj.1 h).symm
  · cases h

theorem stepWhile?_of_done (h : continues start = false) :
    stepWhile? continues step start = some start := by
  rw [stepWhile?, if_pos (.done h), stepWhile_eq, h]
  rfl

theorem stepWhile?_of_continues (h : continues start = true) :
    stepWhile? continues step start =
      stepWhile? continues step (step start) := by
  by_cases hends : Ends continues step (step start)
  · rw [stepWhile?, stepWhile?, if_pos (.again h hends), if_pos hends,
      stepWhile_eq, if_pos h]
  · rw [stepWhile?, stepWhile?, if_neg fun hstart => hends (hstart.next h),
      if_neg hends]

theorem stepWhile?_eq_none {P : β → Prop}
    (hstep : ∀ state, P state → continues state = true ∧ P (step state))
    (hstart : P start) : stepWhile? continues step start = none :=
  if_neg (not_ends hstep hstart)

end Loops

variable {x y : Float}

noncomputable def raise? (deg : Float) : Option Float :=
  stepWhile? (fun deg => decide (deg < -((180 : ℕ) : Float)))
    (fun deg => deg + ((360 : ℕ) : Float)) deg

noncomputable def lower? (deg : Float) : Option Float :=
  stepWhile? (fun deg => decide (((180 : ℕ) : Float) < deg))
    (fun deg => deg - ((360 : ℕ) : Float)) deg

theorem raise?_of_lt (h : x < -((180 : ℕ) : Float)) :
    raise? x = raise? (x + ((360 : ℕ) : Float)) :=
  stepWhile?_of_continues (decide_eq_true h)

theorem raise?_of_not_lt (h : ¬ x < -((180 : ℕ) : Float)) :
    raise? x = some x :=
  stepWhile?_of_done (decide_eq_false h)

theorem lower?_of_gt (h : ((180 : ℕ) : Float) < x) :
    lower? x = lower? (x - ((360 : ℕ) : Float)) :=
  stepWhile?_of_continues (decide_eq_true h)

theorem lower?_of_not_gt (h : ¬ ((180 : ℕ) : Float) < x) :
    lower? x = some x :=
  stepWhile?_of_done (decide_eq_false h)

/-- The angle that the loops leave behind, if both end. -/
noncomputable def wrap? (deg : Float) : Option Float := do
  lower? (← raise? deg)

theorem eq_wrap (h : wrap? x = some y) : y = wrap x := by
  obtain ⟨raised, hraise, hlower⟩ := Option.bind_eq_some_iff.1 h
  rw [wrap, eq_stepWhile hlower, eq_stepWhile hraise]
  rfl

open Number

/-- The largest angle that full turns make a difference to. -/
def largestAngle : Float := 4611686018427387904

theorem largestAngle_lt : (2 : ℚ) ^ (62 : ℤ) < 2 ^ (1024 : ℤ) :=
  two_zpow_lt (by decide)

theorem value_halfTurn : ((180 : ℕ) : Float).isFinite = true ∧
    value ((180 : ℕ) : Float) = 180 :=
  value_ofNat_of_le (n := 180) (by decide)

theorem value_turn : ((360 : ℕ) : Float).isFinite = true ∧
    value ((360 : ℕ) : Float) = 360 :=
  value_ofNat_of_le (n := 360) (by decide)

theorem value_largestAngle :
    largestAngle.isFinite = true ∧ value largestAngle = 2 ^ 62 := by
  have h := value_ofNat (n := 4611686018427387904)
    (by exact_mod_cast representable_two_zpow (e := 62) (by decide))
    (by exact_mod_cast largestAngle_lt)
  exact ⟨h.1, by exact_mod_cast h.2⟩

/-! ## One turn -/

theorem lower_turn (hx : x.isFinite = true) (hlow : 180 < value x)
    (hhigh : value x ≤ 2 ^ 62) : (x - ((360 : ℕ) : Float)).isFinite = true ∧
      -180 ≤ value (x - ((360 : ℕ) : Float)) ∧
      value (x - ((360 : ℕ) : Float)) ≤ value x - 208 := by
  have hsub := roundsTo_sub hx value_turn.1
  rw [value_turn.2] at hsub
  obtain ⟨hfinite, hnear⟩ := hsub.nearest
    (representable_two_zpow (e := 62) (by decide))
    (by rw [abs_le]; constructor <;> norm_num at hhigh ⊢ <;> linarith)
    largestAngle_lt
  exact ⟨hfinite, turn_spec (representable_value x) hlow hhigh hnear⟩

theorem raise_turn (hx : x.isFinite = true) (hhigh : value x < -180)
    (hlow : -2 ^ 62 ≤ value x) : (x + ((360 : ℕ) : Float)).isFinite = true ∧
      value x + 208 ≤ value (x + ((360 : ℕ) : Float)) ∧
      value (x + ((360 : ℕ) : Float)) ≤ 180 := by
  have hadd := roundsTo_add hx value_turn.1
  rw [value_turn.2] at hadd
  obtain ⟨hfinite, hnear⟩ := hadd.nearest
    (representable_two_zpow (e := 62) (by decide))
    (by rw [abs_le]; constructor <;> norm_num at hlow ⊢ <;> linarith)
    largestAngle_lt
  have hneg := hnear.neg
  rw [neg_add'] at hneg
  obtain ⟨hlow', hhigh'⟩ := turn_spec (representable_value x).neg
    (by linarith) (by linarith) hneg
  exact ⟨hfinite, by linarith, by linarith⟩

/-- A turn down from beyond the largest angle ends beyond it. -/
theorem lower_stuck (hx : largestAngle < x) :
    largestAngle < x - ((360 : ℕ) : Float) := by
  rw [gt_iff_value value_largestAngle.1, value_largestAngle.2] at hx ⊢
  obtain hinf | ⟨hfinite, hlarge⟩ := hx
  · exact .inl (unpack_sub_infinity hinf value_turn.1)
  · have hsub := roundsTo_sub hfinite value_turn.1
    rw [value_turn.2] at hsub
    obtain ⟨hfinite', hnear⟩ := hsub.nearest (representable_value x)
      (by rw [abs_le]; constructor <;> norm_num at hlarge ⊢; linarith)
      ((le_abs_self _).trans_lt (abs_value_lt x))
    exact .inr ⟨hfinite', turn_stuck (representable_value x) hlarge hnear⟩

/-- A turn up from beyond the largest angle ends beyond it. -/
theorem raise_stuck (hx : x < -largestAngle) :
    x + ((360 : ℕ) : Float) < -largestAngle := by
  have hbound : (-largestAngle).isFinite = true := by
    rw [isFinite_neg, value_largestAngle.1]
  rw [lt_iff_value' hbound, value_neg, value_largestAngle.2] at hx ⊢
  obtain hinf | ⟨hfinite, hlarge⟩ := hx
  · exact .inl (unpack_add_infinity hinf value_turn.1)
  · have hadd := roundsTo_add hfinite value_turn.1
    rw [value_turn.2] at hadd
    obtain ⟨hfinite', hnear⟩ := hadd.nearest (representable_value x).neg
      (by rw [abs_le]; constructor <;> norm_num at hlarge ⊢; linarith)
      ((neg_le_abs _).trans_lt (abs_value_lt x))
    have hneg := hnear.neg
    rw [neg_add'] at hneg
    have := turn_stuck (representable_value x).neg (by linarith) hneg
    exact .inr ⟨hfinite', by linarith⟩

/-! ## Turns until the range is reached -/

theorem halfTurn_lt (hx : x.isFinite = true) :
    ((180 : ℕ) : Float) < x ↔ 180 < value x := by
  rw [lt_iff_value value_halfTurn.1 hx, value_halfTurn.2]

theorem lt_neg_halfTurn (hx : x.isFinite = true) :
    x < -((180 : ℕ) : Float) ↔ value x < -180 := by
  rw [lt_iff_value hx (by rw [isFinite_neg, value_halfTurn.1]), value_neg,
    value_halfTurn.2]

theorem lower?_of_le (hx : x.isFinite = true) (hhigh : value x ≤ 180) :
    lower? x = some x :=
  lower?_of_not_gt fun hlt => hhigh.not_gt ((halfTurn_lt hx).1 hlt)

theorem raise?_of_ge (hx : x.isFinite = true) (hlow : -180 ≤ value x) :
    raise? x = some x :=
  raise?_of_not_lt fun hlt => hlow.not_gt ((lt_neg_halfTurn hx).1 hlt)

theorem lower?_returns (n : ℕ) (hx : x.isFinite = true)
    (hlow : -180 ≤ value x) (hhigh : value x ≤ 2 ^ 62)
    (hn : value x ≤ 180 + 208 * n) :
    ∃ y, lower? x = some y ∧ y.isFinite = true ∧ |value y| ≤ 180 := by
  induction n generalizing x with
  | zero =>
      have hdone : value x ≤ 180 := by simpa using hn
      exact ⟨x, lower?_of_le hx hdone, hx, abs_le.2 ⟨hlow, hdone⟩⟩
  | succ n ih =>
      rcases le_or_gt (value x) 180 with hdone | hmore
      · exact ⟨x, lower?_of_le hx hdone, hx, abs_le.2 ⟨hlow, hdone⟩⟩
      · obtain ⟨hfinite, hlow', hless⟩ := lower_turn hx hmore hhigh
        push_cast at hn
        rw [lower?_of_gt ((halfTurn_lt hx).2 hmore)]
        exact ih hfinite hlow' (by linarith) (by linarith)

theorem raise?_returns (n : ℕ) (hx : x.isFinite = true)
    (hlow : -2 ^ 62 ≤ value x) (hhigh : value x ≤ 2 ^ 62)
    (hn : -(180 + 208 * n) ≤ value x) :
    ∃ y, raise? x = some y ∧ y.isFinite = true ∧ -180 ≤ value y ∧
      value y ≤ 2 ^ 62 := by
  induction n generalizing x with
  | zero =>
      have hdone : -180 ≤ value x := by simpa using hn
      exact ⟨x, raise?_of_ge hx hdone, hx, hdone, hhigh⟩
  | succ n ih =>
      rcases le_or_gt (-180) (value x) with hdone | hmore
      · exact ⟨x, raise?_of_ge hx hdone, hx, hdone, hhigh⟩
      · obtain ⟨hfinite, hless, hhigh'⟩ := raise_turn hx hmore hlow
        push_cast at hn
        rw [raise?_of_lt ((lt_neg_halfTurn hx).2 hmore)]
        exact ih hfinite (by linarith) (hhigh'.trans (by norm_num))
          (by linarith)

theorem wrap?_of_isNaN (hx : x.isNaN = true) : wrap? x = some x := by
  have hraise : ¬ x < -((180 : ℕ) : Float) := by
    rw [lt_iff_order, order_of_isNaN (.inl hx)]
    nofun
  have hlower : ¬ ((180 : ℕ) : Float) < x := by
    rw [lt_iff_order, order_of_isNaN (.inr hx)]
    nofun
  rw [wrap?, raise?_of_not_lt hraise, Option.bind_eq_bind, Option.bind_some,
    lower?_of_not_gt hlower]

theorem wrap?_returns (hx : Bounded 62 x) :
    ∃ y, wrap? x = some y ∧ Bounded 8 y := by
  rcases hx with hnan | ⟨hx, hle⟩
  · exact ⟨x, wrap?_of_isNaN hnan, .inl hnan⟩
  · obtain ⟨hlow, hhigh⟩ := abs_le.1 hle
    obtain ⟨m, hm⟩ := exists_nat_ge |value x|
    obtain ⟨hm, -⟩ := abs_le.1 hm
    obtain ⟨y, hraise, hy, hylow, hyhigh⟩ :=
      raise?_returns m hx hlow hhigh (by linarith)
    obtain ⟨n, hn⟩ := exists_nat_ge (value y)
    obtain ⟨z, hlower, hz, hrange⟩ :=
      lower?_returns n hy hylow hyhigh (by linarith)
    rw [wrap?, hraise]
    exact ⟨z, hlower, .inr ⟨hz, hrange.trans (by norm_num)⟩⟩

theorem wrap?_eq_wrap (hx : Bounded 62 x) : wrap? x = some (wrap x) := by
  obtain ⟨y, hy, -⟩ := wrap?_returns hx
  rw [hy, eq_wrap hy]

theorem bounded_wrap (hx : Bounded 62 x) : Bounded 8 (wrap x) := by
  obtain ⟨y, hy, hbounded⟩ := wrap?_returns hx
  rw [← eq_wrap hy]
  exact hbounded

/-! ## Angles beyond the largest one -/

theorem halfTurn_lt_largestAngle : ((180 : ℕ) : Float) < largestAngle := by
  rw [halfTurn_lt value_largestAngle.1, value_largestAngle.2]
  norm_num

theorem neg_largestAngle_lt_halfTurn :
    -largestAngle < -((180 : ℕ) : Float) := by
  rw [lt_neg_halfTurn (by rw [isFinite_neg, value_largestAngle.1]), value_neg,
    value_largestAngle.2]
  norm_num

theorem neg_halfTurn_lt_halfTurn :
    -((180 : ℕ) : Float) < ((180 : ℕ) : Float) := by
  rw [lt_iff_value (by rw [isFinite_neg, value_halfTurn.1]) value_halfTurn.1,
    value_neg, value_halfTurn.2]
  norm_num

theorem lower?_eq_none (hx : largestAngle < x) : lower? x = none :=
  stepWhile?_eq_none (fun _ h => ⟨decide_eq_true
    (Number.lt_trans halfTurn_lt_largestAngle h), lower_stuck h⟩) hx

theorem raise?_eq_none (hx : x < -largestAngle) : raise? x = none :=
  stepWhile?_eq_none (fun _ h => ⟨decide_eq_true
    (Number.lt_trans h neg_largestAngle_lt_halfTurn), raise_stuck h⟩) hx

/-- Above a half turn there is nothing to raise. -/
theorem raise?_of_halfTurn_lt (hx : ((180 : ℕ) : Float) < x) :
    raise? x = some x :=
  raise?_of_not_lt fun hlow => Number.lt_irrefl x
    (Number.lt_trans hlow (Number.lt_trans neg_halfTurn_lt_halfTurn hx))

theorem wrap?_of_lt_abs (hx : largestAngle < x.abs) : wrap? x = none := by
  rcases (lt_abs_iff value_largestAngle.1).1 hx with hhigh | hlow
  · rw [wrap?, raise?_of_halfTurn_lt
      (Number.lt_trans halfTurn_lt_largestAngle hhigh), Option.bind_eq_bind,
      Option.bind_some, lower?_eq_none hhigh]
  · rw [wrap?, raise?_eq_none hlow, Option.bind_eq_bind, Option.bind_none]

/-- The loops end for NaN and the angles up to the largest one, and for no
others. -/
theorem isSome_wrap? (x : Float) :
    (wrap? x).isSome = true ↔ ¬ largestAngle < x.abs := by
  refine ⟨fun h hx => ?_, fun h => ?_⟩
  · rw [wrap?_of_lt_abs hx] at h
    cases h
  · obtain ⟨y, hy, -⟩ := wrap?_returns
      ((bounded_iff value_largestAngle.1 value_largestAngle.2).2 h)
    rw [hy]
    rfl

end Geometry.Ruler

end MapStyle
