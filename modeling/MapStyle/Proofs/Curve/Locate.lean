import MapStyle.Proofs.Number.Ordered
import MapStyle.Semantics.Curve

/-!
# Finding the stop of an input

A curve finds the stop of an input by halving. With labels in ascending order
that is the last stop whose label the input has reached, for the places that are
reached are then those up to it (`reaches_iff`), and halving finds the last of
them (`lastReached_eq`). The first and the last stop, which are looked at
before, are no exceptions. So a step has the output of the one stop whose label
is not above the input while the next label is (`step_eq`).
-/

namespace MapStyle

namespace Curve

open Number (Ordered)

variable {reached : Nat → Bool}

theorem lastReached_lt (start : Nat) {size : Nat} (hsize : 0 < size) :
    lastReached reached start size < start + size := by
  induction start, size using lastReached.induct reached with
  | case1 start size hone =>
      rw [lastReached, if_pos hone]
      omega
  | case2 start size hone hreached ih =>
      rw [lastReached, if_neg hone, if_pos hreached]
      have := ih (by omega)
      omega
  | case3 start size hone hreached ih =>
      rw [lastReached, if_neg hone, if_neg hreached]
      have := ih (by omega)
      omega

/-- A search that leaves the place where it starts ends at a place that is
reached. -/
theorem reached_lastReached (start size : Nat) :
    lastReached reached start size = start ∨
      reached (lastReached reached start size) = true := by
  induction start, size using lastReached.induct reached with
  | case1 start size hone =>
      rw [lastReached, if_pos hone]
      exact .inl rfl
  | case2 start size hone hreached ih =>
      rw [lastReached, if_neg hone, if_pos hreached]
      refine .inr (ih.elim (fun heq => ?_) id)
      rw [heq]
      exact hreached
  | case3 start size hone hreached ih =>
      rw [lastReached, if_neg hone, if_neg hreached]
      exact ih

section Locate

variable {α β : Type} [LE α] [DecidableLE α] [BEq α] {a : α × β}
  {rest : List (α × β)} {x : α}

theorem locate_first (h : x ≤ a.1) : locate (a :: rest) x = .stop a.2 := by
  simp only [locate, h, if_true]

theorem locate_last (h : ¬ x ≤ a.1) (hlast : (rest.getLastD a).1 ≤ x) :
    locate (a :: rest) x = .stop (rest.getLastD a).2 := by
  simp only [locate, h, hlast, if_true, if_false]

theorem locate_unordered (h : ¬ x ≤ a.1) (hlast : ¬ (rest.getLastD a).1 ≤ x)
    (hx : (!(x == x)) = true) : locate (a :: rest) x = .unordered := by
  simp only [locate, h, hlast, hx, if_true, if_false]

theorem locate_between (h : ¬ x ≤ a.1) (hlast : ¬ (rest.getLastD a).1 ≤ x)
    (hx : ¬ (!(x == x)) = true) {lower upper : α × β}
    (hlower : (a :: rest)[lastReached (reaches (a :: rest) x) 0
      (rest.length + 1)]? = some lower)
    (hupper : rest[lastReached (reaches (a :: rest) x) 0
      (rest.length + 1)]? = some upper) :
    locate (a :: rest) x = .between lower.1 upper.1 lower.2 upper.2 := by
  have hzip := List.getElem?_zip_eq_some (z := (lower, upper)).2
    ⟨hlower, hupper⟩
  simp only [locate, h, hlast, hx, if_false, List.length_cons, hzip,
    Bool.false_eq_true]

end Locate

theorem getElem?_length {α : Type} (a : α) (rest : List α) :
    (a :: rest)[rest.length]? = some (rest.getLastD a) := by
  induction rest generalizing a with
  | nil => rfl
  | cons b rest ih =>
      rw [List.getLastD_cons]
      exact ih b

/-! ## Labels in ascending order -/

/-- Halving finds the last place up to which all are reached. -/
theorem lastReached_eq {start size i : Nat} (hstart : start ≤ i)
    (hi : i < start + size) (hreached : ∀ j, start ≤ j → j < start + size →
      (reached j = true ↔ j ≤ i)) : lastReached reached start size = i := by
  induction start, size using lastReached.induct reached with
  | case1 start size hone =>
      rw [lastReached, if_pos hone]
      omega
  | case2 start size hone hhalf ih =>
      have hle := (hreached (start + size / 2) (by omega) (by omega)).1 hhalf
      rw [lastReached, if_neg hone, if_pos hhalf]
      exact ih hle (by omega)
        fun j hj hj' => hreached j (by omega) (by omega)
  | case3 start size hone hhalf ih =>
      have hlt := mt (hreached (start + size / 2) (by omega) (by omega)).2 hhalf
      rw [lastReached, if_neg hone, if_neg hhalf]
      exact ih hstart (by omega) fun j hj hj' => hreached j hj (by omega)

variable {α β : Type} [LT α] [LE α] [DecidableLE α] [BEq α]
  [Ordered α] {stops : List (α × β)} {x : α} {i : Nat} {s : α × β}

omit [LE α] [DecidableLE α] [BEq α] [Ordered α] in
theorem lt_of_ascending (h : (stops.map Prod.fst).Pairwise (· < ·))
    {j k : Nat} {t u : α × β} (ht : stops[j]? = some t)
    (hu : stops[k]? = some u) (hjk : j < k) : t.1 < u.1 := by
  obtain ⟨hj, rfl⟩ := List.getElem?_eq_some_iff.1 ht
  obtain ⟨hk, rfl⟩ := List.getElem?_eq_some_iff.1 hu
  exact List.pairwise_iff_getElem.1 (List.pairwise_map.1 h) j k hj hk hjk

/-- The labels that an input reaches are those up to the last one that is not
above it. -/
theorem reaches_iff (h : (stops.map Prod.fst).Pairwise (· < ·))
    (hs : stops[i]? = some s) (hle : s.1 ≤ x)
    (hnext : ∀ n, stops[i + 1]? = some n → x < n.1) {j : Nat}
    (hj : j < stops.length) : reaches stops x j = true ↔ j ≤ i := by
  have hlabel := List.getElem?_eq_getElem hj
  rw [reaches, hlabel]
  show decide (stops[j].1 ≤ x) = true ↔ j ≤ i
  rw [decide_eq_true_iff]
  constructor
  · intro hreached
    by_contra hij
    have hsucc : i + 1 < stops.length := by omega
    have hnext := hnext _ (List.getElem?_eq_getElem hsucc)
    rcases Nat.lt_or_eq_of_le (Nat.lt_of_not_le hij) with hlt | heq
    · have hbefore := lt_of_ascending h
        (List.getElem?_eq_getElem hsucc) hlabel hlt
      exact Ordered.not_lt_of_le hreached (Ordered.lt_trans hnext hbefore)
    · simp only [Nat.succ_eq_add_one] at heq
      subst heq
      exact Ordered.not_lt_of_le hreached hnext
  · intro hji
    rcases Nat.lt_or_eq_of_le hji with hlt | rfl
    · have hbefore := lt_of_ascending h hlabel hs hlt
      exact Ordered.le_of_lt (Ordered.lt_of_lt_of_le hbefore hle)
    · obtain rfl := Option.some.inj (hlabel.symm.trans hs)
      exact hle

/-- An input that reaches the first label has a last one that it reaches. -/
theorem exists_last_reached {a : α × β} {rest : List (α × β)}
    (h : ((a :: rest).map Prod.fst).Pairwise (· < ·)) (hle : a.1 ≤ x) :
    ∃ i s, (a :: rest)[i]? = some s ∧ s.1 ≤ x ∧
      ∀ n, (a :: rest)[i + 1]? = some n → x < n.1 := by
  induction rest generalizing a with
  | nil => exact ⟨0, a, rfl, hle, nofun⟩
  | cons b rest ih =>
      obtain ⟨hfirst, hrest⟩ := List.pairwise_cons.1 h
      by_cases hb : b.1 ≤ x
      · obtain ⟨i, s, hs, hle, hnext⟩ := ih hrest hb
        exact ⟨i + 1, s, hs, hle, hnext⟩
      · have hab : a.1 ≤ b.1 := Ordered.le_of_lt (hfirst b.1 List.mem_cons_self)
        have hxb := Ordered.lt_of_not_le hab hle hb
        refine ⟨0, a, rfl, hle, ?_⟩
        rintro n hn
        obtain rfl := Option.some.inj hn
        exact hxb

/-- Of the labels that an input reaches, the last one is the greatest. -/
theorem le_of_reached (h : (stops.map Prod.fst).Pairwise (· < ·))
    (hs : stops[i]? = some s) (hle : s.1 ≤ x)
    (hnext : ∀ n, stops[i + 1]? = some n → x < n.1) {t : α × β}
    (ht : t ∈ stops) (hreached : t.1 ≤ x) : t.1 ≤ s.1 := by
  obtain ⟨j, hj⟩ := List.mem_iff_getElem?.1 ht
  obtain ⟨hlt, -⟩ := List.getElem?_eq_some_iff.1 hj
  have hreaches : reaches stops x j = true := by
    rw [reaches, hj]
    exact decide_eq_true hreached
  rcases Nat.lt_or_eq_of_le ((reaches_iff h hs hle hnext hlt).1 hreaches) with
    hji | rfl
  · exact Ordered.le_of_lt (lt_of_ascending h hj hs hji)
  · obtain rfl := Option.some.inj (hj.symm.trans hs)
    exact Ordered.le_refl_of_le hle

/-- An input between the first and the last label is between the last one that
it reaches and the next one. -/
theorem locate_reached {a upper : α × β} {rest : List (α × β)}
    (h : ((a :: rest).map Prod.fst).Pairwise (· < ·)) (hlow : ¬ x ≤ a.1)
    (hs : (a :: rest)[i]? = some s) (hle : s.1 ≤ x)
    (hupper : (a :: rest)[i + 1]? = some upper) (hlt : x < upper.1) :
    locate (a :: rest) x = .between s.1 upper.1 s.2 upper.2 := by
  have hnext : ∀ n, (a :: rest)[i + 1]? = some n → x < n.1 := fun n hn =>
    Option.some.inj (hupper.symm.trans hn) ▸ hlt
  have hreaches {j : Nat} := reaches_iff h hs hle hnext (j := j)
  obtain ⟨hi, -⟩ := List.getElem?_eq_some_iff.1 hupper
  have hlength : (a :: rest).length = rest.length + 1 := rfl
  have hfound : lastReached (reaches (a :: rest) x) 0 (rest.length + 1) = i :=
    lastReached_eq (Nat.zero_le i) (by omega) fun j _ hj => hreaches (by omega)
  have hhigh : ¬ (rest.getLastD a).1 ≤ x := by
    intro hhigh
    have hend : rest.length ≤ i := by
      refine (hreaches (by omega)).1 ?_
      rw [reaches, getElem?_length a rest]
      exact decide_eq_true hhigh
    omega
  have hnumber := Ordered.beq_refl_of_le hle
  rw [List.getElem?_cons_succ] at hupper
  rw [← hfound] at hs hupper
  exact locate_between hlow hhigh (by simp [hnumber]) hs hupper

/-- NaN falls nowhere. -/
theorem locate_of_isNaN {a : Float × β} {rest : List (Float × β)} {x : Float}
    (hx : x.isNaN = true) : locate (a :: rest) x = .unordered := by
  refine locate_unordered (Number.not_le_of_isNaN (.inl hx))
    (Number.not_le_of_isNaN (.inr hx)) ?_
  rw [Number.beq_of_isNaN hx]
  rfl

end Curve

namespace Semantics

variable {stops : List (Float × Outcome)} {x : Float} {i : Nat}
  {s : Float × Outcome}

/-! ## Steps -/

/-- A step with several stops looks for its input among them. -/
theorem step_several (a b : Float × Outcome) (rest : List (Float × Outcome))
    (x : Float) : step (.ok (.number x)) (a :: b :: rest) =
      match Curve.locate (a :: b :: rest) x with
      | .stop output | .between _ _ output _ => output
      | .unordered => .error .inputNotANumber
      | .nowhere => .error .missingOperand := by
  rfl

/-- A step has the output of the last stop whose label is not above its
input. -/
theorem step_eq (h : (stops.map Prod.fst).Pairwise (· < ·))
    (hs : stops[i]? = some s) (hle : s.1 ≤ x)
    (hnext : ∀ n, stops[i + 1]? = some n → x < n.1) :
    step (.ok (.number x)) stops = s.2 := by
  obtain ⟨hi, -⟩ := List.getElem?_eq_some_iff.1 hs
  rcases stops with _ | ⟨a, _ | ⟨b, rest⟩⟩
  · cases hs
  · obtain rfl : i = 0 := by simpa using hi
    obtain rfl := Option.some.inj hs
    rfl
  · rw [step_several]
    by_cases hlow : x ≤ a.1
    · have hzero : i = 0 := by
        by_contra hpos
        have hbefore := Curve.lt_of_ascending h (t := a) (j := 0) rfl hs
          (Nat.pos_of_ne_zero hpos)
        exact Number.not_lt_of_le hlow (Number.lt_of_lt_of_le hbefore hle)
      subst hzero
      obtain rfl := Option.some.inj hs
      rw [Curve.locate_first hlow]
    · cases hupper : (a :: b :: rest)[i + 1]? with
      | some upper =>
          rw [Curve.locate_reached h hlow hs hle hupper (hnext _ hupper)]
      | none =>
          have hlast := Curve.getElem?_length a (b :: rest)
          have hend := List.getElem?_eq_none_iff.1 hupper
          obtain rfl : i = (b :: rest).length := by
            simp only [List.length_cons] at hi hend ⊢
            omega
          obtain rfl := Option.some.inj (hlast.symm.trans hs)
          rw [Curve.locate_last hlow hle]

theorem step_of_isNaN (hstops : 2 ≤ stops.length) (hx : x.isNaN = true) :
    step (.ok (.number x)) stops = .error .inputNotANumber := by
  rcases stops with _ | ⟨a, _ | ⟨b, rest⟩⟩
  · cases hstops
  · exact absurd hstops (by simp)
  · rw [step_several, Curve.locate_of_isNaN hx]

/-! ## Interpolations -/

variable {ty : Ty} {space : ColorSpace} {kind : Interpolation}

/-- An interpolation with several stops looks for its input among them. -/
theorem interpolate_several (a b : Float × Outcome)
    (rest : List (Float × Outcome)) (x : Float) :
    interpolate ty space kind (.ok (.number x)) (a :: b :: rest) =
      match Curve.locate (a :: b :: rest) x with
      | .stop output => output
      | .between lower upper first second =>
          blendOutputs ty space (kind.factor x lower upper) first second
      | .unordered => .error .inputNotANumber
      | .nowhere => .error .missingOperand := by
  rfl

theorem interpolate_of_isNaN (hstops : 2 ≤ stops.length)
    (hx : x.isNaN = true) :
    interpolate ty space kind (.ok (.number x)) stops =
      .error .inputNotANumber := by
  rcases stops with _ | ⟨a, _ | ⟨b, rest⟩⟩
  · cases hstops
  · exact absurd hstops (by simp)
  · rw [interpolate_several, Curve.locate_of_isNaN hx]

variable {a : Float × Outcome}

theorem interpolate_first (hstops : 2 ≤ stops.length)
    (ha : stops.head? = some a) (hlow : x ≤ a.1) :
    interpolate ty space kind (.ok (.number x)) stops = a.2 := by
  rcases stops with _ | ⟨_, _ | ⟨b, rest⟩⟩
  · cases hstops
  · exact absurd hstops (by simp)
  · obtain rfl := Option.some.inj ha
    rw [interpolate_several, Curve.locate_first hlow]

theorem interpolate_last (h : (stops.map Prod.fst).Pairwise (· < ·))
    (hstops : 2 ≤ stops.length) (ha : stops.getLast? = some a)
    (hhigh : a.1 ≤ x) :
    interpolate ty space kind (.ok (.number x)) stops = a.2 := by
  rcases stops with _ | ⟨first, _ | ⟨b, rest⟩⟩
  · cases hstops
  · exact absurd hstops (by simp)
  · have hlast := Curve.getElem?_length first (b :: rest)
    obtain rfl : (b :: rest).getLastD first = a := by
      rw [List.getLast?_eq_getElem?] at ha
      exact Option.some.inj (hlast.symm.trans ha)
    have hlow : ¬ x ≤ first.1 := fun hlow =>
      Number.not_lt_of_le hlow (Number.lt_of_lt_of_le
        (Curve.lt_of_ascending h (j := 0) rfl hlast (by simp)) hhigh)
    rw [interpolate_several, Curve.locate_last hlow hhigh]

/-- Between the first and the last label, an interpolation blends the outputs of
the last stop that its input reaches and of the next one. -/
theorem interpolate_between (ty : Ty) (space : ColorSpace)
    (kind : Interpolation) (h : (stops.map Prod.fst).Pairwise (· < ·))
    {first last : Float × Outcome} (hstops : 2 ≤ stops.length)
    (hfirst : stops.head? = some first) (hlast : stops.getLast? = some last)
    (hlow : ¬ x ≤ first.1) (hhigh : ¬ last.1 ≤ x) (hx : x.isNaN = false) :
    ∃ i lower upper, stops[i]? = some lower ∧ stops[i + 1]? = some upper ∧
      lower.1 ≤ x ∧ x < upper.1 ∧
      interpolate ty space kind (.ok (.number x)) stops =
        blendOutputs ty space (kind.factor x lower.1 upper.1) lower.2
          upper.2 := by
  rcases stops with _ | ⟨a, _ | ⟨b, rest⟩⟩
  · cases hstops
  · exact absurd hstops (by simp)
  · obtain rfl : a = first := Option.some.inj hfirst
    have hab := (List.pairwise_cons.1 h).1 b.1 List.mem_cons_self
    have hreached := Number.le_of_lt
      (Number.lt_of_not_le hx (Number.isNaN_left_of_lt hab) hlow)
    obtain ⟨i, lower, hlower, hle, hnext⟩ :=
      Curve.exists_last_reached h hreached
    cases hupper : (a :: b :: rest)[i + 1]? with
    | none =>
        have hend := List.getElem?_eq_none_iff.1 hupper
        obtain ⟨hi, -⟩ := List.getElem?_eq_some_iff.1 hlower
        have hi : i = (a :: b :: rest).length - 1 := by omega
        rw [List.getLast?_eq_getElem?, ← hi, hlower] at hlast
        exact absurd hle (Option.some.inj hlast ▸ hhigh)
    | some upper =>
        refine ⟨i, lower, upper, hlower, hupper, hle, hnext _ hupper, ?_⟩
        rw [interpolate_several,
          Curve.locate_reached h hlow hlower hle hupper (hnext _ hupper)]

end Semantics

end MapStyle
