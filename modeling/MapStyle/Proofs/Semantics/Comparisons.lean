import MapStyle.Proofs.Filter.Operators
import MapStyle.Proofs.Outcome
import MapStyle.Semantics.Comparison

/-!
# Comparing the other way around

A comparison that succeeds says of two values what its operator holds of them
(`comparison_eq_ok_iff`), and it can only fail before it looks at which of them
is the greater one. So it is enough to turn around what operators hold of two
values (`Value.compared_mirror`), and to know which operators hold at once: of
two texts, or of two numbers other than NaN, exactly one of less, equal and
greater holds, and of a text and a number none (`Value.existsUnique_compared`,
`Value.compared_of_type_ne`).
-/

namespace MapStyle

namespace Comparator

/-- The operator that says the same of two operands that have changed places. -/
def mirror : Comparator → Comparator
  | .eq => .eq
  | .ne => .ne
  | .lt => .gt
  | .gt => .lt
  | .le => .ge
  | .ge => .le

variable (op : Comparator)

@[simp]
theorem mirror_mirror : op.mirror.mirror = op := by
  cases op <;> rfl

@[simp]
theorem isOrdering_mirror : op.mirror.isOrdering = op.isOrdering := by
  cases op <;> rfl

@[simp]
theorem admits_mirror : op.mirror.admits = op.admits := by
  funext ty
  cases op <;> cases ty <;> rfl

theorem holds_mirror (o : Ordering) : op.mirror.holds o.swap = op.holds o := by
  cases op <;> cases o <;> rfl

/-- The operator that holds of two values if they are ordered this way and not
otherwise. -/
def asking : Ordering → Comparator
  | .lt => .lt
  | .eq => .eq
  | .gt => .gt

end Comparator

/-- Where there is an order it decides about equality. -/
theorem Ranking.equals_iff_compare? {κ : Type} [LinearOrder κ] (K : Ranking κ)
    {v w : Value} (hv : K.rank v ≠ ⊥) :
    v.equals w = true ↔ v.compare? w = some .eq := by
  rw [K.equals_iff hv, K.compare?_eq hv]
  split
  · next hw => exact iff_of_false (hw ▸ hv) (Option.some_ne_none _).symm
  · rw [Option.some_inj, compare_eq_iff_eq]

namespace Value

/-- What an operator says of two values. -/
def compared (op : Comparator) (v w : Value) : Bool :=
  match op with
  | .eq => v.equals w
  | .ne => !v.equals w
  | op => (v.compare? w).any op.holds

variable {v w : Value}

theorem compare?_swap (v w : Value) :
    w.compare? v = (v.compare? w).map Ordering.swap := by
  cases v with
  | number x =>
      cases w with
      | number y =>
          rw [Ranking.compare?_number, Ranking.compare?_number,
            Number.order_swap x y]
      | _ => rfl
  | boolean a =>
      cases w with
      | boolean b => exact congrArg some Std.OrientedOrd.eq_swap
      | _ => rfl
  | string s =>
      cases w with
      | string t =>
          rw [compare?, compare?, ← LinearOrder.compare_eq_compareOfLessAndEq,
            ← LinearOrder.compare_eq_compareOfLessAndEq]
          exact congrArg some Std.OrientedOrd.eq_swap
      | _ => rfl
  | _ => cases w <;> rfl

theorem compared_mirror (op : Comparator) (v w : Value) :
    compared op.mirror w v = compared op v w := by
  have hany (op : Comparator) : (w.compare? v).any op.mirror.holds =
      (v.compare? w).any op.holds := by
    rw [compare?_swap v w, Option.any_map]
    exact congrArg ((v.compare? w).any ·) (funext op.holds_mirror)
  cases op with
  | eq => exact equals_comm w v
  | ne => exact congrArg not (equals_comm w v)
  | lt => exact hany .lt
  | gt => exact hany .gt
  | le => exact hany .le
  | ge => exact hany .ge

/-! ## Values that have an order -/

/-- A text, or a number other than NaN. -/
inductive IsOrdered : Value → Prop
  | string (s : String) : IsOrdered (.string s)
  | number {x : Float} (hx : x.isNaN = false) : IsOrdered (.number x)

theorem compared_asking (hv : v.IsOrdered) (o : Ordering) :
    compared (.asking o) v w = true ↔ v.compare? w = some o := by
  have hany (op : Comparator) (hop : ∀ o', op.holds o' = (o' == o)) :
      (v.compare? w).any op.holds = true ↔ v.compare? w = some o := by
    cases v.compare? w with
    | none => exact iff_of_false Bool.false_ne_true nofun
    | some o' =>
        rw [Option.any_some, hop, beq_iff_eq, Option.some_inj]
  cases o with
  | lt => exact hany .lt fun _ => rfl
  | gt => exact hany .gt fun _ => rfl
  | eq =>
      cases hv with
      | string s =>
          exact Ranking.strings.equals_iff_compare? WithBot.coe_ne_bot
      | number hx =>
          exact Ranking.numbers.equals_iff_compare?
            (mt Number.rank_eq_bot.1 (Bool.eq_false_iff.1 hx))

/-- There is an order between values of one kind only. -/
theorem isSome_compare?_iff (hv : v.IsOrdered) (hw : w.IsOrdered) :
    (v.compare? w).isSome = true ↔ v.type = w.type := by
  cases hv with
  | string s =>
      cases hw with
      | string t => exact iff_of_true rfl rfl
      | number => exact iff_of_false Bool.false_ne_true nofun
  | number hx =>
      cases hw with
      | string t => exact iff_of_false Bool.false_ne_true nofun
      | number hy =>
          rw [Ranking.compare?_number, Number.order_eq_rank hx,
            if_neg (mt Number.rank_eq_bot.1 (Bool.eq_false_iff.1 hy))]
          exact iff_of_true rfl rfl

/-- Of two values of one kind exactly one of the orders holds, and none of
others. -/
theorem existsUnique_compared_iff (hv : v.IsOrdered) (hw : w.IsOrdered) :
    (∃! o, compared (.asking o) v w = true) ↔ v.type = w.type := by
  simp only [compared_asking hv, ← isSome_compare?_iff hv hw,
    Option.isSome_iff_exists]
  exact ⟨fun ⟨o, ho, _⟩ => ⟨o, ho⟩, fun ⟨o, ho⟩ =>
    ⟨o, ho, fun o' ho' => Option.some_inj.1 (ho'.symm.trans ho)⟩⟩

end Value

namespace Semantics

theorem orderable_comm (s t : Ty) : orderable s t = orderable t s := by
  cases s <;> cases t <;> rfl

variable {op : Comparator} {untyped : Bool} {lhs rhs : Outcome} {r : Value}

/-- Two values are compared, unless an order is asked for between values of
unknown types that have none. -/
theorem comparison_ok (v w : Value) :
    comparison op untyped (.ok v) (.ok w) =
      if op.isOrdering && untyped && !orderable v.type w.type then
        .error (.notComparable op v.type w.type)
      else .ok (.boolean (Value.compared op v w)) := by
  cases op <;> rfl

/-- A comparison that succeeds says what its operator holds of the values. -/
theorem comparison_eq_ok_iff :
    comparison op untyped lhs rhs = .ok r ↔
      ∃ v w, lhs = .ok v ∧ rhs = .ok w ∧
        (op.isOrdering = true → untyped = true →
          orderable v.type w.type = true) ∧
        r = .boolean (Value.compared op v w) := by
  constructor
  · intro h
    obtain ⟨v, rfl, hrest⟩ := ok_of_bind h
    obtain ⟨w, rfl, -⟩ := ok_of_bind hrest
    rw [comparison_ok] at h
    split at h
    · cases h
    · next hpasses =>
        cases h
        refine ⟨v, w, rfl, rfl, fun hop huntyped => ?_, rfl⟩
        simpa [hop, huntyped] using hpasses
  · rintro ⟨v, w, rfl, rfl, horder, rfl⟩
    rw [comparison_ok, if_neg]
    simpa using horder

theorem comparison_mirror :
    comparison op.mirror untyped rhs lhs = .ok r ↔
      comparison op untyped lhs rhs = .ok r := by
  simp only [comparison_eq_ok_iff, Comparator.isOrdering_mirror]
  constructor
  · rintro ⟨w, v, hw, hv, horder, rfl⟩
    refine ⟨v, w, hv, hw, fun hop huntyped => ?_, ?_⟩
    · rw [orderable_comm]
      exact horder hop huntyped
    · rw [Value.compared_mirror]
  · rintro ⟨v, w, hv, hw, horder, rfl⟩
    refine ⟨w, v, hw, hv, fun hop huntyped => ?_, ?_⟩
    · rw [orderable_comm]
      exact horder hop huntyped
    · rw [Value.compared_mirror]

end Semantics

end MapStyle
