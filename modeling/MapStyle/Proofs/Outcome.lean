import MapStyle.EvalError

/-!
# Taking outcomes apart

Rules of evaluation and of compilation are written in the error monad. What a
successful run of one of them has done is read off bind by bind with
`ok_of_bind` and check by check with `ok_of_guard`; where a rule asks an outcome
for a number, a boolean or a color, the outcome was one.
-/

namespace MapStyle

variable {ε α β : Type}

/-- A sequence that succeeds has succeeded in its first step. -/
theorem ok_of_bind {x : Except ε α} {f : α → Except ε β} {b : β}
    (h : x >>= f = .ok b) : ∃ a, x = .ok a ∧ f a = .ok b := by
  cases x with
  | error e => cases h
  | ok a => exact ⟨a, rfl, h⟩

theorem ok_of_pure {a b : α} (h : (pure a : Except ε α) = .ok b) : a = b := by
  cases h
  rfl

/-- A sequence that fails first under a condition, and succeeds, succeeds
without it. -/
theorem ok_of_guard {c : Prop} [Decidable c] {e : ε}
    {f : PUnit → Except ε β} {b : β}
    (h : (if c then throw e >>= f else f ⟨⟩) = .ok b) : ¬ c ∧ f ⟨⟩ = .ok b := by
  split at h
  · cases h
  · next hc => exact ⟨hc, h⟩

theorem Outcome.number_ok {o : Outcome} {x : Float} (h : o.number = .ok x) :
    o = .ok (.number x) := by
  obtain ⟨v, rfl, h⟩ := ok_of_bind h
  cases v <;> cases h
  rfl

theorem Outcome.boolean_ok {o : Outcome} {b : Bool} (h : o.boolean = .ok b) :
    o = .ok (.boolean b) := by
  obtain ⟨v, rfl, h⟩ := ok_of_bind h
  cases v <;> cases h
  rfl

theorem Outcome.color_ok {o : Outcome} {c : Color} (h : o.color = .ok c) :
    o = .ok (.color c) := by
  obtain ⟨v, rfl, h⟩ := ok_of_bind h
  cases v <;> cases h
  rfl

end MapStyle
