import Mathlib.Data.List.Forall2
import MapStyle.Expr.Evaluate
import MapStyle.Proofs.Outcome

/-!
# What checks of types change

The compiler checks the type of a value where it is not known, by an assertion
that fails or passes the value on. `Checks` relates the outcome of a tree with
such checks to that of the tree without them: a value is the same on both sides
unless a check on the first side fails.

Each rule of evaluation that hands on the outcome of one of its operands
respects the relation in that operand. The operands that decide which one is
handed on have to be the same on both sides.
-/

namespace MapStyle

/-- The first run has the result of the second, or fails because a value is not
of the type that it is checked for. Nothing is said where the second fails. -/
def Checks {α : Type} (x x' : Except EvalError α) : Prop :=
  ∀ a, x' = .ok a → x = .ok a ∨ ∃ t u, x = .error (.typeMismatch t u)

namespace Checks

variable {α β : Type} {x x' : Except EvalError α}

theorem refl (x : Except EvalError α) : Checks x x :=
  fun _ => .inl

theorem of_error {failure : EvalError} : Checks x (.error failure) := nofun

theorem bind {f f' : α → Except EvalError β} (h : Checks x x')
    (hf : ∀ a, x' = .ok a → Checks (f a) (f' a)) :
    Checks (x >>= f) (x' >>= f') := by
  cases x' with
  | error failure => exact of_error
  | ok a =>
      rcases h a rfl with rfl | ⟨t, u, rfl⟩
      · exact hf a rfl
      · exact fun _ _ => .inr ⟨t, u, rfl⟩

/-- A step that both runs take on the same value. -/
theorem bind_same {f f' : α → Except EvalError β} (x : Except EvalError α)
    (hf : ∀ a, Checks (f a) (f' a)) : Checks (x >>= f) (x >>= f') :=
  bind (refl x) fun a _ => hf a

end Checks

/-- Results that are related, behind the same key. -/
def SameKey {α β γ : Type} (R : β → γ → Prop) (p : α × β) (q : α × γ) : Prop :=
  p.1 = q.1 ∧ R p.2 q.2

/-! ## Where an input falls -/

namespace Curve

variable {α β γ : Type} {R : β → γ → Prop}

/-- Spots of the same kind, with related outputs. -/
inductive Spot.Related (R : β → γ → Prop) : Spot α β → Spot α γ → Prop where
  | nowhere : Related R .nowhere .nowhere
  | unordered : Related R .unordered .unordered
  | stop {b : β} {c : γ} (h : R b c) : Related R (.stop b) (.stop c)
  | between {lower upper : α} {b b' : β} {c c' : γ} (h : R b c)
      (h' : R b' c') :
      Related R (.between lower upper b b') (.between lower upper c c')

theorem getElem?_related {as : List β} {bs : List γ}
    (h : List.Forall₂ R as bs) (i : Nat) : Option.Rel R as[i]? bs[i]? := by
  induction h generalizing i with
  | nil => exact .none
  | cons hab _ ih =>
      cases i with
      | zero => exact .some hab
      | succ i => exact ih i

theorem zip_related {β' γ' : Type} {R' : β' → γ' → Prop} {as : List β}
    {bs : List γ} {as' : List β'} {bs' : List γ'} (h : List.Forall₂ R as bs)
    (h' : List.Forall₂ R' as' bs') :
    List.Forall₂ (fun p q => R p.1 q.1 ∧ R' p.2 q.2) (as.zip as')
      (bs.zip bs') := by
  induction h generalizing as' bs' with
  | nil => exact .nil
  | cons hab _ ih =>
      cases h' with
      | nil => exact .nil
      | cons hab' h' => exact .cons ⟨hab, hab'⟩ (ih h')

variable {stops : List (α × β)} {stops' : List (α × γ)}

theorem getLastD_related {p : α × β} {q : α × γ} (hpq : SameKey R p q)
    (h : List.Forall₂ (SameKey R) stops stops') :
    SameKey R (stops.getLastD p) (stops'.getLastD q) := by
  induction h generalizing p q with
  | nil => exact hpq
  | cons hab _ ih =>
      rw [List.getLastD_cons, List.getLastD_cons]
      exact ih hab

variable [LE α] [DecidableLE α]

theorem reaches_congr (h : List.Forall₂ (SameKey R) stops stops') (x : α) :
    reaches stops x = reaches stops' x := by
  funext i
  have hi := getElem?_related h i
  simp only [reaches]
  generalize stops[i]? = p at hi ⊢
  generalize stops'[i]? = q at hi ⊢
  cases hi with
  | none => rfl
  | some hpq => exact congrArg (fun label => decide (label ≤ x)) hpq.1

omit [LE α] [DecidableLE α] in
theorem between_related {s : Option ((α × β) × (α × β))}
    {s' : Option ((α × γ) × (α × γ))} {b : β} {c : γ} (hbc : R b c) :
    Option.Rel (fun p q => SameKey R p.1 q.1 ∧ SameKey R p.2 q.2) s s' →
    Spot.Related R
      (match s with
        | some ((lower, first), (upper, second)) =>
          .between lower upper first second
        | none => .stop b)
      (match s' with
        | some ((lower, first), (upper, second)) =>
          .between lower upper first second
        | none => .stop c) := by
  intro h
  cases h with
  | none => exact .stop hbc
  | @some p q h =>
      obtain ⟨⟨lower, b⟩, ⟨upper, b'⟩⟩ := p
      obtain ⟨⟨lower', c⟩, ⟨upper', c'⟩⟩ := q
      obtain ⟨⟨hlower, hfirst⟩, ⟨hupper, hsecond⟩⟩ := h
      obtain rfl : lower = lower' := hlower
      obtain rfl : upper = upper' := hupper
      exact .between hfirst hsecond

/-- Where an input falls depends on the labels alone. -/
theorem locate_related [BEq α]
    (h : List.Forall₂ (SameKey R) stops stops') (x : α) :
    (locate stops x).Related R (locate stops' x) := by
  have hreaches := reaches_congr h x
  have hlength := h.length_eq
  cases h with
  | nil => exact .nowhere
  | @cons p q rest rest' hpq hrest =>
      obtain ⟨l, b⟩ := p
      obtain ⟨m, c⟩ := q
      obtain rfl : l = m := hpq.1
      obtain ⟨hlast, hlastOutput⟩ := getLastD_related hpq hrest
      have hneighbours := getElem?_related (zip_related (.cons hpq hrest) hrest)
        (lastReached (reaches ((l, b) :: rest) x) 0 ((l, b) :: rest).length)
      simp only [locate]
      rw [← hreaches, ← hlength, ← hlast]
      split
      · exact .stop hpq.2
      · split
        · exact .stop hlastOutput
        · split
          · exact .unordered
          · exact between_related hlastOutput hneighbours

end Curve

/-! ## The rules of evaluation -/

namespace Semantics

variable {o o' : Outcome}

/-- An added check of the type. -/
theorem assertType_checks (h : Checks o o') (ty : Ty) (last : Value) :
    Checks (assertType ty last [o]) o' := by
  intro v hv
  rcases h v hv with rfl | ⟨t, u, rfl⟩
  · by_cases hty : ty.accepts v.type = true
    · exact .inl (if_pos hty)
    · exact .inr ⟨ty, v.type, if_neg hty⟩
  · exact .inr ⟨t, u, rfl⟩

/-- A check that the second side passes changes nothing there. -/
theorem checks_assertType (h : Checks o o') (ty : Ty) (last : Value) :
    Checks o (assertType ty last [o']) := by
  intro v hv
  obtain ⟨w, rfl, hw⟩ := ok_of_bind hv
  split at hw
  · obtain rfl := ok_of_pure hw
    exact h w rfl
  · cases hw

theorem item_checks (ty ty' : Ty) (index : Outcome) (h : Checks o o') :
    Checks (item ty index o) (item ty' index o') := by
  refine .bind_same index.number fun i => .bind h fun v _ => ?_
  cases v with
  | array items => exact .refl _
  | _ => exact .of_error

theorem conditional_checks {bs bs' : List (Outcome × Outcome)}
    (h : List.Forall₂ (SameKey Checks) bs bs')
    (ho : Checks o o') : Checks (conditional bs o) (conditional bs' o') := by
  induction h with
  | nil => exact ho
  | @cons b b' _ _ hb _ ih =>
      obtain ⟨test, output⟩ := b
      obtain ⟨_, output'⟩ := b'
      obtain ⟨rfl, houtput⟩ := hb
      refine .bind_same test fun v => ?_
      split
      · exact houtput
      · exact ih

theorem selection_checks {bs bs' : List (List Label × Outcome)} (ty : Ty)
    (input : Outcome) (h : List.Forall₂ (SameKey Checks) bs bs')
    (ho : Checks o o') :
    Checks (selection ty input bs o) (selection ty input bs' o') := by
  refine .bind_same input fun v => ?_
  cases inputLabel? ty v with
  | none => exact ho
  | some label =>
      simp only
      induction h with
      | nil => exact ho
      | @cons b b' _ _ hb _ ih =>
          obtain ⟨labels, output⟩ := b
          obtain ⟨_, output'⟩ := b'
          obtain ⟨rfl, houtput⟩ := hb
          simp only [List.find?_cons]
          cases labels.contains label with
          | true => exact houtput
          | false => exact ih

theorem coalesce_checks {os os' : List Outcome}
    (h : List.Forall₂ Checks os os') :
    Checks (coalesce os) (coalesce os') := by
  induction h with
  | nil => exact .refl _
  | cons ho _ ih =>
      refine .bind ho fun v _ => ?_
      split
      · exact ih
      · exact .refl _

/-- The output at a spot, or what is made of the two around it. -/
theorem spot_checks {s s' : Curve.Spot Float Outcome}
    {f g : Float → Float → Outcome → Outcome → Outcome}
    (hblend : ∀ lower upper {a a' b b'}, Checks a a' → Checks b b' →
      Checks (f lower upper a b) (g lower upper a' b')) :
    s.Related Checks s' → Checks
      (match s with
        | .stop output => output
        | .between lower upper first second => f lower upper first second
        | .unordered => throw .inputNotANumber
        | .nowhere => throw .missingOperand)
      (match s' with
        | .stop output => output
        | .between lower upper first second => g lower upper first second
        | .unordered => throw .inputNotANumber
        | .nowhere => throw .missingOperand) := by
  intro h
  cases h with
  | nowhere | unordered => exact .refl _
  | stop h => exact h
  | between h h' => exact hblend _ _ h h'

variable {stops stops' : List (Float × Outcome)}

theorem step_checks (input : Outcome)
    (h : List.Forall₂ (SameKey Checks) stops stops') :
    Checks (step input stops) (step input stops') := by
  cases h with
  | nil => exact .refl _
  | cons ha hrest =>
      cases hrest with
      | nil => exact ha.2
      | cons hb hrest =>
          have hstops := List.Forall₂.cons ha (.cons hb hrest)
          refine .bind_same input.number fun x => ?_
          exact spot_checks (f := fun _ _ first _ => first)
            (g := fun _ _ first _ => first) (fun _ _ {_ _ _ _} h _ => h)
            (Curve.locate_related hstops x)

theorem ok_of_blendOutputs {ty : Ty} {space : ColorSpace} {t : Float}
    {a b : Outcome} {v : Value} (h : blendOutputs ty space t a b = .ok v) :
    ∃ x y, a = .ok x ∧ b = .ok y := by
  cases a with
  | error failure => cases ty <;> cases h
  | ok x =>
      cases b with
      | ok y => exact ⟨x, y, rfl, rfl⟩
      | error failure =>
          cases ty with
          | array => cases h
          | _ => cases x <;> cases h

/-- A blend of numbers fails for the type of what is no number, so that it does
no more than check what another blend makes of the same outputs. -/
theorem blendOutputs_checks (ty : Ty) (space : ColorSpace) (t : Float)
    {a a' b b' : Outcome} (ha : Checks a a') (hb : Checks b b') :
    Checks (blendOutputs .number space t a b)
      (blendOutputs ty space t a' b') := by
  intro v hv
  obtain ⟨x, y, rfl, rfl⟩ := ok_of_blendOutputs hv
  rcases ha x rfl with rfl | ⟨t, u, rfl⟩
  · cases x with
    | number x =>
        rcases hb y rfl with rfl | ⟨t, u, rfl⟩
        · cases y with
          | number y =>
              cases ty with
              | color | array => cases hv
              | _ => exact .inl hv
          | _ => exact .inr ⟨_, _, rfl⟩
        · exact .inr ⟨t, u, rfl⟩
    | _ => exact .inr ⟨_, _, rfl⟩
  · exact .inr ⟨t, u, rfl⟩

theorem interpolate_checks (ty : Ty) (space : ColorSpace)
    (kind : Interpolation) (input : Outcome)
    (h : List.Forall₂ (SameKey Checks) stops stops') :
    Checks (interpolate .number space kind input stops)
      (interpolate ty space kind input stops') := by
  cases h with
  | nil => exact .refl _
  | cons ha hrest =>
      cases hrest with
      | nil => exact ha.2
      | cons hb hrest =>
          have hstops := List.Forall₂.cons ha (.cons hb hrest)
          refine .bind_same input.number fun x => ?_
          exact spot_checks
            (fun lower upper => blendOutputs_checks ty space
              (kind.factor x lower upper))
            (Curve.locate_related hstops x)

end Semantics

end MapStyle
