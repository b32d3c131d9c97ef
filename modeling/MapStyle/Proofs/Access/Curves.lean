import MapStyle.Proofs.Access.Checked
import MapStyle.Proofs.Curve.Locate

/-!
# Indices of stops

A curve keeps its labels and its outputs apart and looks both up by the place
of a stop. There has to be a stop for the last place to exist. For an
interpolation there has to be a stop behind the one that the search finds, and
there is, because an input at or beyond the last label has been dealt with: the
search ends at the first place or at one that is reached
(`reached_lastReached`), and the last one is not.
-/

namespace MapStyle

namespace Checked

/-! ## Finding a stop -/

/-- The place of the last label that the input reaches, or the first place. -/
def findStop (labels : List Float) (x : Float) : Nat :=
  Curve.lastReached (fun i => labels[i]?.any (· ≤ x)) 0 labels.length

def locate (labels : List Float) (x : Float) : Except EvalError Nat :=
  if !(x == x) then throw .inputNotANumber else return findStop labels x

/-- A curve, up to what it does between two stops. -/
def curve (labels : List Float) (outputs : List Outcome) (input : Outcome)
    (inside : Float → Nat → Checked EvalError Value) :
    Checked EvalError Value := do
  if labels.length == 1 then outcome outputs 0
  else
    let x ← input.number
    let last ← sub? labels.length 1
    if x ≤ (← labels[0]?) then outcome outputs 0
    else if (← labels[last]?) ≤ x then outcome outputs last
    else inside x (← locate labels x)

def step (input : Outcome) (labels : List Float) (outputs : List Outcome) :
    Checked EvalError Value :=
  curve labels outputs input fun _ i => outcome outputs i

def interpolate (ty : Ty) (space : ColorSpace) (kind : Interpolation)
    (input : Outcome) (labels : List Float) (outputs : List Outcome) :
    Checked EvalError Value :=
  curve labels outputs input fun x i => do
    let lower ← labels[i]?
    let upper ← labels[i + 1]?
    let first : Outcome ← outputs[i]?
    let second : Outcome ← outputs[i + 1]?
    Semantics.blendOutputs ty space (kind.factor x lower upper) first second

/-! ## Curves with stops -/

variable {stops : List (Float × Outcome)} {input : Outcome}

/-- The rule of a curve, up to what it does between two stops. -/
def curveRule (stops : List (Float × Outcome)) (input : Outcome)
    (between : Float → Float → Float → Outcome → Outcome → Outcome) :
    Outcome :=
  match stops with
  | [(_, output)] => output
  | stops => do
    let x ← input.number
    match Curve.locate stops x with
    | .stop output => output
    | .between lower upper first second => between x lower upper first second
    | .unordered => throw .inputNotANumber
    | .nowhere => throw .missingOperand

theorem label_at {i : Nat} {s : Float × Outcome} (h : stops[i]? = some s) :
    (stops.map Prod.fst)[i]? = some s.1 := by
  rw [List.getElem?_map, h]
  rfl

theorem output_at {i : Nat} {s : Float × Outcome} (h : stops[i]? = some s) :
    (stops.map Prod.snd)[i]? = some s.2 := by
  rw [List.getElem?_map, h]
  rfl

theorem findStop_eq (x : Float) : findStop (stops.map Prod.fst) x =
    Curve.lastReached (Curve.reaches stops x) 0 stops.length := by
  rw [findStop, List.length_map]
  congr 1
  funext i
  rw [List.getElem?_map, Curve.reaches]
  cases stops[i]? <;> rfl

/-- Below the last label, the search finds a stop that has another one behind
it. -/
theorem findStop_lt {a last : Float × Outcome} {x : Float}
    (hne : stops ≠ []) (hlast : (a :: stops)[stops.length]? = some last)
    (hbelow : ¬ last.1 ≤ x) :
    findStop ((a :: stops).map Prod.fst) x < stops.length := by
  have hpos : 0 < stops.length := List.length_pos_iff.2 hne
  rw [findStop_eq]
  have hlt : Curve.lastReached (Curve.reaches (a :: stops) x) 0
      (a :: stops).length < 0 + (a :: stops).length :=
    Curve.lastReached_lt 0 (by simp)
  have hreached : _ ∨ Curve.reaches (a :: stops) x _ = true :=
    Curve.reached_lastReached 0 (a :: stops).length
  generalize Curve.lastReached _ 0 _ = i at *
  rw [List.length_cons] at hlt
  refine Nat.lt_of_le_of_ne (by omega) fun heq => ?_
  rcases hreached with hzero | hreached
  · omega
  · rw [heq, Curve.reaches, hlast] at hreached
    exact hbelow (of_decide_eq_true hreached)

theorem curve_returns (hne : stops ≠ [])
    {inside : Float → Nat → Checked EvalError Value}
    {between : Float → Float → Float → Outcome → Outcome → Outcome}
    (hinside : ∀ x i lower upper, stops[i]? = some lower →
      stops[i + 1]? = some upper → Returns (inside x i)
        (between x lower.1 upper.1 lower.2 upper.2)) :
    Returns (curve (stops.map Prod.fst) (stops.map Prod.snd) input inside)
      (curveRule stops input between) := by
  match stops with
  | [s] => exact outcome_returns rfl
  | a :: b :: rest =>
      have hsize : sub? ((a :: b :: rest).map Prod.fst).length 1 =
          some (b :: rest).length := by
        rw [sub?_eq (by simp)]
        simp
      have hlast := Curve.getElem?_length a (b :: rest)
      refine .bind .lift fun x _ => ?_
      refine .access hsize (.access (label_at (s := a) rfl) ?_)
      by_cases hlow : x ≤ a.1
      · rw [if_pos hlow, Curve.locate_first hlow]
        exact outcome_returns rfl
      · rw [if_neg hlow]
        refine .access (label_at hlast) ?_
        by_cases hhigh : ((b :: rest).getLastD a).1 ≤ x
        · rw [if_pos hhigh, Curve.locate_last hlow hhigh]
          exact outcome_returns (output_at hlast)
        · rw [if_neg hhigh]
          by_cases hx : (!(x == x)) = true
          · rw [locate, if_pos hx, Curve.locate_unordered hlow hhigh hx]
            exact .throw
          · have hlt := findStop_lt (List.cons_ne_nil b rest) hlast hhigh
            have hstop : findStop ((a :: b :: rest).map Prod.fst) x = _ :=
              findStop_eq x
            rw [hstop] at hlt
            have hlower := List.getElem?_eq_getElem
              (l := a :: b :: rest) (Nat.lt_succ_of_lt hlt)
            have hupper := List.getElem?_eq_getElem hlt
            rw [locate, if_neg hx, hstop,
              Curve.locate_between hlow hhigh hx hlower hupper]
            exact hinside x _ _ _ hlower hupper

theorem step_returns (hne : stops ≠ []) :
    Returns (step input (stops.map Prod.fst) (stops.map Prod.snd))
      (Semantics.step input stops) := by
  have hrule : Semantics.step input stops =
      curveRule stops input fun _ _ _ first _ => first := by
    match stops with
    | [] | [_] | _ :: _ :: _ => rfl
  rw [hrule]
  exact curve_returns hne fun _ _ _ _ h _ => outcome_returns (output_at h)

/-- Without stops there is no last one. -/
example (x : Float) : (step (.ok (.number x)) [] []).run = none := rfl

theorem interpolate_returns (hne : stops ≠ []) (ty : Ty) (space : ColorSpace)
    (kind : Interpolation) :
    Returns (interpolate ty space kind input (stops.map Prod.fst)
        (stops.map Prod.snd))
      (Semantics.interpolate ty space kind input stops) := by
  have hrule : Semantics.interpolate ty space kind input stops =
      curveRule stops input fun x lower upper first second =>
        Semantics.blendOutputs ty space (kind.factor x lower upper) first
          second := by
    match stops with
    | [] | [_] | _ :: _ :: _ => rfl
  rw [hrule]
  refine curve_returns hne fun x i lower upper hlower hupper => ?_
  refine .access (label_at hlower) (.access (label_at hupper) ?_)
  exact .access (output_at hlower) (.access (output_at hupper) .lift)

end Checked

end MapStyle
