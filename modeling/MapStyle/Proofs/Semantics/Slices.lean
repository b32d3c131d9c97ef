import MapStyle.Expr.Evaluate
import MapStyle.Proofs.Semantics.Occurrences

/-!
# Slices as parts of a sequence

A slice has the items at the places between two others, both of which are found
from the length of the whole sequence and independently of each other
(`cut_eq_picked`). So a sequence is what two slices that meet at one place are
together (`cut_append_cut`), and an end before the start leaves nothing over.
-/

namespace MapStyle

/-- The items of a list at the places that are picked. -/
def picked {α : Type} (p : ℕ → Bool) (xs : List α) : List α :=
  (xs.zipIdx.filter fun x => p x.2).map Prod.fst

section Picked

variable {α : Type}

theorem picked_cons (p : ℕ → Bool) (x : α) (xs : List α) :
    picked p (x :: xs) =
      (if p 0 then [x] else []) ++ picked (fun k => p (k + 1)) xs := by
  rw [picked, picked, List.zipIdx_cons', List.filter_cons, List.filter_map,
    apply_ite (List.map Prod.fst), List.map_cons, List.map_map]
  cases p 0 <;> rfl

/-- What is between two places. -/
theorem picked_between (xs : List α) (i j : ℕ) :
    picked (fun k => i ≤ k && k < j) xs = (xs.drop i).take (j - i) := by
  induction xs generalizing i j with
  | nil => simp [picked]
  | cons x xs ih =>
      rw [picked_cons]
      match i, j with
      | 0, 0 => simpa using ih 0 0
      | 0, j + 1 => simpa using ih 0 j
      | i + 1, 0 => simpa using ih i 0
      | i + 1, j + 1 => simpa using ih i j

end Picked

namespace Value

/-- How many code points or items there are. -/
def size : Value → ℕ
  | .string s => s.toList.length
  | .array items => items.length
  | _ => 0

/-- The part of a string or an array at the places that are picked. -/
def pick (p : ℕ → Bool) : Value → Value
  | .string s => .string (String.ofList (picked p s.toList))
  | .array items => .array (picked p items)
  | v => v

/-- The part from place `i` up to place `j`. -/
def between (v : Value) (i j : ℕ) : Value :=
  v.pick fun k => i ≤ k && k < j

theorem isSequence_between {v : Value} (hv : v.IsSequence) (i j : ℕ) :
    (v.between i j).IsSequence := by
  cases hv with
  | string s => exact .string _
  | array items => exact .array _

/-- Two strings or two arrays, and what they are one after the other. -/
inductive Joins : Value → Value → Value → Prop
  | string (s t : String) : Joins (.string s) (.string t) (.string (s ++ t))
  | array (xs ys : List Value) :
      Joins (.array xs) (.array ys) (.array (xs ++ ys))

end Value

namespace Semantics

section Cut

variable {α : Type} (xs : List α) (x y : Float)

theorem cut_eq_picked : cut xs x (some y) =
    picked (fun k => placeIn xs.length x ≤ k && k < placeIn xs.length y)
      xs := by
  rw [picked_between, cut, resolveIndex_eq, resolveIndex_eq]

/-- Two parts that meet at one place. -/
theorem cut_append_cut : cut xs 0 (some x) ++ cut xs x none = xs := by
  have hrest : (xs.drop (placeIn xs.length x)).length ≤
      xs.length - placeIn xs.length x := (List.length_drop ..).le
  rw [cut, cut, resolveIndex_eq, resolveIndex_eq, placeIn_zero, List.drop_zero,
    Nat.sub_zero, List.take_of_length_le hrest, List.take_append_drop]

theorem length_picked : (picked (fun k => placeIn xs.length x ≤ k &&
    k < placeIn xs.length y) xs).length =
      placeIn xs.length y - placeIn xs.length x := by
  have hle := placeIn_le xs.length y
  rw [picked_between, List.length_take, List.length_drop]
  omega

end Cut

variable {v : Value}

theorem slice_eq_between (hv : v.IsSequence) (x y : Float) :
    slice (.ok v) (.ok (.number x)) (some (.ok (.number y))) =
      .ok (v.between (placeIn v.size x) (placeIn v.size y)) := by
  cases hv with
  | string s =>
      show Except.ok
        (Value.string (String.ofList (cut s.toList x (some y)))) = _
      rw [cut_eq_picked]
      rfl
  | array items =>
      show Except.ok (Value.array (cut items x (some y))) = _
      rw [cut_eq_picked]
      rfl

theorem slice_joins (hv : v.IsSequence) (x : Float) :
    ∃ first last, slice (.ok v) (.ok (.number 0)) (some (.ok (.number x))) =
        .ok first ∧
      slice (.ok v) (.ok (.number x)) none = .ok last ∧
      Value.Joins first last v := by
  cases hv with
  | string s =>
      refine ⟨_, _, rfl, rfl, ?_⟩
      have hjoins := Value.Joins.string
        (String.ofList (cut s.toList 0 (some x)))
        (String.ofList (cut s.toList x none))
      rwa [← String.ofList_append, cut_append_cut, String.ofList_toList]
        at hjoins
  | array items =>
      refine ⟨_, _, rfl, rfl, ?_⟩
      have hjoins := Value.Joins.array (cut items 0 (some x)) (cut items x none)
      rwa [cut_append_cut] at hjoins

theorem size_between (hv : v.IsSequence) (x y : Float) :
    (v.between (placeIn v.size x) (placeIn v.size y)).size =
      placeIn v.size y - placeIn v.size x := by
  cases hv with
  | string s =>
      have hlength := length_picked s.toList x y
      rwa [← String.toList_ofList (l := picked _ s.toList)] at hlength
  | array items => exact length_picked items x y

theorem length_eq_size (hv : v.IsSequence) :
    length (.ok v) = .ok (.number (Float.ofNat v.size)) := by
  cases hv <;> rfl

end Semantics

namespace Expr

open Semantics (placeIn)

/-- A slice has the items from the place of its first index up to that of its
second one, none if they are the other way around. Two slices that meet at an
index are the whole. -/
theorem slice_parts {ctx : Context} {input start stop : Expr} {v : Value}
    {x y : Float} (hinput : input.evaluate ctx = .ok v) (hv : v.IsSequence)
    (hstart : start.evaluate ctx = .ok (.number x))
    (hstop : stop.evaluate ctx = .ok (.number y)) (ty : Ty) :
    (slice ty input start (some stop)).evaluate ctx =
      .ok (v.between (placeIn v.size x) (placeIn v.size y)) ∧
    ((v.between (placeIn v.size x) (placeIn v.size y)).size : ℤ) =
      max 0 ((placeIn v.size y : ℤ) - placeIn v.size x) ∧
    (length .number (slice ty input start (some stop))).evaluate ctx =
      .ok (.number (Float.ofNat (placeIn v.size y - placeIn v.size x))) ∧
    ∃ first last, (slice ty input (literal .number (.number 0))
        (some start)).evaluate ctx = .ok first ∧
      (slice ty input start none).evaluate ctx = .ok last ∧
      Value.Joins first last v := by
  have hsize := Semantics.size_between hv x y
  have hsequence := Value.isSequence_between hv (placeIn v.size x)
    (placeIn v.size y)
  simp only [evaluate, evaluateOption, hinput, hstart, hstop,
    Semantics.slice_eq_between hv]
  refine ⟨trivial, ?_, ?_, Semantics.slice_joins hv x⟩
  · omega
  · rw [Semantics.length_eq_size hsequence, hsize]

/-- The last three of six letters, by a fractional index from the end. -/
theorem slice_parts_ending :
    (literal .string (.string "straße")).evaluate {} =
      .ok (.string "straße") ∧
    (Value.string "straße").IsSequence ∧
    (literal .number (.number (-3.5))).evaluate {} = .ok (.number (-3.5)) ∧
    (literal .number (.number Number.infinity)).evaluate {} =
      .ok (.number Number.infinity) ∧
    (slice .string (literal .string (.string "straße"))
        (literal .number (.number (-3.5)))
        (some (literal .number (.number Number.infinity)))).evaluate {} =
      .ok ((Value.string "straße").between (placeIn 6 (-3.5))
        (placeIn 6 Number.infinity)) ∧
    ∃ first last, (slice .string (literal .string (.string "straße"))
        (literal .number (.number 0))
        (some (literal .number (.number (-3.5))))).evaluate {} = .ok first ∧
      (slice .string (literal .string (.string "straße"))
        (literal .number (.number (-3.5))) none).evaluate {} = .ok last ∧
      Value.Joins first last (.string "straße") := by
  have hsequence : (Value.string "straße").IsSequence := .string _
  have hinput : (literal .string (.string "straße")).evaluate {} =
      .ok (.string "straße") := rfl
  have hstart : (literal .number (.number (-3.5))).evaluate {} =
      .ok (.number (-3.5)) := rfl
  have hstop : (literal .number (.number Number.infinity)).evaluate {} =
      .ok (.number Number.infinity) := rfl
  obtain ⟨hslice, -, -, hjoins⟩ :=
    slice_parts hinput hsequence hstart hstop .string
  exact ⟨hinput, hsequence, hstart, hstop, hslice, hjoins⟩

end Expr

end MapStyle
