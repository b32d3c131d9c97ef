import Mathlib.Data.List.Sort
import Mathlib.Data.String.Basic
import Mathlib.Order.BooleanAlgebra.Basic
import MapStyle.Filter.Legacy
import MapStyle.Operator.Apply
import MapStyle.Proofs.Number.Rank

/-!
# Membership in a sorted list

A long list of values of one kind is sorted when a filter is expressed and
searched by halving when the filter is evaluated. `isInSorted_sortValues`
says that the search finds what is in the list as it was written.

The three kinds of values that have an order are handled at once. A `Ranking`
ranks the values of a kind in some linear order and everything else below them,
and both comparisons of values, by order and by equality, have to be those of
the ranks. The argument about sorting and searching then only speaks of ranks.
-/

namespace MapStyle

/-- A kind of values and how they are ordered. -/
structure Ranking (κ : Type) [LinearOrder κ] where
  /-- The rank of a value of the kind; others have the lowest. -/
  rank : Value → WithBot κ
  compare?_eq {v w : Value} (hv : rank v ≠ ⊥) : v.compare? w =
    if rank w = ⊥ then none else some (compare (rank v) (rank w))
  equals_iff {v w : Value} (hv : rank v ≠ ⊥) :
    v.equals w = true ↔ rank v = rank w

namespace Ranking

/-! ## The three kinds -/

theorem compare?_number (x y : Float) :
    (Value.number x).compare? (.number y) = Number.order x y := by
  rw [Value.compare?]
  simp only [Number.lt_iff_order x y, Number.gt_iff_order x y,
    Number.beq_iff_order x y]
  cases Number.order x y with
  | none => rfl
  | some o => cases o <;> rfl

/-- Numbers, NaN apart. -/
def numbers : Ranking Number.Place where
  rank
    | .number x => Number.rank x
    | _ => ⊥
  compare?_eq {v w} hv := by
    cases v with
    | number x =>
        have hx := Bool.eq_false_iff.2 (mt Number.rank_eq_bot.2 hv)
        cases w with
        | number y => rw [compare?_number, Number.order_eq_rank hx]
        | _ => rfl
    | _ => exact absurd rfl hv
  equals_iff {v w} hv := by
    cases v with
    | number x =>
        have hx := Bool.eq_false_iff.2 (mt Number.rank_eq_bot.2 hv)
        cases w with
        | number y =>
            show (x == y) = true ↔ Number.rank x = Number.rank y
            rw [Number.beq_iff_order, Number.order_eq_rank hx]
            split
            · next hy => exact iff_of_false (by simp) (hy ▸ hv)
            · rw [Option.some_inj, compare_eq_iff_eq]
        | _ => exact iff_of_false Bool.false_ne_true hv
    | _ => exact absurd rfl hv

/-- Strings, by code points. -/
def strings : Ranking String where
  rank
    | .string s => s
    | _ => ⊥
  compare?_eq {v w} hv := by
    cases v with
    | string s =>
        cases w with
        | string t =>
            rw [Number.compare_coe, LinearOrder.compare_eq_compareOfLessAndEq]
            rfl
        | _ => rfl
    | _ => exact absurd rfl hv
  equals_iff {v w} hv := by
    cases v with
    | string s =>
        cases w with
        | string t => exact beq_iff_eq.trans WithBot.coe_inj.symm
        | _ => exact iff_of_false Bool.false_ne_true hv
    | _ => exact absurd rfl hv

/-- Booleans, false before true. -/
def booleans : Ranking Bool where
  rank
    | .boolean b => b
    | _ => ⊥
  compare?_eq {v w} hv := by
    cases v with
    | boolean a =>
        cases w with
        | boolean b => cases a <;> cases b <;> rfl
        | _ => rfl
    | _ => exact absurd rfl hv
  equals_iff {v w} hv := by
    cases v with
    | boolean a =>
        cases w with
        | boolean b => exact beq_iff_eq.trans WithBot.coe_inj.symm
        | _ => exact iff_of_false Bool.false_ne_true hv
    | _ => exact absurd rfl hv

/-! ## Searching -/

variable {κ : Type} [LinearOrder κ] (K : Ranking κ)

/-- Whether all values of a list are of the kind and in ascending order. -/
structure Ascending (vs : List Value) : Prop where
  ranked : ∀ v ∈ vs, K.rank v ≠ ⊥
  sorted : vs.Pairwise fun v w => K.rank v ≤ K.rank w

variable {K}

theorem compare?_eq_some {v w : Value} {o : Ordering} (hv : K.rank v ≠ ⊥)
    (h : v.compare? w = some o) : compare (K.rank v) (K.rank w) = o := by
  rw [K.compare?_eq hv] at h
  split at h
  · cases h
  · exact Option.some_inj.1 h

theorem compare?_eq_none {v w : Value} (hv : K.rank v ≠ ⊥)
    (h : v.compare? w = none) : K.rank w = ⊥ := by
  rw [K.compare?_eq hv] at h
  split at h
  · next hw => exact hw
  · cases h

namespace Ascending

variable {vs : List Value} {n : Nat} {middle : Value}

theorem sublist {ws : List Value} (h : K.Ascending vs) (hws : ws.Sublist vs) :
    K.Ascending ws :=
  ⟨fun v hv => h.ranked v (hws.subset hv), h.sorted.sublist hws⟩

/-- An item halves the list: what comes before it ranks no higher and what
comes after it no lower. -/
theorem halves (h : K.Ascending vs) (hn : vs[n]? = some middle) {v : Value}
    (hv : v ∈ vs) :
    (v ∈ vs.take n ∧ K.rank v ≤ K.rank middle) ∨ v = middle ∨
      (v ∈ vs.drop (n + 1) ∧ K.rank middle ≤ K.rank v) := by
  obtain ⟨hlt, rfl⟩ := List.getElem?_eq_some_iff.1 hn
  have hvs : vs = vs.take n ++ vs[n] :: vs.drop (n + 1) := by
    rw [List.getElem_cons_drop, List.take_append_drop]
  have hsorted := h.sorted
  rw [hvs, List.pairwise_append, List.pairwise_cons] at hsorted
  obtain ⟨-, ⟨hafter, -⟩, hbefore⟩ := hsorted
  rw [hvs, List.mem_append, List.mem_cons] at hv
  rcases hv with hv | hv | hv
  · exact .inl ⟨hv, hbefore v hv _ List.mem_cons_self⟩
  · exact .inr (.inl hv)
  · exact .inr (.inr ⟨hv, hafter v hv⟩)

end Ascending

/-- The search finds exactly what equals an item. -/
theorem isInSorted_iff {vs : List Value} (h : K.Ascending vs) (p : Value) :
    p.isInSorted vs = true ↔ ∃ v ∈ vs, v.equals p = true := by
  fun_induction Value.isInSorted p vs with
  | case1 vs hmiddle =>
      have hlen := List.getElem?_eq_none_iff.1 hmiddle
      obtain rfl : vs = [] := List.length_eq_zero_iff.1 (by omega)
      simp
  | case2 vs middle hmiddle heq =>
      have hmem := List.mem_of_getElem? hmiddle
      have hrank := h.ranked middle hmem
      have heq := compare_eq_iff_eq.1 (compare?_eq_some hrank heq)
      exact iff_of_true rfl ⟨middle, hmem, (K.equals_iff hrank).2 heq⟩
  | case3 vs middle hmiddle hlt ih =>
      have hrank := h.ranked middle (List.mem_of_getElem? hmiddle)
      have hlt := compare_lt_iff_lt.1 (compare?_eq_some hrank hlt)
      rw [ih (h.sublist (List.drop_sublist ..))]
      refine ⟨fun ⟨v, hv, heq⟩ => ⟨v, List.mem_of_mem_drop hv, heq⟩, ?_⟩
      rintro ⟨v, hv, heq⟩
      have hv' := (K.equals_iff (h.ranked v hv)).1 heq
      rcases h.halves hmiddle hv with ⟨-, hle⟩ | rfl | ⟨hdrop, -⟩
      · exact absurd (hv' ▸ hle) hlt.not_ge
      · exact absurd hv' hlt.ne
      · exact ⟨v, hdrop, heq⟩
  | case4 vs middle hmiddle hgt ih =>
      have hrank := h.ranked middle (List.mem_of_getElem? hmiddle)
      have hgt := compare_gt_iff_gt.1 (compare?_eq_some hrank hgt)
      rw [ih (h.sublist (List.take_sublist ..))]
      refine ⟨fun ⟨v, hv, heq⟩ => ⟨v, List.mem_of_mem_take hv, heq⟩, ?_⟩
      rintro ⟨v, hv, heq⟩
      have hv' := (K.equals_iff (h.ranked v hv)).1 heq
      rcases h.halves hmiddle hv with ⟨htake, -⟩ | rfl | ⟨-, hle⟩
      · exact ⟨v, htake, heq⟩
      · exact absurd hv' hgt.ne'
      · exact absurd (hv' ▸ hle) hgt.not_ge
  | case5 vs middle hmiddle hnone =>
      have hrank := h.ranked middle (List.mem_of_getElem? hmiddle)
      refine iff_of_false Bool.false_ne_true ?_
      rintro ⟨v, hv, heq⟩
      -- What equals an item of the list would be of its kind.
      have hv' := (K.equals_iff (h.ranked v hv)).1 heq
      exact h.ranked v hv (hv'.trans (compare?_eq_none hrank hnone))

/-! ## Sorting -/

theorem scalarOrder_eq (a b : Json) : Filter.scalarOrder a b =
    ((Value.ofJson a).compare? (Value.ofJson b)).getD .eq := by
  cases a with
  | number m =>
      cases b with
      | number n =>
          simp only [Filter.scalarOrder, Value.ofJson, Value.compare?]
          repeat' split
          all_goals rfl
      | _ => rfl
  | boolean a | string s => cases b <;> rfl
  | _ => rfl

/-- Values of one kind are in ascending order once they are sorted. -/
theorem ascending_sortValues {js : List Json}
    (h : ∀ j ∈ js, K.rank (.ofJson j) ≠ ⊥) :
    K.Ascending ((Filter.sortValues js).map Value.ofJson) := by
  have hperm : (Filter.sortValues js).Perm js := List.mergeSort_perm ..
  have hle : ∀ a ∈ js, ∀ b ∈ js, (Filter.scalarOrder a b != .gt) =
      decide (K.rank (.ofJson a) ≤ K.rank (.ofJson b)) := by
    intro a ha b hb
    rw [scalarOrder_eq, K.compare?_eq (h a ha), if_neg (h b hb),
      Option.getD_some, Bool.eq_iff_iff, bne_iff_ne, decide_eq_true_iff,
      compare_le_iff_le]
  refine ⟨?_, ?_⟩
  · intro v hv
    obtain ⟨j, hj, rfl⟩ := List.mem_map.1 hv
    exact h j (hperm.mem_iff.1 hj)
  · -- Only among values of the kind is the order transitive, so the ranks are
    -- what is sorted.
    have hranks := List.map_mergeSort (r := fun a b =>
      Filter.scalarOrder a b != .gt) (s := fun x y => decide (x ≤ y)) hle
    have hsorted := List.pairwise_mergeSort' (· ≤ ·)
      (js.map fun j => K.rank (.ofJson j))
    rw [← hranks, List.pairwise_map] at hsorted
    exact List.pairwise_map.2 hsorted

theorem search_sortValues {js : List Json}
    (h : ∀ j ∈ js, K.rank (.ofJson j) ≠ ⊥) (p : Value) :
    p.isInSorted ((Filter.sortValues js).map Value.ofJson) =
      (js.map Value.ofJson).any (·.equals p) := by
  have hperm : (Filter.sortValues js).Perm js := List.mergeSort_perm ..
  rw [Bool.eq_iff_iff, isInSorted_iff (ascending_sortValues h), List.any_eq_true]
  simp only [List.mem_map, hperm.mem_iff]

end Ranking

/-- A search in the sorted values finds what a look at all of them finds. -/
theorem Value.isInSorted_sortValues {js : List Json}
    (hkind : Filter.areOfOneKind js = true)
    (hnumber : ∀ j ∈ js, ∀ x, j.number? = some x → x.isNaN = false)
    (p : Value) :
    p.isInSorted ((Filter.sortValues js).map ofJson) =
      (js.map ofJson).any (·.equals p) := by
  simp only [Filter.areOfOneKind, Bool.or_eq_true, List.all_eq_true] at hkind
  rcases hkind with (h | h) | h
  · refine Ranking.numbers.search_sortValues (fun j hj => ?_) p
    obtain ⟨x, hx⟩ := Option.isSome_iff_exists.1 (h j hj)
    have hnan := hnumber j hj x hx
    cases j with
    | number n =>
        obtain rfl : n.toFloat = x := Option.some_inj.1 hx
        show Number.rank n.toFloat ≠ ⊥
        rw [Ne, Number.rank_eq_bot, hnan]
        exact Bool.false_ne_true
    | _ => cases hx
  · refine Ranking.strings.search_sortValues (fun j hj => ?_) p
    have hs := h j hj
    cases j with
    | string s => exact WithBot.coe_ne_bot
    | _ => cases hs
  · refine Ranking.booleans.search_sortValues (fun j hj => ?_) p
    have hb := h j hj
    cases j with
    | boolean b => exact WithBot.coe_ne_bot
    | _ => cases hb

end MapStyle
