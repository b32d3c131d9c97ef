import MapStyle.Expr.Evaluate
import MapStyle.Proofs.Typing.Subsumption

/-!
# What a runtime type test accepts

An assertion compares the type of a value with the one that is asserted. The
type of an array says one thing about all of its items, and what the test makes
of that can be told from the value alone: it accepts the values that have the
structure of the type (`Inhabits`), with one exception. The items of an array
are summarised by the type they share and by `value` where they share none, and
types of arrays include their lengths. So where arrays are expected as items of
an array, they have to be of one type, and not only of the expected one
(`Regular`).
-/

namespace MapStyle

namespace Value

/-- A value has the structure of a type: everything is a `value`, nothing is an
`error`, scalars and objects are of their own kind, and an array has items of
the item type, as many as the type says if it says so. -/
inductive Inhabits : Value → Ty → Prop where
  | value (v : Value) : Inhabits v .value
  | null : Inhabits .null .null
  | boolean (b : Bool) : Inhabits (.boolean b) .boolean
  | number (x : Float) : Inhabits (.number x) .number
  | string (s : String) : Inhabits (.string s) .string
  | color (c : Color) : Inhabits (.color c) .color
  | object (fields : Fields) : Inhabits (.object fields) .object
  | array {items : List Value} {item : Ty} {length : Option Nat}
      (hitems : ∀ v ∈ items, Inhabits v item)
      (hlength : ∀ n ∈ length, items.length = n) :
      Inhabits (.array items) (.array item length)

/-- Wherever arrays are expected as items of an array, they have one type. -/
def Regular : Value → Ty → Prop
  | .array items, .array item _ =>
    (item.isArray = true → ∃ t, ∀ v ∈ items, v.type = t) ∧
      ∀ v ∈ items, v.Regular item
  | _, _ => True
termination_by structural _ t => t

theorem inhabits_array {items : List Value} {item : Ty}
    {length : Option Nat} : Inhabits (.array items) (.array item length) ↔
      (∀ v ∈ items, v.Inhabits item) ∧
        (length = none ∨ length = some items.length) := by
  constructor
  · rintro ⟨⟩
    next hitems hlength =>
      refine ⟨hitems, ?_⟩
      cases length with
      | none => exact .inl rfl
      | some n => exact .inr (congrArg some (hlength n rfl).symm)
  · rintro ⟨hitems, rfl | rfl⟩
    · exact .array hitems nofun
    · exact .array hitems fun n hn => Option.some.inj hn

theorem regular_array {items : List Value} {item : Ty} {length : Option Nat} :
    Regular (.array items) (.array item length) ↔
      (item.isArray = true → ∃ t, ∀ v ∈ items, v.type = t) ∧
        ∀ v ∈ items, v.Regular item := by
  rw [Regular]

theorem regular_of_not_isArray {t : Ty} (h : t.isArray = false) (v : Value) :
    v.Regular t := by
  cases t with
  | array => cases h
  | _ => cases v <;> trivial

/-! ## Scalars -/

section Scalar

variable {t : Ty} (hvalue : t ≠ .value) (harray : t.isArray = false)
  (v : Value)

include hvalue harray

/-- Apart from `value` and arrays, a type has the values whose type it is. -/
theorem inhabits_iff_type_eq : v.Inhabits t ↔ v.type = t := by
  constructor
  · intro h
    cases h with
    | value => exact absurd rfl hvalue
    | array => cases harray
    | _ => rfl
  · intro h
    cases v with
    | array items =>
        rw [type] at h
        rw [← h] at harray
        cases harray
    | _ =>
        rw [type] at h
        subst h
        constructor

/-- Apart from `value` and arrays, a type accepts nothing but itself among the
types of values. -/
theorem accepts_iff_type_eq : t.accepts v.type = true ↔ v.type = t := by
  cases t with
  | value => exact absurd rfl hvalue
  | array => cases harray
  | _ => cases v <;> simp [Ty.accepts, Ty.sameKind, type]

end Scalar

/-! ## Arrays -/

/-- The items of an array are accepted together if each of them is accepted,
and if arrays among them are of one type. -/
theorem items_accepted_iff {item : Ty} {items : List Value}
    (ih : ∀ v : Value,
      item.accepts v.type = true ↔ v.Inhabits item ∧ v.Regular item) :
    (item = .value ∨ ∃ t, item.accepts t = true ∧ ∀ v ∈ items, v.type = t) ↔
      (∀ v ∈ items, v.Inhabits item) ∧
        (item.isArray = true → ∃ t, ∀ v ∈ items, v.type = t) ∧
          ∀ v ∈ items, v.Regular item := by
  constructor
  · rintro (rfl | ⟨t, haccepts, hall⟩)
    · exact ⟨fun v _ => .value v, nofun,
        fun v _ => regular_of_not_isArray rfl v⟩
    · have hitem : ∀ v ∈ items, v.Inhabits item ∧ v.Regular item := by
        intro v hv
        refine (ih v).1 ?_
        rw [hall v hv]
        exact haccepts
      exact ⟨fun v hv => (hitem v hv).1, fun _ => ⟨t, hall⟩,
        fun v hv => (hitem v hv).2⟩
  · rintro ⟨hinhabits, hshared, hregular⟩
    by_cases hvalue : item = .value
    · exact .inl hvalue
    refine .inr ?_
    cases harray : item.isArray with
    | false =>
        refine ⟨item, Ty.accepts_refl item, fun v hv => ?_⟩
        exact (inhabits_iff_type_eq hvalue harray v).1 (hinhabits v hv)
    | true =>
        obtain ⟨t, hall⟩ := hshared harray
        cases items with
        | nil => exact ⟨item, Ty.accepts_refl item, nofun⟩
        | cons v vs =>
            have hv : v ∈ v :: vs := List.mem_cons_self
            refine ⟨t, ?_, hall⟩
            rw [← hall v hv]
            exact (ih v).2 ⟨hinhabits v hv, hregular v hv⟩

/-- The runtime test of a type accepts the values that have its structure, if
arrays in arrays are of one type. -/
theorem accepts_type_iff (t : Ty) (v : Value) :
    t.accepts v.type = true ↔ v.Inhabits t ∧ v.Regular t := by
  induction t generalizing v with
  | value =>
      refine iff_of_true (Ty.value_accepts _) ⟨.value v, ?_⟩
      exact regular_of_not_isArray rfl v
  | array item length ih =>
      cases v with
      | array items =>
          rw [accepts_array_iff, items_accepted_iff ih, inhabits_array,
            regular_array, and_right_comm]
      | _ => exact iff_of_false Bool.false_ne_true fun h => nomatch h.1
  | _ =>
      rw [accepts_iff_type_eq (by simp) rfl, inhabits_iff_type_eq (by simp) rfl]
      exact (and_iff_left (regular_of_not_isArray rfl v)).symm

end Value

namespace Semantics

variable {ty : Ty} {v : Value}

/-! ## Assertions -/

/-- What an assertion makes of its operands: the value of one of them passes the
test, and all before it have values that do not. -/
def FirstOfType (ty : Ty) (v : Value) (os : List Outcome) : Prop :=
  ∃ before after, os = before ++ .ok v :: after ∧ ty.accepts v.type = true ∧
    ∀ o ∈ before, ∃ w : Value, o = .ok w ∧ ty.accepts w.type = false

theorem firstOfType_cons {o : Outcome} {os : List Outcome} :
    FirstOfType ty v (o :: os) ↔ (o = .ok v ∧ ty.accepts v.type = true) ∨
      (∃ w : Value, o = .ok w ∧ ty.accepts w.type = false) ∧
        FirstOfType ty v os := by
  constructor
  · rintro ⟨_ | ⟨o', before⟩, after, heq, hv, hbefore⟩
    · exact .inl ⟨(List.cons.inj heq).1, hv⟩
    · obtain ⟨rfl, rfl⟩ := List.cons.inj heq
      obtain ⟨ho, hbefore⟩ := List.forall_mem_cons.1 hbefore
      exact .inr ⟨ho, before, after, rfl, hv, hbefore⟩
  · rintro (⟨rfl, hv⟩ | ⟨ho, before, after, rfl, hv, hbefore⟩)
    · exact ⟨[], os, rfl, hv, nofun⟩
    · exact ⟨o :: before, after, rfl, hv,
        List.forall_mem_cons.2 ⟨ho, hbefore⟩⟩

/-- An assertion has the value of the first operand that passes the test, if
all operands before it have values. -/
theorem assertType_eq_ok_iff {os : List Outcome} (last : Value) :
    assertType ty last os = .ok v ↔ FirstOfType ty v os := by
  induction os generalizing last with
  | nil =>
      refine iff_of_false nofun ?_
      rintro ⟨before, after, heq, -⟩
      exact absurd heq.symm (by simp)
  | cons o os ih =>
      rw [firstOfType_cons]
      cases o with
      | error failure =>
          exact iff_of_false nofun (by rintro (⟨⟨⟩, -⟩ | ⟨⟨_, ⟨⟩, -⟩, -⟩))
      | ok w =>
          show (if ty.accepts w.type then .ok w else assertType ty w os) =
            .ok v ↔ _
          split
          · next hw =>
              constructor
              · rintro ⟨⟩
                exact .inl ⟨rfl, hw⟩
              · rintro (⟨h, -⟩ | ⟨⟨_, ⟨⟩, hw'⟩, -⟩)
                · exact h
                · exact absurd hw (Bool.eq_false_iff.1 hw')
          · next hw =>
              rw [ih w]
              constructor
              · intro h
                exact .inr ⟨⟨w, rfl, Bool.eq_false_iff.2 hw⟩, h⟩
              · rintro (⟨⟨⟩, hv⟩ | ⟨-, h⟩)
                · exact absurd hv hw
                · exact h

end Semantics

namespace Value

/-- Runtime type tests are exact: a value passes the test of a type if and only
if it has the structure of the type and arrays in arrays are of one type. An
assertion has the value of the first operand that does, if all operands before
it have values. -/
theorem type_test_exact :
    (∀ (t : Ty) (v : Value),
      t.accepts v.type = true ↔ v.Inhabits t ∧ v.Regular t) ∧
    ∀ (t : Ty) (args : List Expr) (ctx : Context) (v : Value),
      (Expr.assertion t args).evaluate ctx = .ok v ↔
        ∃ before e after, args = before ++ e :: after ∧
          e.evaluate ctx = .ok v ∧ (v.Inhabits t ∧ v.Regular t) ∧
          ∀ e' ∈ before, ∃ w : Value, e'.evaluate ctx = .ok w ∧
            ¬ (w.Inhabits t ∧ w.Regular t) := by
  refine ⟨accepts_type_iff, fun t args ctx v => ?_⟩
  have htest (w : Value) :
      t.accepts w.type = false ↔ ¬ (w.Inhabits t ∧ w.Regular t) := by
    rw [← accepts_type_iff, Bool.not_eq_true]
  simp only [Expr.evaluate, Expr.evaluateList_eq_map,
    Semantics.assertType_eq_ok_iff, Semantics.FirstOfType, htest,
    accepts_type_iff]
  constructor
  · rintro ⟨before, after, heq, hv, hbefore⟩
    obtain ⟨es, rest, rfl, rfl, hrest⟩ := List.map_eq_append_iff.1 heq
    obtain ⟨e, es', rfl, he, -⟩ := List.map_eq_cons_iff.1 hrest
    exact ⟨es, e, es', rfl, he, hv,
      fun e' he' => hbefore _ (List.mem_map_of_mem he')⟩
  · rintro ⟨es, e, es', rfl, he, hv, hbefore⟩
    refine ⟨es.map (Expr.evaluate ctx), es'.map (Expr.evaluate ctx), ?_, hv,
      List.forall_mem_map.2 hbefore⟩
    rw [List.map_append, List.map_cons, he]

/-- Two arrays of numbers of different lengths in an array. -/
def raggedArray : Value :=
  .array [.array [.number 1], .array [.number 1, .number 2]]

/-- An array of arrays that has the structure of the type, and does not pass its
test. -/
theorem raggedArray_not_accepted :
    raggedArray.Inhabits (.array .anyArray none) ∧
      (Ty.array .anyArray none).accepts raggedArray.type = false := by
  refine ⟨?_, by decide⟩
  refine .array (fun v hv => ?_) nofun
  obtain rfl | rfl : v = .array [.number 1] ∨
      v = .array [.number 1, .number 2] := by simpa using hv
  all_goals exact .array (fun w _ => .value w) nofun

end Value

end MapStyle
