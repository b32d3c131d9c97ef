import Mathlib.Order.Bounds.Defs
import MapStyle.Expr.Evaluate
import MapStyle.Proofs.Semantics.Indices

/-!
# First occurrences

A search reports the first place from a start on at which a sequence has what is
looked for. In a text that is a place where the text goes on with a pattern, in
an array one of an equal item; `Value.OccursAt` is both. The two searches of the
library are different loops, but what they find is the same kind of thing
(`IsFirst`), and a search that starts later only looks at the rest of the
sequence (`IsFirst.add`). Whether anything is found at all is what a test for
membership answers.
-/

namespace MapStyle

/-- The first place from `start` on that has a property, if there is one. -/
def IsFirst (P : ℕ → Prop) (start : ℕ) : Option ℕ → Prop
  | some i => IsLeast {j | start ≤ j ∧ P j} i
  | none => ∀ j, start ≤ j → ¬ P j

namespace IsFirst

variable {P Q : ℕ → Prop} {r : Option ℕ} {k : ℕ}

theorem here (h : P k) : IsFirst P k (some k) :=
  ⟨⟨Nat.le_refl k, h⟩, fun _ hj => hj.1⟩

/-- What is first in the rest of a sequence is first from there on. -/
theorem add (h : IsFirst (fun j => P (j + k)) 0 r) :
    IsFirst P k (r.map (· + k)) := by
  cases r with
  | none =>
      intro j hj
      obtain ⟨i, rfl⟩ := Nat.exists_eq_add_of_le' hj
      exact h i (Nat.zero_le i)
  | some i =>
      obtain ⟨⟨-, hi⟩, hleast⟩ := h
      refine ⟨⟨Nat.le_add_left k i, hi⟩, ?_⟩
      rintro j ⟨hj, hP⟩
      obtain ⟨i', rfl⟩ := Nat.exists_eq_add_of_le' hj
      exact Nat.add_le_add_right (hleast ⟨Nat.zero_le i', hP⟩) k

/-- A place that does not have the property can be skipped. -/
theorem skip (hk : ¬ P k) (h : IsFirst P (k + 1) r) : IsFirst P k r := by
  have hset : {j | k ≤ j ∧ P j} = {j | k + 1 ≤ j ∧ P j} := by
    ext j
    refine and_congr_left fun hj => ⟨fun hle => ?_, Nat.le_of_succ_le⟩
    exact Nat.lt_of_le_of_ne hle fun heq => hk (heq ▸ hj)
  cases r with
  | none => exact fun j hj hP => h j (hset.subset ⟨hj, hP⟩).1 hP
  | some i =>
      show IsLeast {j | k ≤ j ∧ P j} i
      rw [hset]
      exact h

theorem unique {r' : Option ℕ} (h : IsFirst P k r) (h' : IsFirst P k r') :
    r = r' := by
  cases r with
  | none =>
      cases r' with
      | none => rfl
      | some i => exact absurd h'.1.2 (h i h'.1.1)
  | some i =>
      cases r' with
      | none => exact absurd h.1.2 (h' i h.1.1)
      | some i' => exact congrArg some (IsLeast.unique h h')

theorem congr (h : IsFirst P k r) (hPQ : ∀ j, P j ↔ Q j) : IsFirst Q k r := by
  obtain rfl : P = Q := funext fun j => propext (hPQ j)
  exact h

end IsFirst

/-! ## Occurrences in texts and arrays -/

namespace Text

/-- Whether a text goes on with a pattern at place `i`, which may be its end. -/
def OccursAt (pattern text : List Char) (i : ℕ) : Prop :=
  i ≤ text.length ∧ pattern <+: text.drop i

variable {pattern text : List Char}

theorem occursAt_drop {k : ℕ} (hk : k ≤ text.length) (j : ℕ) :
    OccursAt pattern (text.drop k) j ↔ OccursAt pattern text (j + k) := by
  rw [OccursAt, OccursAt, List.drop_drop, List.length_drop, Nat.add_comm k j]
  exact and_congr_left fun _ => by omega

theorem occurrence?_isFirst (pattern text : List Char) :
    IsFirst (OccursAt pattern text) 0 (occurrence? pattern text) := by
  induction text with
  | nil =>
      rw [occurrence?]
      split
      · next hempty =>
          refine .here ⟨Nat.zero_le _, ?_⟩
          rw [List.isEmpty_iff.1 hempty]
          exact List.nil_prefix
      · next hsome =>
          rintro j - ⟨-, hprefix⟩
          rw [List.drop_nil, List.prefix_nil] at hprefix
          exact hsome (List.isEmpty_iff.2 hprefix)
  | cons c rest ih =>
      rw [occurrence?]
      split
      · next hprefix =>
          exact .here ⟨Nat.zero_le _, List.isPrefixOf_iff_prefix.1 hprefix⟩
      · next hprefix =>
          have hone : 1 ≤ (c :: rest).length := Nat.le_add_left 1 rest.length
          have hrest (j : ℕ) : OccursAt pattern rest j ↔
              OccursAt pattern (c :: rest) (j + 1) := occursAt_drop hone j
          refine .skip (fun h => hprefix ?_) (.add (ih.congr hrest))
          exact List.isPrefixOf_iff_prefix.2 h.2

end Text

namespace Value

/-- Whether a sequence has a value at place `i`: a text goes on there with the
text of the value, an array has an item that is equal to it. -/
inductive OccursAt (v : Value) : Value → ℕ → Prop
  | text {s : String} {i : ℕ}
      (h : Text.OccursAt v.searchText.toList s.toList i) :
      OccursAt v (.string s) i
  | item {items : List Value} {i : ℕ} {w : Value} (hw : items[i]? = some w)
      (h : w.equals v = true) : OccursAt v (.array items) i

variable {v : Value}

theorem occursAt_string {s : String} {i : ℕ} : OccursAt v (.string s) i ↔
    Text.OccursAt v.searchText.toList s.toList i :=
  ⟨fun | .text h => h, .text⟩

theorem occursAt_array {items : List Value} {i : ℕ} :
    OccursAt v (.array items) i ↔
      ∃ w, items[i]? = some w ∧ w.equals v = true :=
  ⟨fun | .item hw h => ⟨_, hw, h⟩, fun ⟨_, hw, h⟩ => .item hw h⟩

/-- What an array has from place `k` on. -/
theorem occursAt_drop (items : List Value) (k j : ℕ) :
    OccursAt v (.array (items.drop k)) j ↔
      OccursAt v (.array items) (j + k) := by
  rw [occursAt_array, occursAt_array, List.getElem?_drop, Nat.add_comm]

theorem findIdx?_isFirst (v : Value) (items : List Value) :
    IsFirst (OccursAt v (.array items)) 0
      (items.findIdx? (·.equals v)) := by
  induction items with
  | nil => exact fun j _ h => absurd (occursAt_array.1 h) (by simp)
  | cons w items ih =>
      rw [List.findIdx?_cons]
      split
      · next hequals => exact .here (.item rfl hequals)
      · next hequals =>
          refine .skip (fun h => hequals ?_)
            (.add (ih.congr (occursAt_drop (w :: items) 1)))
          obtain ⟨w', hw, h⟩ := occursAt_array.1 h
          obtain rfl := Option.some.inj hw
          exact h

/-- Strings and arrays. -/
inductive IsSequence : Value → Prop
  | string (s : String) : IsSequence (.string s)
  | array (items : List Value) : IsSequence (.array items)

end Value

/-! ## Searches -/

namespace Semantics

variable {v w : Value}

/-- The place from which a sequence is searched. A negative start counts from
the end of an array and means the start of a text. -/
def searchStart (x : Float) : Value → ℕ
  | .string s => if x < 0 then 0 else placeIn s.toList.length x
  | .array items => placeIn items.length x
  | _ => 0

/-- What a search reports. -/
def foundAt : Option ℕ → Value
  | some i => .number (Float.ofNat i)
  | none => .number (-1)

theorem foundAt_ne (i : ℕ) : foundAt (some i) ≠ .number (-1) := by
  intro h
  have hfloat : Float.ofNat i = -1 := by injection h
  have hfinite : (Float.ofNat i).isFinite = true := by
    rw [hfloat]
    rfl
  have hnegative : Float.ofNat i < 0 := by
    rw [hfloat]
    decide
  have hnearest := (Number.roundsTo_ofNat i).nearest_of_isFinite hfinite
  have hzero : Number.Representable 0 :=
    Number.representable_intCast (n := 0) (by norm_num)
  have hle := hnearest.ge_of_ge hzero (Nat.cast_nonneg i)
  have hlt := (Number.lt_iff_value hfinite rfl).1 hnegative
  exact absurd (hle.trans_lt hlt) (lt_irrefl _)

/-- A start that is not positive is the start of a text. -/
theorem textStart_eq (n : ℕ) (x : Float) :
    resolveIndex (if 0 < x then x else 0) n =
      if x < 0 then 0 else placeIn n x := by
  rw [resolveIndex_eq]
  by_cases hpos : 0 < x
  · rw [if_pos hpos, if_neg (Number.not_lt_of_le (Number.le_of_lt hpos))]
  · rw [if_neg hpos, placeIn_zero]
    split
    · rfl
    · next hneg => rw [placeIn_of_unsigned hpos hneg]

theorem searchStart_string_le (x : Float) (s : String) :
    searchStart x (.string s) ≤ s.toList.length := by
  rw [searchStart]
  split
  · exact Nat.zero_le _
  · exact placeIn_le _ x

/-- The search of a text or an array finds the first occurrence. -/
theorem findFrom?_isFirst (v : Value) (hw : w.IsSequence) (x : Float) :
    ∃ found, findFrom? v w x = .ok found ∧
      IsFirst (v.OccursAt w) (searchStart x w) found := by
  cases hw with
  | string s =>
      refine ⟨_, rfl, ?_⟩
      rw [textStart_eq]
      refine .add ((Text.occurrence?_isFirst _ _).congr fun j => ?_)
      rw [Value.occursAt_string]
      exact Text.occursAt_drop (searchStart_string_le x s) j
  | array items =>
      refine ⟨_, rfl, ?_⟩
      rw [resolveIndex_eq]
      refine .add ((Value.findIdx?_isFirst v _).congr fun j => ?_)
      exact Value.occursAt_drop items (searchStart x (.array items)) j

theorem isNeedle_iff :
    isNeedle v = true ↔ v.type ∈ [.boolean, .string, .number, .null] := by
  cases v <;> simp [isNeedle, Value.type]

/-- What is not empty is looked into. -/
theorem isTruthy_of_ne (hw : w.IsSequence) (hne : w ≠ .string "") :
    w.isTruthy = true := by
  cases hw with
  | string s => simpa [Value.isTruthy] using hne
  | array items => rfl

theorem position_of_not_isNeedle (hv : isNeedle v = false)
    (start : Option Outcome) : position (.ok v) (.ok w) start =
      .error (.invalidNeedle v.type) := by
  show (if (!isNeedle v) = true then _ else _) = _
  rw [hv]
  rfl

theorem contains_of_not_isNeedle (hv : isNeedle v = false)
    (hw : w.IsSequence) (hne : w ≠ .string "") :
    contains (.ok v) (.ok w) = .error (.invalidNeedle v.type) := by
  show (if (!w.isTruthy) = true then _ else
    if (!isNeedle v) = true then _ else _) = _
  rw [isTruthy_of_ne hw hne, hv]
  rfl

variable (hv : isNeedle v = true) (hw : w.IsSequence)

include hv hw

theorem position_isFirst (x : Float) :
    ∃ found, position (.ok v) (.ok w) (some (.ok (.number x))) =
        .ok (foundAt found) ∧
      IsFirst (v.OccursAt w) (searchStart x w) found := by
  obtain ⟨found, hfound, hfirst⟩ := findFrom?_isFirst v hw x
  refine ⟨found, ?_, hfirst⟩
  show (if (!isNeedle v) = true then _ else findFrom? v w x >>= _) = _
  rw [hv, hfound]
  cases found <;> rfl

/-- Without a start the whole sequence is searched. -/
theorem position_none_isFirst :
    ∃ found, position (.ok v) (.ok w) none = .ok (foundAt found) ∧
      IsFirst (v.OccursAt w) 0 found := by
  obtain ⟨found, hposition, hfirst⟩ := position_isFirst hv hw 0
  have hstart : searchStart 0 w = 0 := by
    cases hw with
    | string s => exact placeIn_zero s.toList.length
    | array items => exact placeIn_zero items.length
  exact ⟨found, hposition, hstart ▸ hfirst⟩

/-- Membership is whether there is a first occurrence. -/
theorem contains_eq_isSome (hne : w ≠ .string "") {found : Option ℕ}
    (hfirst : IsFirst (v.OccursAt w) 0 found) :
    contains (.ok v) (.ok w) = .ok (.boolean found.isSome) := by
  show (if (!w.isTruthy) = true then _ else
    if (!isNeedle v) = true then _ else _) = _
  rw [isTruthy_of_ne hw hne, hv]
  cases hw with
  | string s =>
      have hsearch := (Text.occurrence?_isFirst v.searchText.toList
        s.toList).congr fun j => Value.occursAt_string.symm
      rw [hfirst.unique hsearch]
      rfl
  | array items =>
      rw [hfirst.unique (Value.findIdx?_isFirst v items), List.findIdx?_isSome]
      rfl

end Semantics

namespace Expr

open Semantics (foundAt searchStart)

/-- A search for a scalar finds its first occurrence from the start on, and a
test for membership says whether there is one at all. Nothing else can be
searched for. -/
theorem position_first_occurrence {ctx : Context} {needle haystack : Expr}
    {v w : Value} (hneedle : needle.evaluate ctx = .ok v)
    (hhaystack : haystack.evaluate ctx = .ok w) (hw : w.IsSequence)
    (ty : Ty) :
    (v.type ∈ [.boolean, .string, .number, .null] →
      (∃ found, (Expr.position ty needle haystack none).evaluate ctx =
          .ok (foundAt found) ∧ IsFirst (v.OccursAt w) 0 found) ∧
      (∀ start x, start.evaluate ctx = .ok (.number x) →
        ∃ found, (Expr.position ty needle haystack (some start)).evaluate ctx =
            .ok (foundAt found) ∧
          IsFirst (v.OccursAt w) (searchStart x w) found) ∧
      (w ≠ .string "" →
        ∃ b, (Expr.membership ty needle haystack).evaluate ctx =
            .ok (.boolean b) ∧
          (b = true ↔ (Expr.position ty needle haystack none).evaluate ctx ≠
            .ok (.number (-1))))) ∧
    (v.type ∉ [.boolean, .string, .number, .null] →
      (∀ start, (Expr.position ty needle haystack start).evaluate ctx =
        .error (.invalidNeedle v.type)) ∧
      (w ≠ .string "" →
        (Expr.membership ty needle haystack).evaluate ctx =
          .error (.invalidNeedle v.type))) := by
  simp only [evaluate, evaluateOption, hneedle, hhaystack,
    ← Semantics.isNeedle_iff]
  constructor
  · intro hv
    obtain ⟨found, hposition, hfirst⟩ := Semantics.position_none_isFirst hv hw
    refine ⟨⟨found, hposition, hfirst⟩, fun start x hx => ?_, fun hne => ?_⟩
    · rw [hx]
      exact Semantics.position_isFirst hv hw x
    · refine ⟨_, Semantics.contains_eq_isSome hv hw hne hfirst, ?_⟩
      rw [hposition]
      cases found with
      | none => exact iff_of_false Bool.false_ne_true (not_not.2 rfl)
      | some i => exact iff_of_true rfl fun h =>
          Semantics.foundAt_ne i (Except.ok.inj h)
  · intro hv
    rw [Bool.not_eq_true] at hv
    exact ⟨fun _ => Semantics.position_of_not_isNeedle hv _,
      Semantics.contains_of_not_isNeedle hv hw⟩

/-- A text on both sides of a number. -/
def repeated : Value :=
  .array [.string "a", .number 1, .string "a"]

theorem position_first_occurrence_repeated :
    (literal .string (.string "a")).evaluate {} = .ok (.string "a") ∧
    (literal repeated.type repeated).evaluate {} = .ok repeated ∧
    repeated.IsSequence ∧ (Value.string "a").type = .string ∧
    (literal .number (.number (-2))).evaluate {} = .ok (.number (-2)) ∧
    repeated ≠ .string "" ∧
    (∃ found, (Expr.position .number (literal .string (.string "a"))
        (literal repeated.type repeated)
        (some (literal .number (.number (-2))))).evaluate {} =
          .ok (foundAt found) ∧
      IsFirst ((Value.string "a").OccursAt repeated) (searchStart (-2) repeated)
        found) ∧
    ∃ b, (Expr.membership .number (literal .string (.string "a"))
        (literal repeated.type repeated)).evaluate {} = .ok (.boolean b) ∧
      (b = true ↔ (Expr.position .number (literal .string (.string "a"))
        (literal repeated.type repeated) none).evaluate {} ≠
          .ok (.number (-1))) := by
  have hsequence : repeated.IsSequence := .array _
  have hne : repeated ≠ .string "" := nofun
  have hneedle : (literal .string (.string "a")).evaluate {} =
      .ok (.string "a") := rfl
  have hhaystack : (literal repeated.type repeated).evaluate {} =
      .ok repeated := rfl
  obtain ⟨-, hfrom, hmember⟩ := (position_first_occurrence hneedle hhaystack
    hsequence .number).1 (by decide)
  exact ⟨hneedle, hhaystack, hsequence, rfl, rfl, hne, hfrom _ _ rfl,
    hmember hne⟩

end Expr

end MapStyle
