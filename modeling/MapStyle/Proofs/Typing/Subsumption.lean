import Mathlib.Logic.Relation
import MapStyle.Value.Basic

/-!
# Acceptance, and the types of values

`Ty.accepts` is not a transitive relation: an empty array of unknown items may
stand for an array of anything, but it may also stand for an array of unknown
items, which stands for less (`not_transitive_accepts`). What the soundness of
the type checker needs is weaker and holds: acceptance carries over to the
values behind a type. If a type accepts another one, it accepts the type of
every value that the other one accepts (`accepts_trans`), however often a type
is exchanged for a wider one (`subsumption_sound`).

The only case with anything in it is that of arrays, where the type of a value
summarises its items. `accepts_array_iff` says what the summary is worth: the
items are of one accepted type, or nothing is expected of them.
-/

namespace MapStyle

namespace Ty

/-- Nothing but `value` accepts a value of unknown type. -/
theorem eq_value_of_accepts {t : Ty} (h : t.accepts .value = true) :
    t = .value := by
  cases t with
  | value => rfl
  | _ => simp [accepts, sameKind] at h

theorem eq_of_error_accepts {t : Ty} (h : error.accepts t = true) :
    t = .error := by
  cases t with
  | error => rfl
  | _ => simp [accepts, sameKind] at h

/-- What an array type accepts besides `error`. -/
theorem array_accepts_array {item item' : Ty} {length length' : Option Nat} :
    (array item length).accepts (.array item' length') = true ↔
      ((length' = some 0 ∧ item' = .value) ∨ item.accepts item' = true) ∧
        (length = none ∨ length = length') := by
  simp [accepts]

theorem eq_array_of_accepts {item t : Ty} {length : Option Nat}
    (h : (array item length).accepts t = true) :
    t = .error ∨ ∃ item' length', t = .array item' length' := by
  cases t with
  | error => exact .inl rfl
  | array item' length' => exact .inr ⟨item', length', rfl⟩
  | _ => simp [accepts] at h

end Ty

namespace Value

theorem types_eq_map (vs : List Value) : types vs = vs.map type := by
  induction vs with
  | nil => rw [types, List.map_nil]
  | cons v vs ih => rw [types, ih, List.map_cons]

theorem type_ne_value (v : Value) : v.type ≠ .value := by
  cases v <;> simp [type]

theorem type_ne_error (v : Value) : v.type ≠ .error := by
  cases v <;> simp [type]

theorem eq_nil_of_type {v : Value} {item : Ty}
    (h : v.type = .array item (some 0)) : v = .array [] := by
  cases v with
  | array items =>
      rw [type] at h
      injection h with _ hlength
      obtain rfl := List.length_eq_zero_iff.1 (Option.some.inj hlength)
      rfl
  | _ => simp [type] at h

/-- The type of a list's items is one they all have, unless it is `value`. -/
theorem itemType_cases (ts : List Ty) :
    itemType ts = .value ∨ ∀ t ∈ ts, t = itemType ts := by
  cases ts with
  | nil => exact .inl rfl
  | cons t ts =>
      rw [itemType]
      split
      · next h =>
          refine .inr fun u hu => ?_
          rcases List.mem_cons.1 hu with rfl | hu
          · rfl
          · exact eq_of_beq (List.all_eq_true.1 h u hu)
      · exact .inl rfl

theorem itemType_of_forall {t : Ty} {ts : List Ty} (h : ∀ u ∈ ts, u = t) :
    ts = [] ∨ itemType ts = t := by
  cases ts with
  | nil => exact .inl rfl
  | cons u us =>
      obtain rfl := h u List.mem_cons_self
      refine .inr ?_
      rw [itemType, if_pos]
      exact List.all_eq_true.2 fun w hw =>
        beq_iff_eq.2 (h w (List.mem_cons_of_mem _ hw))

/-- An array type accepts an array value if it expects nothing of the items or
accepts the one type they all have, and if the length is the expected one. -/
theorem accepts_array_iff {item : Ty} {length : Option Nat}
    {items : List Value} :
    (Ty.array item length).accepts (Value.array items).type = true ↔
      (item = .value ∨ ∃ t, item.accepts t = true ∧ ∀ v ∈ items, v.type = t) ∧
        (length = none ∨ length = some items.length) := by
  rw [type, types_eq_map, Ty.array_accepts_array]
  refine and_congr_left fun _ => ⟨fun h => ?_, fun h => ?_⟩
  · rcases h with ⟨hempty, -⟩ | haccepts
    · obtain rfl : items = [] := by simpa using hempty
      exact .inr ⟨item, Ty.accepts_refl item, by simp⟩
    · rcases itemType_cases (items.map type) with hvalue | hall
      · rw [hvalue] at haccepts
        exact .inl (Ty.eq_value_of_accepts haccepts)
      · refine .inr ⟨_, haccepts, fun v hv => ?_⟩
        exact hall _ (List.mem_map_of_mem hv)
  · rcases h with rfl | ⟨t, haccepts, hall⟩
    · exact .inr (Ty.value_accepts _)
    · have hall' : ∀ u ∈ items.map type, u = t := by
        intro u hu
        obtain ⟨v, hv, rfl⟩ := List.mem_map.1 hu
        exact hall v hv
      rcases itemType_of_forall hall' with hnil | heq
      · obtain rfl : items = [] := by simpa using hnil
        exact .inl ⟨rfl, rfl⟩
      · rw [heq]
        exact .inr haccepts

/-- The items of an accepted array are accepted. -/
theorem accepts_item {item : Ty} {length : Option Nat} {items : List Value}
    (h : (Ty.array item length).accepts (Value.array items).type = true)
    {v : Value} (hv : v ∈ items) : item.accepts v.type = true := by
  rcases (accepts_array_iff.1 h).1 with rfl | ⟨t, haccepts, hall⟩
  · exact Ty.value_accepts _
  · rw [hall v hv]
    exact haccepts

/-- Any choice of items of an accepted array is accepted where the length is
left open. -/
theorem accepts_of_subset {item : Ty} {length : Option Nat}
    {items items' : List Value}
    (h : (Ty.array item length).accepts (Value.array items).type = true)
    (hsub : items' ⊆ items) :
    (Ty.array item none).accepts (Value.array items').type = true := by
  refine accepts_array_iff.2 ⟨?_, .inl rfl⟩
  refine (accepts_array_iff.1 h).1.imp_right fun ⟨t, haccepts, hall⟩ => ?_
  exact ⟨t, haccepts, fun v hv => hall v (hsub hv)⟩

/-- A type accepts what a type that it accepts accepts, among the types of
values. -/
theorem accepts_trans {s t : Ty} {v : Value} (hts : t.accepts s = true)
    (hsv : s.accepts v.type = true) : t.accepts v.type = true := by
  induction s generalizing t v with
  | error => exact absurd (Ty.eq_of_error_accepts hsv) v.type_ne_error
  | value =>
      obtain rfl := Ty.eq_value_of_accepts hts
      exact Ty.value_accepts _
  | array item length ih =>
      rcases Ty.eq_array_of_accepts hsv with h | ⟨_, _, h⟩
      · exact absurd h v.type_ne_error
      cases v with
      | array items =>
          cases t with
          | value => exact Ty.value_accepts _
          | array item' length' =>
              obtain ⟨hitem, hlength⟩ := Ty.array_accepts_array.1 hts
              obtain ⟨hall, hsize⟩ := accepts_array_iff.1 hsv
              refine accepts_array_iff.2 ⟨?_, ?_⟩
              · match items with
                | [] => exact .inr ⟨item', Ty.accepts_refl item', by simp⟩
                | v :: vs =>
                    rcases hitem with ⟨hzero, -⟩ | hitem
                    · simp [hzero] at hsize
                    · refine hall.imp (fun h => ?_) fun ⟨u, hu, hv⟩ => ?_
                      · exact Ty.eq_value_of_accepts (h ▸ hitem)
                      · obtain rfl := hv v List.mem_cons_self
                        exact ⟨_, ih hitem hu, hv⟩
              · rcases hlength with h | h
                · exact .inl h
                · exact h ▸ hsize
          | _ => simp [Ty.accepts, Ty.sameKind] at hts
      | _ => simp [type] at h
  | _ =>
      cases v <;> simp [Ty.accepts, Ty.sameKind, type] at hsv
      simpa [type] using hts

/-! ## Chains of types -/

/-- Between types acceptance is not transitive: an empty array of anything may
stand for an array of numbers, and an empty array of texts for an empty array of
anything. -/
theorem not_transitive_accepts :
    ¬ ∀ r s t : Ty, r.accepts s = true → s.accepts t = true →
      r.accepts t = true := by
  intro h
  exact absurd (h (.array .number none) (.array .value (some 0))
    (.array .string (some 0)) (by decide) (by decide)) (by decide)

/-- Subsumption is sound for values: a type that accepts a type of the value
accepts the type of the value itself, and so does every type that is reached by
going on from one type to another that accepts it. -/
theorem subsumption_sound (v : Value) :
    (∀ s t : Ty, s.accepts v.type = true → t.accepts s = true →
      t.accepts v.type = true) ∧
    ∀ s t : Ty, s.accepts v.type = true →
      Relation.ReflTransGen (fun s t : Ty => t.accepts s = true) s t →
        t.accepts v.type = true := by
  refine ⟨fun s t hsv hts => accepts_trans hts hsv, fun s t hsv hchain => ?_⟩
  induction hchain with
  | refl => exact hsv
  | tail _ hstep ih => exact accepts_trans hstep ih

/-- Two empty arrays in an array, taken for empty arrays of numbers, those for
arrays of anything, and the number of them left open. -/
theorem subsumption_sound_empty :
    (Ty.array (.array .number (some 0)) (some 2)).accepts
        (Value.array [.array [], .array []]).type = true ∧
      (Ty.array .anyArray (some 2)).accepts
        (.array (.array .number (some 0)) (some 2)) = true ∧
      (Ty.array .anyArray none).accepts
        (.array .anyArray (some 2)) = true ∧
      (Ty.array .anyArray none).accepts
        (Value.array [.array [], .array []]).type = true := by
  have hvalue : (Ty.array (.array .number (some 0)) (some 2)).accepts
      (Value.array [.array [], .array []]).type = true := by decide
  have hitems : (Ty.array .anyArray (some 2)).accepts
      (.array (.array .number (some 0)) (some 2)) = true := by decide
  have hlength : (Ty.array .anyArray none).accepts
      (.array .anyArray (some 2)) = true := by decide
  have hboth := (subsumption_sound (.array [.array [], .array []])).1 _ _
    hvalue hitems
  exact ⟨hvalue, hitems, hlength, (subsumption_sound _).2 _ _ hboth
    (.single hlength)⟩

end Value

end MapStyle
