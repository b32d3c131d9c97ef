import MapStyle.Compile.Compiler
import MapStyle.Proofs.Curve.Blend
import MapStyle.Proofs.Outcome
import MapStyle.Proofs.Typing.Rules

/-!
# What the rules of evaluation return

For every rule of evaluation, the type of what it returns when it returns
anything: a fixed type, or that of one of the outcomes it was given. Nothing is
assumed of the outcomes of the operands here, apart from those of curves and
sequences, whose types pass on to the result.
-/

namespace MapStyle

namespace Curve

variable {α β : Type} [LE α] [DecidableLE α] [BEq α]

theorem mem_of_locate_stop {stops : List (α × β)} {x : α} {output : β}
    (h : locate stops x = .stop output) : ∃ l, (l, output) ∈ stops := by
  match stops with
  | [] => cases h
  | (first, output₁) :: rest =>
      have hlast := List.getLastD_mem_cons (l := rest) (a := (first, output₁))
      simp only [locate] at h
      split at h
      · cases h
        exact ⟨first, List.mem_cons_self⟩
      · split at h
        · cases h
          exact ⟨_, hlast⟩
        · split at h
          · cases h
          · split at h
            · cases h
            · cases h
              exact ⟨_, hlast⟩

theorem mem_of_locate_between {stops : List (α × β)} {x lower upper : α}
    {first second : β}
    (h : locate stops x = .between lower upper first second) :
    (lower, first) ∈ stops ∧ (upper, second) ∈ stops := by
  match stops with
  | [] => cases h
  | (label, output) :: rest =>
      simp only [locate] at h
      split at h
      · cases h
      · split at h
        · cases h
        · split at h
          · cases h
          · split at h
            · next hget =>
                cases h
                have hmem := List.of_mem_zip (List.mem_of_getElem? hget)
                exact ⟨hmem.1, List.mem_cons_of_mem _ hmem.2⟩
            · cases h

end Curve

namespace Semantics

variable {ty : Ty} {o : Outcome} {os : List Outcome} {v : Value}

/-! ## Narrowing -/

theorem accepts_of_assertType {last : Value}
    (h : assertType ty last os = .ok v) : ty.accepts v.type = true := by
  induction os generalizing last with
  | nil => cases h
  | cons o os ih =>
      obtain ⟨w, -, h⟩ := ok_of_bind h
      split at h
      · next hw =>
          obtain rfl := ok_of_pure h
          exact hw
      · exact ih h

theorem type_of_convert (hty : Compile.isCoercible ty = true)
    (h : convert ty os = .ok v) : v.type = ty := by
  cases ty with
  | boolean | color | number | string =>
      obtain ⟨_, -, h⟩ := ok_of_bind h
      obtain rfl := ok_of_pure h
      rfl
  | _ => cases hty

/-! ## Sequences -/

theorem mem_of_item {index : Outcome} (h : item ty index o = .ok v) :
    ∃ items, o = .ok (.array items) ∧ v ∈ items := by
  obtain ⟨x, -, h⟩ := ok_of_bind h
  obtain ⟨w, ho, h⟩ := ok_of_bind h
  cases w with
  | array items =>
      refine ⟨items, ho, ?_⟩
      obtain ⟨-, h⟩ := ok_of_guard h
      obtain ⟨-, h⟩ := ok_of_guard h
      obtain ⟨-, h⟩ := ok_of_guard h
      split at h
      · next hget =>
          obtain rfl := ok_of_pure h
          exact List.mem_of_getElem? hget
      · cases h
  | _ => cases h

theorem type_of_contains {needle : Outcome}
    (h : contains needle o = .ok v) : v.type = .boolean := by
  obtain ⟨n, -, h⟩ := ok_of_bind h
  obtain ⟨w, -, h⟩ := ok_of_bind h
  split at h
  · obtain rfl := ok_of_pure h
    rfl
  · obtain ⟨-, h⟩ := ok_of_guard h
    split at h
    · obtain rfl := ok_of_pure h
      rfl
    · obtain rfl := ok_of_pure h
      rfl
    · cases h

theorem type_of_position {needle : Outcome} {start : Option Outcome}
    (h : position needle o start = .ok v) : v.type = .number := by
  obtain ⟨n, -, h⟩ := ok_of_bind h
  obtain ⟨w, -, h⟩ := ok_of_bind h
  obtain ⟨-, h⟩ := ok_of_guard h
  cases start
  all_goals
    obtain ⟨x, -, h⟩ := ok_of_bind h
    obtain ⟨i, -, h⟩ := ok_of_bind h
    split at h
    all_goals
      obtain rfl := ok_of_pure h
      rfl

/-- A part of a string is a string, and one of an array has some of its
items. -/
theorem part_of_slice {start : Outcome} {stop : Option Outcome}
    (h : slice o start stop = .ok v) :
    (∃ s t, o = .ok (.string s) ∧ v = .string t) ∨
      ∃ items items', o = .ok (.array items) ∧ v = .array items' ∧
        items' ⊆ items := by
  obtain ⟨w, ho, h⟩ := ok_of_bind h
  obtain ⟨x, -, h⟩ := ok_of_bind h
  cases stop
  all_goals
    obtain ⟨y, -, h⟩ := ok_of_bind h
    split at h
    · obtain rfl := ok_of_pure h
      exact .inl ⟨_, _, ho, rfl⟩
    · obtain rfl := ok_of_pure h
      refine .inr ⟨_, _, ho, rfl, fun a ha => ?_⟩
      exact List.mem_of_mem_drop (List.mem_of_mem_take ha)
    · cases h

theorem type_of_length (h : length o = .ok v) : v.type = .number := by
  obtain ⟨w, -, h⟩ := ok_of_bind h
  split at h
  · obtain rfl := ok_of_pure h
    rfl
  · obtain rfl := ok_of_pure h
    rfl
  · cases h

/-! ## Choices -/

theorem output_of_conditional {branches : List (Outcome × Outcome)}
    (h : conditional branches o = .ok v) :
    o = .ok v ∨ ∃ b ∈ branches, b.2 = .ok v := by
  induction branches with
  | nil => exact .inl h
  | cons b rest ih =>
      obtain ⟨test, output⟩ := b
      obtain ⟨t, -, h⟩ := ok_of_bind h
      split at h
      · exact .inr ⟨_, List.mem_cons_self, h⟩
      · refine (ih h).imp_right fun ⟨b, hb, hv⟩ => ?_
        exact ⟨b, List.mem_cons_of_mem _ hb, hv⟩

theorem output_of_selection {input : Outcome}
    {branches : List (List Label × Outcome)}
    (h : selection ty input branches o = .ok v) :
    o = .ok v ∨ ∃ b ∈ branches, b.2 = .ok v := by
  obtain ⟨w, -, h⟩ := ok_of_bind h
  split at h
  · exact .inl h
  · split at h
    · next hfind =>
        exact .inr ⟨_, List.mem_of_find?_eq_some hfind, h⟩
    · exact .inl h

theorem coalesce_value (hv : v ≠ .null) : coalesce (.ok v :: os) = .ok v := by
  cases v with
  | null => exact absurd rfl hv
  | _ => rfl

/-- A coalesce has the value of an operand, since where all are null that is
null as well. -/
theorem operand_of_coalesce (hos : os ≠ []) (h : coalesce os = .ok v) :
    .ok v ∈ os := by
  induction os with
  | nil => exact absurd rfl hos
  | cons o os ih =>
      obtain ⟨w, rfl, -⟩ := ok_of_bind h
      by_cases hw : w = .null
      · subst hw
        cases os with
        | nil =>
            obtain rfl := ok_of_pure h
            exact List.mem_cons_self
        | cons o' os => exact List.mem_cons_of_mem _ (ih nofun h)
      · rw [coalesce_value hw] at h
        exact h ▸ List.mem_cons_self

theorem type_of_all (h : all os = .ok v) : v.type = .boolean := by
  induction os with
  | nil =>
      obtain rfl := ok_of_pure h
      rfl
  | cons o os ih =>
      obtain ⟨b, -, h⟩ := ok_of_bind h
      split at h
      · exact ih h
      · obtain rfl := ok_of_pure h
        rfl

theorem type_of_any (h : any os = .ok v) : v.type = .boolean := by
  induction os with
  | nil =>
      obtain rfl := ok_of_pure h
      rfl
  | cons o os ih =>
      obtain ⟨b, -, h⟩ := ok_of_bind h
      split at h
      · obtain rfl := ok_of_pure h
        rfl
      · exact ih h

theorem type_of_comparison {op : Comparator} {untyped : Bool}
    {lhs rhs : Outcome} (h : comparison op untyped lhs rhs = .ok v) :
    v.type = .boolean := by
  obtain ⟨l, -, h⟩ := ok_of_bind h
  obtain ⟨r, -, h⟩ := ok_of_bind h
  split at h
  · obtain rfl := ok_of_pure h
    rfl
  · obtain rfl := ok_of_pure h
    rfl
  · obtain ⟨-, h⟩ := ok_of_guard h
    obtain rfl := ok_of_pure h
    rfl

/-! ## Curves -/

theorem output_of_step {stops : List (Float × Outcome)}
    (h : step o stops = .ok v) : ∃ s ∈ stops, s.2 = .ok v := by
  unfold step at h
  split at h
  · exact ⟨_, List.mem_singleton_self _, h⟩
  · obtain ⟨x, -, h⟩ := ok_of_bind h
    split at h
    · next hstop =>
        obtain ⟨l, hmem⟩ := Curve.mem_of_locate_stop hstop
        exact ⟨_, hmem, h⟩
    · next hbetween =>
        exact ⟨_, (Curve.mem_of_locate_between hbetween).1, h⟩
    · cases h
    · cases h

/-- An interpolation has the output of a stop or blends those of two. -/
theorem output_of_interpolate {space : ColorSpace} {kind : Interpolation}
    {stops : List (Float × Outcome)}
    (h : interpolate ty space kind o stops = .ok v) :
    (∃ s ∈ stops, s.2 = .ok v) ∨
      ∃ t, ∃ first ∈ stops, ∃ second ∈ stops,
        blendOutputs ty space t first.2 second.2 = .ok v := by
  unfold interpolate at h
  split at h
  · exact .inl ⟨_, List.mem_singleton_self _, h⟩
  · obtain ⟨x, -, h⟩ := ok_of_bind h
    split at h
    · next hstop =>
        obtain ⟨l, hmem⟩ := Curve.mem_of_locate_stop hstop
        exact .inl ⟨_, hmem, h⟩
    · next hbetween =>
        obtain ⟨hfirst, hsecond⟩ := Curve.mem_of_locate_between hbetween
        exact .inr ⟨_, _, hfirst, _, hsecond, h⟩
    · cases h
    · cases h

/-- A blend is of the type of the curve, which is one that can be blended, if
the first output is; a blend of numbers is a number whatever came before. -/
theorem accepts_of_blendOutputs {space : ColorSpace} {t : Float}
    {first second : Outcome} (hty : Compile.isInterpolatable ty = true)
    (hfirst : ∀ w, first = .ok w → ty.accepts w.type = true ∨ ty = .number)
    (h : blendOutputs ty space t first second = .ok v) :
    ty.accepts v.type = true := by
  cases ty with
  | color =>
      obtain ⟨x, y, -, -, rfl⟩ := blendOutputs_color_eq_ok.1 h
      rfl
  | array item size =>
      obtain ⟨ps, qs, hps, -, hlength, rfl⟩ := blendOutputs_array_eq_ok.1 h
      have haccepts := (hfirst _ hps).resolve_right nofun
      obtain ⟨-, hsize⟩ := Value.accepts_array_iff.1 haccepts
      rw [List.length_map] at hsize
      refine Value.accepts_array_iff.2 ⟨?_, ?_⟩
      · cases ps with
        | nil => exact .inr ⟨item, Ty.accepts_refl item, nofun⟩
        | cons p ps =>
            refine .inr ⟨.number, Value.accepts_item haccepts List.mem_cons_self,
              fun z hz => ?_⟩
            rw [← List.map_uncurry_zip_eq_zipWith] at hz
            obtain ⟨-, -, rfl⟩ := List.mem_map.1 hz
            rfl
      · rwa [List.length_zipWith, ← hlength, Nat.min_self]
  | _ =>
      have h : blendOutputs .number space t first second = .ok v := h
      obtain ⟨x, y, hx, -, rfl⟩ := blendOutputs_number_eq_ok.1 h
      refine (hfirst _ hx).elim id fun hty => ?_
      rw [hty]
      rfl

/-! ## Geometry -/

theorem type_of_distance (ctx : Context)
    (shapes : List (Geometry.Shape Float)) :
    (distance ctx shapes).type = .number ∨ distance ctx shapes = .null := by
  unfold distance
  split
  · simp only
    split
    · exact .inr rfl
    · split
      · split
        · exact .inl rfl
        · exact .inr rfl
      · exact .inr rfl
  · exact .inr rfl

end Semantics

/-! ## Primitives -/

namespace Primitive

theorem type_of_colorOf {r g b : Float} {a : Option Float} {v : Value}
    (h : colorOf r g b a = .ok v) : v.type = .color := by
  unfold colorOf at h
  split at h
  · cases h
  · cases h
    rfl

/-- A primitive computes values of its type, except that an accumulated number
may be missing. -/
theorem accepts_result {p : Primitive} {ctx : Context} {os : List Outcome}
    {v : Value} (h : p.apply ctx os = .ok v) :
    p.result.accepts v.type = true ∨ (p = .accumulated ∧ v = .null) := by
  unfold apply at h
  split at h
  all_goals try exact .inl (Ty.value_accepts _)
  -- What is left has read some operands and then returns a value of one type.
  all_goals repeat obtain ⟨_, -, h⟩ := ok_of_bind h
  all_goals try cases h
  all_goals try exact .inl rfl
  · rw [type_of_colorOf h]
    exact .inl rfl
  · rw [type_of_colorOf h]
    exact .inl rfl
  · cases ctx.accumulated with
    | none => exact .inr ⟨rfl, rfl⟩
    | some x => exact .inl rfl

end Primitive

end MapStyle
