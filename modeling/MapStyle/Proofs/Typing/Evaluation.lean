import MapStyle.Proofs.Typing.Results

/-!
# The values of typed trees

A typed tree evaluates to values of the type it claims, node by node, with one
family of exceptions. A partial node is null where its type promises a number.
That null may be passed on by nodes that hand the value of an operand on; and a
coalesce that meets it as its first operand goes on to its other operands,
which it took to be shielded and whose types it never looked at, so that any
value at all may come up in its place.

`Stray` describes these values by where they come from. It is exact: a part of
a typed tree has a value that is not of its type if and only if its type is
`number` and the value strays (`Typed.accepts_iff`). In particular nothing
strays without partial parts, and nothing but numbers is affected.
-/

namespace MapStyle

theorem Ty.eq_of_accepts_number {t : Ty} (h : t.accepts .number = true) :
    t = .number ∨ t = .value := by
  cases t <;> first | exact .inl rfl | exact .inr rfl | cases h

namespace Value

variable {v : Value}

theorem accepts_of_type {t : Ty} (h : v.type = t) :
    t.accepts v.type = true :=
  h ▸ t.accepts_refl

end Value

namespace Expr

/-- The values that come up in a number's place in a context: the null of a
partial node, what a coalesce lets through because its first operand strays to
null, and either of them handed on by nodes that promise a number. -/
inductive Stray (ctx : Context) : Value → Expr → Prop where
  | missing {e : Expr} (h : e.isPartial = true)
      (hv : e.evaluate ctx = .ok .null) : Stray ctx .null e
  | letThrough {first c : Expr} {rest : List Expr} {v : Value}
      (hfirst : Stray ctx .null first) (hc : c ∈ rest)
      (hwide : Ty.number.accepts c.type = false)
      (hvalue : c.evaluate ctx = .ok v)
      (hnumber : Ty.number.accepts v.type = false)
      (hv : (coalesce .number (first :: rest)).evaluate ctx = .ok v) :
      Stray ctx v (coalesce .number (first :: rest))
  | passed {c e : Expr} {v : Value} (hc : c ∈ e.operands)
      (hty : e.type = .number) (hv : e.evaluate ctx = .ok v)
      (h : Stray ctx v c) : Stray ctx v e

variable {r : Registry} {ctx : Context} {e : Expr} {v : Value}

theorem Stray.not_number (h : Stray ctx v e) :
    Ty.number.accepts v.type = false := by
  induction h with
  | missing => rfl
  | letThrough _ _ _ _ hnumber _ _ => exact hnumber
  | passed _ _ _ _ ih => exact ih

/-- Behind every stray value there is a partial part. -/
theorem Stray.exists_partial (h : Stray ctx v e) :
    ∃ p : Expr, p.PartOf e ∧ p.isPartial = true := by
  induction h with
  | missing h _ => exact ⟨_, .refl, h⟩
  | letThrough _ _ _ _ _ _ ih =>
      obtain ⟨p, hp, hpartial⟩ := ih
      exact ⟨p, .operand List.mem_cons_self hp, hpartial⟩
  | passed hc _ _ _ ih =>
      obtain ⟨p, hp, hpartial⟩ := ih
      exact ⟨p, .operand hc hp, hpartial⟩

/-- Whether every value of the expression in a context is of its type, or comes
up in a number's place. -/
def Sound (ctx : Context) (e : Expr) : Prop :=
  ∀ v, e.evaluate ctx = .ok v →
    e.type.accepts v.type = true ∨ (e.type = .number ∧ e.Stray ctx v)

/-! ## Single nodes -/

/-- A value handed on by an operand whose type is accepted. -/
theorem sound_of_operand {c : Expr} (hc : c ∈ e.operands)
    (hty : e.type.accepts c.type = true) (hsound : c.Sound ctx)
    (hv : c.evaluate ctx = .ok v) (he : e.evaluate ctx = .ok v) :
    e.type.accepts v.type = true ∨ (e.type = .number ∧ e.Stray ctx v) := by
  rcases hsound v hv with haccepts | ⟨hnumber, hstray⟩
  · exact .inl (Value.accepts_trans hty haccepts)
  · rw [hnumber] at hty
    rcases Ty.eq_of_accepts_number hty with hty | hty
    · exact .inr ⟨hty, .passed hc hty he hstray⟩
    · rw [hty]
      exact .inl (Ty.value_accepts _)

/-- Where all values of a node have its very type there is nothing to hand on. -/
theorem sound_of_type
    (hty : ∀ v, e.evaluate ctx = .ok v → v.type = e.type) : e.Sound ctx :=
  fun v h => .inl (Value.accepts_of_type (hty v h))

theorem sound_item {ty : Ty} {index input : Expr}
    (hty : (Ty.array ty none).accepts input.type = true)
    (hinput : input.Sound ctx) : (item ty index input).Sound ctx := by
  intro v h
  rw [evaluate] at h
  obtain ⟨items, hitems, hv⟩ := Semantics.mem_of_item h
  rcases hinput _ hitems with haccepts | ⟨hnumber, -⟩
  · exact .inl (Value.accepts_item (Value.accepts_trans hty haccepts) hv)
  · rw [hnumber] at hty
    cases hty

theorem sound_slice {ty : Ty} {input start : Expr} {stop : Option Expr}
    (hty : Compile.sliceType? input.type = some ty)
    (hinput : input.Sound ctx) : (slice ty input start stop).Sound ctx := by
  intro v h
  rw [evaluate] at h
  have haccepts {w : Value} (hw : input.evaluate ctx = .ok w) :
      input.type.accepts w.type = true := by
    refine (hinput w hw).resolve_right fun hstray => ?_
    rw [hstray.1] at hty
    cases hty
  rcases Semantics.part_of_slice h with
    ⟨s, t, hs, rfl⟩ | ⟨items, items', hitems, rfl, hsub⟩
  · have haccepts := haccepts hs
    cases hinputTy : input.type <;> rw [hinputTy] at hty haccepts <;>
      cases hty <;> first | exact .inl rfl | cases haccepts
  · have haccepts := haccepts hitems
    cases hinputTy : input.type <;> rw [hinputTy] at hty haccepts <;>
      cases hty
    · cases haccepts
    · exact .inl rfl
    · exact .inl (Value.accepts_of_subset haccepts hsub)

theorem sound_conditional {ty : Ty} {branches : List (Expr × Expr)}
    {otherwise : Expr} (hobeys : (conditional ty branches otherwise).Obeys r)
    (hop : ∀ c ∈ (conditional ty branches otherwise).operands, c.Sound ctx) :
    (conditional ty branches otherwise).Sound ctx := by
  intro v h
  have hvalue := h
  rw [evaluate, evaluateBranches_eq_map] at h
  rcases Semantics.output_of_conditional h with hv | ⟨o, ho, hv⟩
  · have hmem : otherwise ∈ (conditional ty branches otherwise).operands := by
      simp [operands, children]
    exact sound_of_operand hmem hobeys.2 (hop _ hmem) hv hvalue
  · obtain ⟨b, hb, rfl⟩ := List.mem_map.1 ho
    have hmem : b.2 ∈ (conditional ty branches otherwise).operands := by
      simp only [operands, children, List.mem_append, List.mem_flatMap]
      exact .inl ⟨b, hb, by simp⟩
    exact sound_of_operand hmem (hobeys.1 b hb).2 (hop _ hmem) hv hvalue

theorem sound_selection {ty inputTy : Ty} {input : Expr}
    {branches : List (List Label × Expr)} {otherwise : Expr}
    (hobeys : (selection ty inputTy input branches otherwise).Obeys r)
    (hop : ∀ c ∈ (selection ty inputTy input branches otherwise).operands,
      c.Sound ctx) :
    (selection ty inputTy input branches otherwise).Sound ctx := by
  intro v h
  have hvalue := h
  rw [evaluate, evaluateLabelled_eq_map] at h
  rcases Semantics.output_of_selection h with hv | ⟨o, ho, hv⟩
  · have hmem : otherwise ∈
        (selection ty inputTy input branches otherwise).operands := by
      simp [operands, children]
    exact sound_of_operand hmem hobeys.2.2 (hop _ hmem) hv hvalue
  · obtain ⟨b, hb, rfl⟩ := List.mem_map.1 ho
    have hmem : b.2 ∈
        (selection ty inputTy input branches otherwise).operands := by
      simp only [operands, children, List.mem_append, List.mem_cons,
        List.mem_map]
      exact .inl (.inr ⟨b, hb, rfl⟩)
    exact sound_of_operand hmem (hobeys.2.1 b hb) (hop _ hmem) hv hvalue

theorem sound_step {ty : Ty} {input : Expr} {stops : List (Float × Expr)}
    (hobeys : (step ty input stops).Obeys r)
    (hop : ∀ c ∈ (step ty input stops).operands, c.Sound ctx) :
    (step ty input stops).Sound ctx := by
  intro v h
  have hvalue := h
  rw [evaluate, evaluateStops_eq_map] at h
  obtain ⟨o, ho, hv⟩ := Semantics.output_of_step h
  obtain ⟨s, hs, rfl⟩ := List.mem_map.1 ho
  have hmem : s.2 ∈ (step ty input stops).operands :=
    List.mem_cons_of_mem _ (List.mem_map_of_mem hs)
  exact sound_of_operand hmem (hobeys.2.2 s hs) (hop _ hmem) hv hvalue

theorem sound_interpolate {ty : Ty} {space : ColorSpace}
    {kind : Interpolation} {input : Expr} {stops : List (Float × Expr)}
    (hty : Compile.isInterpolatable ty = true)
    (hstops : ∀ s ∈ stops, ty.accepts s.2.type = true)
    (hsound : ∀ s ∈ stops, s.2.Sound ctx) :
    (interpolate ty space kind input stops).Sound ctx := by
  intro v h
  have hvalue := h
  rw [evaluate, evaluateStops_eq_map] at h
  rcases Semantics.output_of_interpolate h with
    ⟨o, ho, hv⟩ | ⟨t, first, hfirst, second, -, hv⟩
  · obtain ⟨s, hs, rfl⟩ := List.mem_map.1 ho
    have hmem : s.2 ∈ (interpolate ty space kind input stops).operands :=
      List.mem_cons_of_mem _ (List.mem_map_of_mem hs)
    exact sound_of_operand hmem (hstops s hs) (hsound s hs) hv hvalue
  · obtain ⟨s, hs, rfl⟩ := List.mem_map.1 hfirst
    refine .inl (Semantics.accepts_of_blendOutputs hty (fun w hw => ?_) hv)
    rcases hsound s hs w hw with haccepts | ⟨hnumber, -⟩
    · exact .inl (Value.accepts_trans (hstops s hs) haccepts)
    · have haccepts := hstops s hs
      rw [hnumber] at haccepts
      rcases Ty.eq_of_accepts_number haccepts with rfl | rfl
      · exact .inr rfl
      · cases hty

theorem sound_coalesce {ty : Ty} {args : List Expr}
    (hobeys : (coalesce ty args).Obeys r) (hargs : ∀ e ∈ args, e.Sound ctx) :
    (coalesce ty args).Sound ctx := by
  obtain ⟨hne, haccepts⟩ := hobeys
  intro v h
  have hvalue := h
  rw [evaluate, evaluateList_eq_map] at h
  obtain ⟨e, he, hv⟩ :=
    List.mem_map.1 (Semantics.operand_of_coalesce (by simpa using hne) h)
  cases hwide : ty.accepts e.type with
  | true => exact sound_of_operand he hwide (hargs e he) hv hvalue
  | false =>
      obtain ⟨hhead, hshield⟩ := haccepts.resolve_left fun hall =>
        Bool.false_ne_true (hwide.symm.trans (hall e he))
      obtain ⟨first, rest, rfl⟩ := List.exists_cons_of_ne_nil hne
      obtain rfl : first.type = ty := by simpa using hhead
      have hrest : e ∈ rest := by
        rcases List.mem_cons.1 he with rfl | hrest
        · rw [Ty.accepts_refl] at hwide
          cases hwide
        · exact hrest
      rw [List.map_cons] at h
      obtain ⟨w, hw, -⟩ := ok_of_bind h
      rw [hw] at h
      by_cases hnull : w = .null
      · -- The shield has failed, which takes a first operand that strays.
        subst hnull
        obtain ⟨hnumber, hstray⟩ :=
          (hargs first List.mem_cons_self _ hw).resolve_left fun hty =>
            Bool.false_ne_true (hshield.symm.trans hty)
        rw [hnumber] at hwide hvalue
        show first.type.accepts v.type = true ∨ (first.type = .number ∧ _)
        rw [hnumber]
        cases hv' : Ty.number.accepts v.type with
        | true => exact .inl rfl
        | false =>
            exact .inr ⟨rfl, .letThrough hstray hrest hwide hv hv' hvalue⟩
      · rw [Semantics.coalesce_value hnull] at h
        cases h
        exact sound_of_operand List.mem_cons_self (Ty.accepts_refl _)
          (hargs first List.mem_cons_self) hw hvalue

theorem sound_compound (hr : r.Lawful) {name : String} {ty : Ty}
    {primitive : Primitive} {impure : Bool} {args : List Expr}
    (hobeys : (compound name ty primitive impure args).Obeys r) :
    (compound name ty primitive impure args).Sound ctx := by
  obtain ⟨op, hop, -, rfl, -, sig, hsig, rfl, -⟩ := hobeys
  intro v h
  have hvalue := h
  rw [evaluate] at h
  have hty := (hr op hop).output_eq sig hsig
  show op.output.accepts v.type = true ∨ (op.output = .number ∧ _)
  rcases Primitive.accepts_result h with haccepts | ⟨hpartial, rfl⟩
  · exact .inl (hty ▸ haccepts)
  · refine .inr ⟨?_, .missing (beq_iff_eq.2 hpartial) hvalue⟩
    rw [hty, hpartial]
    rfl

/-- A node that obeys its rule is sound if its operands are. -/
theorem sound_of_operands (hr : r.Lawful) (hobeys : e.Obeys r)
    (hop : ∀ c ∈ e.operands, c.Sound ctx) : e.Sound ctx := by
  cases e with
  | literal ty value =>
      intro v h
      rw [evaluate] at h
      obtain rfl := ok_of_pure h
      exact .inl hobeys
  | assertion ty args =>
      intro v h
      rw [evaluate] at h
      exact .inl (Semantics.accepts_of_assertType h)
  | coercion ty args =>
      intro v h
      rw [evaluate] at h
      exact .inl (Value.accepts_of_type (Semantics.type_of_convert hobeys.1 h))
  | binding names body =>
      intro v h
      have hmem : body ∈ (binding names body).operands := by
        simp [operands, children]
      exact sound_of_operand hmem (Ty.accepts_refl _) (hop body hmem)
        (by rwa [evaluate] at h) h
  | reference name bound =>
      intro v h
      have hmem : bound ∈ (reference name bound).operands :=
        List.mem_cons_self
      exact sound_of_operand hmem (Ty.accepts_refl _) (hop bound hmem)
        (by rwa [evaluate] at h) h
  | item ty index input =>
      exact sound_item hobeys.2 (hop input (by simp [operands, children]))
  | membership ty needle haystack =>
      refine sound_of_type fun v h => ?_
      rw [evaluate] at h
      exact (Semantics.type_of_contains h).trans hobeys.1.symm
  | position ty needle haystack start =>
      refine sound_of_type fun v h => ?_
      rw [evaluate] at h
      exact (Semantics.type_of_position h).trans hobeys.1.symm
  | slice ty input start stop =>
      exact sound_slice hobeys.1 (hop input (by simp [operands, children]))
  | length ty input =>
      refine sound_of_type fun v h => ?_
      rw [evaluate] at h
      exact (Semantics.type_of_length h).trans hobeys.1.symm
  | conditional ty branches otherwise => exact sound_conditional hobeys hop
  | selection ty inputTy input branches otherwise =>
      exact sound_selection hobeys hop
  | coalesce ty args => exact sound_coalesce hobeys hop
  | step ty input stops => exact sound_step hobeys hop
  | interpolate ty space kind input stops =>
      refine sound_interpolate hobeys.2.2.2 hobeys.2.2.1 fun s hs => ?_
      exact hop s.2 (List.mem_cons_of_mem _ (List.mem_map_of_mem hs))
  | comparison ty op untyped lhs rhs =>
      refine sound_of_type fun v h => ?_
      rw [evaluate] at h
      exact (Semantics.type_of_comparison h).trans hobeys.1.symm
  | all ty args =>
      refine sound_of_type fun v h => ?_
      rw [evaluate] at h
      exact (Semantics.type_of_all h).trans hobeys.1.symm
  | any ty args =>
      refine sound_of_type fun v h => ?_
      rw [evaluate] at h
      exact (Semantics.type_of_any h).trans hobeys.1.symm
  | globalState ty key =>
      intro v h
      obtain rfl : ty = .value := hobeys
      exact .inl (Ty.value_accepts _)
  | within ty region =>
      intro v h
      rw [evaluate] at h
      obtain rfl := ok_of_pure h
      obtain rfl : ty = .boolean := hobeys
      exact .inl rfl
  | distance ty shapes =>
      intro v h
      have hvalue := h
      rw [evaluate] at h
      obtain rfl := ok_of_pure h
      obtain rfl : ty = .number := hobeys
      rcases Semantics.type_of_distance ctx shapes with hv | hv
      · exact .inl (Value.accepts_of_type hv)
      · rw [hv] at hvalue ⊢
        exact .inr ⟨rfl, .missing rfl hvalue⟩
  | compound name ty primitive impure args => exact sound_compound hr hobeys

/-! ## Trees -/

theorem Typed.sound (hr : r.Lawful) (he : e.Typed r) : e.Sound ctx := by
  induction e using Expr.induction with
  | step e ih =>
      refine sound_of_operands hr (he e .refl) fun c hc => ih c hc ?_
      exact fun p hp => he p (.operand hc hp)

/-- A value of a typed tree is of its type unless it comes up in a number's
place. -/
theorem Typed.accepts_iff (hr : r.Lawful) (he : e.Typed r)
    (h : e.evaluate ctx = .ok v) :
    e.type.accepts v.type = true ↔ ¬ (e.type = .number ∧ e.Stray ctx v) := by
  refine ⟨fun haccepts ⟨hnumber, hstray⟩ => ?_, fun hstray => ?_⟩
  · rw [hnumber, hstray.not_number] at haccepts
    cases haccepts
  · exact (he.sound hr v h).resolve_right hstray

/-- Without partial parts, every value is of its type. -/
theorem Typed.accepts (hr : r.Lawful) (he : e.Typed r)
    (hpartial : ∀ p : Expr, p.PartOf e → p.isPartial = false)
    (h : e.evaluate ctx = .ok v) : e.type.accepts v.type = true := by
  refine (he.accepts_iff hr h).2 fun ⟨_, hstray⟩ => ?_
  obtain ⟨p, hp, hpart⟩ := hstray.exists_partial
  exact Bool.false_ne_true ((hpartial p hp).symm.trans hpart)

end Expr

end MapStyle
