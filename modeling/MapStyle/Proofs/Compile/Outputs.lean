import MapStyle.Proofs.Compile.Forms

/-!
# Forms whose outputs agree in type

Choices and curves compile their outputs against one type, which the first
output sets where the site says nothing. A type that is set stays: that is the
invariant by which all outputs are accepted by the type of the whole. The
operands of a coalesce are compiled in the same way, but not narrowed, so that
each is accepted or the type is one that null is not of.
-/

namespace MapStyle.Compile

variable {r : Registry} {R : Expr → Expr → Prop} {s s' : Site}
  {args args' : List Operand}

theorem expectPairs_follows (hlength : args.length = args'.length) :
    Follows (fun _ _ => 4 ≤ args.length ∧ args.length % 2 = 0)
      (expectPairs s args) (expectPairs s' args') := by
  simp only [expectPairs, hlength]
  split
  · exact .fail
  · next hleast =>
      split
      · exact .fail
      · next heven =>
          refine .pure ⟨by omega, ?_⟩
          have : args'.length % 2 ≠ 1 := by simpa using heven
          omega

theorem expectPairs_ok {u : Unit} (h : expectPairs s args = .ok u) :
    4 ≤ args.length ∧ args.length % 2 = 0 := by
  unfold expectPairs at h
  split at h
  · cases h
  · next hleast =>
      split at h
      · cases h
      · next heven =>
          rw [beq_iff_eq] at heven
          omega

/-! ## Conditionals -/

theorem output_follows (hR : Compositional r R) (hs : s.Like R s') {i : Nat}
    {ty : Option Ty} {o o' : Operand} (ho : o.Like R o') :
    Follows (fun p p' => R p.1 p'.1 ∧ p.2 = p'.2 ∧
        p.2.accepts p.1.type = true ∧ ∀ t ∈ ty, p.2 = t)
      (output s i ty o) (output s' i ty o') := by
  refine .bind (ho.compileAt hs i ty) fun e e' ⟨he, hty⟩ => ?_
  rw [← hR.type_eq _ _ he]
  refine .pure ⟨he, rfl, ?_, ?_⟩
  · cases ty with
    | none => exact Ty.accepts_refl _
    | some t => exact hty t rfl
  · rintro _ ⟨⟩
    rfl

theorem branches_follows (hR : Compositional r R) (hs : s.Like R s') :
    ∀ {args args' : List Operand}, List.Forall₂ (Operand.Like R) args args' →
    ∀ (i : Nat) (ty : Option Ty),
    Follows (fun p p' =>
        List.Forall₂ (fun b b' => R b.1 b'.1 ∧ R b.2 b'.2) p.1 p'.1 ∧
          R p.2.1 p'.2.1 ∧ p.2.2 = p'.2.2 ∧ (∀ t ∈ ty, p.2.2 = t) ∧
          (∀ b ∈ p.1, Ty.boolean.accepts b.1.type = true ∧
            p.2.2.accepts b.2.type = true) ∧
          p.2.2.accepts p.2.1.type = true)
      (branches s i ty args) (branches s' i ty args')
  | _, _, .nil, i, ty => .fail
  | _, _, .cons hotherwise .nil, i, ty => by
      refine .bind (output_follows hR hs hotherwise) ?_
      intro p p' ⟨he, hty, haccepts, hset⟩
      exact .pure ⟨.nil, he, hty, hset, nofun, haccepts⟩
  | _, _, .cons htest (.cons hresult hrest), i, ty => by
      refine .bind (htest.compileAt hs i (some .boolean)) fun t t' ht => ?_
      refine .bind (output_follows hR hs hresult) ?_
      rintro ⟨e, ty₁⟩ ⟨e', _⟩ ⟨he, rfl, haccepts, hset⟩
      refine .bind (branches_follows hR hs hrest (i + 2) (some ty₁)) ?_
      intro p p' ⟨hmore, hotherwise, hty, hkeep, htypes, hlast⟩
      have hkeep : p.2.2 = ty₁ := hkeep ty₁ rfl
      refine .pure ⟨.cons ⟨ht.1, he⟩ hmore, hotherwise, hty, ?_, ?_, hlast⟩
      · exact fun t h => hkeep.trans (hset t h)
      · exact List.forall_mem_cons.2 ⟨⟨ht.2 _ rfl, hkeep ▸ haccepts⟩, htypes⟩

theorem conditional_follows (hR : Compositional r R) (hs : s.Like R s')
    (hargs : List.Forall₂ (Operand.Like R) args args') :
    Follows (Made r R) (conditional s args) (conditional s' args') := by
  simp only [conditional, hargs.length_eq, hs.declared]
  split
  · exact .fail
  · split
    · exact .fail
    · refine .bind (branches_follows hR hs hargs 1 s'.declared) ?_
      rintro ⟨bs, e, ty⟩ ⟨bs', e', _⟩ ⟨hbs, he, rfl, -, htypes, hlast⟩
      exact .pure ⟨.conditional ty hbs he, htypes, hlast⟩

/-! ## Selections -/

theorem label_follows {i : Nat} {raw : Json} :
    Follows Eq (label s i raw) (label s' i raw) := by
  intro l h
  refine ⟨l, ?_, rfl⟩
  unfold label at h ⊢
  split at h
  · simp only at h ⊢
    split at h
    · cases h
    · next hsize =>
        rw [if_neg hsize]
        split at h
        · exact h
        · cases h
  · exact h
  · cases h

theorem labels_follows {i : Nat} {seen : List Label} {ty : Option Ty}
    {raws : List Json} :
    Follows Eq (labels s i seen ty raws) (labels s' i seen ty raws) := by
  induction raws generalizing seen ty with
  | nil => exact .pure rfl
  | cons raw raws ih =>
      refine .bind label_follows ?_
      rintro ⟨l, found⟩ _ rfl
      simp only
      split
      · exact .failAt
      · split
        · exact .failAt
        · refine .bind ih ?_
          rintro p _ rfl
          exact .pure rfl

theorem labelled_follows (hR : Compositional r R) (hs : s.Like R s') :
    ∀ {args args' : List Operand}, List.Forall₂ (Operand.Like R) args args' →
    ∀ (i : Nat) (seen : List Label) (inputTy ty : Option Ty),
    Follows (fun p p' => List.Forall₂ (Expr.LabelledBy R) p.1 p'.1 ∧
        p.2.1 = p'.2.1 ∧ p.2.2.1 = p'.2.2.1 ∧ p.2.2.2.1 = p'.2.2.2.1 ∧
        p.2.2.2.2.Like R p'.2.2.2.2 ∧ (∀ t ∈ ty, p.2.2.1 = some t) ∧
        ∀ b ∈ p.1, ∃ t ∈ p.2.2.1, t.accepts b.2.type = true)
      (labelled s i seen inputTy ty args) (labelled s' i seen inputTy ty args')
  | _, _, .nil, i, seen, inputTy, ty => .fail
  | _, _, .cons hotherwise .nil, i, seen, inputTy, ty =>
      .pure ⟨.nil, rfl, rfl, rfl, hotherwise, fun _ h => h, nofun⟩
  | _, _, .cons hraw (.cons hresult hrest), i, seen, inputTy, ty => by
      simp only [labelled, hraw.raw_eq]
      split
      · exact .failAt
      · refine .bind labels_follows ?_
        rintro ⟨ls, inputTy⟩ _ rfl
        refine .bind (output_follows hR hs hresult) ?_
        rintro ⟨e, ty₁⟩ ⟨e', _⟩ ⟨he, rfl, haccepts, hset⟩
        refine .bind (labelled_follows hR hs hrest (i + 2) (ls ++ seen) inputTy
          (some ty₁)) ?_
        intro p p' ⟨hmore, hinput, hty, hposition, hlast, hkeep, htypes⟩
        have hkeep : p.2.2.1 = some ty₁ := hkeep ty₁ rfl
        refine .pure ⟨.cons ⟨rfl, he⟩ hmore, hinput, hty, hposition, hlast,
          ?_, ?_⟩
        · intro t ht
          have hset : ty₁ = t := hset t ht
          rw [hkeep, hset]
        · exact List.forall_mem_cons.2 ⟨⟨ty₁, hkeep, haccepts⟩, htypes⟩

theorem selection_follows (hR : Compositional r R) (hs : s.Like R s')
    (hargs : List.Forall₂ (Operand.Like R) args args') :
    Follows (Made r R) (selection s args) (selection s' args') := by
  simp only [selection, hargs.length_eq, hs.declared]
  split
  · exact .fail
  · split
    · exact .fail
    · cases hargs with
      | nil => exact .fail
      | cons hinput hrest =>
          refine .bind (labelled_follows hR hs hrest 2 [] none s'.declared) ?_
          rintro ⟨bs, inputTy, ty, i, o⟩ ⟨bs', _, _, _, o'⟩
            ⟨hbs, rfl, rfl, rfl, ho, -, htypes⟩
          refine .bind (hinput.compileAt hs 1 _) fun input input' hin => ?_
          refine .bind (output_follows hR hs ho) ?_
          rintro ⟨e, ty₁⟩ ⟨e', _⟩ ⟨he, rfl, haccepts, hset⟩
          simp only [← hR.type_eq _ _ hin.1]
          split
          · exact .failAt
          · next hinputTy =>
              refine .pure ⟨.selection _ _ hin.1 hbs he, ?_, ?_, haccepts⟩
              · simpa [or_iff_not_imp_left] using hinputTy
              · intro b hb
                obtain ⟨t, ht, hb⟩ := htypes b hb
                have hset : ty₁ = t := hset t ht
                exact hset ▸ hb

/-! ## The first operand that is not null -/

theorem alternatives_follows (hR : Compositional r R) (hs : s.Like R s')
    (hargs : List.Forall₂ (Operand.Like R) args args') (i : Nat)
    (ty : Option Ty) :
    Follows (fun p p' => List.Forall₂ R p.1 p'.1 ∧
        p.1.length = args.length ∧ p.2 = p'.2 ∧
        p.2 = ty.or (p.1.head?.map Expr.type) ∧
        ∀ e ∈ p.1, ∀ t ∈ p.2,
          t.accepts e.type = true ∨ t.accepts .null = false)
      (alternatives s i ty args) (alternatives s' i ty args') := by
  induction hargs generalizing i ty with
  | nil => exact .pure ⟨.nil, rfl, rfl, by simp, nofun⟩
  | cons ho _ ih =>
      refine .bind (ho.compile (hs.child i ty .nil)) fun e e' ⟨he, hty⟩ => ?_
      rw [← hR.type_eq _ _ he]
      refine .bind (ih (i + 1) (some (ty.getD e.type))) ?_
      rintro ⟨es, ty₁⟩ ⟨es', _⟩ ⟨hes, hlength, rfl, hset, htypes⟩
      obtain rfl : ty₁ = some (ty.getD e.type) := hset
      refine .pure ⟨.cons he hes, congrArg Nat.succ hlength, rfl, ?_, ?_⟩
      · cases ty <;> rfl
      · refine List.forall_mem_cons.2 ⟨?_, htypes⟩
        rintro _ ⟨⟩
        cases ty with
        | none => exact .inl (Ty.accepts_refl _)
        | some t => exact (hty t rfl).imp_right And.right

theorem map_type_eq (hR : Compositional r R) {es es' : List Expr}
    (h : List.Forall₂ R es es') : es.map Expr.type = es'.map Expr.type := by
  induction h with
  | nil => rfl
  | cons he _ ih => rw [List.map_cons, List.map_cons, hR.type_eq _ _ he, ih]

theorem coalesce_follows (hR : Compositional r R) (hs : s.Like R s')
    (hargs : List.Forall₂ (Operand.Like R) args args') :
    Follows (Made r R) (coalesce s args) (coalesce s' args') := by
  cases hargs with
  | nil => exact .fail
  | cons ho hrest =>
      simp only [coalesce, List.isEmpty_cons, Bool.false_eq_true, if_false,
        ← hs.declared, ← hs.expected_eq]
      refine .bind (alternatives_follows hR hs (.cons ho hrest) 1 s.declared) ?_
      rintro ⟨es, ty⟩ ⟨es', _⟩ ⟨hes, hlength, rfl, hty, htypes⟩
      obtain ⟨first, rest, rfl⟩ :=
        List.exists_cons_of_length_eq_add_one hlength
      have hany (t : Ty) : es'.any (fun e => !t.accepts e.type) =
          (first :: rest).any fun e => !t.accepts e.type := by
        have hmap := congrArg (fun ts => ts.any fun u => !t.accepts u)
          (map_type_eq hR hes).symm
        simp only [List.any_map] at hmap
        exact hmap
      simp only [hany]
      refine .pure ⟨.coalesce _ hes, nofun, ?_⟩
      split
      · exact .inl fun e _ => Ty.value_accepts _
      · next hwider =>
          cases hdecl : s.declared with
          | some t =>
              -- The type is the expected one, and no operand is wider.
              rw [hdecl] at hty
              obtain rfl : ty = some t := hty
              have hexpected : s.expected = some t :=
                (Option.filter_eq_some_iff.1 hdecl).1
              refine .inl fun e he => ?_
              by_contra hwide
              refine hwider ?_
              rw [hexpected]
              exact List.any_eq_true.2 ⟨e, he, by simpa using hwide⟩
          | none =>
              rw [hdecl] at hty
              obtain rfl : ty = some first.type := hty
              by_cases hall : ∀ e ∈ first :: rest,
                  first.type.accepts e.type = true
              · exact .inl hall
              · simp only [not_forall] at hall
                obtain ⟨e, he, hwide⟩ := hall
                exact .inr ⟨rfl, (htypes e he _ rfl).resolve_left hwide⟩

/-! ## Curves -/

theorem stopLabel_follows {name : String} {i : Nat} {previous : Option Float}
    {raw : Json} :
    Follows Eq (stopLabel name s i previous raw)
      (stopLabel name s' i previous raw) := by
  intro x h
  refine ⟨x, ?_, rfl⟩
  unfold stopLabel at h ⊢
  split at h
  · cases h
  · split at h
    · cases h
    · next horder => rw [if_neg horder]; exact h

theorem stops_follows (hR : Compositional r R) (hs : s.Like R s')
    {name : String} : ∀ {args args' : List Operand},
    List.Forall₂ (Operand.Like R) args args' →
    ∀ (i : Nat) (previous : Option Float) (ty : Option Ty),
    Follows (fun p p' => List.Forall₂ (Expr.LabelledBy R) p.1 p'.1 ∧
        p.2 = p'.2 ∧ (∀ t ∈ ty, p.2 = some t) ∧
        (2 ≤ args.length → p.1 ≠ []) ∧
        ∀ b ∈ p.1, ∃ t ∈ p.2, t.accepts b.2.type = true)
      (stops name s i previous ty args) (stops name s' i previous ty args')
  | _, _, .nil, i, previous, ty =>
      .pure ⟨.nil, rfl, fun _ h => h, nofun, nofun⟩
  | _, _, .cons ho .nil, i, previous, ty =>
      .pure ⟨.nil, rfl, fun _ h => h, by simp, nofun⟩
  | _, _, .cons hl (.cons ho hrest), i, previous, ty => by
      simp only [stops, hl.raw_eq]
      refine .bind stopLabel_follows ?_
      rintro x _ rfl
      refine .bind (ho.compileAt hs (i + 1) ty) fun e e' ⟨he, hty⟩ => ?_
      rw [← hR.type_eq _ _ he]
      refine .bind (stops_follows hR hs hrest (i + 2) (some x)
        (some (ty.getD e.type))) ?_
      rintro ⟨more, ty₁⟩ ⟨more', _⟩ ⟨hmore, rfl, hset, -, htypes⟩
      obtain rfl : ty₁ = some (ty.getD e.type) := hset _ rfl
      refine .pure ⟨.cons ⟨rfl, he⟩ hmore, rfl, ?_, nofun, ?_⟩
      · rintro _ ⟨⟩
        rfl
      · refine List.forall_mem_cons.2 ⟨⟨_, rfl, ?_⟩, htypes⟩
        cases ty with
        | none => exact Ty.accepts_refl _
        | some t => exact hty t rfl

theorem step_follows (hR : Compositional r R) (hs : s.Like R s')
    (hargs : List.Forall₂ (Operand.Like R) args args') :
    Follows (Made r R) (step s args) (step s' args') := by
  refine .bind (expectPairs_follows hargs.length_eq) fun _ _ _ => ?_
  cases hargs with
  | nil => exact .fail
  | cons hinput hrest =>
      cases hrest with
      | nil => exact .fail
      | cons hfirst hrest =>
          simp only [← hs.declared]
          refine .bind (hinput.compileAt hs 1 _) fun input input' hin => ?_
          refine .bind (hfirst.compileAt hs 2 _) fun e e' ⟨he, hty⟩ => ?_
          rw [← hR.type_eq _ _ he]
          refine .bind (stops_follows hR hs hrest 3 _ _) ?_
          rintro ⟨more, ty⟩ ⟨more', _⟩ ⟨hmore, rfl, hset, -, htypes⟩
          refine .pure ⟨.step _ hin.1 (.cons ⟨rfl, he⟩ hmore), hin.2 _ rfl,
            nofun, ?_⟩
          refine List.forall_mem_cons.2 ⟨?_, fun b hb => ?_⟩
          · cases hdecl : s.declared with
            | none => exact Ty.accepts_refl _
            | some t => exact hty t hdecl
          · obtain ⟨t, ht, hb⟩ := htypes b hb
            obtain rfl := Option.some.inj ((hset _ rfl).symm.trans ht)
            exact hb

theorem interpolation_follows {raw : Json} :
    Follows Eq (interpolation s raw) (interpolation s' raw) := by
  intro kind h
  refine ⟨kind, ?_, rfl⟩
  unfold interpolation at h ⊢
  split at h
  · split at h
    · exact h
    · split at h
      · exact h
      · cases h
    · split at h
      · exact h
      · cases h
    · cases h
    · cases h
  · cases h

theorem interpolate_follows (hR : Compositional r R) (hs : s.Like R s')
    {name : String} (hargs : List.Forall₂ (Operand.Like R) args args') :
    Follows (Made r R) (interpolate name s args)
      (interpolate name s' args') := by
  have hpairs : Follows (fun _ _ => 4 ≤ args.length ∧ args.length % 2 = 0)
      (expectPairs s args) (expectPairs s' args') :=
    expectPairs_follows hargs.length_eq
  cases hargs with
  | nil => exact .failAt
  | cons hkind hrest =>
      simp only [interpolate, hkind.raw_eq]
      refine .bind interpolation_follows ?_
      rintro kind _ rfl
      refine .bind hpairs fun _ _ hcount => ?_
      cases hrest with
      | nil => exact .fail
      | cons hinput hrest =>
          simp only [← hs.declared]
          refine .bind (hinput.compileAt hs 2 _) fun input input' hin => ?_
          refine .bind (stops_follows hR hs hrest 3 none _) ?_
          rintro ⟨stops, ty⟩ ⟨stops', _⟩ ⟨hstops, rfl, -, hne, htypes⟩
          simp only
          split
          · next hty =>
              refine .pure ⟨.interpolate _ _ _ hin.1 hstops, hin.2 _ rfl, ?_,
                fun b hb => ?_, hty⟩
              · simp only [List.length_cons] at hcount
                exact hne (by omega)
              · obtain ⟨t, ht, hb⟩ := htypes b hb
                obtain rfl : ty = some t := ht
                exact hb
          · exact .fail

end MapStyle.Compile
