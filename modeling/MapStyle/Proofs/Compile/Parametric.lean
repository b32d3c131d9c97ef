import MapStyle.Proofs.Compile.Outputs

/-!
# Compiling respects every compositional relation

Two compilers over one lawful registry, which differ at most in whether they
fold constants, are run on one document. If folding respects a compositional
relation, so does compiling: where the first compiler succeeds the second does
too, with a related tree, and the tree of the first is of a type that its site
admits.

The induction is on the document. Everything in between, from the forms to the
narrowing of what comes out, only passes the relation on.
-/

namespace MapStyle

variable {r : Registry} {R : Expr → Expr → Prop} {s s' : Site}
  {args args' : List Operand} {e e' : Expr}

namespace Compile

/-! ## Narrowing -/

theorem null_not_accepted_of_isNarrowable {ty : Ty}
    (h : isNarrowable ty = true) : ty.accepts .null = false := by
  cases ty <;> first | rfl | cases h

theorem narrow_related (hR : Compositional r R) (how : Narrowing) (ty : Ty)
    (h : R e e') : R (narrow how ty e) (narrow how ty e') := by
  have hassert : R (.assertion ty [e]) (.assertion ty [e']) :=
    hR.node _ _ (.assertion ty (.cons h .nil)) nofun
  cases how with
  | assert => exact hassert
  | coerce =>
      simp only [narrow]
      split
      · next hty =>
          exact hR.node _ _ (.coercion ty (.cons h .nil)) ⟨hty, nofun⟩
      · exact hassert
  | _ => exact h

/-- What is narrowed has the type, unless narrowing is left to someone
else. -/
theorem type_narrow (how : Narrowing) (ty : Ty) (e : Expr) :
    (narrow how ty e).type = ty ∨ how = .omit := by
  cases how with
  | assert => exact .inl rfl
  | coerce =>
      simp only [narrow]
      split <;> exact .inl rfl
  | _ => exact .inr rfl

/-- Whether something of the second type is narrowed where the first is
expected. -/
def needsNarrowing (expected ty : Ty) : Bool :=
  (isNarrowable expected && ty == .value) ||
    (expected == .color && (ty == .value || ty == .string))

/-- What an expression comes to where it stands: it is left alone where nothing
is expected or its type is accepted, and narrowed otherwise. -/
inductive Conformed (s : Site) (how : Option Narrowing) (e : Expr) :
    Expr → Prop where
  | free (hexpected : s.expected = none) : Conformed s how e e
  | accepted {ty : Ty} (hexpected : s.expected = some ty)
      (hstays : needsNarrowing ty e.type = false)
      (haccepts : ty.accepts e.type = true) : Conformed s how e e
  | asserted {ty : Ty} (hexpected : s.expected = some ty)
      (hty : isNarrowable ty = true) (hvalue : e.type = .value) :
      Conformed s how e (narrow (how.getD .assert) ty e)
  | colored (hexpected : s.expected = some .color)
      (htype : e.type = .value ∨ e.type = .string) :
      Conformed s how e (narrow (how.getD .coerce) .color e)

theorem conformed {how : Option Narrowing} {a : Expr}
    (h : conform s how e = .ok a) : Conformed s how e a := by
  unfold conform at h
  split at h
  · next hexpected =>
      obtain rfl := ok_of_pure h
      exact .free hexpected
  · next ty hexpected =>
      split at h
      · next hnarrow =>
          obtain rfl := ok_of_pure h
          obtain ⟨hty, hvalue⟩ := Bool.and_eq_true_iff.1 hnarrow
          exact .asserted hexpected hty (eq_of_beq hvalue)
      · next hnarrow =>
          split at h
          · next hcolor =>
              obtain rfl := ok_of_pure h
              obtain ⟨hty, htype⟩ := Bool.and_eq_true_iff.1 hcolor
              obtain rfl := eq_of_beq hty
              refine .colored hexpected ?_
              exact (Bool.or_eq_true_iff.1 htype).imp eq_of_beq eq_of_beq
          · next hcolor =>
              split at h
              · next haccepts =>
                  obtain rfl := ok_of_pure h
                  refine .accepted hexpected ?_ haccepts
                  rw [needsNarrowing, Bool.eq_false_iff.2 hnarrow,
                    Bool.eq_false_iff.2 hcolor]
                  rfl
              · cases h

/-- What comes out is the expression or, where it has to be narrowed, an
assertion or a conversion of it. -/
theorem conform_narrows {how : Option Narrowing} {a : Expr}
    (h : conform s how e = .ok a) : a = e ∨
    ∃ ty, s.expected = some ty ∧ needsNarrowing ty e.type = true ∧
      (a = .assertion ty [e] ∨ a = .coercion ty [e]) := by
  have narrowed {how : Narrowing} {ty : Ty} : narrow how ty e = e ∨
      (narrow how ty e = .assertion ty [e] ∨ narrow how ty e = .coercion ty [e]) := by
    cases how with
    | assert => exact .inr (.inl rfl)
    | coerce =>
        rw [narrow]
        split
        · exact .inr (.inr rfl)
        · exact .inr (.inl rfl)
    | _ => exact .inl rfl
  cases conformed h with
  | free | accepted => exact .inl rfl
  | asserted hexpected hty hvalue =>
      refine narrowed.imp_right fun hnarrowed => ⟨_, hexpected, ?_, hnarrowed⟩
      rw [needsNarrowing, hty, hvalue]
      rfl
  | colored hexpected htype =>
      refine narrowed.imp_right fun hnarrowed => ⟨_, hexpected, ?_, hnarrowed⟩
      rcases htype with htype | htype <;> rw [htype] <;> rfl

/-- What is narrowed to a type that null is not of is admitted. -/
theorem admits_narrow {how : Option Narrowing} {default : Narrowing}
    (hdefault : default ≠ .omit) {ty : Ty} (hnull : ty.accepts .null = false) :
    Admits (some ty) how (narrow (how.getD default) ty e).type := by
  rintro _ ⟨⟩
  rcases type_narrow (how.getD default) ty e with hty | homit
  · rw [hty]
    exact .inl (Ty.accepts_refl ty)
  · refine .inr ⟨?_, hnull⟩
    cases how with
    | none => exact absurd homit hdefault
    | some how => exact congrArg some homit

theorem conform_follows (hR : Compositional r R) (hs : s.Like R s')
    (how : Option Narrowing) (h : R e e') :
    Follows (fun a b => R a b ∧ Admits s.expected how a.type)
      (conform s how e) (conform s' how e') := by
  simp only [conform, ← hs.expected_eq, ← hR.type_eq _ _ h]
  split
  · next hexpected =>
      rw [hexpected]
      exact .pure ⟨h, nofun⟩
  · next ty hexpected =>
      rw [hexpected]
      split
      · next hnarrow =>
          obtain ⟨hnarrow, -⟩ := Bool.and_eq_true_iff.1 hnarrow
          have hdefault : Narrowing.assert ≠ .omit := nofun
          have hnull := null_not_accepted_of_isNarrowable hnarrow
          exact .pure ⟨narrow_related hR _ ty h, admits_narrow hdefault hnull⟩
      · split
        · next hcolor =>
            obtain ⟨hcolor, -⟩ := Bool.and_eq_true_iff.1 hcolor
            obtain rfl := eq_of_beq hcolor
            have hdefault : Narrowing.coerce ≠ .omit := nofun
            exact .pure ⟨narrow_related hR _ _ h, admits_narrow hdefault rfl⟩
        · split
          · next haccepts =>
              refine .pure ⟨h, ?_⟩
              rintro _ ⟨⟩
              exact .inl haccepts
          · exact .fail

/-! ## Folding -/

/-- Folding respects the relation, where the two sides may fold or not. -/
def SettleRespects (R : Expr → Expr → Prop) (folding folding' : Bool) : Prop :=
  ∀ {s s' : Site} {e e' : Expr}, R e e' →
    Follows R (settle folding s e) (settle folding' s' e')

theorem type_of_settle {folding : Bool} {a : Expr}
    (h : settle folding s e = .ok a) : a.type = e.type := by
  unfold settle at h
  split at h
  · split at h
    · cases h
      rfl
    · cases h
  · obtain rfl := ok_of_pure h
    rfl

theorem finish_follows (hR : Compositional r R) {folding folding' : Bool}
    (hsettle : SettleRespects R folding folding') (hs : s.Like R s')
    (how : Option Narrowing) (h : R e e') :
    Follows (fun a b => R a b ∧ Admits s.expected how a.type)
      (finish folding s how e) (finish folding' s' how e') := by
  refine .bind (conform_follows hR hs how h) fun a b ⟨hab, hadmits⟩ => ?_
  intro c hc
  obtain ⟨d, hd, hcd⟩ := hsettle hab c hc
  exact ⟨d, hd, hcd, type_of_settle hc ▸ hadmits⟩

/-! ## Applications -/

theorem form_follows (hR : Compositional r R) (hs : s.Like R s')
    (hargs : List.Forall₂ (Operand.Like R) args args') (f : SpecialForm)
    (name : String) :
    Follows (Made r R) (form f name s args) (form f name s' args') := by
  cases f with
  | literal => exact literal_follows hs hargs
  | assertion => exact assertion_follows hs hargs
  | coercion => exact conversion_follows hs hargs
  | binding => exact binding_follows hs hargs
  | reference => exact reference_follows hs hargs
  | item => exact item_follows hR hs hargs
  | membership => exact membership_follows hR hs hargs
  | position => exact position_follows hR hs hargs
  | slice => exact slice_follows hR hs hargs
  | length => exact length_follows hR hs hargs
  | conditional => exact conditional_follows hR hs hargs
  | selection => exact selection_follows hR hs hargs
  | coalesce => exact coalesce_follows hR hs hargs
  | step => exact step_follows hR hs hargs
  | interpolate => exact interpolate_follows hR hs hargs
  | comparison => exact comparison_follows hR hs hargs
  | all => exact all_follows hs hargs
  | any => exact any_follows hs hargs
  | globalState => exact globalState_follows hargs
  | within => exact within_follows hargs
  | distance => exact distance_follows hargs

theorem application_follows (hr : r.Lawful) (hR : Compositional r R)
    (hs : s.Like R s') (hargs : List.Forall₂ (Operand.Like R) args args') :
    Follows R (application r s args) (application r s' args') := by
  cases hargs with
  | nil => exact .fail
  | cons hhead hrest =>
      simp only [application, hhead.raw_eq]
      have hnode : ∀ a b, Made r R a b → R a b := fun a b h =>
        hR.node a b h.1 h.2
      split
      · split
        · exact (form_follows hR hs hrest _ _).mono hnode
        · next hlookup =>
            have hop := List.mem_of_find?_eq_some hlookup
            exact (compound_follows hr hs hop hrest).mono hnode
        · exact .failAt
      · exact .failAt

end Compile

/-! ## Documents -/

namespace Compiler

variable (c c' : Compiler)

/-- A literal of a document is related to itself. -/
theorem ofJson_related (hR : Compositional r R) (raw : Json) :
    R (Expr.ofJson raw) (Expr.ofJson raw) :=
  hR.node _ _ (.literal _ _) (Ty.accepts_refl _)

mutual

theorem compile_follows (hc : c.registry = c'.registry)
    (hr : c.registry.Lawful) (hR : Compositional c.registry R)
    (hsettle : Compile.SettleRespects R c.folding c'.folding) (raw : Json)
    {s s' : Site} {how : Option Narrowing} (hs : s.Like R s') :
    Follows (fun e e' => R e e' ∧ Compile.Admits s.expected how e.type)
      (c.compile raw s how) (c'.compile raw s' how) := by
  match raw with
  | .array items =>
      rw [compile, compile, ← hc]
      have hitems := operands_follow hc hr hR hsettle items
      refine .bind (Compile.application_follows hr hR hs hitems) fun e e' h => ?_
      exact Compile.finish_follows hR hsettle hs how h
  | .object _ =>
      rw [compile]
      exact .fail
  | .null | .boolean _ | .number _ | .string _ =>
      rw [compile, compile]
      exact Compile.finish_follows hR hsettle hs how (ofJson_related hR _)

theorem operands_follow (hc : c.registry = c'.registry)
    (hr : c.registry.Lawful) (hR : Compositional c.registry R)
    (hsettle : Compile.SettleRespects R c.folding c'.folding)
    (raws : List Json) :
    List.Forall₂ (Operand.Like R) (c.operands raws) (c'.operands raws) := by
  match raws with
  | [] =>
      rw [operands, operands]
      exact .nil
  | raw :: raws =>
      rw [operands, operands]
      refine .cons ⟨rfl, ?_⟩ (operands_follow hc hr hR hsettle raws)
      exact compile_follows hc hr hR hsettle raw

end

/-! ## Where a document stands -/

/-- What a document compiles to depends on what is expected of it and on the
names in scope, but not on where it stands. -/
theorem compile_of_site {c : Compiler} (hr : c.registry.Lawful) {raw : Json}
    {s s' : Site} {how : Option Narrowing} {e : Expr}
    (hexpected : s.expected = s'.expected) (hscope : s.scope = s'.scope)
    (h : c.compile raw s how = .ok e) : c.compile raw s' how = .ok e := by
  have hR : Compositional c.registry Eq :=
    ⟨fun _ _ => congrArg Expr.type, fun _ _ halike _ => halike.eq⟩
  have hsettle : Compile.SettleRespects Eq c.folding c.folding := by
    rintro s s' e _ rfl a ha
    unfold Compile.settle at ha ⊢
    split
    · next hfold =>
        rw [if_pos hfold] at ha
        split at ha
        · exact ⟨a, ha, rfl⟩
        · cases ha
    · next hfold =>
        rw [if_neg hfold] at ha
        exact ⟨a, ha, rfl⟩
  have hlike : s.Like Eq s' :=
    ⟨hexpected, hscope ▸ List.forall₂_same.2 fun _ _ => ⟨rfl, rfl⟩⟩
  obtain ⟨e', he', rfl, -⟩ :=
    compile_follows c c rfl hr hR hsettle raw hlike e h
  exact he'

end Compiler

end MapStyle
