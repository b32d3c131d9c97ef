import MapStyle.Proofs.Compile.Lockstep

/-!
# Forms of separate operands

The forms whose operands are compiled each on its own, without a type that one
operand sets for the next: narrowing, bound names, sequences, comparisons,
geometry and compound operators. For each of them, compiling related operands
makes nodes that are alike and obey their rules.
-/

namespace MapStyle

/-- Nodes that are alike and obey the typing rules. -/
def Compile.Made (r : Registry) (R : Expr → Expr → Prop) (e e' : Expr) :
    Prop :=
  Expr.Alike R e e' ∧ e.Obeys r

namespace Compile

variable {r : Registry} {R : Expr → Expr → Prop} {s s' : Site}
  {args args' : List Operand}

theorem Fit.rel {expected : Option Ty} {es es' : List Expr}
    (h : List.Forall₂ (Fit R expected) es es') : List.Forall₂ R es es' :=
  h.imp fun _ _ => And.left

theorem Fit.accepts {t : Ty} {es es' : List Expr}
    (h : List.Forall₂ (Fit R (some t)) es es') :
    ∀ e ∈ es, t.accepts e.type = true :=
  ((List.forall₂_and_left _ _).1 (h.imp fun _ _ he => ⟨he.2 t rfl, he⟩)).1

/-! ## Literals, assertions and conversions -/

theorem literal_ok {o : Operand} {e : Expr} (h : literal s [o] = .ok e) :
    ∃ ty v, e = .literal ty v ∧ ty.accepts v.type = true := by
  simp only [literal, Expr.ofJson] at h
  split at h
  · next v _ _ heq _ =>
      split at h
      · next hlength =>
          cases h
          refine ⟨_, _, rfl, ?_⟩
          injection heq with hty hv
          obtain rfl : v = .array [] := Value.eq_nil_of_type (hv ▸ hty)
          refine Value.accepts_array_iff.2 ⟨?_, by simpa using hlength⟩
          exact .inr ⟨_, Ty.accepts_refl _, by simp⟩
      · cases h
        exact ⟨_, _, rfl, Ty.accepts_refl _⟩
  · cases h
    exact ⟨_, _, rfl, Ty.accepts_refl _⟩

theorem literal_follows (hs : s.Like R s')
    (hargs : List.Forall₂ (Operand.Like R) args args') :
    Follows (Made r R) (literal s args) (literal s' args') := by
  cases hargs with
  | nil => exact .fail
  | cons ho hrest =>
      cases hrest with
      | cons => exact .fail
      | nil =>
          intro e h
          obtain ⟨ty, v, rfl, hty⟩ := literal_ok h
          refine ⟨_, ?_, .literal ty v, hty⟩
          rw [literal, ← ho.raw_eq, ← hs.expected_eq]
          exact h

theorem arrayItem_follows {raw raw' : Json} (hraw : raw = raw') :
    Follows Eq (arrayItem s raw) (arrayItem s' raw') := by
  subst hraw
  intro ty h
  refine ⟨ty, ?_, rfl⟩
  unfold arrayItem at h ⊢
  split at h
  · split at h
    · cases h
    · next hobject => rw [if_neg hobject]; exact h
  · cases h

theorem arrayLength_follows {raw raw' : Json} (hraw : raw = raw') :
    Follows Eq (arrayLength s raw) (arrayLength s' raw') := by
  subst hraw
  intro n h
  refine ⟨n, ?_, rfl⟩
  unfold arrayLength at h ⊢
  split at h
  · exact h
  · simp only at h ⊢
    split at h
    · next hwhole => rw [if_pos hwhole]; exact h
    · cases h
  · cases h

/-- An assertion of at least one operand. -/
theorem assertion_made {ty : Ty} {expected : Option Ty} {i : Nat}
    (hs : s.Like R s') (hargs : List.Forall₂ (Operand.Like R) args args')
    (hne : args ≠ []) :
    Follows (Made r R)
      (do return .assertion ty (← Operand.compileAll s expected i args))
      (do return .assertion ty (← Operand.compileAll s' expected i args')) := by
  refine .bind (Operand.Like.compileAll hargs hs expected i) ?_
  intro es es' ⟨hlength, hes⟩
  refine .pure ⟨.assertion ty (Fit.rel hes), ?_⟩
  rintro rfl
  exact hne (List.length_eq_zero_iff.1 hlength.symm)

theorem arrayAssertion_follows (hs : s.Like R s')
    (hargs : List.Forall₂ (Operand.Like R) args args') (hne : args ≠ []) :
    Follows (Made r R) (arrayAssertion s args) (arrayAssertion s' args') := by
  cases hargs with
  | nil => exact absurd rfl hne
  | cons ho hrest =>
      cases hrest with
      | nil => exact assertion_made hs (.cons ho .nil) hne
      | cons ho' hrest =>
          cases hrest with
          | nil =>
              refine .bind (arrayItem_follows ho.raw_eq) ?_
              rintro item _ rfl
              exact assertion_made hs (.cons ho' .nil) nofun
          | cons ho'' hrest =>
              refine .bind (arrayItem_follows ho.raw_eq) ?_
              rintro item _ rfl
              refine .bind (arrayLength_follows ho'.raw_eq) ?_
              rintro length _ rfl
              exact assertion_made hs (.cons ho'' hrest) nofun

theorem assertion_follows {name : String} (hs : s.Like R s')
    (hargs : List.Forall₂ (Operand.Like R) args args') :
    Follows (Made r R) (assertion name s args) (assertion name s' args') := by
  cases hargs with
  | nil => exact .fail
  | cons ho hrest =>
      have hargs := List.Forall₂.cons ho hrest
      simp only [assertion, List.isEmpty_cons, Bool.false_eq_true, if_false]
      split
      · exact arrayAssertion_follows hs hargs nofun
      · split
        · exact .fail
        · exact assertion_made hs hargs nofun

theorem isCoercible_conversionType (name : String) :
    isCoercible (conversionType name) = true := by
  unfold conversionType
  split
  · rfl
  · split
    · rfl
    · split <;> rfl

theorem conversion_follows {name : String} (hs : s.Like R s')
    (hargs : List.Forall₂ (Operand.Like R) args args') :
    Follows (Made r R) (conversion name s args) (conversion name s' args') := by
  cases hargs with
  | nil => exact .fail
  | cons ho hrest =>
      have hargs := List.Forall₂.cons ho hrest
      simp only [conversion, List.isEmpty_cons, Bool.false_eq_true, if_false,
        hargs.length_eq]
      split
      · exact .fail
      · refine .bind (Operand.Like.compileAll hargs hs (some .value) 1) ?_
        intro es es' ⟨hlength, hes⟩
        refine .pure ⟨.coercion _ (Fit.rel hes), isCoercible_conversionType _, ?_⟩
        rintro rfl
        cases hlength

/-! ## Bound names -/

theorem boundName_follows {i : Nat} {raw raw' : Json} (hraw : raw = raw') :
    Follows Eq (boundName s i raw) (boundName s' i raw') := by
  subst hraw
  intro name h
  refine ⟨name, ?_, rfl⟩
  unfold boundName at h ⊢
  split at h
  · split at h
    · next hname => rw [if_pos hname]; exact h
    · cases h
  · cases h

theorem boundNames_follows (hs : s.Like R s') : ∀ {args args' : List Operand},
    List.Forall₂ (Operand.Like R) args args' → ∀ i,
    Follows (fun p p' => List.Forall₂ (Expr.LabelledBy R) p.1 p'.1 ∧
        p.2.1 = p'.2.1 ∧ p.2.2.Like R p'.2.2)
      (boundNames s i args) (boundNames s' i args')
  | _, _, .nil, i => .fail
  | _, _, .cons hbody .nil, i => .pure ⟨.nil, rfl, hbody⟩
  | _, _, .cons hname (.cons hvalue .nil), i => by
      refine .bind (boundName_follows hname.raw_eq) ?_
      rintro name _ rfl
      refine .bind (hvalue.compileAt hs (i + 1) none) fun e e' he => ?_
      exact .pure ⟨.cons ⟨rfl, he.1⟩ .nil, rfl, hvalue⟩
  | _, _, .cons hname (.cons hvalue (.cons hnext hrest)), i => by
      refine .bind (boundName_follows hname.raw_eq) ?_
      rintro name _ rfl
      refine .bind (hvalue.compileAt hs (i + 1) none) fun e e' he => ?_
      refine .bind (boundNames_follows hs (.cons hnext hrest) (i + 2)) ?_
      intro p p' ⟨hnames, hposition, hbody⟩
      exact .pure ⟨.cons ⟨rfl, he.1⟩ hnames, hposition, hbody⟩

theorem binding_follows (hs : s.Like R s')
    (hargs : List.Forall₂ (Operand.Like R) args args') :
    Follows (Made r R) (binding s args) (binding s' args') := by
  simp only [binding, hargs.length_eq]
  split
  · exact .fail
  · refine .bind (boundNames_follows hs hargs 1) ?_
    rintro ⟨names, position, body⟩ ⟨names', _, body'⟩ ⟨hnames, rfl, hbody⟩
    rw [hs.expected_eq]
    have hsite := hs.child position s'.expected hnames
    refine .bind (hbody.compile hsite) fun e e' he => ?_
    exact .pure ⟨.binding hnames he.1, trivial⟩

theorem reference_follows (hs : s.Like R s')
    (hargs : List.Forall₂ (Operand.Like R) args args') :
    Follows (Made r R) (reference s args) (reference s' args') := by
  simp only [reference, Operand.Like.raws_eq hargs]
  split
  · intro e h
    split at h
    · next hlookup =>
        obtain ⟨bound', hbound, hR⟩ := hs.lookup hlookup
        obtain rfl := ok_of_pure h
        exact ⟨_, by rw [hbound]; rfl, .reference _ hR, trivial⟩
    · cases h
  · exact .fail

theorem globalState_follows
    (hargs : List.Forall₂ (Operand.Like R) args args') :
    Follows (Made r R) (globalState s args) (globalState s' args') := by
  simp only [globalState, Operand.Like.raws_eq hargs]
  split
  · exact .pure ⟨.globalState _ _, rfl⟩
  · exact .fail

/-! ## Sequences -/

theorem expectCount_follows {least most : Nat}
    (hlength : args.length = args'.length) :
    Follows (fun _ _ => least ≤ args.length ∧ args.length ≤ most)
      (expectCount s least most args) (expectCount s' least most args') := by
  simp only [expectCount, hlength, Bool.and_eq_true, decide_eq_true_eq]
  split
  · next hcount => exact .pure hcount
  · exact .fail

theorem item_follows (hR : Compositional r R) (hs : s.Like R s')
    (hargs : List.Forall₂ (Operand.Like R) args args') :
    Follows (Made r R) (item s args) (item s' args') := by
  refine .bind (expectCount_follows hargs.length_eq) fun _ _ hcount => ?_
  cases hargs with
  | nil => exact .fail
  | cons hindex hrest =>
      cases hrest with
      | nil => exact .fail
      | cons hinput hrest =>
          cases hrest with
          | cons => exact .fail
          | nil =>
              simp only [hs.expected_eq]
              refine .bind (.both (hindex.compileAt hs 1 _)
                (hinput.compileAt hs 2 _)) ?_
              rintro ⟨index, input⟩ ⟨index', input'⟩ ⟨hindex, hinput⟩
              have hnumber := hindex.2 _ rfl
              have harray := hinput.2 _ rfl
              simp only [← hR.type_eq _ _ hinput.1]
              split
              · next hty =>
                  refine .pure ⟨.item _ hindex.1 hinput.1, hnumber, ?_⟩
                  rw [hty]
                  exact Ty.array_accepts_array.2
                    ⟨.inr (Ty.accepts_refl _), .inl rfl⟩
              · next hty =>
                  refine .pure ⟨.item _ hindex.1 hinput.1, hnumber, ?_⟩
                  rcases Ty.eq_array_of_accepts harray with h | ⟨_, _, h⟩
                  · exact h ▸ Ty.accepts_error _
                  · exact absurd h (hty _ _)

theorem needleAndHaystack_follows (hR : Compositional r R)
    (hs : s.Like R s') {needle needle' haystack haystack' : Operand}
    (hneedle : needle.Like R needle') (hhaystack : haystack.Like R haystack') :
    Follows (fun p p' => (R p.1 p'.1 ∧ R p.2 p'.2) ∧
        isNeedleType p.1.type = true ∧ isSequenceType p.2.type = true)
      (needleAndHaystack s needle haystack)
      (needleAndHaystack s' needle' haystack') := by
  refine .bind (.both (hneedle.compileAt hs 1 _)
    (hhaystack.compileAt hs 2 _)) ?_
  rintro ⟨n, h⟩ ⟨n', h'⟩ ⟨⟨hn, -⟩, hh, -⟩
  simp only [← hR.type_eq _ _ hn, ← hR.type_eq _ _ hh]
  split
  · exact .fail
  · next hneedleTy =>
      split
      · exact .fail
      · next hsequenceTy =>
          exact .pure ⟨⟨hn, hh⟩, by simpa using hneedleTy,
            by simpa using hsequenceTy⟩

theorem membership_follows (hR : Compositional r R) (hs : s.Like R s')
    (hargs : List.Forall₂ (Operand.Like R) args args') :
    Follows (Made r R) (membership s args) (membership s' args') := by
  refine .bind (expectCount_follows hargs.length_eq) fun _ _ hcount => ?_
  cases hargs with
  | nil => exact .fail
  | cons hneedle hrest =>
      cases hrest with
      | nil => exact .fail
      | cons hhaystack hrest =>
          cases hrest with
          | cons => exact .fail
          | nil =>
              refine .bind
                (needleAndHaystack_follows hR hs hneedle hhaystack) ?_
              rintro ⟨n, h⟩ ⟨n', h'⟩ ⟨⟨hn, hh⟩, htypes⟩
              exact .pure ⟨.membership _ hn hh, rfl, htypes⟩

theorem optionalNumber_follows (hs : s.Like R s') {i : Nat}
    (hargs : List.Forall₂ (Operand.Like R) args args') :
    Follows (fun o o' => Option.Rel R o o' ∧
        ∀ e ∈ o, Ty.number.accepts e.type = true)
      (optionalNumber s i args) (optionalNumber s' i args') := by
  cases hargs with
  | nil => exact .pure ⟨.none, nofun⟩
  | cons ho _ =>
      refine .bind (ho.compileAt hs i (some .number)) fun e e' he => ?_
      refine .pure ⟨.some he.1, ?_⟩
      rintro _ ⟨⟩
      exact he.2 _ rfl

theorem position_follows (hR : Compositional r R) (hs : s.Like R s')
    (hargs : List.Forall₂ (Operand.Like R) args args') :
    Follows (Made r R) (position s args) (position s' args') := by
  refine .bind (expectCount_follows hargs.length_eq) fun _ _ hcount => ?_
  cases hargs with
  | nil => exact .fail
  | cons hneedle hrest =>
      cases hrest with
      | nil => exact .fail
      | cons hhaystack hrest =>
          refine .bind (needleAndHaystack_follows hR hs hneedle hhaystack) ?_
          rintro ⟨n, h⟩ ⟨n', h'⟩ ⟨⟨hn, hh⟩, hneedleTy, hsequenceTy⟩
          refine .bind (optionalNumber_follows hs hrest) ?_
          intro start start' ⟨hstart, hnumber⟩
          exact .pure ⟨.position _ hn hh hstart, rfl, hneedleTy, hsequenceTy,
            hnumber⟩

theorem slice_follows (hR : Compositional r R) (hs : s.Like R s')
    (hargs : List.Forall₂ (Operand.Like R) args args') :
    Follows (Made r R) (slice s args) (slice s' args') := by
  refine .bind (expectCount_follows hargs.length_eq) fun _ _ hcount => ?_
  cases hargs with
  | nil => exact .fail
  | cons hinput hrest =>
      cases hrest with
      | nil => exact .fail
      | cons hstart hrest =>
          refine .bind (.both (hinput.compileAt hs 1 _)
            (hstart.compileAt hs 2 _)) ?_
          rintro ⟨input, start⟩ ⟨input', start'⟩ ⟨⟨hinput, -⟩, hstart⟩
          simp only [← hR.type_eq _ _ hinput]
          split
          · exact .fail
          · next hty =>
              refine .bind (optionalNumber_follows hs hrest) ?_
              intro stop stop' ⟨hstop, hnumber⟩
              exact .pure ⟨.slice _ hinput hstart.1 hstop, hty,
                hstart.2 _ rfl, hnumber⟩

theorem length_follows (hR : Compositional r R) (hs : s.Like R s')
    (hargs : List.Forall₂ (Operand.Like R) args args') :
    Follows (Made r R) (length s args) (length s' args') := by
  refine .bind (expectCount_follows hargs.length_eq) fun _ _ hcount => ?_
  cases hargs with
  | nil => exact .fail
  | cons hinput hrest =>
      cases hrest with
      | cons => exact .fail
      | nil =>
          refine .bind (hinput.compileAt hs 1 none) fun input input' h => ?_
          simp only [← hR.type_eq _ _ h.1]
          split
          · next hty => exact .pure ⟨.length _ h.1, rfl, hty⟩
          · exact .fail

/-! ## Comparisons -/

theorem comparisonOperand_follows (hR : Compositional r R)
    (hs : s.Like R s') {op : Comparator} {i : Nat} {o o' : Operand}
    (ho : o.Like R o') :
    Follows (fun e e' => R e e' ∧ op.admits e.type = true)
      (comparisonOperand op s i o) (comparisonOperand op s' i o') := by
  refine .bind (ho.compileAt hs i _) fun e e' he => ?_
  simp only [← hR.type_eq _ _ he.1]
  split
  · next hadmits => exact .pure ⟨he.1, hadmits⟩
  · exact .failAt

theorem narrowTo_related (hR : Compositional r R) {known : Ty} {e e' : Expr}
    (h : R e e') : R (narrowTo known e) (narrowTo known e') := by
  simp only [narrowTo, ← hR.type_eq _ _ h]
  split
  · exact hR.node _ _ (.assertion known (.cons h .nil)) nofun
  · exact h

/-- Narrowing leaves a type that the operator admits. -/
theorem admits_narrowTo {op : Comparator} {known : Ty} {e : Expr}
    (hknown : op.admits known = true) (h : op.admits e.type = true) :
    op.admits (narrowTo known e).type = true := by
  unfold narrowTo
  split
  · exact hknown
  · exact h

theorem comparison_made (hR : Compositional r R) {op : Comparator}
    {lhs lhs' rhs rhs' : Expr} (hlhs : R lhs lhs') (hrhs : R rhs rhs')
    (hlhsTy : op.admits lhs.type = true) (hrhsTy : op.admits rhs.type = true) :
    Follows (Made r R)
      (return .comparison .boolean op
        (lhs.type == .value || rhs.type == .value) lhs rhs)
      (return .comparison .boolean op
        (lhs'.type == .value || rhs'.type == .value) lhs' rhs') := by
  rw [← hR.type_eq _ _ hlhs, ← hR.type_eq _ _ hrhs]
  exact .pure ⟨.comparison _ op _ hlhs hrhs, rfl, hlhsTy, hrhsTy, rfl⟩

theorem comparison_follows (hR : Compositional r R) (hs : s.Like R s')
    {name : String} (hargs : List.Forall₂ (Operand.Like R) args args') :
    Follows (Made r R) (comparison name s args) (comparison name s' args') := by
  unfold comparison
  split
  · exact .fail
  · next op _ =>
      cases hargs with
      | nil => exact .fail
      | cons hlhs hrest =>
          cases hrest with
          | nil => exact .fail
          | cons hrhs hrest =>
              cases hrest with
              | cons _ hrest => cases hrest <;> intro e h <;> cases h
              | nil =>
                  refine .bind (comparisonOperand_follows hR hs hlhs) ?_
                  intro l l' ⟨hl, hlty⟩
                  refine .bind (comparisonOperand_follows hR hs hrhs) ?_
                  intro m m' ⟨hm, hmty⟩
                  simp only [← hR.type_eq _ _ hl, ← hR.type_eq _ _ hm]
                  split
                  · exact .fail
                  · split
                    · exact comparison_made hR (narrowTo_related hR hl)
                        (narrowTo_related hR hm) (admits_narrowTo hmty hlty)
                        (admits_narrowTo hlty hmty)
                    · exact comparison_made hR hl hm hlty hmty

/-! ## Geometry -/

theorem within_follows (hargs : List.Forall₂ (Operand.Like R) args args') :
    Follows (Made r R) (within s args) (within s' args') := by
  cases hargs with
  | nil => exact .fail
  | cons ho hrest =>
      cases hrest with
      | cons => exact .fail
      | nil =>
          simp only [within, ho.raw_eq]
          split
          · exact .fail
          · exact .pure ⟨.within _ _, rfl⟩

theorem distance_follows (hargs : List.Forall₂ (Operand.Like R) args args') :
    Follows (Made r R) (distance s args) (distance s' args') := by
  cases hargs with
  | nil => exact .fail
  | cons ho hrest =>
      cases hrest with
      | cons => exact .fail
      | nil =>
          simp only [distance, ho.raw_eq]
          split
          · exact .fail
          · exact .pure ⟨.distance _ _, rfl⟩

/-! ## Connectives and compound operators -/

theorem all_follows (hs : s.Like R s')
    (hargs : List.Forall₂ (Operand.Like R) args args') :
    Follows (Made r R) (connective .all s args) (connective .all s' args') := by
  refine .bind (Operand.Like.compileAll hargs hs _ 1) fun es es' ⟨_, hes⟩ => ?_
  exact .pure ⟨.all _ (Fit.rel hes), rfl, Fit.accepts hes⟩

theorem any_follows (hs : s.Like R s')
    (hargs : List.Forall₂ (Operand.Like R) args args') :
    Follows (Made r R) (connective .any s args) (connective .any s' args') := by
  refine .bind (Operand.Like.compileAll hargs hs _ 1) fun es es' ⟨_, hes⟩ => ?_
  exact .pure ⟨.any _ (Fit.rel hes), rfl, Fit.accepts hes⟩

theorem operandsAgainst_follows (hs : s.Like R s') {tys : List Ty}
    (hargs : List.Forall₂ (Operand.Like R) args args')
    (hlength : tys.length = args.length) (i : Nat) :
    Follows (fun es es' => List.Forall₂ R es es' ∧
        List.Forall₂ (fun t e => t.accepts e.type = true) tys es)
      (operandsAgainst s i tys args) (operandsAgainst s' i tys args') := by
  induction hargs generalizing i tys with
  | nil =>
      obtain rfl := List.length_eq_zero_iff.1 hlength
      exact .pure ⟨.nil, .nil⟩
  | cons ho _ ih =>
      match tys with
      | t :: tys =>
          refine .bind (ho.compileAt hs i (some t)) fun e e' he => ?_
          refine .bind (ih (Nat.succ.inj hlength) (i + 1)) ?_
          intro es es' ⟨hes, htys⟩
          exact .pure ⟨.cons he.1 hes, .cons (he.2 t rfl) htys⟩

theorem length_expected {params : Params} {n : Nat}
    (h : params.acceptsCount n = true) : (params.expected n).length = n := by
  cases params with
  | fixed tys => exact eq_of_beq h
  | variadic ty => exact List.length_replicate

theorem attempt_follows (hs : s.Like R s') {op : CompoundOperator Primitive}
    (hop : .compound op ∈ r.operators) {sig : Signature Primitive}
    (hsig : sig ∈ op.signatures)
    (hargs : List.Forall₂ (Operand.Like R) args args')
    (hcount : sig.params.acceptsCount args.length = true) :
    Follows (fun a a' => Made r R a.node a'.node)
      (attempt op s args sig) (attempt op s' args' sig) := by
  simp only [attempt, ← hargs.length_eq]
  have hlength := length_expected hcount
  refine .bind (operandsAgainst_follows hs hargs hlength 1) ?_
  intro es es' ⟨hes, htys⟩
  refine .pure ⟨.compound _ _ _ _ hes, op, hop, rfl, rfl, rfl, sig, hsig, rfl, ?_⟩
  rw [← htys.length_eq, hlength]
  exact htys

/-- With a lawful operator there is no choice among signatures, so nothing
hangs on which operands the first run could compile. -/
theorem compound_follows (hr : r.Lawful) (hs : s.Like R s')
    {op : CompoundOperator Primitive} (hop : .compound op ∈ r.operators)
    (hargs : List.Forall₂ (Operand.Like R) args args') :
    Follows (Made r R) (compound op s args) (compound op s' args') := by
  refine .bind ?_ fun a a' ha => .pure ha
  simp only [choice, ← hargs.length_eq]
  rcases (hr op hop).fitting args.length with hfit | ⟨sig, hsig, hfit⟩
  · rw [hfit]
    intro e h
    obtain ⟨_, -, h⟩ := ok_of_bind h
    cases h
  · rw [hfit]
    have hmem : sig ∈ op.signatures.filter fun sig =>
        sig.params.acceptsCount args.length := hfit ▸ List.mem_singleton_self sig
    exact attempt_follows hs hop hsig hargs (List.mem_filter.1 hmem).2

end Compile

end MapStyle
