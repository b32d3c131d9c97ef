import Mathlib.Data.List.Forall2
import MapStyle.Expr.Evaluate
import MapStyle.Proofs.Expr.Parts

/-!
# Nodes that are alike

`Alike R` relates two nodes of one kind that differ at most in their operands,
which are related by `R`. It is what a relation between trees has to cope with
in order to be a congruence. Two facts about evaluation are of this kind, that
a tree may be exchanged for one with the same values and that contexts may be
exchanged as far as the tree does not read them; `Alike.evaluate_eq` is the
step of both.
-/

namespace MapStyle.Expr

/-- Related trees behind equal labels. -/
def LabelledBy {α : Type} (R : Expr → Expr → Prop) (p q : α × Expr) : Prop :=
  p.1 = q.1 ∧ R p.2 q.2

/-- Nodes that are the same but for their operands, which are related. -/
inductive Alike (R : Expr → Expr → Prop) : Expr → Expr → Prop where
  | literal (ty : Ty) (v : Value) : Alike R (.literal ty v) (.literal ty v)
  | assertion (ty : Ty) {args args' : List Expr}
      (h : List.Forall₂ R args args') :
      Alike R (.assertion ty args) (.assertion ty args')
  | coercion (ty : Ty) {args args' : List Expr}
      (h : List.Forall₂ R args args') :
      Alike R (.coercion ty args) (.coercion ty args')
  | binding {names names' : List (String × Expr)} {body body' : Expr}
      (hnames : List.Forall₂ (LabelledBy R) names names')
      (hbody : R body body') :
      Alike R (.binding names body) (.binding names' body')
  | reference (name : String) {bound bound' : Expr} (h : R bound bound') :
      Alike R (.reference name bound) (.reference name bound')
  | item (ty : Ty) {index index' input input' : Expr}
      (hindex : R index index') (hinput : R input input') :
      Alike R (.item ty index input) (.item ty index' input')
  | membership (ty : Ty) {needle needle' haystack haystack' : Expr}
      (hneedle : R needle needle') (hhaystack : R haystack haystack') :
      Alike R (.membership ty needle haystack)
        (.membership ty needle' haystack')
  | position (ty : Ty) {needle needle' haystack haystack' : Expr}
      {start start' : Option Expr} (hneedle : R needle needle')
      (hhaystack : R haystack haystack') (hstart : Option.Rel R start start') :
      Alike R (.position ty needle haystack start)
        (.position ty needle' haystack' start')
  | slice (ty : Ty) {input input' start start' : Expr}
      {stop stop' : Option Expr} (hinput : R input input')
      (hstart : R start start') (hstop : Option.Rel R stop stop') :
      Alike R (.slice ty input start stop) (.slice ty input' start' stop')
  | length (ty : Ty) {input input' : Expr} (h : R input input') :
      Alike R (.length ty input) (.length ty input')
  | conditional (ty : Ty) {branches branches' : List (Expr × Expr)}
      {otherwise otherwise' : Expr}
      (hbranches : List.Forall₂ (fun p q => R p.1 q.1 ∧ R p.2 q.2)
        branches branches')
      (hotherwise : R otherwise otherwise') :
      Alike R (.conditional ty branches otherwise)
        (.conditional ty branches' otherwise')
  | selection (ty inputTy : Ty) {input input' : Expr}
      {branches branches' : List (List Label × Expr)}
      {otherwise otherwise' : Expr} (hinput : R input input')
      (hbranches : List.Forall₂ (LabelledBy R) branches branches')
      (hotherwise : R otherwise otherwise') :
      Alike R (.selection ty inputTy input branches otherwise)
        (.selection ty inputTy input' branches' otherwise')
  | coalesce (ty : Ty) {args args' : List Expr}
      (h : List.Forall₂ R args args') :
      Alike R (.coalesce ty args) (.coalesce ty args')
  | step (ty : Ty) {input input' : Expr} {stops stops' : List (Float × Expr)}
      (hinput : R input input')
      (hstops : List.Forall₂ (LabelledBy R) stops stops') :
      Alike R (.step ty input stops) (.step ty input' stops')
  | interpolate (ty : Ty) (space : ColorSpace) (kind : Interpolation)
      {input input' : Expr} {stops stops' : List (Float × Expr)}
      (hinput : R input input')
      (hstops : List.Forall₂ (LabelledBy R) stops stops') :
      Alike R (.interpolate ty space kind input stops)
        (.interpolate ty space kind input' stops')
  | comparison (ty : Ty) (op : Comparator) (untyped : Bool)
      {lhs lhs' rhs rhs' : Expr} (hlhs : R lhs lhs') (hrhs : R rhs rhs') :
      Alike R (.comparison ty op untyped lhs rhs)
        (.comparison ty op untyped lhs' rhs')
  | all (ty : Ty) {args args' : List Expr} (h : List.Forall₂ R args args') :
      Alike R (.all ty args) (.all ty args')
  | any (ty : Ty) {args args' : List Expr} (h : List.Forall₂ R args args') :
      Alike R (.any ty args) (.any ty args')
  | globalState (ty : Ty) (key : String) :
      Alike R (.globalState ty key) (.globalState ty key)
  | within (ty : Ty) (region : List (Geometry.Polygon Float)) :
      Alike R (.within ty region) (.within ty region)
  | distance (ty : Ty) (shapes : List (Geometry.Shape Float)) :
      Alike R (.distance ty shapes) (.distance ty shapes)
  | compound (name : String) (ty : Ty) (primitive : Primitive) (impure : Bool)
      {args args' : List Expr} (h : List.Forall₂ R args args') :
      Alike R (.compound name ty primitive impure args)
        (.compound name ty primitive impure args')

variable {R : Expr → Expr → Prop} {e e' : Expr}

theorem LabelledBy.map_snd {α : Type} {ps qs : List (α × Expr)}
    (h : List.Forall₂ (LabelledBy R) ps qs) :
    List.Forall₂ R (ps.map Prod.snd) (qs.map Prod.snd) := by
  induction h with
  | nil => exact .nil
  | cons hpq _ ih => exact .cons hpq.2 ih

theorem forall₂_toList {o o' : Option Expr} (h : Option.Rel R o o') :
    List.Forall₂ R o.toList o'.toList := by
  cases h with
  | some h => exact .cons h .nil
  | none => exact .nil

theorem forall₂_flatten {ps qs : List (Expr × Expr)}
    (h : List.Forall₂ (fun p q => R p.1 q.1 ∧ R p.2 q.2) ps qs) :
    List.Forall₂ R (ps.flatMap fun (test, output) => [test, output])
      (qs.flatMap fun (test, output) => [test, output]) := by
  induction h with
  | nil => exact .nil
  | cons hpq _ ih =>
      rw [List.flatMap_cons, List.flatMap_cons]
      exact .cons hpq.1 (.cons hpq.2 ih)

/-- Nodes that are alike have related operands. -/
theorem Alike.forall₂_operands (h : Alike R e e') :
    List.Forall₂ R e.operands e'.operands := by
  have append {as bs as' bs' : List Expr} (h : List.Forall₂ R as as')
      (h' : List.Forall₂ R bs bs') : List.Forall₂ R (as ++ bs) (as' ++ bs') :=
    List.rel_append h h'
  cases h with
  | literal | globalState | within | distance => exact .nil
  | assertion _ h | coercion _ h | coalesce _ h | all _ h | any _ h
  | compound _ _ _ _ h => exact h
  | binding hnames hbody =>
      exact append (LabelledBy.map_snd hnames) (.cons hbody .nil)
  | reference _ h | length _ h => exact .cons h .nil
  | item _ h h' | membership _ h h' | comparison _ _ _ h h' =>
      exact .cons h (.cons h' .nil)
  | position _ h h' ho | slice _ h h' ho =>
      exact append (.cons h (.cons h' .nil)) (forall₂_toList ho)
  | conditional _ hbranches hotherwise =>
      exact append (forall₂_flatten hbranches) (.cons hotherwise .nil)
  | selection _ _ hinput hbranches hotherwise =>
      exact append (.cons hinput (LabelledBy.map_snd hbranches))
        (.cons hotherwise .nil)
  | step _ hinput hstops | interpolate _ _ _ hinput hstops =>
      exact .cons hinput (LabelledBy.map_snd hstops)

/-- Nodes that are alike have one type. -/
theorem Alike.type_eq (hR : ∀ a b, R a b → a.type = b.type)
    (h : Alike R e e') : e.type = e'.type := by
  cases h with
  | @binding _ _ body body' _ hbody => exact hR body body' hbody
  | @reference _ bound bound' h => exact hR bound bound' h
  | _ => rfl

/-- A node is like itself up to a relation that holds of each operand and
itself. -/
theorem Alike.refl (h : ∀ c ∈ e.operands, R c c) : Alike R e e := by
  have second {α : Type} {ps : List (α × Expr)}
      (h : ∀ c ∈ ps.map Prod.snd, R c c) :
      List.Forall₂ (LabelledBy R) ps ps :=
    List.forall₂_same.2 fun p hp => ⟨rfl, h p.2 (List.mem_map_of_mem hp)⟩
  have present {o : Option Expr} (h : ∀ c ∈ o.toList, R c c) :
      Option.Rel R o o := by
    cases o with
    | none => exact .none
    | some c => exact .some (h c List.mem_cons_self)
  cases e with
  | literal ty v => exact .literal ty v
  | globalState ty key => exact .globalState ty key
  | within ty region => exact .within ty region
  | distance ty shapes => exact .distance ty shapes
  | assertion ty args => exact .assertion ty (List.forall₂_same.2 h)
  | coercion ty args => exact .coercion ty (List.forall₂_same.2 h)
  | coalesce ty args => exact .coalesce ty (List.forall₂_same.2 h)
  | all ty args => exact .all ty (List.forall₂_same.2 h)
  | any ty args => exact .any ty (List.forall₂_same.2 h)
  | compound name ty primitive impure args =>
      exact .compound name ty primitive impure (List.forall₂_same.2 h)
  | binding names body =>
      obtain ⟨hnames, hbody⟩ := List.forall_mem_append.1 h
      exact .binding (second hnames) (hbody body List.mem_cons_self)
  | reference name bound => exact .reference name (h bound List.mem_cons_self)
  | length ty input => exact .length ty (h input List.mem_cons_self)
  | item ty index input =>
      exact .item ty (h index (by simp [operands, children]))
        (h input (by simp [operands, children]))
  | membership ty needle haystack =>
      exact .membership ty (h needle (by simp [operands, children]))
        (h haystack (by simp [operands, children]))
  | comparison ty op untyped lhs rhs =>
      exact .comparison ty op untyped (h lhs (by simp [operands, children]))
        (h rhs (by simp [operands, children]))
  | position ty needle haystack start =>
      obtain ⟨htwo, hstart⟩ := List.forall_mem_append.1 h
      exact .position ty (htwo needle (by simp)) (htwo haystack (by simp))
        (present hstart)
  | slice ty input start stop =>
      obtain ⟨htwo, hstop⟩ := List.forall_mem_append.1 h
      exact .slice ty (htwo input (by simp)) (htwo start (by simp))
        (present hstop)
  | conditional ty branches otherwise =>
      obtain ⟨hbranches, hotherwise⟩ := List.forall_mem_append.1 h
      refine .conditional ty (List.forall₂_same.2 fun b hb => ⟨?_, ?_⟩)
        (hotherwise otherwise List.mem_cons_self)
      · exact hbranches _ (List.mem_flatMap.2 ⟨b, hb, by simp⟩)
      · exact hbranches _ (List.mem_flatMap.2 ⟨b, hb, by simp⟩)
  | selection ty inputTy input branches otherwise =>
      obtain ⟨hrest, hotherwise⟩ := List.forall_mem_append.1 h
      obtain ⟨hinput, hbranches⟩ := List.forall_mem_cons.1 hrest
      exact .selection ty inputTy hinput (second hbranches)
        (hotherwise otherwise List.mem_cons_self)
  | step ty input stops =>
      obtain ⟨hinput, hstops⟩ := List.forall_mem_cons.1 h
      exact .step ty hinput (second hstops)
  | interpolate ty space kind input stops =>
      obtain ⟨hinput, hstops⟩ := List.forall_mem_cons.1 h
      exact .interpolate ty space kind hinput (second hstops)

/-- Nodes that are alike and have the same operands are the same. -/
theorem Alike.eq (h : Alike Eq e e') : e = e' := by
  have list {α : Type} {as bs : List α} (h : List.Forall₂ Eq as bs) :
      as = bs := by
    rwa [List.forall₂_eq_eq_eq] at h
  have labelled {α : Type} {ps qs : List (α × Expr)}
      (h : List.Forall₂ (LabelledBy Eq) ps qs) : ps = qs :=
    list (h.imp fun _ _ hpq => Prod.ext hpq.1 hpq.2)
  have option {o o' : Option Expr} (h : Option.Rel Eq o o') : o = o' := by
    cases h with
    | some h => rw [h]
    | none => rfl
  cases h with
  | literal | globalState | within | distance => rfl
  | assertion _ h | coercion _ h | coalesce _ h | all _ h | any _ h
  | compound _ _ _ _ h => rw [list h]
  | binding hnames hbody => rw [labelled hnames, hbody]
  | reference _ h | length _ h => rw [h]
  | item _ h h' | membership _ h h' | comparison _ _ _ h h' => rw [h, h']
  | position _ h h' ho | slice _ h h' ho => rw [h, h', option ho]
  | conditional _ hbranches h' =>
      rw [list (hbranches.imp fun _ _ hpq => Prod.ext hpq.1 hpq.2), h']
  | selection _ _ h hbranches h' => rw [h, labelled hbranches, h']
  | step _ h hstops | interpolate _ _ _ h hstops => rw [h, labelled hstops]

/-! ## Evaluation -/

/-- Whether two contexts are the same to a node, its operands aside. -/
def ReadsAlike (ctx ctx' : Context) : Expr → Prop
  | .globalState _ key => ctx.globalValue key = ctx'.globalValue key
  | .within _ region => Semantics.within ctx region = Semantics.within ctx' region
  | .distance _ shapes =>
    Semantics.distance ctx shapes = Semantics.distance ctx' shapes
  | .compound _ _ primitive _ _ =>
    ∀ os, primitive.apply ctx os = primitive.apply ctx' os
  | _ => True

theorem readsAlike_self (ctx : Context) (e : Expr) : e.ReadsAlike ctx ctx := by
  cases e <;> first | trivial | exact fun _ => rfl

/-- Nodes that are alike have one outcome if their operands have the same types
and outcomes and if the contexts are the same to the nodes themselves. -/
theorem Alike.evaluate_eq {ctx ctx' : Context}
    (hR : ∀ a b, R a b → a.type = b.type ∧ a.evaluate ctx = b.evaluate ctx')
    (hreads : e.ReadsAlike ctx ctx') (h : Alike R e e') :
    e.evaluate ctx = e'.evaluate ctx' := by
  have hlist {es es' : List Expr} (h : List.Forall₂ R es es') :
      evaluateList ctx es = evaluateList ctx' es' := by
    induction h with
    | nil => rfl
    | cons h _ ih => rw [evaluateList, evaluateList, (hR _ _ h).2, ih]
  have hoption {o o' : Option Expr} (h : Option.Rel R o o') :
      evaluateOption ctx o = evaluateOption ctx' o' := by
    cases h with
    | none => rfl
    | some h => rw [evaluateOption, evaluateOption, (hR _ _ h).2]
  have hbranches {bs bs' : List (Expr × Expr)}
      (h : List.Forall₂ (fun p q => R p.1 q.1 ∧ R p.2 q.2) bs bs') :
      evaluateBranches ctx bs = evaluateBranches ctx' bs' := by
    induction h with
    | nil => rfl
    | cons h _ ih =>
        rw [evaluateBranches, evaluateBranches, (hR _ _ h.1).2,
          (hR _ _ h.2).2, ih]
  have hlabelled {bs bs' : List (List Label × Expr)}
      (h : List.Forall₂ (LabelledBy R) bs bs') :
      evaluateLabelled ctx bs = evaluateLabelled ctx' bs' := by
    induction h with
    | nil => rfl
    | cons h _ ih =>
        rw [evaluateLabelled, evaluateLabelled, h.1, (hR _ _ h.2).2, ih]
  have hstops {ss ss' : List (Float × Expr)}
      (h : List.Forall₂ (LabelledBy R) ss ss') :
      evaluateStops ctx ss = evaluateStops ctx' ss' := by
    induction h with
    | nil => rfl
    | cons h _ ih => rw [evaluateStops, evaluateStops, h.1, (hR _ _ h.2).2, ih]
  cases h with
  | literal => rw [evaluate, evaluate]
  | globalState | within | distance => rw [evaluate, evaluate, hreads]
  | compound _ _ _ _ h => rw [evaluate, evaluate, hlist h, hreads]
  | assertion _ h | coercion _ h | coalesce _ h | all _ h | any _ h =>
      rw [evaluate, evaluate, hlist h]
  | binding _ h | reference _ h | length _ h =>
      rw [evaluate, evaluate, (hR _ _ h).2]
  | item _ h h' | membership _ h h' | comparison _ _ _ h h' =>
      simp only [evaluate, hR _ _ h, hR _ _ h']
  | position _ h h' ho | slice _ h h' ho =>
      rw [evaluate, evaluate, (hR _ _ h).2, (hR _ _ h').2, hoption ho]
  | conditional _ h h' => rw [evaluate, evaluate, hbranches h, (hR _ _ h').2]
  | selection _ _ h hb h' =>
      rw [evaluate, evaluate, (hR _ _ h).2, hlabelled hb, (hR _ _ h').2]
  | step _ h hs | interpolate _ _ _ h hs =>
      rw [evaluate, evaluate, (hR _ _ h).2, hstops hs]

/-- A tree has one outcome in contexts that are the same to all its parts. -/
theorem evaluate_congr {ctx ctx' : Context}
    (h : ∀ p : Expr, p.PartOf e → p.ReadsAlike ctx ctx') :
    e.evaluate ctx = e.evaluate ctx' := by
  induction e using Expr.induction with
  | step e ih =>
      obtain ⟨hself, hoperands⟩ := forall_partOf.1 h
      have halike : Alike (fun a b => a.type = b.type ∧
          a.evaluate ctx = b.evaluate ctx') e e :=
        Alike.refl fun c hc => ⟨rfl, ih c hc (hoperands c hc)⟩
      exact halike.evaluate_eq (fun _ _ => id) hself

end MapStyle.Expr
