import MapStyle.Proofs.Compile.Expectation

/-!
# Null falling through a coalesce

The operands of a coalesce are not narrowed to the type that is expected of it,
so that null can fall through to the operand after it. But a form that hands on
what is expected of it, such as a `let`, hands it on from an operand as from
anywhere else, and the outputs below it are asserted there: null from such an
output stops at the assertion, and does not reach the coalesce.

`coalesce_falls_through` says how far the law holds. Up to the operand that
decides, an operand may only fail for the type of a value, and only if it hands
on what is expected of it.
-/

namespace MapStyle

/-- The documents that hand on what is expected of them: applications of a form
that does, and coalesces with such an operand. -/
inductive Json.HandsOn (r : Registry) : Json → Prop where
  | form {head name : String} {f : SpecialForm} {args : List Json}
      (hlookup : r.lookup head = some (.special name f))
      (h : Compile.handsOn name f = true) :
      HandsOn r (.array (.string head :: args))
  | coalesce {head name : String} {args : List Json} {raw : Json}
      (hlookup : r.lookup head = some (.special name .coalesce))
      (hraw : raw ∈ args) (h : HandsOn r raw) :
      HandsOn r (.array (.string head :: args))

/-- Trees with the same outcome in every context. -/
def Expr.Agrees (e e' : Expr) : Prop :=
  ∀ ctx, e.evaluate ctx = e'.evaluate ctx

/-- An operand that is not narrowed means the same whatever is expected of it,
unless it hands that on. -/
def Operand.Unheld (r : Registry) (o : Operand) : Prop :=
  ¬ o.raw.HandsOn r → ∀ (s : Site) {E E' : Option Ty}
    {how how' : Option Narrowing}, (E = none ∨ how = some .omit) →
    (E' = none ∨ how' = some .omit) →
    Concur Expr.Agrees (o.compile (s.expecting E) how)
      (o.compile (s.expecting E') how')

namespace Compile

variable {s : Site} {args : List Operand} {E E' : Option Ty}
  {how how' : Option Narrowing} {r : Registry}

theorem conform_bare {e a : Expr} (hbare : E = none ∨ how = some .omit)
    (h : conform (s.expecting E) how e = .ok a) : a = e := by
  have homit {ty : Ty} (hexpected : E = some ty) : how = some .omit :=
    hbare.resolve_left fun hnone => nomatch hnone.symm.trans hexpected
  cases conformed h with
  | free | accepted => rfl
  | asserted hexpected =>
      rw [homit hexpected]
      rfl
  | colored hexpected =>
      rw [homit hexpected]
      rfl

theorem unheld_finish {folding : Bool} {e e' : Expr} (h : e.Agrees e')
    (hbare : E = none ∨ how = some .omit)
    (hbare' : E' = none ∨ how' = some .omit) :
    Concur Expr.Agrees (finish folding (s.expecting E) how e)
      (finish folding (s.expecting E') how' e') := by
  intro a a' hfinish hfinish' ctx
  obtain ⟨b, hb, ha⟩ := ok_of_bind hfinish
  obtain ⟨b', hb', ha'⟩ := ok_of_bind hfinish'
  obtain rfl := conform_bare hbare hb
  obtain rfl := conform_bare hbare' hb'
  rw [evaluate_of_settle ha, evaluate_of_settle ha', h ctx]

theorem unheld_alternatives {os : List Operand}
    (hos : ∀ o ∈ os, o.Unheld r) (hraws : ∀ o ∈ os, ¬ o.raw.HandsOn r)
    (F G : Option Ty) (i : Nat) (ty ty' : Option Ty) :
    Concur (fun p p' => ∀ ctx, p.1.map (Expr.evaluate ctx) =
        p'.1.map (Expr.evaluate ctx))
      (alternatives (s.expecting F) i ty os)
      (alternatives (s.expecting G) i ty' os) := by
  induction os generalizing i ty ty' with
  | nil => exact .pure fun _ => rfl
  | cons o os ih =>
      obtain ⟨ho, hos⟩ := List.forall_mem_cons.1 hos
      obtain ⟨hraw, hraws⟩ := List.forall_mem_cons.1 hraws
      refine .bind (ho hraw (s.child i none []) (.inr rfl) (.inr rfl))
        fun e e' he => ?_
      refine .bind (ih hos hraws (i + 1) _ _) fun p p' hes => ?_
      exact .pure fun ctx => congrArg₂ List.cons (he ctx) (hes ctx)

theorem unheld_coalesce (hargs : ∀ o ∈ args, o.Unheld r)
    (hraws : ∀ o ∈ args, ¬ o.raw.HandsOn r) :
    Concur Expr.Agrees (coalesce (s.expecting E) args)
      (coalesce (s.expecting E') args) := by
  simp only [coalesce]
  split
  · exact .fail
  · refine .bind (unheld_alternatives hargs hraws _ _ 1 _ _) ?_
    rintro ⟨es, ty⟩ ⟨es', ty'⟩ hes
    refine .pure fun ctx => ?_
    simp only [Expr.evaluate, Expr.evaluateList_eq_map]
    rw [hes ctx]

theorem unheld_literal : Concur Expr.Agrees (literal (s.expecting E) args)
    (literal (s.expecting E') args) := by
  match args with
  | [] | _ :: _ :: _ => exact .fail
  | [o] =>
      intro e e' he he' ctx
      rw [evaluate_literal he, evaluate_literal he']

theorem agrees_of_eq {x y : Compiled Expr} (h : x = y) :
    Concur Expr.Agrees x y := by
  refine (Concur.of_eq h).mono ?_
  rintro e _ rfl ctx
  rfl

theorem unheld_application {head : Operand}
    (hhead : ¬ (Json.array (head.raw :: args.map Operand.raw)).HandsOn r)
    (hargs : ∀ o ∈ args, o.Unheld r) :
    Concur Expr.Agrees (application r (s.expecting E) (head :: args))
      (application r (s.expecting E') (head :: args)) := by
  unfold application
  simp only
  split
  · next name hraw =>
      rw [hraw] at hhead
      split
      · next own f hlookup =>
          by_cases hliteral : f = .literal
          · subst hliteral
            exact unheld_literal
          · by_cases hcoalesce : f = .coalesce
            · subst hcoalesce
              refine unheld_coalesce hargs fun o ho hraw => hhead ?_
              exact .coalesce hlookup (List.mem_map_of_mem ho) hraw
            · have hhands : handsOn own f = false :=
                Bool.eq_false_iff.2 fun h => hhead (.form hlookup h)
              exact agrees_of_eq
                ((form_expecting E own hhands hliteral hcoalesce).trans
                  (form_expecting E' own hhands hliteral hcoalesce).symm)
      · exact agrees_of_eq
          ((compound_expecting E _).trans (compound_expecting E' _).symm)
      · exact .failAt
  · exact .failAt

end Compile

/-- What is expected changes nothing about a document that does not hand it on,
as long as the document is not narrowed itself. -/
theorem Compiler.unheld (c : Compiler) (raw : Json) :
    Operand.Unheld c.registry ⟨raw, c.compile raw⟩ := by
  refine Compiler.induction (P := Operand.Unheld c.registry) (fun raw => ?_)
    (fun fields => ?_) (fun raws hraws => ?_) raw
  · intro _ s E E' how how' hbare hbare'
    exact Compile.unheld_finish (fun _ => rfl) hbare hbare'
  · intro _ s E E' how how' _ _
    exact .fail
  · intro hraw s E E' how how' hbare hbare'
    refine .bind (R := Expr.Agrees) ?_ fun e e' h =>
      Compile.unheld_finish h hbare hbare'
    have hoperands := c.raws_operands raws
    cases hargs : c.operands raws with
    | nil => exact .fail
    | cons head args =>
        rw [hargs] at hraws hoperands
        obtain rfl : head.raw :: args.map Operand.raw = raws := hoperands
        exact Compile.unheld_application hraw (List.forall_mem_cons.1 hraws).2

/-! ## The operands of a coalesce -/

/-- A value of a type that is held is not null. -/
theorem Value.isNull_of_isHeld {t : Ty} (ht : t.isHeld = true) {v : Value}
    (hv : t.accepts v.type = true) : v.isNull = false := by
  cases v with
  | null =>
      have hnarrow : Compile.isNarrowable t = true := by
        cases t <;> first | rfl | cases ht
      have hnull := Compile.null_not_accepted_of_isNarrowable hnarrow
      exact absurd (hnull.symm.trans hv) Bool.false_ne_true
  | _ => rfl

/-- A value that is converted to its own type stays as it is, but for NaN. -/
theorem Semantics.convert_of_accepts {t : Ty} (ht : t.isHeld = true)
    (hcoercible : Compile.isCoercible t = true) (hnumber : t ≠ .number)
    {v : Value} (hv : t.accepts v.type = true) :
    Semantics.convert t [.ok v] = .ok v := by
  cases t with
  | boolean => cases v <;> first | rfl | cases hv
  | string => cases v <;> first | rfl | cases hv
  | number => exact absurd rfl hnumber
  | color => cases ht
  | _ => cases hcoercible

namespace Compiler

open Compile

variable (c : Compiler) (s : Site) (ctx : Context)

/-- What a document comes to on its own, where no type is expected of it. -/
def ComesTo (raw : Json) (v : Value) : Prop :=
  ∃ e, c.compile raw (s.expecting none) none = .ok e ∧ e.evaluate ctx = .ok v

/-- A value that is found, unless one of the documents hands on what is expected
of it and fails for the type of a value. -/
def FoundIn (raws : List Json) (v : Value) (o : Outcome) : Prop :=
  o = .ok v ∨ (∃ raw ∈ raws, raw.HandsOn c.registry) ∧
    ∃ t u, o = .error (.typeMismatch t u)

variable {c s ctx} {t : Ty} {v : Value} {raw : Json} {raws : List Json}

theorem FoundIn.cons {o : Outcome} (h : c.FoundIn raws v o) :
    c.FoundIn (raw :: raws) v o :=
  h.imp_right fun ⟨⟨y, hy, hhands⟩, hfails⟩ =>
    ⟨⟨y, List.mem_cons_of_mem raw hy, hhands⟩, hfails⟩

/-- What an operand of a coalesce comes to in its place. -/
theorem ComesTo.inPlace (hr : c.registry.Lawful) (ht : t.isHeld = true)
    (h : c.ComesTo s ctx raw v) {i : Nat} {e : Expr}
    (he : c.compile raw (s.child i (some t) []) (some .omit) = .ok e) :
    c.FoundIn [raw] v (e.evaluate ctx) := by
  obtain ⟨alone, halone, hv⟩ := h
  have hplace : c.compile raw (s.child i none []) none = .ok alone :=
    compile_of_site hr (by rfl) (by rfl) halone
  by_cases hhands : raw.HandsOn c.registry
  · have homit : some Narrowing.omit ≠ some .coerce := nofun
    have held := c.held raw (s.child i none []) ht (by nofun) homit (by nofun)
      e alone he hplace
    refine (held.guards ctx v hv).imp_right fun hfails => ?_
    exact ⟨⟨raw, List.mem_singleton_self raw, hhands⟩, hfails⟩
  · have hagrees := c.unheld raw hhands (s.child i none []) (.inr rfl)
      (.inl rfl) e alone he hplace
    exact .inl ((hagrees ctx).trans hv)

/-- Null falls through the operands, one by one, to the one that decides. -/
theorem foundIn_alternatives (hr : c.registry.Lawful) (ht : t.isHeld = true)
    (hv : v.isNull = false) {before after : List Json} {x : Json}
    (hbefore : ∀ y ∈ before, c.ComesTo s ctx y .null)
    (hx : c.ComesTo s ctx x v) (F : Option Ty) (i : Nat) :
    Ensures (fun p => c.FoundIn (before ++ [x]) v
        (Semantics.coalesce (p.1.map (Expr.evaluate ctx))))
      (alternatives (s.expecting F) i (some t)
        (c.operands (before ++ x :: after))) := by
  induction before generalizing i with
  | nil =>
      intro p hp
      obtain ⟨e, he, hp⟩ := ok_of_bind hp
      obtain ⟨p', -, hp⟩ := ok_of_bind hp
      obtain rfl := ok_of_pure hp
      rcases hx.inPlace hr ht he with hvalue | ⟨hhands, u, w, hfails⟩
      · refine .inl ?_
        rw [List.map_cons, hvalue]
        show (if v.isNull = true then _ else _) = _
        rw [hv]
        rfl
      · refine .inr ⟨hhands, u, w, ?_⟩
        rw [List.map_cons, hfails]
        rfl
  | cons y before ih =>
      obtain ⟨hy, hbefore⟩ := List.forall_mem_cons.1 hbefore
      intro p hp
      obtain ⟨e, he, hp⟩ := ok_of_bind hp
      obtain ⟨p', hp', hp⟩ := ok_of_bind hp
      obtain rfl := ok_of_pure hp
      rcases hy.inPlace hr ht he with hnull | ⟨⟨z, hz, hhands⟩, u, w, hfails⟩
      · rw [List.map_cons, hnull]
        exact (ih hbefore (i + 1) p' hp').cons
      · obtain rfl := List.mem_singleton.1 hz
        refine .inr ⟨⟨z, List.mem_cons_self, hhands⟩, u, w, ?_⟩
        rw [List.map_cons, hfails]
        rfl

/-- Narrowing the whole to its type keeps a value of the type and any failure. -/
theorem FoundIn.narrow (ht : t.isHeld = true) (hv : t.accepts v.type = true)
    {how : Narrowing} (hhow : how = .coerce → t ≠ .number) {e : Expr}
    (h : c.FoundIn raws v (e.evaluate ctx)) :
    c.FoundIn raws v ((Compile.narrow how t e).evaluate ctx) := by
  have hassert : c.FoundIn raws v ((Expr.assertion t [e]).evaluate ctx) := by
    rcases h with h | ⟨hhands, u, w, h⟩
    · refine .inl ?_
      rw [Expr.evaluate, Expr.evaluateList, h]
      exact if_pos hv
    · refine .inr ⟨hhands, u, w, ?_⟩
      rw [Expr.evaluate, Expr.evaluateList, h]
      rfl
  cases how with
  | assert => exact hassert
  | coerce =>
      rw [Compile.narrow]
      split
      · next hcoercible =>
          rcases h with h | ⟨hhands, u, w, h⟩
          · refine .inl ?_
            rw [Expr.evaluate, Expr.evaluateList, h]
            exact Semantics.convert_of_accepts ht hcoercible (hhow rfl) hv
          · refine .inr ⟨hhands, u, w, ?_⟩
            rw [Expr.evaluate, Expr.evaluateList, h]
            cases t with
            | color => cases ht
            | _ => rfl
      · exact hassert
  | _ => exact h

theorem FoundIn.finish (ht : t.isHeld = true) (hv : t.accepts v.type = true)
    {how : Option Narrowing} (hhow : how = some .coerce → t ≠ .number)
    {folding : Bool} {e : Expr} (h : c.FoundIn raws v (e.evaluate ctx)) :
    Ensures (fun a => c.FoundIn raws v (a.evaluate ctx))
      (Compile.finish folding (s.expecting (some t)) how e) := by
  intro a ha
  obtain ⟨b, hb, ha⟩ := ok_of_bind ha
  rw [evaluate_of_settle ha]
  cases conformed hb with
  | free | accepted => exact h
  | asserted hexpected =>
      obtain rfl := Option.some.inj hexpected
      refine h.narrow ht hv fun hcoerce => hhow ?_
      cases how with
      | none => cases hcoerce
      | some how => exact congrArg some hcoerce
  | colored hexpected => exact absurd hexpected (ne_color_of_isHeld ht)

/-- A coalesce finds what its operands come to. -/
theorem foundIn_coalesce (hr : c.registry.Lawful) (ht : t.isHeld = true)
    (hv : v.isNull = false) {before after : List Json} {x : Json}
    (hbefore : ∀ y ∈ before, c.ComesTo s ctx y .null)
    (hx : c.ComesTo s ctx x v) :
    Ensures (fun e => c.FoundIn (before ++ [x]) v (e.evaluate ctx))
      (coalesce (s.expecting (some t))
        (c.operands (before ++ x :: after))) := by
  simp only [coalesce, declared_of_isHeld ht]
  split
  · exact .fail
  · refine .bind (foundIn_alternatives hr ht hv hbefore hx _ 1) fun p hp => ?_
    refine .pure ?_
    rw [Expr.evaluate, Expr.evaluateList_eq_map]
    exact hp

/-- A coalesce of which a type is expected has the first value of its operands
that is not null, as each comes to it on its own, if that is of the type. It may
only fail to have it where an operand up to that one hands on the type: then a
check below that operand, which it does not have on its own, has failed for the
type of a value.

The whole may be narrowed in any way that is asked for. Conversions are asked for
strings only; one to a number would refuse NaN. -/
theorem coalesce_falls_through (before after : List Json) {x : Json}
    {how : Option Narrowing} {typed : Expr} (ht : t.isHeld = true)
    (hhow : how = some .coerce → t ≠ .number)
    (h : compile { registry := .standard }
      (.array (.string "coalesce" :: (before ++ x :: after)))
      (s.expecting (some t)) how = .ok typed)
    (hbefore : ∀ y ∈ before,
      ComesTo { registry := .standard } s ctx y .null)
    (hx : ComesTo { registry := .standard } s ctx x v)
    (hv : t.accepts v.type = true) :
    FoundIn { registry := .standard } (before ++ [x]) v
      (typed.evaluate ctx) := by
  rw [compile_form (f := .coalesce) _ rfl] at h
  obtain ⟨node, hnode, hfinish⟩ := ok_of_bind h
  have hfound := foundIn_coalesce Registry.standard_lawful ht
    (Value.isNull_of_isHeld ht hv) hbefore hx node hnode
  exact hfound.finish ht hv hhow typed hfinish

/-- `["get", "x"]`. -/
def propertyDocument : Json := .array [.string "get", .string "x"]

/-- `["coalesce", ["get", "x"], 5]` where a number is expected: the property is
looked up as it is, and the whole is asserted. -/
theorem coalesce_falls_through_get :
    let five : Json := .number (.integer 5)
    let typed : Expr := .assertion .number [.coalesce .value
      [.compound "get" .value .property false [.literal .string (.string "x")],
       .literal .number (.number 5)]]
    Ty.isHeld .number = true ∧
      compile { registry := .standard }
        (.array [.string "coalesce", propertyDocument, five])
        (Site.expecting {} (some .number)) none = .ok typed ∧
      ComesTo { registry := .standard } {} {} propertyDocument .null ∧
      ComesTo { registry := .standard } {} {} five (.number 5) ∧
      FoundIn { registry := .standard } [propertyDocument, five] (.number 5)
        (typed.evaluate {}) := by
  intro five typed
  have hnull : ComesTo { registry := .standard } {} {} propertyDocument .null :=
    ⟨_, rfl, rfl⟩
  have hfive : ComesTo { registry := .standard } {} {} five (.number 5) :=
    ⟨_, rfl, rfl⟩
  have h : compile { registry := .standard }
      (.array [.string "coalesce", propertyDocument, five])
      (Site.expecting {} (some .number)) none = .ok typed := by rfl
  have hhow : none = some Narrowing.coerce → Ty.number ≠ .number := nofun
  exact ⟨rfl, h, hnull, hfive, coalesce_falls_through [propertyDocument] [] rfl
    hhow h (List.forall_mem_singleton.2 hnull) hfive rfl⟩

/-- `["coalesce", ["let", "v", ["get", "x"], ["var", "v"]], 5]` where a number is
expected. The first operand comes to null on its own and the second to a number,
but the `let` hands on what is expected and has its body asserted, so that null
does not fall through. -/
theorem coalesce_let_stops_null :
    let named : Json := .array [.string "let", .string "v", propertyDocument,
      .array [.string "var", .string "v"]]
    let five : Json := .number (.integer 5)
    ∃ typed, compile { registry := .standard }
        (.array [.string "coalesce", named, five])
        (Site.expecting {} (some .number)) none = .ok typed ∧
      ComesTo { registry := .standard } {} {} named .null ∧
      ComesTo { registry := .standard } {} {} five (.number 5) ∧
      typed.evaluate {} = .error (.typeMismatch .number .null) :=
  ⟨_, rfl, ⟨_, rfl, rfl⟩, ⟨_, rfl, rfl⟩, rfl⟩

end Compiler

end MapStyle
