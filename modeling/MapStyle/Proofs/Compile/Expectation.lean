import MapStyle.Proofs.Compile.Documents
import MapStyle.Proofs.Compile.Folding
import MapStyle.Proofs.Semantics.Checks

/-!
# What an expected type changes

A document is compiled once where a type is expected of it and once where
another or none is. Most forms do not look at what is expected of themselves,
so that both runs make the same node. The others hand the type on to their
outputs, or in the case of `at` to the array that the item is taken from.

Where the first type is one that is asserted, the first tree differs from the
second in nothing but checks: `Operand.Held` says so of an operand and
`Compiler.held` of every document. A document that hands nothing on even has
the same values on both sides, as long as it is not narrowed itself
(`Compiler.unheld`).
-/

namespace MapStyle

/-! ## Two runs that both succeed -/

/-- Where both runs succeed, their results are related. -/
def Concur {α β : Type} (R : α → β → Prop) (x : Compiled α)
    (y : Compiled β) : Prop :=
  ∀ a b, x = .ok a → y = .ok b → R a b

namespace Concur

variable {α β γ δ : Type} {R : α → β → Prop} {S : γ → δ → Prop}
  {s : Site} {issue : Issue}

theorem fail {y : Compiled β} : Concur R (s.fail issue) y := nofun

theorem failAt {keys : List Nat} {y : Compiled β} :
    Concur R (s.failAt keys issue) y := nofun

theorem pure {a : α} {b : β} (h : R a b) :
    Concur R (Pure.pure a) (Pure.pure b) := by
  rintro _ _ ⟨⟩ ⟨⟩
  exact h

theorem bind {x : Compiled α} {y : Compiled β} {f : α → Compiled γ}
    {g : β → Compiled δ} (h : Concur R x y)
    (hfg : ∀ a b, R a b → Concur S (f a) (g b)) :
    Concur S (x >>= f) (y >>= g) := by
  intro c d hc hd
  obtain ⟨a, hx, hc⟩ := ok_of_bind hc
  obtain ⟨b, hy, hd⟩ := ok_of_bind hd
  exact hfg a b (h a b hx hy) c d hc hd

/-- A step that both runs take with the same result. -/
theorem bind_same {x : Compiled α} {f : α → Compiled γ} {g : α → Compiled δ}
    (h : ∀ a, Concur S (f a) (g a)) : Concur S (x >>= f) (x >>= g) := by
  intro c d hc hd
  obtain ⟨a, rfl, hc⟩ := ok_of_bind hc
  exact h a c d hc hd

theorem of_eq {x y : Compiled α} (h : x = y) : Concur Eq x y := by
  subst h
  intro a b ha hb
  exact Except.ok.inj (ha.symm.trans hb)

theorem mono {R' : α → β → Prop} {x : Compiled α} {y : Compiled β}
    (h : Concur R x y) (hR : ∀ a b, R a b → R' a b) : Concur R' x y :=
  fun a b ha hb => hR a b (h a b ha hb)

theorem both {x : Compiled α} {y : Compiled β} {x' : Compiled γ}
    {y' : Compiled δ} (h : Concur R x y) (h' : Concur S x' y') :
    Concur (fun p q => R p.1 q.1 ∧ S p.2 q.2) (Operand.both x x')
      (Operand.both y y') := by
  intro p q hp hq
  cases x with
  | error ds => cases x' <;> cases hp
  | ok a =>
      cases x' with
      | error ds => cases hp
      | ok c =>
          cases y with
          | error ds => cases y' <;> cases hq
          | ok b =>
              cases y' with
              | error ds => cases hq
              | ok d =>
                  cases hp
                  cases hq
                  exact ⟨h a b rfl rfl, h' c d rfl rfl⟩

end Concur

/-- The site with something else expected there. -/
def Site.expecting (s : Site) (expected : Option Ty) : Site :=
  { s with expected }

/-! ## Forms that do not look -/

namespace Compile

variable {s : Site} {args : List Operand}

theorem compileAll_expecting (E expected : Option Ty) (os : List Operand)
    (i : Nat) : Operand.compileAll (s.expecting E) expected i os =
      Operand.compileAll s expected i os := by
  induction os generalizing i with
  | nil => rfl
  | cons o os ih =>
      rw [Operand.compileAll, Operand.compileAll, ih]
      rfl

theorem operandsAgainst_expecting (E : Option Ty) (tys : List Ty)
    (os : List Operand) (i : Nat) :
    operandsAgainst (s.expecting E) i tys os = operandsAgainst s i tys os := by
  induction os generalizing i tys with
  | nil => cases tys <;> rfl
  | cons o os ih =>
      cases tys with
      | nil => rfl
      | cons ty tys =>
          rw [operandsAgainst, operandsAgainst, ih]
          rfl

theorem choice_expecting {ω : Type} (E : Option Ty)
    (op : CompoundOperator ω) :
    choice op (s.expecting E) args = choice op s args := by
  have hattempt (signature : Signature ω) :
      attempt op (s.expecting E) args signature = attempt op s args signature := by
    rw [attempt, attempt, operandsAgainst_expecting]
  have hfirst (signatures : List (Signature ω)) :
      firstFitting op (s.expecting E) args signatures =
        firstFitting op s args signatures := by
    induction signatures with
    | nil => rfl
    | cons signature rest ih =>
        rw [firstFitting, firstFitting, hattempt, ih]
  have hnone (signatures : List (Signature ω)) :
      noSignature (s.expecting E) args signatures =
        noSignature s args signatures := by
    rw [noSignature, noSignature, compileAll_expecting]
    rfl
  unfold choice
  split <;> simp only [hattempt, hfirst, hnone]

theorem compound_expecting (E : Option Ty) (op : CompoundOperator Primitive) :
    compound op (s.expecting E) args = compound op s args := by
  rw [compound, compound, choice_expecting]

theorem assertion_expecting (E : Option Ty) (name : String) :
    assertion name (s.expecting E) args = assertion name s args := by
  simp only [assertion, arrayAssertion, compileAll_expecting]
  rfl

theorem conversion_expecting (E : Option Ty) (name : String) :
    conversion name (s.expecting E) args = conversion name s args := by
  simp only [conversion, compileAll_expecting]
  rfl

theorem connective_expecting (E : Option Ty) (node : Ty → List Expr → Expr) :
    connective node (s.expecting E) args = connective node s args := by
  rw [connective, connective, compileAll_expecting]

theorem optionalNumber_expecting (E : Option Ty) (i : Nat)
    (os : List Operand) :
    optionalNumber (s.expecting E) i os = optionalNumber s i os := by
  cases os <;> rfl

theorem position_expecting (E : Option Ty) :
    position (s.expecting E) args = position s args := by
  simp only [position, optionalNumber_expecting]
  rfl

theorem slice_expecting (E : Option Ty) :
    slice (s.expecting E) args = slice s args := by
  simp only [slice, optionalNumber_expecting]
  rfl

/-- Whether the form hands on what is expected of it. An interpolation in a
color space of its own has its outputs be colors instead. -/
def handsOn (name : String) : SpecialForm → Bool
  | .binding | .item | .conditional | .selection | .step => true
  | .interpolate => colorSpace name == .rgb
  | _ => false

theorem stops_expecting (E : Option Ty) (name : String) :
    ∀ (os : List Operand) (i : Nat) (previous : Option Float) (ty : Option Ty),
    stops name (s.expecting E) i previous ty os = stops name s i previous ty os
  | [], _, _, _ => rfl
  | [_], _, _, _ => rfl
  | l :: o :: rest, i, previous, ty => by
      simp only [stops, stops_expecting E name rest]
      rfl

theorem interpolate_expecting (E : Option Ty) {name : String}
    (hname : colorSpace name ≠ .rgb) :
    interpolate name (s.expecting E) args = interpolate name s args := by
  have hspace : (colorSpace name == .rgb) = false := by simpa using hname
  unfold interpolate
  simp only [hspace, stops_expecting]
  rfl

/-- A form that does not look at what is expected of it makes the same node
whatever that is. -/
theorem form_expecting (E : Option Ty) (name : String) {f : SpecialForm}
    (hhands : handsOn name f = false) (hliteral : f ≠ .literal)
    (hcoalesce : f ≠ .coalesce) :
    form f name (s.expecting E) args = form f name s args := by
  cases f with
  | literal => exact absurd rfl hliteral
  | coalesce => exact absurd rfl hcoalesce
  | binding | item | conditional | selection | step => cases hhands
  | interpolate => exact interpolate_expecting E (by simpa [handsOn] using hhands)
  | assertion => exact assertion_expecting E name
  | coercion => exact conversion_expecting E name
  | position => exact position_expecting E
  | slice => exact slice_expecting E
  | all | any => exact connective_expecting E _
  | reference | membership | length | comparison | globalState | within
  | distance => rfl

end Compile

/-! ## Trees held to a type -/

/-- A type that is asserted where it is expected, arrays of a fixed length
aside. -/
def Ty.isHeld : Ty → Bool
  | .number | .string | .boolean | .object | .array _ none => true
  | _ => false

/-- What is known of the type of a tree that was compiled where `expected` was,
from the first tree having been held to the type `t`. -/
def Compile.Within (t : Ty) (expected : Option Ty) (ty : Ty) : Prop :=
  ty = .value ∨ t.accepts ty = true ∨ expected = some ty

/-- What may be expected of a later output where `expected` was of the first:
the same, or what the outputs before it have set. -/
inductive Compile.Later (t : Ty) (expected : Option Ty) :
    Option Ty → Prop where
  | same : Later t expected expected
  | set {ty : Ty} (h : Compile.Within t expected ty) : Later t expected (some ty)

namespace Expr

/-- The first tree is the second with checks of types added. -/
def Guards (e e' : Expr) : Prop :=
  ∀ ctx, Checks (e.evaluate ctx) (e'.evaluate ctx)

/-- The first tree, held to the type `t`, is the second with checks added. -/
structure Held (t : Ty) (expected : Option Ty) (e e' : Expr) : Prop where
  guards : e.Guards e'
  within : Compile.Within t expected e'.type

theorem Guards.refl (e : Expr) : e.Guards e :=
  fun _ => .refl _

/-- The outcomes of guarded trees behind their keys. -/
theorem Guards.outcomes {α β : Type} {ps qs : List (α × Expr)}
    (h : List.Forall₂ (LabelledBy Guards) ps qs) (key : α → β)
    (ctx : Context) :
    List.Forall₂ (SameKey Checks)
      (ps.map fun p => (key p.1, p.2.evaluate ctx))
      (qs.map fun q => (key q.1, q.2.evaluate ctx)) := by
  rw [List.forall₂_map_left_iff, List.forall₂_map_right_iff]
  exact h.imp fun p q hpq => ⟨congrArg key hpq.1, hpq.2 ctx⟩

end Expr

/-- An operand is held to a type by compiling it where the type is expected. It
may then be asserted or left alone, but not converted. -/
def Operand.Held (o : Operand) : Prop :=
  ∀ (s : Site) {t : Ty} {E : Option Ty} {how how' : Option Narrowing},
    t.isHeld = true → E ≠ some .color → how ≠ some .coerce →
    how' ≠ some .coerce →
    Concur (Expr.Held t E) (o.compile (s.expecting (some t)) how)
      (o.compile (s.expecting E) how')

namespace Compile

variable {s : Site} {args : List Operand} {t : Ty} {E : Option Ty}

theorem declared_of_isHeld (ht : t.isHeld = true) (s : Site) :
    (s.expecting (some t)).declared = some t := by
  cases t <;> first | rfl | cases ht

theorem not_accepts_color (ht : t.isHeld = true) :
    t.accepts .color = false := by
  cases t <;> first | rfl | cases ht

namespace Within

variable {ty : Ty}

theorem ne_color (h : Within t E ty) (ht : t.isHeld = true)
    (hE : E ≠ some .color) : ty ≠ .color := by
  rintro rfl
  rcases h with h | h | h
  · cases h
  · rw [not_accepts_color ht] at h
    cases h
  · exact hE h

/-- A type within what the type of an earlier output was set to. -/
theorem trans {u : Ty} (h : Within t (some u) ty) (hu : Within t E u) :
    Within t E ty := by
  rcases h with h | h | h
  · exact .inl h
  · exact .inr (.inl h)
  · exact Option.some.inj h ▸ hu

theorem of_declared (h : Within t (s.expecting E).declared ty) :
    Within t E ty :=
  h.imp_right (Or.imp_right fun h => (Option.filter_eq_some_iff.1 h).1)

/-- The type that an output sets for the next ones, or finds set. -/
theorem getD (h : Within t E ty) : Within t E (E.getD ty) := by
  cases E with
  | none => exact h
  | some u => exact .inr (.inr rfl)

end Within

namespace Later

variable {E' E'' : Option Ty}

theorem within {ty : Ty} (h : Later t E E') (hty : Within t E' ty) :
    Within t E ty := by
  cases h with
  | same => exact hty
  | set hu => exact hty.trans hu

theorem trans (h : Later t E E') (h' : Later t E' E'') : Later t E E'' := by
  cases h' with
  | same => exact h
  | set hty => exact .set (h.within hty)

theorem ne_color (h : Later t E E') (ht : t.isHeld = true)
    (hE : E ≠ some .color) : E' ≠ some .color := by
  cases h with
  | same => exact hE
  | set hty => simpa using hty.ne_color ht hE

theorem getD (h : Later t E E') : Within t E (E'.getD .value) := by
  cases h with
  | same =>
      cases E with
      | none => exact .inl rfl
      | some ty => exact .inr (.inr rfl)
  | set hty => exact hty

end Later

theorem declared_ne_color (hE : E ≠ some .color) (s : Site) :
    (s.expecting E).declared ≠ some .color :=
  fun h => hE (Option.filter_eq_some_iff.1 h).1

/-! ### Narrowing -/

/-- Without conversions an expression is left alone or asserted, and it is of a
type that is expected as far as its type is known. -/
theorem conform_cases {how : Option Narrowing} {e a : Expr}
    (hE : E ≠ some .color) (hhow : how ≠ some .coerce)
    (h : conform (s.expecting E) how e = .ok a) :
    (a = e ∨ ∃ ty, E = some ty ∧ a = .assertion ty [e]) ∧
      ∀ ty ∈ E, e.type = .value ∨ ty.accepts e.type = true := by
  cases conformed h with
  | free hexpected =>
      obtain rfl : E = none := hexpected
      exact ⟨.inl rfl, nofun⟩
  | @accepted ty hexpected _ haccepts =>
      obtain rfl : E = some ty := hexpected
      refine ⟨.inl rfl, ?_⟩
      rintro _ ⟨⟩
      exact .inr haccepts
  | @asserted ty hexpected _ hvalue =>
      obtain rfl : E = some ty := hexpected
      refine ⟨?_, fun _ _ => .inl hvalue⟩
      cases how with
      | none => exact .inr ⟨ty, rfl, rfl⟩
      | some how =>
          cases how with
          | assert => exact .inr ⟨ty, rfl, rfl⟩
          | coerce => exact absurd rfl hhow
          | _ => exact .inl rfl
  | colored hexpected => exact absurd hexpected hE

theorem ne_color_of_isHeld (ht : t.isHeld = true) : some t ≠ some .color := by
  rintro ⟨⟩
  cases ht

/-- Narrowing and folding keep one tree held to the other, and hold a tree that
both runs have made to itself. -/
theorem held_finish {folding : Bool} {how how' : Option Narrowing}
    {e e' : Expr} (ht : t.isHeld = true) (hE : E ≠ some .color)
    (hhow : how ≠ some .coerce) (hhow' : how' ≠ some .coerce)
    (h : e = e' ∨ e.Held t E e') :
    Concur (Expr.Held t E) (finish folding (s.expecting (some t)) how e)
      (finish folding (s.expecting E) how' e') := by
  intro a a' ha ha'
  obtain ⟨b, hb, ha⟩ := ok_of_bind ha
  obtain ⟨b', hb', ha'⟩ := ok_of_bind ha'
  obtain ⟨hb, htype⟩ := conform_cases (ne_color_of_isHeld ht) hhow hb
  obtain ⟨hb', -⟩ := conform_cases hE hhow' hb'
  have held : e.Held t E e' := by
    rcases h with rfl | h
    · exact ⟨.refl e, (htype t rfl).imp_right .inl⟩
    · exact h
  refine ⟨fun ctx => ?_, ?_⟩
  · rw [evaluate_of_settle ha, evaluate_of_settle ha']
    have hleft : Checks (b.evaluate ctx) (e'.evaluate ctx) := by
      rcases hb with rfl | ⟨ty, -, rfl⟩
      · exact held.guards ctx
      · exact Semantics.assertType_checks (held.guards ctx) ty .null
    rcases hb' with rfl | ⟨ty, -, rfl⟩
    · exact hleft
    · exact Semantics.checks_assertType hleft ty .null
  · rw [type_of_settle ha']
    rcases hb' with rfl | ⟨ty, rfl, rfl⟩
    · exact held.within
    · exact .inr (.inr rfl)

/-! ### Forms that hand the type on -/

variable (hargs : ∀ o ∈ args, o.Held) (ht : t.isHeld = true)
  (hE : E ≠ some .color)

theorem held_child {o : Operand} (ho : o.Held) (ht : t.isHeld = true)
    (hE : E ≠ some .color) (i : Nat) (names : List (String × Expr)) :
    Concur (Expr.Held t E) (o.compile (s.child i (some t) names) none)
      (o.compile (s.child i E names) none) :=
  ho (s.child i none names) ht hE (by nofun) (by nofun)

theorem held_compileAt {o : Operand} (ho : o.Held) (ht : t.isHeld = true)
    (hE : E ≠ some .color) (i : Nat) :
    Concur (Expr.Held t E) (o.compileAt s i (some t)) (o.compileAt s i E) :=
  held_child ho ht hE i []

theorem boundNames_expecting (E : Option Ty) :
    ∀ (i : Nat) (os : List Operand),
    boundNames (s.expecting E) i os = boundNames s i os
  | _, [] => rfl
  | _, [_] => rfl
  | _, [_, _] => rfl
  | i, name :: value :: next :: rest => by
      rw [boundNames, boundNames, boundNames_expecting E (i + 2)]
      rfl

include hargs ht hE

theorem held_binding : Concur (Expr.Held t E)
    (binding (s.expecting (some t)) args) (binding (s.expecting E) args) := by
  simp only [binding, boundNames_expecting]
  split
  · exact .fail
  · intro e e' he he'
    obtain ⟨⟨names, i, body⟩, hnames, he⟩ := ok_of_bind he
    obtain ⟨_, hnames', he'⟩ := ok_of_bind he'
    obtain rfl := Except.ok.inj (hnames.symm.trans hnames')
    obtain ⟨b, hb, he⟩ := ok_of_bind he
    obtain ⟨b', hb', he'⟩ := ok_of_bind he'
    obtain rfl := ok_of_pure he
    obtain rfl := ok_of_pure he'
    have hbody : body ∈ args :=
      (boundNames_from (List.Subset.refl args) 1 _ hnames).2
    have held := held_child (hargs body hbody) ht hE i names b b' hb hb'
    exact ⟨held.guards, held.within⟩

omit hargs ht hE in
/-- The type of an item, if it is known, is that of the items of the array. -/
theorem item_made (index input : Expr) : ∃ ty,
    (match input.type with
      | .array item _ => (return .item item index input : Compiled Expr)
      | _ => return .item .value index input) = .ok (.item ty index input) ∧
    (ty = .value ∨ ∃ n, input.type = .array ty n) := by
  cases input.type with
  | array item n => exact ⟨item, rfl, .inr ⟨n, rfl⟩⟩
  | _ => exact ⟨.value, rfl, .inl rfl⟩

omit hargs ht hE in
/-- Items of an array within the type of arrays of `t` are within `t`. -/
theorem Within.item {ty : Ty} {n : Option Nat}
    (h : Within (.array t none) (some (.array (E.getD .value) none))
      (.array ty n)) : Within t E ty := by
  rcases h with h | h | h
  · cases h
  · rcases (Ty.array_accepts_array.1 h).1 with ⟨-, h⟩ | h
    · exact .inl h
    · exact .inr (.inl h)
  · obtain rfl : E.getD .value = ty := by
      injection h with h
      injection h
    cases E with
    | none => exact .inl rfl
    | some u => exact .inr (.inr rfl)

omit ht hE in
/-- The item of an array that is held to the type of arrays of such items. -/
theorem held_item : Concur (Expr.Held t E)
    (item (s.expecting (some t)) args) (item (s.expecting E) args) := by
  refine .bind_same (x := expectCount s 2 2 args) fun _ => ?_
  match args, hargs with
  | [], _ | [_], _ | _ :: _ :: _ :: _, _ => exact .fail
  | [index, input], hargs =>
      let items : Option Ty := some (.array (E.getD .value) none)
      have hitems : items ≠ some .color := by simp [items]
      have hinput : Concur (Expr.Held (.array t none) items)
          (input.compileAt s 2 (some (.array t none)))
          (input.compileAt s 2 items) :=
        held_compileAt (hargs input (by simp)) rfl hitems 2
      have hindex := Concur.of_eq (rfl : index.compileAt s 1 (some .number) = _)
      refine .bind (.both hindex hinput) ?_
      rintro ⟨index, input⟩ ⟨_, input'⟩ ⟨rfl, hinput⟩ e e' he he'
      obtain ⟨ty, hmade, -⟩ := item_made index input
      obtain ⟨ty', hmade', hty'⟩ := item_made index input'
      obtain rfl := Except.ok.inj (hmade.symm.trans he)
      obtain rfl := Except.ok.inj (hmade'.symm.trans he')
      refine ⟨fun ctx => ?_, ?_⟩
      · exact Semantics.item_checks _ _ _ (hinput.guards ctx)
      · rcases hty' with rfl | ⟨n, hty'⟩
        · exact .inl rfl
        · exact .item (hty' ▸ hinput.within)

omit hargs in
/-- An output that is held to the type, with the type that it sets or finds set
where it is not. -/
theorem held_output {o : Operand} (ho : o.Held) (F G : Option Ty) (i : Nat) :
    Concur (fun p p' => p.1.Guards p'.1 ∧ t = p.2 ∧ Within t E p'.2)
      (output (s.expecting F) i (some t) o) (output (s.expecting G) i E o) := by
  refine .bind (held_compileAt ho ht hE i) fun e e' held => ?_
  exact .pure ⟨held.guards, rfl, held.within.getD⟩

omit hargs hE in
theorem held_branches (hargs : ∀ o ∈ args, o.Held) (F G : Option Ty) :
    ∀ (os : List Operand), os ⊆ args → ∀ {E : Option Ty}, E ≠ some .color →
    ∀ i, Concur (fun p p' =>
        List.Forall₂ (Expr.LabelledBy Expr.Guards) p.1 p'.1 ∧
          p.2.1.Guards p'.2.1 ∧ Within t E p'.2.2)
      (branches (s.expecting F) i (some t) os)
      (branches (s.expecting G) i E os)
  | [], _, _, _, _ => .fail
  | [otherwise], hos, _, hE, i => by
      have ho := hargs otherwise (hos List.mem_cons_self)
      refine .bind (held_output ht hE ho F G i) ?_
      intro p p' ⟨hguards, _, hty⟩
      exact .pure ⟨.nil, hguards, hty⟩
  | test :: result :: rest, hos, E, hE, i => by
      have ho := hargs result (hos (by simp))
      refine .bind (.of_eq (rfl : test.compileAt s i (some .boolean) = _)) ?_
      rintro test _ rfl
      refine .bind (held_output ht hE ho F G (i + 1)) ?_
      rintro ⟨e, ty⟩ ⟨e', ty'⟩ ⟨hguards, hset, hty⟩
      obtain rfl : t = ty := hset
      have hlater := Later.set hty
      refine .bind (held_branches hargs F G rest (subset_of_pair hos)
        (hlater.ne_color ht hE) (i + 2)) ?_
      intro p p' ⟨hmore, hotherwise, hlast⟩
      exact .pure ⟨.cons ⟨rfl, hguards⟩ hmore, hotherwise, hlater.within hlast⟩

theorem held_conditional : Concur (Expr.Held t E)
    (conditional (s.expecting (some t)) args)
    (conditional (s.expecting E) args) := by
  simp only [conditional, declared_of_isHeld ht]
  split
  · exact .fail
  · split
    · exact .fail
    · refine .bind (held_branches ht hargs _ _ args (List.Subset.refl _)
        (declared_ne_color hE s) 1) ?_
      rintro p p' ⟨hbranches, hotherwise, hty⟩
      refine .pure ⟨fun ctx => ?_, hty.of_declared⟩
      simp only [Expr.evaluate, Expr.evaluateBranches_eq_map]
      exact Semantics.conditional_checks
        (Expr.Guards.outcomes hbranches (Expr.evaluate ctx) ctx)
        (hotherwise ctx)

omit hargs ht hE in
theorem labels_expecting (F : Option Ty) (i : Nat) (raws : List Json)
    (seen : List Label) (ty : Option Ty) :
    labels (s.expecting F) i seen ty raws = labels s i seen ty raws := by
  induction raws generalizing seen ty with
  | nil => rfl
  | cons raw raws ih =>
      simp only [labels, ih]
      rfl

omit hargs hE in
theorem held_labelled (hargs : ∀ o ∈ args, o.Held) (F G : Option Ty) :
    ∀ (os : List Operand), os ⊆ args → ∀ {E : Option Ty}, E ≠ some .color →
    ∀ i seen inputTy, Concur (fun p p' =>
        List.Forall₂ (Expr.LabelledBy Expr.Guards) p.1 p'.1 ∧
          p.2.1 = p'.2.1 ∧ some t = p.2.2.1 ∧ Later t E p'.2.2.1 ∧
          p.2.2.2 = p'.2.2.2 ∧ p.2.2.2.2 ∈ args)
      (labelled (s.expecting F) i seen inputTy (some t) os)
      (labelled (s.expecting G) i seen inputTy E os)
  | [], _, _, _, _, _, _ => .fail
  | [otherwise], hos, _, _, _, _, _ =>
      .pure ⟨.nil, rfl, rfl, .same, rfl, hos List.mem_cons_self⟩
  | raw :: result :: rest, hos, E, hE, i, seen, inputTy => by
      have ho := hargs result (hos (by simp))
      simp only [labelled, labels_expecting]
      split
      · exact .failAt
      · refine .bind_same ?_
        rintro ⟨ls, inputTy⟩
        refine .bind (held_output ht hE ho F G (i + 1)) ?_
        rintro ⟨e, ty⟩ ⟨e', ty'⟩ ⟨hguards, hset, hty⟩
        obtain rfl : t = ty := hset
        have hlater := Later.set hty
        refine .bind (held_labelled hargs F G rest (subset_of_pair hos)
          (hlater.ne_color ht hE) (i + 2) (ls ++ seen) inputTy) ?_
        rintro p p' ⟨hmore, hinput, hkeep, hlast, hrest⟩
        exact .pure ⟨.cons ⟨rfl, hguards⟩ hmore, hinput, hkeep,
          hlater.trans hlast, hrest⟩

theorem held_selection : Concur (Expr.Held t E)
    (selection (s.expecting (some t)) args)
    (selection (s.expecting E) args) := by
  simp only [selection, declared_of_isHeld ht]
  split
  · exact .fail
  · split
    · exact .fail
    · cases args with
      | nil => exact .fail
      | cons input rest =>
          have hrest : rest ⊆ input :: rest := List.subset_cons_self _ _
          have hdeclared := declared_ne_color hE s
          refine .bind (held_labelled ht hargs _ _ rest hrest hdeclared 2 []
            none) ?_
          rintro ⟨bs, inputTy, ty, i, o⟩ ⟨bs', _, ty', _, _⟩
            ⟨hbs, rfl, hset, hlater, hlast, ho⟩
          obtain rfl : some t = ty := hset
          cases hlast
          refine .bind (.of_eq (rfl : input.compileAt s 1 (some .value) = _)) ?_
          rintro input _ rfl
          refine .bind (held_output ht (hlater.ne_color ht hdeclared)
            (hargs o ho) _ _ i) ?_
          rintro ⟨e, ty⟩ ⟨e', u⟩ ⟨hguards, -, hty⟩
          simp only
          split
          · exact .failAt
          · refine .pure ⟨fun ctx => ?_, (hlater.within hty).of_declared⟩
            simp only [Expr.evaluate, Expr.evaluateLabelled_eq_map]
            exact Semantics.selection_checks _ _
              (Expr.Guards.outcomes hbs id ctx) (hguards ctx)

/-! ### The first operand that is not null -/

omit hargs hE in
theorem held_alternatives (hargs : ∀ o ∈ args, o.Held) (F G : Option Ty)
    {os : List Operand} (hos : os ⊆ args) {E : Option Ty}
    (hE : E ≠ some .color) (i : Nat) :
    Concur (fun p p' => List.Forall₂ Expr.Guards p.1 p'.1 ∧
        Later t E p'.2)
      (alternatives (s.expecting F) i (some t) os)
      (alternatives (s.expecting G) i E os) := by
  induction os generalizing i E with
  | nil => exact .pure ⟨.nil, .same⟩
  | cons o os ih =>
      obtain ⟨ho, hos⟩ := List.cons_subset.1 hos
      refine .bind (hargs o ho (s.child i none []) ht hE (by nofun)
        (by nofun)) fun e e' held => ?_
      have hlater := Later.set held.within.getD
      refine .bind (ih hos (hlater.ne_color ht hE) (i + 1)) ?_
      intro p p' ⟨hes, hlast⟩
      exact .pure ⟨.cons held.guards hes, hlater.trans hlast⟩

theorem held_coalesce : Concur (Expr.Held t E)
    (coalesce (s.expecting (some t)) args)
    (coalesce (s.expecting E) args) := by
  simp only [coalesce, declared_of_isHeld ht]
  split
  · exact .fail
  · refine .bind (held_alternatives ht hargs _ _ (List.Subset.refl _)
      (declared_ne_color hE s) 1) ?_
    rintro ⟨es, ty⟩ ⟨es', ty'⟩ ⟨hes, hlater⟩
    refine .pure ⟨fun ctx => ?_, ?_⟩
    · simp only [Expr.evaluate, Expr.evaluateList_eq_map]
      refine Semantics.coalesce_checks ?_
      rw [List.forall₂_map_left_iff, List.forall₂_map_right_iff]
      exact hes.imp fun _ _ h => h ctx
    · simp only [Expr.type]
      split
      · exact .inl rfl
      · exact hlater.getD.of_declared

/-! ### Curves -/

omit hargs hE in
theorem held_stops (hargs : ∀ o ∈ args, o.Held) (F G : Option Ty)
    (name : String) : ∀ (os : List Operand), os ⊆ args →
    ∀ {E : Option Ty}, E ≠ some .color → ∀ i previous, Concur (fun p p' =>
        List.Forall₂ (Expr.LabelledBy Expr.Guards) p.1 p'.1 ∧
          some t = p.2 ∧ Later t E p'.2)
      (stops name (s.expecting F) i previous (some t) os)
      (stops name (s.expecting G) i previous E os)
  | [], _, _, _, _, _ | [_], _, _, _, _, _ => .pure ⟨.nil, rfl, .same⟩
  | l :: o :: rest, hos, E, hE, i, previous => by
      have ho := hargs o (hos (by simp))
      refine .bind (.of_eq (rfl : stopLabel name s i previous l.raw = _)) ?_
      rintro x _ rfl
      refine .bind (held_compileAt ho ht hE (i + 1)) fun e e' held => ?_
      have hlater := Later.set held.within.getD
      refine .bind (held_stops hargs F G name rest (subset_of_pair hos)
        (hlater.ne_color ht hE) (i + 2) (some x)) ?_
      intro p p' ⟨hmore, hset, hlast⟩
      exact .pure ⟨.cons ⟨rfl, held.guards⟩ hmore, hset, hlater.trans hlast⟩

theorem held_step : Concur (Expr.Held t E)
    (step (s.expecting (some t)) args) (step (s.expecting E) args) := by
  refine .bind_same (x := expectPairs s args) fun _ => ?_
  match args, hargs with
  | [], _ | [_], _ => exact .fail
  | input :: first :: rest, hargs =>
      have hrest : rest ⊆ input :: first :: rest :=
        subset_of_pair (List.Subset.refl _)
      have hdeclared := declared_ne_color hE s
      simp only [declared_of_isHeld ht]
      refine .bind (.of_eq (rfl : input.compileAt s 1 (some .number) = _)) ?_
      rintro input _ rfl
      refine .bind (held_compileAt (hargs first (by simp)) ht hdeclared 2)
        fun e e' held => ?_
      have hlater := Later.set held.within.getD
      refine .bind (held_stops ht hargs _ _ "step" rest hrest
        (hlater.ne_color ht hdeclared) 3 _) ?_
      intro p p' ⟨hmore, _, _⟩
      refine .pure ⟨fun ctx => ?_, held.within.getD.of_declared⟩
      have hstops : List.Forall₂ (Expr.LabelledBy Expr.Guards)
          ((-Number.infinity, e) :: p.1) ((-Number.infinity, e') :: p'.1) :=
        .cons ⟨rfl, held.guards⟩ hmore
      simp only [Expr.evaluate, Expr.evaluateStops_eq_map]
      exact Semantics.step_checks _ (Expr.Guards.outcomes hstops id ctx)

omit hargs hE in
/-- Of the types that an operand is held to, only numbers can be blended. -/
theorem eq_number_of_isInterpolatable (h : isInterpolatable t = true) :
    t = .number := by
  cases t with
  | number => rfl
  | array item n =>
      cases n with
      | none => cases h
      | some n => cases ht
  | string | boolean | object => cases h
  | null | color | value | error => cases ht

theorem held_interpolate {name : String} (hname : colorSpace name = .rgb) :
    Concur (Expr.Held t E) (interpolate name (s.expecting (some t)) args)
      (interpolate name (s.expecting E) args) := by
  have hspace : (colorSpace name == .rgb) = true := by rw [hname]; rfl
  match args, hargs with
  | [], _ => exact .failAt
  | kind :: operands, hargs =>
      refine .bind (.of_eq (rfl : interpolation s kind.raw = _)) ?_
      rintro kind _ rfl
      refine .bind_same (x := expectPairs s _) fun _ => ?_
      match operands, hargs with
      | [], _ => exact .fail
      | input :: rest, hargs =>
          have hrest : ∀ o ∈ rest, o.Held := fun o ho => hargs o (by simp [ho])
          simp only [hspace, if_true, declared_of_isHeld ht]
          refine .bind (.of_eq (rfl : input.compileAt s 2 (some .number) = _)) ?_
          rintro input _ rfl
          refine .bind (held_stops ht hrest _ _ name rest (List.Subset.refl _)
            (declared_ne_color hE s) 3 none) ?_
          rintro ⟨stops, ty⟩ ⟨stops', ty'⟩ ⟨hstops, hset, hlater⟩
          obtain rfl : some t = ty := hset
          intro e e' he he'
          split at he
          · next hblend =>
              obtain rfl := eq_number_of_isInterpolatable ht hblend
              split at he'
              · obtain rfl := ok_of_pure he
                obtain rfl := ok_of_pure he'
                refine ⟨fun ctx => ?_, hlater.getD.of_declared⟩
                simp only [Expr.evaluate, Expr.evaluateStops_eq_map]
                exact Semantics.interpolate_checks _ _ _ _
                  (Expr.Guards.outcomes hstops id ctx)
              · cases he'
          · cases he

/-! ### Literals -/

omit hargs ht hE in
/-- A literal is the value of the document. Only an empty array may be of another
type, the one that is expected. -/
theorem literal_cases {o : Operand} {e : Expr}
    (h : literal (s.expecting E) [o] = .ok e) : e = Expr.ofJson o.raw ∨
      ∃ ty, E = some ty ∧ ty.isArray = true ∧
        Value.ofJson o.raw = .array [] ∧ e = .literal ty (.array []) := by
  simp only [literal, Site.expecting] at h
  split at h
  · next inner v item n heq =>
      split at h
      · obtain rfl := ok_of_pure h
        injection heq with htype hvalue
        have hnil := Value.eq_nil_of_type htype
        exact .inr ⟨.array item n, rfl, rfl, hnil, by rw [← hvalue, hnil]⟩
      · obtain rfl := ok_of_pure h
        exact .inl rfl
  · obtain rfl := ok_of_pure h
    exact .inl rfl

omit hargs ht hE in
theorem evaluate_literal {o : Operand} {e : Expr}
    (h : literal (s.expecting E) [o] = .ok e) (ctx : Context) :
    e.evaluate ctx = .ok (.ofJson o.raw) := by
  rcases literal_cases h with rfl | ⟨ty, -, -, hvalue, rfl⟩
  · rfl
  · rw [hvalue]
    rfl

omit hargs hE in
theorem held_literal : Concur (fun e e' => e = e' ∨ e.Held t E e')
    (literal (s.expecting (some t)) args) (literal (s.expecting E) args) := by
  match args with
  | [] | _ :: _ :: _ => exact .fail
  | [o] =>
      intro e e' he he'
      have hguards : e.Guards e' := fun ctx => by
        rw [evaluate_literal he, evaluate_literal he']
        exact .refl _
      rcases literal_cases he' with rfl | ⟨ty, hty, -, -, rfl⟩
      · rcases literal_cases he with rfl | ⟨ty, hty, harray, hvalue, rfl⟩
        · exact .inl rfl
        · refine .inr ⟨hguards, .inr (.inl ?_)⟩
          obtain rfl := Option.some.inj hty
          rw [Expr.ofJson, hvalue]
          cases t with
          | array item n =>
              cases n with
              | none => rfl
              | some n => cases ht
          | _ => cases harray
      · exact .inr ⟨hguards, .inr (.inr hty)⟩

/-! ### Every document -/

theorem held_form (name : String) (f : SpecialForm) :
    Concur (fun e e' => e = e' ∨ e.Held t E e')
      (form f name (s.expecting (some t)) args)
      (form f name (s.expecting E) args) := by
  by_cases hhands : handsOn name f = true
  · have inr {x y : Compiled Expr} (h : Concur (Expr.Held t E) x y) :
        Concur (fun e e' => e = e' ∨ e.Held t E e') x y :=
      h.mono fun _ _ => .inr
    cases f with
    | binding => exact inr (held_binding hargs ht hE)
    | item => exact inr (held_item hargs)
    | conditional => exact inr (held_conditional hargs ht hE)
    | selection => exact inr (held_selection hargs ht hE)
    | step => exact inr (held_step hargs ht hE)
    | interpolate =>
        exact inr (held_interpolate hargs ht hE (eq_of_beq hhands))
    | _ => cases hhands
  · have hhands := Bool.eq_false_iff.2 hhands
    by_cases hliteral : f = .literal
    · subst hliteral
      exact held_literal ht
    · by_cases hcoalesce : f = .coalesce
      · subst hcoalesce
        exact (held_coalesce hargs ht hE).mono fun _ _ => .inr
      · have hsame (F : Option Ty) : form f name (s.expecting F) args = _ :=
          form_expecting F name hhands hliteral hcoalesce
        rw [hsame, hsame]
        exact (Concur.of_eq rfl).mono fun _ _ => .inl

theorem held_application (r : Registry) (head : Operand) :
    Concur (fun e e' => e = e' ∨ e.Held t E e')
      (application r (s.expecting (some t)) (head :: args))
      (application r (s.expecting E) (head :: args)) := by
  unfold application
  simp only
  split
  · split
    · exact held_form hargs ht hE _ _
    · rw [compound_expecting, compound_expecting]
      exact (Concur.of_eq rfl).mono fun _ _ => .inl
    · exact .failAt
  · exact .failAt

end Compile

/-- Every document can be held to a type: compiled where the type is expected, it
is what it would be elsewhere, with checks of types added. -/
theorem Compiler.held (c : Compiler) (raw : Json) :
    Operand.Held ⟨raw, c.compile raw⟩ := by
  refine Compiler.induction (P := Operand.Held) (fun raw => ?_) (fun fields => ?_)
    (fun raws hraws => ?_) raw
  · intro s t E how how' ht hE hhow hhow'
    exact Compile.held_finish ht hE hhow hhow' (.inl rfl)
  · intro s t E how how' _ _ _ _
    exact .fail
  · intro s t E how how' ht hE hhow hhow'
    refine .bind (R := fun e e' => e = e' ∨ e.Held t E e') ?_ fun e e' h =>
      Compile.held_finish ht hE hhow hhow' h
    cases hargs : c.operands raws with
    | nil => exact .fail
    | cons head args =>
        rw [hargs] at hraws
        exact Compile.held_application (List.forall_mem_cons.1 hraws).2 ht hE
          c.registry head

end MapStyle
