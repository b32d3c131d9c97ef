import MapStyle.Parse.Rule

/-!
# What a rule does is what compiling gives

A rule may record and go on, or give up and record nothing. `Simulates` says of
a run of a rule that it does neither: it gives the result of a compilation and
leaves the session as it was, or it gives up with the diagnostics of the
compilation behind those that were there.

Rules are put together as compilations are, and the relation goes along: what
comes after a rule in a sequence runs in the session that the rule found, since
a rule that gives something has recorded nothing. Three steps do not have that
shape and have lemmas of their own: a check that says whether it has recorded
something (`Simulates.expectType`), an operand in a session of its own
(`Simulates.parseWith`), and two operands of which the second one is parsed
whatever has come of the first (`Simulates.together`).
-/

namespace MapStyle

namespace Session

theorem record_nil (s : Session) : s.record [] = s := by
  rw [record, List.append_nil]

theorem run_bind {β γ : Type} (s : Session) (x : Rule β) (f : β → Rule γ) :
    s.run (x >>= f) = match s.run x with
      | (some a, t) => t.run (f a)
      | (none, t) => (none, t) := by
  rw [run, OptionT.run_bind, Option.elimM, StateT.run_bind]
  show (match s.run x with
    | (found, t) => StateT.run (found.elim _ _) t) = _
  cases s.run x with
  | mk found t => cases found <;> rfl

theorem run_bind_some {β γ : Type} {s t : Session} {x : Rule β} {a : β}
    (h : s.run x = (some a, t)) (f : β → Rule γ) :
    s.run (x >>= f) = t.run (f a) := by
  rw [run_bind, h]

theorem run_bind_none {β γ : Type} {s t : Session} {x : Rule β}
    (h : s.run x = (none, t)) (f : β → Rule γ) :
    s.run (x >>= f) = (none, t) := by
  rw [run_bind, h]

theorem run_get_bind {γ : Type} (s : Session) (f : Session → Rule γ) :
    s.run (get >>= f) = s.run (f s) :=
  rfl

theorem run_outcome {β : Type} (s : Session) (x : Rule β) :
    s.run x.outcome = (some (s.run x).1, (s.run x).2) :=
  rfl

end Session

/-- What is known of the compilation of an operand, as a rule. -/
def Operand.part (o : Operand) : Part :=
  ⟨o.raw, fun how => OptionT.mk fun s => s.absorbResult (o.compile s.site how)⟩

namespace Rule

variable {β γ : Type} {s : Session}

/-- What a rule does in a session is what compiling gives there. -/
def Simulates (s : Session) (x : Rule β) (y : Compiled β) : Prop :=
  s.run x = s.absorbResult y

namespace Simulates

theorem pure {a : β} : Simulates s (Pure.pure a) (.ok a) :=
  rfl

theorem error {issue : Issue} :
    Simulates s (Rule.error issue : Rule β) (s.site.fail issue) := by
  show (none, s.report [] issue) = (none, s.record [⟨s.site.path, issue⟩])
  rw [Session.report, List.append_nil]

theorem errorAt {keys : List Nat} {issue : Issue} :
    Simulates s (Rule.errorAt keys issue : Rule β)
      (s.site.failAt keys issue) :=
  rfl

/-- The session of a rule that gives something is the one it was run in. -/
theorem bind_of_ok {x : Rule β} {y : Compiled β} {f : β → Rule γ}
    {g : β → Compiled γ} (hx : Simulates s x y)
    (hf : ∀ a, y = .ok a → Simulates s (f a) (g a)) :
    Simulates s (x >>= f) (y >>= g) := by
  cases y with
  | ok a => exact (Session.run_bind_some hx f).trans (hf a rfl)
  | error ds => exact Session.run_bind_none hx f

theorem bind {x : Rule β} {y : Compiled β} {f : β → Rule γ}
    {g : β → Compiled γ} (hx : Simulates s x y)
    (hf : ∀ a, Simulates s (f a) (g a)) : Simulates s (x >>= f) (y >>= g) :=
  hx.bind_of_ok fun a _ => hf a

/-- As `bind_of_ok`, where the result is made of what the compilation gives. -/
theorem bind_map {δ : Type} {x : Rule β} {y : Compiled δ} {g : δ → β}
    {f : β → Rule γ} {h : δ → Compiled γ} (hx : Simulates s x (g <$> y))
    (hf : ∀ a, y = .ok a → Simulates s (f (g a)) (h a)) :
    Simulates s (x >>= f) (y >>= h) := by
  cases y with
  | ok a => exact (Session.run_bind_some hx f).trans (hf a rfl)
  | error ds => exact Session.run_bind_none hx f

theorem ite {c : Prop} [Decidable c] {x x' : Rule β} {y y' : Compiled β}
    (h : c → Simulates s x y) (h' : ¬ c → Simulates s x' y') :
    Simulates s (if c then x else x') (if c then y else y') := by
  by_cases hc : c
  · rw [if_pos hc, if_pos hc]
    exact h hc
  · rw [if_neg hc, if_neg hc]
    exact h' hc

theorem get {f : Session → Rule β} {y : Compiled β}
    (h : Simulates s (f s) y) : Simulates s (MonadState.get >>= f) y :=
  h

theorem expected {f : Option Ty → Rule β} {y : Compiled β}
    (h : Simulates s (f s.site.expected) y) :
    Simulates s (Rule.expected >>= f) y :=
  h

theorem declared {f : Option Ty → Rule β} {y : Compiled β}
    (h : Simulates s (f s.site.declared) y) :
    Simulates s (Rule.declared >>= f) y :=
  h

/-! ## Steps that record and go on -/

/-- A check that something is of a type, which gives up where it records. -/
theorem expectType {keys : List Nat} {ty found : Ty} :
    Simulates s (.expectType keys ty found)
      (if ty.accepts found then .ok ()
        else s.site.failAt keys (.mismatch ty found)) := by
  have hrun : s.run (.expectType keys ty found) =
      match s.checkType keys ty found with
      | (recorded, t) => t.run (if recorded then failure else return ()) :=
    s.run_bind _ _
  rw [Simulates, hrun, Session.checkType]
  by_cases h : ty.accepts found = true
  · rw [if_pos h, if_pos h]
    rfl
  · rw [if_neg h, if_neg h]
    rfl

/-- What comes after a check, where compilations have it in a branch. -/
theorem checked {keys : List Nat} {ty found : Ty} {f : Unit → Rule β}
    {y : Compiled β} (h : ty.accepts found = true → Simulates s (f ()) y) :
    Simulates s (Rule.expectType keys ty found >>= f)
      (if !ty.accepts found then s.site.failAt keys (.mismatch ty found)
        else y) := by
  have hbranch : (if !ty.accepts found then
        s.site.failAt keys (.mismatch ty found) else y) =
      (if ty.accepts found then .ok ()
        else s.site.failAt keys (.mismatch ty found)) >>= fun _ => y := by
    cases ty.accepts found <;> rfl
  rw [hbranch]
  refine expectType.bind_of_ok fun _ hok => h ?_
  cases haccepts : ty.accepts found with
  | true => rfl
  | false =>
      rw [haccepts] at hok
      cases hok

theorem parseWith {o : Operand} {position : Nat} {ty : Option Ty}
    {names : List (String × Expr)} {how : Option Narrowing} :
    Simulates s (o.part.parseWith position ty names how)
      (o.compile (s.site.child position ty names) how) := by
  -- What is taken over is all that the session of the operand has recorded.
  show (((s.child position ty names).absorbResult
      (o.compile (s.site.child position ty names) how)).1,
    s.absorb ((s.child position ty names).absorbResult
      (o.compile (s.site.child position ty names) how)).2) = _
  cases o.compile (s.site.child position ty names) how with
  | ok e =>
      show (some e, s.record []) = (some e, s)
      rw [Session.record_nil]
  | error ds => rfl

theorem parseAt {o : Operand} {position : Nat} {ty : Option Ty} :
    Simulates s (o.part.parseAt position ty)
      (o.compileAt s.site position ty) :=
  parseWith

theorem parseAll {ty : Option Ty} (args : List Operand) {i : Nat} :
    Simulates s (Part.parseAll ty i (args.map Operand.part))
      (Operand.compileAll s.site ty i args) := by
  induction args generalizing i with
  | nil => exact pure
  | cons o rest ih => exact parseAt.bind fun e => ih.bind fun es => pure

/-- Where the first rule gives up, the second one still runs at the same place,
with more recorded. -/
theorem together {x : Rule β} {y : Compiled β} {x' : Rule γ} {y' : Compiled γ}
    (h : Simulates s x y) (h' : ∀ ds, Simulates (s.record ds) x' y') :
    Simulates s (.together x x') (Operand.both y y') := by
  have hfirst : s.run x = s.absorbResult y := h
  have hnext (ds : List Diagnostic) :
      (s.record ds).run x' = (s.record ds).absorbResult y' := h' ds
  rw [Simulates, Rule.together, Session.run_bind, Session.run_outcome, hfirst]
  cases y with
  | ok a =>
      have hsame := hnext []
      rw [Session.record_nil] at hsame
      simp only [Session.absorbResult]
      rw [Session.run_bind, Session.run_outcome, hsame]
      cases y' <;> rfl
  | error ds =>
      simp only [Session.absorbResult]
      rw [Session.run_bind, Session.run_outcome, hnext]
      cases y' with
      | ok b => rfl
      | error es =>
          show (none, (s.record ds).record es) = (none, s.record (ds ++ es))
          rw [Session.record, Session.record, Session.record, List.append_assoc]

end Simulates

end Rule

end MapStyle
