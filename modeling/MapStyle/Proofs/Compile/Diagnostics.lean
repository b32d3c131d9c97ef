import MapStyle.Proofs.Compile.Places
import MapStyle.Proofs.Parse.Compiler

/-!
# Failures are explained

A document that does not compile leaves at least one diagnostic, and every
diagnostic points at the document or at something inside of it. That holds of
all runs of the compiler (`Compiler.compile_explained`); what callers see of it
is stated here.

For a session it settles what is recorded: nothing where a document compiles,
something where it does not, and never a change to what was recorded before.
Rules could do all of these. That the rules of the grammar do not is because
each of them does to a session what the compilation of its form gives
(`Compiler.parse_eq`), and that the compilation gives something is that its
failures are explained.

The keys of an expression that does not compile lead into its document, array
by array, and behind the last item of one only where an item is missing.
-/

namespace MapStyle

/-! ## Sessions -/

namespace Session

theorem absorbResult_eq_some {β : Type} {s : Session} {x : Compiled β} {a : β} :
    (s.absorbResult x).1 = some a ↔ x = .ok a := by
  cases x with
  | ok b => exact ⟨fun h => by cases h; rfl, fun h => by cases h; rfl⟩
  | error ds => exact ⟨nofun, nofun⟩

theorem absorbResult_fails_iff {β : Type} {s : Session} {x : Compiled β}
    {ds : List Diagnostic} :
    (s.absorbResult x).1 = none ∧
      (s.absorbResult x).2.diagnostics = s.diagnostics ++ ds ↔ x = .error ds := by
  cases x with
  | ok b => exact ⟨nofun, nofun⟩
  | error es =>
      rw [Except.error.injEq]
      exact ⟨fun h => List.append_cancel_left h.2, fun h => ⟨rfl, h ▸ rfl⟩⟩

/-- Taking the result of an explained run into a session records diagnostics
behind the earlier ones, and none exactly if there is a tree. -/
theorem absorbResult_records {β : Type} (s : Session) {raw : Json}
    {x : Compiled β} (hx : Explained s.site.path raw x) :
    ∃ new, (s.absorbResult x).2 = s.record new ∧
      (∀ d ∈ new, s.site.path <+: d.path) ∧
      ((s.absorbResult x).1.isSome = true ↔ new = []) ∧
      ((s.absorbResult x).1 = none ↔ new ≠ []) := by
  cases x with
  | ok e =>
      exact ⟨[], s.record_nil.symm, nofun, ⟨fun _ => rfl, fun _ => rfl⟩, nofun,
        absurd rfl⟩
  | error ds =>
      obtain ⟨hne, hplaces⟩ := hx ds rfl
      refine ⟨ds, rfl, fun d hd => ?_, ⟨nofun, fun h => absurd h hne⟩,
        fun _ => hne, fun _ => rfl⟩
      obtain ⟨keys, hpath, -⟩ := hplaces d hd
      exact ⟨keys, hpath.symm⟩

end Session

namespace StyleExpression

/-- Compiling in a session gives a tree exactly if it appends no diagnostic,
and none exactly if it appends one or more, whatever was recorded before, which
stays in front. So an expression fails to compile with at least one diagnostic,
those that the session has in the end, and one whose document compiles is not
lost to a diagnostic in its session. -/
theorem compile_fails_iff_recorded :
    (∀ (s : Session) (raw : Json) (how : Option Narrowing),
      let run := s.compileRoot raw how
      run = s.absorbResult (s.compiler.compile raw s.site how) ∧
      ∃ new, run.2.diagnostics = s.diagnostics ++ new ∧
        run.2.site = s.site ∧ run.2.compiler = s.compiler ∧
        (∀ d ∈ new, s.site.path <+: d.path) ∧
        (run.1.isSome = true ↔ new = []) ∧ (run.1 = none ↔ new ≠ [])) ∧
    ∀ (r : Registry) (spec : Option PropertySpecification) (raw : Json),
      let how := if spec.any (·.type == .string) then some .coerce else none
      let run := (Session.start { registry := r }
        (spec.map PropertySpecification.expectedType)).compileRoot raw how
      (∀ tree, run.1 = some tree ↔
        ∃ e, compile r spec raw = .ok e ∧ e.expression = tree) ∧
      (∀ ds, compile r spec raw = .error ds ↔
        run.1 = none ∧ run.2.diagnostics = ds ∧ ds ≠ []) := by
  refine ⟨fun s raw how => ⟨s.compileRoot_eq raw how, ?_⟩, fun r spec raw => ?_⟩
  · obtain ⟨new, hnew, hplaces, hsome, hnone⟩ :=
      s.absorbResult_records (s.compiler.compile_explained raw s.site how)
    rw [s.compileRoot_eq raw how, hnew]
    exact ⟨new, rfl, rfl, rfl, hplaces, hsome, hnone⟩
  · intro how run
    have hrun : run = Session.absorbResult _ (Compiler.compile { registry := r }
        raw { expected := spec.map PropertySpecification.expectedType } how) :=
      Session.compileRoot_eq _ raw how
    refine ⟨fun tree => ?_, fun ds => ?_⟩
    · rw [exists_compile_iff, hrun, Session.absorbResult_eq_some]
    · rw [compile_eq_error_iff, ← Session.absorbResult_fails_iff, ← hrun]
      constructor
      · rintro ⟨hnone, hds⟩
        refine ⟨hnone, hds, ?_⟩
        rw [hrun] at hnone hds
        exact (Compiler.compile_explained _ raw _ how ds
          (Session.absorbResult_fails_iff.1 ⟨hnone, hds⟩)).1
      · rintro ⟨hnone, hds, -⟩
        exact ⟨hnone, hds⟩

/-! ## Keys -/

/-- The key of a diagnostic lists positions in brackets, and each of them is
one in the array that those before it lead to. It is the position of an item,
unless it is the last of the key and the diagnostic is about an item that is
missing at the end of the array. -/
theorem key_leads_into_document {r : Registry}
    {spec : Option PropertySpecification} {raw : Json} {ds : List Diagnostic}
    (h : compile r spec raw = .error ds) :
    ∀ d ∈ ds,
      d.key = String.join (d.path.map fun i => "[" ++ toString i ++ "]") ∧
      ∀ before i after, d.path = before ++ i :: after →
        ∃ items, raw.at? before = some (.array items) ∧
          (i < items.length ∨
            i = items.length ∧ after = [] ∧ d.issue.Lacks items) := by
  intro d hd
  refine ⟨rfl, fun before i after hpath => ?_⟩
  obtain ⟨-, hplaces⟩ := Compiler.compile_explained { registry := r } raw
    { expected := spec.map PropertySpecification.expectedType } _ ds
    (compile_eq_error_iff.1 h)
  obtain ⟨keys, hkeys, hplace⟩ := hplaces d hd
  have hpath : keys = before ++ i :: after := hkeys.symm.trans hpath
  exact hplace.position hpath

/-- `["+", 1, ["interpolate", ["exponential"], ["zoom"], 0, 1]]`, where the base
of the curve is missing. -/
def baselessDocument : Json :=
  .array [.string "+", .number (.integer 1),
    .array [.string "interpolate", .array [.string "exponential"],
      .array [.string "zoom"], .number (.integer 0), .number (.integer 1)]]

theorem key_leads_into_document_behind :
    compile .standard none baselessDocument =
        .error [⟨[2, 1, 1], .exponentialBase⟩] ∧
      Diagnostic.key ⟨[2, 1, 1], .exponentialBase⟩ = "[2][1][1]" ∧
      ∃ items, baselessDocument.at? [2, 1] = some (.array items) ∧
        (1 < items.length ∨
          1 = items.length ∧ ([] : List Nat) = [] ∧
            Issue.exponentialBase.Lacks items) := by
  have hcompile : compile .standard none baselessDocument =
      .error [⟨[2, 1, 1], .exponentialBase⟩] := by rfl
  obtain ⟨hkey, hpositions⟩ :=
    key_leads_into_document hcompile _ (List.mem_singleton_self _)
  exact ⟨hcompile, hkey.trans (by rfl), hpositions [2, 1] 1 [] rfl⟩

end StyleExpression

end MapStyle
