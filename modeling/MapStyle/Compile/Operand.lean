import MapStyle.Compile.Diagnostic

/-!
# Operands and where they stand

Compiling an operand needs to know where it stands: its path, the names in scope and the type that
is expected. `Site` is that knowledge, and an `Operand` is a document together with its compilation
at any site, so that the grammar of a form can be written without knowing how operands compile.

The result of compiling is a tree or the diagnostics that explain why there is none. The rules
stop at the first operand that fails, except for those that use `both`.
-/

namespace MapStyle

/-- Bound names with what they are bound to, the innermost first. -/
abbrev Scope := List (String × Expr)

structure Site where
  path : List Nat := []
  scope : Scope := []
  expected : Option Ty := none

/-- How an expression whose type is wider than expected is narrowed. -/
inductive Narrowing where
  | assert
  | coerce
  /-- Not at all; whoever asked deals with the wider type. -/
  | omit
  deriving DecidableEq, Repr

abbrev Compiled (β : Type) := Except (List Diagnostic) β

namespace Site

def fail {β : Type} (s : Site) (issue : Issue) : Compiled β :=
  .error [⟨s.path, issue⟩]

def failAt {β : Type} (s : Site) (keys : List Nat) (issue : Issue) : Compiled β :=
  .error [⟨s.path ++ keys, issue⟩]

/-- The site of the operand at a position, with more names in scope. Later names hide earlier
ones. -/
def child (s : Site) (position : Nat) (expected : Option Ty) (names : List (String × Expr)) : Site :=
  ⟨s.path ++ [position], names.reverse ++ s.scope, expected⟩

/-- The expected type, unless it says nothing. -/
def declared (s : Site) : Option Ty :=
  s.expected.filter (· != .value)

end Site

/-- A document and its compilation at any site. -/
structure Operand where
  raw : Json
  compile : Site → Option Narrowing → Compiled Expr

namespace Operand

def compileAt (o : Operand) (s : Site) (position : Nat) (expected : Option Ty) : Compiled Expr :=
  o.compile (s.child position expected []) none

/-- Compiles operands from a position on, all against one expected type. -/
def compileAll (s : Site) (expected : Option Ty) : Nat → List Operand → Compiled (List Expr)
  | _, [] => return []
  | i, o :: rest => do
    let e ← o.compileAt s i expected
    return e :: (← compileAll s expected (i + 1) rest)

/-- Both results, or the diagnostics of both. -/
def both {β γ : Type} (x : Compiled β) (y : Compiled γ) : Compiled (β × γ) :=
  match x, y with
  | .ok x, .ok y => .ok (x, y)
  | .error ds, .ok _ => .error ds
  | .ok _, .error ds => .error ds
  | .error ds, .error es => .error (ds ++ es)

end Operand

end MapStyle
