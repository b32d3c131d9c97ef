import MapStyle.Compile.Session

/-!
# Rules

Rules are what compiling does in a session. A rule gives a result or gives up, and either way it may
have recorded diagnostics; giving up and recording are two things, and nothing but the rules
themselves makes them go together.

An operand is parsed in a session of its own, whose diagnostics are taken over whatever comes of it.
-/

namespace MapStyle

/-- A step of compiling, with what it gives, if anything, and the session it leaves behind. -/
abbrev Rule (β : Type) := OptionT (StateM Session) β

namespace Session

/-- What comes of a rule in a session. -/
def run {β : Type} (s : Session) (x : Rule β) : Option β × Session :=
  StateT.run (OptionT.run x) s

end Session

namespace Rule

variable {β γ : Type}

def expected : Rule (Option Ty) := do
  return (← get).site.expected

/-- The expected type, unless it says nothing. -/
def declared : Rule (Option Ty) := do
  return (← get).site.declared

def report (keys : List Nat) (issue : Issue) : Rule Unit :=
  modify fun s => s.report keys issue

/-- Records a diagnostic at the site and gives up. -/
def error (issue : Issue) : Rule β := do
  report [] issue
  failure

/-- Records a diagnostic at a descendant of the site and gives up. -/
def errorAt (keys : List Nat) (issue : Issue) : Rule β := do
  report keys issue
  failure

/-- Records a mismatch of types, if there is one, and says whether. -/
def checkType (keys : List Nat) (expected found : Ty) : Rule Bool :=
  modifyGet fun s => s.checkType keys expected found

/-- Gives up where there is a mismatch of types. -/
def expectType (keys : List Nat) (expected found : Ty) : Rule Unit := do
  if ← checkType keys expected found then failure else return ()

/-- What a rule gives, also if that is nothing. -/
def outcome (x : Rule β) : Rule (Option β) :=
  OptionT.lift x.run

/-- Runs both rules, also if the first one gives up. -/
def together (x : Rule β) (y : Rule γ) : Rule (β × γ) := do
  let x ← x.outcome
  let y ← y.outcome
  match x, y with
  | some x, some y => return (x, y)
  | _, _ => failure

end Rule

/-- A document and the rule for it. -/
structure Part where
  raw : Json
  parse : Option Narrowing → Rule Expr

namespace Part

/-- Parses the operand at a position in a session of its own. -/
def parseWith (p : Part) (position : Nat) (expected : Option Ty) (names : List (String × Expr))
    (how : Option Narrowing) : Rule Expr := do
  let s ← get
  let (parsed, child) := (s.child position expected names).run (p.parse how)
  set (s.absorb child)
  OptionT.mk (return parsed)

def parseAt (p : Part) (position : Nat) (expected : Option Ty) : Rule Expr :=
  p.parseWith position expected [] none

/-- Parses operands from a position on, all against one expected type. -/
def parseAll (expected : Option Ty) : Nat → List Part → Rule (List Expr)
  | _, [] => return []
  | i, p :: rest => do
    let e ← p.parseAt i expected
    return e :: (← parseAll expected (i + 1) rest)

end Part

end MapStyle
