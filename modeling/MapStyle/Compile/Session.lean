import MapStyle.Compile.Compiler

/-!
# Sessions

A session is a site together with the diagnostics recorded there so far. Operands and alternatives
have sessions of their own, which start without diagnostics; whoever opens one decides whether to
take over what was recorded in it.
-/

namespace MapStyle

/-- A site that collects diagnostics. -/
structure Session where
  compiler : Compiler
  site : Site
  diagnostics : List Diagnostic := []

namespace Session

def start (compiler : Compiler) (expected : Option Ty) : Session :=
  { compiler, site := { expected } }

def key (s : Session) : String :=
  Diagnostic.keyText s.site.path

def hasErrors (s : Session) : Bool :=
  !s.diagnostics.isEmpty

def record (s : Session) (ds : List Diagnostic) : Session :=
  { s with diagnostics := s.diagnostics ++ ds }

def report (s : Session) (keys : List Nat) (issue : Issue) : Session :=
  s.record [⟨s.site.path ++ keys, issue⟩]

/-- Records a mismatch of types at a descendant of the site, if there is one, and says whether. -/
def checkType (s : Session) (keys : List Nat) (expected found : Ty) : Bool × Session :=
  if expected.accepts found then (false, s) else (true, s.report keys (.mismatch expected found))

/-- A result as a session tells it: a tree with nothing recorded, or none and the diagnostics. -/
def absorbResult {β : Type} (s : Session) : Compiled β → Option β × Session
  | .ok a => (some a, s)
  | .error ds => (none, s.record ds)

def child (s : Session) (position : Nat) (expected : Option Ty) (names : List (String × Expr)) :
    Session :=
  { compiler := s.compiler, site := s.site.child position expected names }

/-- A session at the same place that expects nothing, for an alternative. -/
def fork (s : Session) : Session :=
  { compiler := s.compiler, site := { s.site with expected := none } }

def absorb (s other : Session) : Session :=
  s.record other.diagnostics

end Session

end MapStyle
