import MapStyle.Proofs.Compile.Agreement
import MapStyle.Proofs.Compile.Labels
import MapStyle.Proofs.Compile.Selection

/-!
# What the operands of a form are read as

Bindings, conditionals, selections, steps and interpolations list operands in
turns, between others that stand alone at the front or at the end. The roles of
the operands can be told from the node that is made (`Expr.roles`), and where
one of these forms compiles, its operands are read in these roles, one after
the other and each of them once.

There is one exception. All loops but that of the bound names only start when
the number of operands has been looked at. The bound names are read up to the
last operand, whatever their number is: if the last name is followed by a single
operand, it is read as the value of the name and as the body.
-/

namespace MapStyle

/-- What an operand is to a node, together with what it is read as. -/
inductive Role where
  | name (name : String)
  | value (e : Expr)
  | body (e : Expr)
  | test (e : Expr)
  | input (e : Expr)
  | output (e : Expr)
  | fallback (e : Expr)
  | label (x : Float)
  | labels (ls : List Label)
  | descriptor (kind : Interpolation)

namespace Role

/-- The tree that an operand compiles to, if it is not read otherwise. -/
def tree? : Role → Option Expr
  | .value e | .body e | .test e | .input e | .output e | .fallback e => some e
  | .name _ | .label _ | .labels _ | .descriptor _ => none

variable {α β : Type}

/-- Two roles in turns. -/
def inTurns (first : α → Role) (second : β → Role) : List (α × β) → List Role
  | [] => []
  | (a, b) :: rest => first a :: second b :: inTurns first second rest

@[simp]
theorem length_inTurns (first : α → Role) (second : β → Role)
    (ps : List (α × β)) : (inTurns first second ps).length = 2 * ps.length := by
  induction ps with
  | nil => rfl
  | cons p ps ih =>
      rw [inTurns, List.length_cons, List.length_cons, ih, List.length_cons]
      omega

/-- Only the second ones have trees. -/
theorem trees_inTurns_right {first : α → Role} {second : Expr → Role}
    (hfirst : ∀ a, (first a).tree? = none)
    (hsecond : ∀ e, (second e).tree? = some e) (ps : List (α × Expr)) :
    (inTurns first second ps).filterMap tree? = ps.map Prod.snd := by
  induction ps with
  | nil => rfl
  | cons p ps ih =>
      rw [inTurns, List.filterMap_cons_none (hfirst p.1),
        List.filterMap_cons_some (hsecond p.2), ih]
      rfl

theorem trees_inTurns {first second : Expr → Role}
    (hfirst : ∀ e, (first e).tree? = some e)
    (hsecond : ∀ e, (second e).tree? = some e) (ps : List (Expr × Expr)) :
    (inTurns first second ps).filterMap tree? =
      ps.flatMap fun (a, b) => [a, b] := by
  induction ps with
  | nil => rfl
  | cons p ps ih =>
      rw [inTurns, List.filterMap_cons_some (hfirst p.1),
        List.filterMap_cons_some (hsecond p.2), ih]
      rfl

/-- How an operand at a position is read in a role. -/
inductive ReadFrom (s : Site) : Operand × ℕ → Role → Prop where
  | name {o : Operand} {i : ℕ} {n : String} (h : o.raw = .string n) :
      ReadFrom s (o, i) (.name n)
  | value {o : Operand} {i : ℕ} {e : Expr} (h : o.compileAt s i none = .ok e) :
      ReadFrom s (o, i) (.value e)
  | body {o : Operand} {i : ℕ} {e : Expr} {names : List (String × Expr)}
      (h : o.compile (s.child i s.expected names) none = .ok e) :
      ReadFrom s (o, i) (.body e)
  | test {o : Operand} {i : ℕ} {e : Expr}
      (h : o.compileAt s i (some .boolean) = .ok e) :
      ReadFrom s (o, i) (.test e)
  | input {o : Operand} {i : ℕ} {e : Expr} {ty : Ty}
      (h : o.compileAt s i (some ty) = .ok e) : ReadFrom s (o, i) (.input e)
  | output {o : Operand} {i : ℕ} {e : Expr} {ty : Option Ty}
      (h : o.compileAt s i ty = .ok e) : ReadFrom s (o, i) (.output e)
  | fallback {o : Operand} {i : ℕ} {e : Expr} {ty : Option Ty}
      (h : o.compileAt s i ty = .ok e) : ReadFrom s (o, i) (.fallback e)
  | label {o : Operand} {i : ℕ} {x : Float} (h : o.raw.number? = some x) :
      ReadFrom s (o, i) (.label x)
  | labels {o : Operand} {i : ℕ} {ls : List Label}
      (h : List.Forall₂ Label.Reads (Compile.labelDocuments o.raw) ls) :
      ReadFrom s (o, i) (.labels ls)
  | descriptor {o : Operand} {i : ℕ} {kind : Interpolation}
      (h : Compile.interpolation s o.raw = .ok kind) :
      ReadFrom s (o, i) (.descriptor kind)

end Role

namespace SpecialForm

/-- The forms that list operands in turns. -/
def strided : List SpecialForm :=
  [.binding, .conditional, .selection, .step, .interpolate]

/-- Whether there may be this many operands: pairs and one that stands alone, or
pairs and two of these. -/
def Fits : SpecialForm → ℕ → Prop
  | .binding, n | .conditional, n => 3 ≤ n ∧ n % 2 = 1
  | .selection, n | .step, n | .interpolate, n => 4 ≤ n ∧ n % 2 = 0
  | _, _ => False

end SpecialForm

namespace Expr

/-- The roles of the operands that a node is made of, in the order in which they
are listed. -/
def roles : Expr → List Role
  | .binding names body => Role.inTurns .name .value names ++ [.body body]
  | .conditional _ branches otherwise =>
      Role.inTurns .test .output branches ++ [.fallback otherwise]
  | .selection _ _ input branches otherwise =>
      .input input :: Role.inTurns .labels .output branches ++
        [.fallback otherwise]
  -- The label of the first stop is not written.
  | .step _ input stops =>
      .input input :: (Role.inTurns .label .output stops).drop 1
  | .interpolate _ _ kind input stops =>
      .descriptor kind :: .input input :: Role.inTurns .label .output stops
  | _ => []

/-- The trees among the roles are all that a node has. -/
theorem trees_roles {f : SpecialForm} {e : Expr} (hf : f ∈ SpecialForm.strided)
    (he : e.form? = some f) : e.roles.filterMap Role.tree? = e.children := by
  cases e with
  | binding names body =>
      rw [roles, List.filterMap_append, Role.trees_inTurns_right
        (fun _ => rfl) fun _ => rfl]
      rfl
  | conditional ty branches otherwise =>
      rw [roles, List.filterMap_append, Role.trees_inTurns
        (fun _ => rfl) fun _ => rfl]
      rfl
  | selection ty inputTy input branches otherwise =>
      rw [roles, List.filterMap_append]
      exact congrArg (input :: · ++ [otherwise])
        (Role.trees_inTurns_right (fun _ => rfl) (fun _ => rfl) branches)
  | step ty input stops =>
      cases stops with
      | nil => rfl
      | cons first stops =>
          exact congrArg (input :: first.2 :: ·)
            (Role.trees_inTurns_right (fun _ => rfl) (fun _ => rfl) stops)
  | interpolate ty space kind input stops =>
      exact congrArg (input :: ·)
        (Role.trees_inTurns_right (fun _ => rfl) (fun _ => rfl) stops)
  | compound => cases he
  | _ =>
      cases he
      simp [SpecialForm.strided] at hf

end Expr

namespace Compile

open Role (ReadFrom inTurns)

variable {s : Site} {os args : List Operand}

/-! ## Loops -/

theorem branches_roles (os : List Operand) (i : ℕ) (ty : Option Ty) :
    Ensures (fun p => List.Forall₂ (ReadFrom s) (os.zipIdx i)
        (inTurns .test .output p.1 ++ [.fallback p.2.1]))
      (branches s i ty os) := by
  match os with
  | [] => exact .fail
  | [o] =>
      refine .bind output_compiledFrom ?_
      rintro p ⟨⟨_, hp⟩, -⟩
      exact .pure (.cons (.fallback hp) .nil)
  | x :: o :: os =>
      intro p hp
      obtain ⟨test, htest, hp⟩ := ok_of_bind hp
      obtain ⟨⟨e, ty'⟩, he, hp⟩ := ok_of_bind hp
      obtain ⟨q, hq, hp⟩ := ok_of_bind hp
      obtain rfl := ok_of_pure hp
      obtain ⟨⟨_, he⟩, -⟩ := output_compiledFrom _ he
      exact .cons (.test htest) (.cons (.output he)
        (branches_roles os (i + 2) _ q hq))

theorem stops_roles {name : String} (os : List Operand)
    (heven : os.length % 2 = 0) (i : ℕ) (previous : Option Float)
    (ty : Option Ty) :
    Ensures (fun p => List.Forall₂ (ReadFrom s) (os.zipIdx i)
        (inTurns .label .output p.1))
      (stops name s i previous ty os) := by
  match os with
  | [] => exact .pure .nil
  | [o] => cases heven
  | l :: o :: os =>
      intro p hp
      obtain ⟨x, hx, hp⟩ := ok_of_bind hp
      obtain ⟨e, he, hp⟩ := ok_of_bind hp
      obtain ⟨q, hq, hp⟩ := ok_of_bind hp
      obtain rfl := ok_of_pure hp
      exact .cons (.label (number?_of_stopLabel hx)) (.cons (.output he)
        (stops_roles os (Nat.add_mod_right _ 2 ▸ heven) (i + 2) _ _ q hq))

/-- The last operand of a selection is left over. -/
theorem labelled_roles {os : List Operand} {i : ℕ} {seen : List Label}
    {inputTy ty : Option Ty} (hty : ∀ t ∈ inputTy, ∃ l : Label, l.type = t)
    {p : List (List Label × Expr) × Option Ty × Option Ty × ℕ × Operand}
    (h : labelled s i seen inputTy ty os = .ok p) :
    ∃ front, os.zipIdx i = front ++ [(p.2.2.2.2, p.2.2.2.1)] ∧
      List.Forall₂ (ReadFrom s) front (inTurns .labels .output p.1) := by
  match os with
  | [] => cases h
  | [o] =>
      obtain rfl := ok_of_pure h
      exact ⟨[], rfl, .nil⟩
  | x :: o :: os =>
      obtain ⟨-, ⟨ls, inputTy'⟩, hls, e, he, q, hq, rfl⟩ := labelled_pair.1 h
      obtain ⟨hreads, -, -, hty'⟩ := labels_read hty _ _ hls
      obtain ⟨front, hfront, hroles⟩ := labelled_roles hty' hq
      refine ⟨(x, i) :: (o, i + 1) :: front, ?_, ?_⟩
      · rw [List.zipIdx_cons, List.zipIdx_cons, hfront]
        rfl
      · exact .cons (.labels hreads) (.cons (.output he) hroles)

theorem boundName_eq {i : ℕ} {raw : Json} {name : String}
    (h : boundName s i raw = .ok name) : raw = .string name := by
  unfold boundName at h
  split at h
  · split at h
    · rw [ok_of_pure h]
    · cases h
  · cases h

/-- The body is left over, or it is the value of the last name as well. -/
theorem boundNames_roles (os : List Operand) (i : ℕ) :
    Ensures (fun p => ∃ front,
        List.Forall₂ (ReadFrom s) front (inTurns .name .value p.1) ∧
        (os.zipIdx i = front ++ [(p.2.2, p.2.1)] ∨
          os.zipIdx i = front ∧ front.getLast? = some (p.2.2, p.2.1)))
      (boundNames s i os) := by
  match os with
  | [] => exact .fail
  | [body] => exact .pure ⟨[], .nil, .inl rfl⟩
  | [name, value] =>
      intro p hp
      obtain ⟨n, hn, hp⟩ := ok_of_bind hp
      obtain ⟨e, he, hp⟩ := ok_of_bind hp
      obtain rfl := ok_of_pure hp
      exact ⟨[(name, i), (value, i + 1)], .cons (.name (boundName_eq hn))
        (.cons (.value he) .nil), .inr ⟨rfl, rfl⟩⟩
  | name :: value :: next :: rest =>
      intro p hp
      obtain ⟨n, hn, hp⟩ := ok_of_bind hp
      obtain ⟨e, he, hp⟩ := ok_of_bind hp
      obtain ⟨q, hq, hp⟩ := ok_of_bind hp
      obtain rfl := ok_of_pure hp
      obtain ⟨front, hroles, hfront⟩ :=
        boundNames_roles (next :: rest) (i + 2) q hq
      refine ⟨(name, i) :: (value, i + 1) :: front,
        .cons (.name (boundName_eq hn)) (.cons (.value he) hroles), ?_⟩
      rw [List.zipIdx_cons, List.zipIdx_cons]
      rcases hfront with hfront | ⟨hfront, hlast⟩
      · left
        rw [hfront]
        rfl
      · right
        refine ⟨by rw [hfront], ?_⟩
        rw [List.getLast?_cons, List.getLast?_cons, hlast]
        rfl

/-! ## Forms -/

/-- What is read of the operands of a form for a node: each of them in its role
and no other one, unless the last operand of a binding is its body besides. -/
def InRoles (f : SpecialForm) (s : Site) (args : List Operand) (node : Expr) :
    Prop :=
  (f.Fits args.length ∧
      List.Forall₂ (ReadFrom s) (args.zipIdx 1) node.roles) ∨
    (f = .binding ∧ 4 ≤ args.length ∧ args.length % 2 = 0 ∧
      ∃ last, args.getLast? = some last ∧ List.Forall₂ (ReadFrom s)
        (args.zipIdx 1 ++ [(last, args.length)]) node.roles)

theorem binding_inRoles :
    Ensures (InRoles .binding s args) (binding s args) := by
  unfold binding
  split
  · exact .fail
  · next hleast =>
      intro e h
      obtain ⟨⟨names, position, body⟩, hnames, h⟩ := ok_of_bind h
      obtain ⟨inner, hinner, h⟩ := ok_of_bind h
      obtain rfl := ok_of_pure h
      obtain ⟨front, hroles, hfront⟩ := boundNames_roles args 1 _ hnames
      have hbody : ReadFrom s (body, position) (.body inner) := .body hinner
      have hall : List.Forall₂ (ReadFrom s) (front ++ [(body, position)])
          (Expr.binding names inner).roles :=
        List.rel_append hroles (.cons hbody .nil)
      have hlength := hroles.length_eq
      rw [Role.length_inTurns] at hlength
      rcases hfront with hfront | ⟨hfront, hlast⟩
      · have hcount := congrArg List.length hfront
        rw [List.length_zipIdx, List.length_append, List.length_singleton]
          at hcount
        exact .inl ⟨⟨by omega, by omega⟩, hfront ▸ hall⟩
      · have hcount := congrArg List.length hfront
        rw [List.length_zipIdx] at hcount
        obtain ⟨hargs, rfl⟩ : args.getLast? = some body ∧
            position = args.length := by
          rw [← hfront, List.getLast?_eq_getElem?, List.length_zipIdx,
            List.getElem?_zipIdx, Option.map_eq_some_iff] at hlast
          obtain ⟨_, hargs, heq⟩ := hlast
          obtain ⟨rfl, rfl⟩ := Prod.mk.inj heq
          exact ⟨List.getLast?_eq_getElem?.trans hargs, by omega⟩
        refine .inr ⟨rfl, by omega, by omega, body, hargs, ?_⟩
        rw [hfront]
        exact hall

theorem conditional_inRoles :
    Ensures (InRoles .conditional s args) (conditional s args) := by
  unfold conditional
  split
  · exact .fail
  · next hleast =>
      split
      · exact .fail
      · next hodd =>
          refine .bind (branches_roles args 1 _) fun p hp => .pure (.inl ?_)
          rw [beq_iff_eq] at hodd
          exact ⟨⟨by omega, by omega⟩, hp⟩

theorem selection_inRoles :
    Ensures (InRoles .selection s args) (selection s args) := by
  unfold selection
  split
  · exact .fail
  · next hleast =>
      split
      · exact .fail
      · next heven =>
          rw [beq_iff_eq] at heven
          split
          · exact .fail
          · next input rest =>
              intro e h
              obtain ⟨p, hp, h⟩ := ok_of_bind h
              obtain ⟨i, hi, h⟩ := ok_of_bind h
              obtain ⟨⟨last, ty⟩, hlast, h⟩ := ok_of_bind h
              simp only at h
              split at h
              · cases h
              · obtain rfl := ok_of_pure h
                have hnone (t : Ty) (ht : t ∈ (none : Option Ty)) :
                    ∃ l : Label, l.type = t := absurd ht (Option.not_mem_none t)
                obtain ⟨front, hfront, hroles⟩ := labelled_roles hnone hp
                obtain ⟨⟨_, hlast⟩, -⟩ := output_compiledFrom _ hlast
                refine .inl ⟨⟨by omega, by omega⟩, ?_⟩
                rw [List.zipIdx_cons, hfront]
                exact .cons (.input hi)
                  (List.rel_append hroles (.cons (.fallback hlast) .nil))

theorem step_inRoles : Ensures (InRoles .step s args) (step s args) := by
  intro e h
  obtain ⟨_, hpairs, h⟩ := ok_of_bind h
  obtain ⟨hleast, heven⟩ := expectPairs_ok hpairs
  match args with
  | [] | [_] => cases h
  | input :: first :: rest =>
      obtain ⟨i, hi, h⟩ := ok_of_bind h
      obtain ⟨e₁, he₁, h⟩ := ok_of_bind h
      obtain ⟨p, hp, h⟩ := ok_of_bind h
      obtain rfl := ok_of_pure h
      have hrest := stops_roles rest (Nat.add_mod_right _ 2 ▸ heven) 3 _ _ p hp
      exact .inl ⟨⟨hleast, heven⟩,
        .cons (.input hi) (.cons (.output he₁) hrest)⟩

theorem interpolate_inRoles (name : String) :
    Ensures (InRoles .interpolate s args) (interpolate name s args) := by
  match args with
  | [] => exact .failAt
  | [kind] =>
      intro e h
      obtain ⟨_, -, h⟩ := ok_of_bind h
      obtain ⟨_, hpairs, -⟩ := ok_of_bind h
      cases (expectPairs_ok hpairs).2
  | kind :: input :: rest =>
      intro e h
      obtain ⟨k, hk, h⟩ := ok_of_bind h
      obtain ⟨_, hpairs, h⟩ := ok_of_bind h
      obtain ⟨hleast, heven⟩ := expectPairs_ok hpairs
      obtain ⟨i, hi, h⟩ := ok_of_bind h
      obtain ⟨p, hp, h⟩ := ok_of_bind h
      have hrest := stops_roles rest (Nat.add_mod_right _ 2 ▸ heven) 3 _ _ p hp
      simp only at h
      split at h
      · obtain rfl := ok_of_pure h
        exact .inl ⟨⟨hleast, heven⟩,
          .cons (.descriptor hk) (.cons (.input hi) hrest)⟩
      · cases h

theorem form_inRoles {f : SpecialForm} (hf : f ∈ SpecialForm.strided)
    (name : String) : Ensures (InRoles f s args) (form f name s args) := by
  simp only [SpecialForm.strided, List.mem_cons, List.not_mem_nil,
    or_false] at hf
  rcases hf with rfl | rfl | rfl | rfl | rfl
  · exact binding_inRoles
  · exact conditional_inRoles
  · exact selection_inRoles
  · exact step_inRoles
  · exact interpolate_inRoles name

end Compile

namespace Compiler

/-- A form that lists operands in turns compiles only if their number fits, and
then reads each of them once, in its role. A binding compiles as well if the
number is even, with its last operand read as a value and as the body. -/
theorem operands_in_roles {c : Compiler} {name : String} {f : SpecialForm}
    (hlookup : c.registry.lookup name = some (.special name f))
    (hf : f ∈ SpecialForm.strided) {raws : List Json} {s : Site}
    {how : Option Narrowing} {e : Expr}
    (h : c.compile (.array (.string name :: raws)) s how = .ok e) :
    ∃ node, Compile.finish c.folding s how node = .ok e ∧
      node.form? = some f ∧
      node.roles.filterMap Role.tree? = node.children ∧
      Compile.InRoles f s (c.operands raws) node := by
  rw [compile_form c hlookup] at h
  obtain ⟨node, hnode, he⟩ := ok_of_bind h
  obtain ⟨hform, -⟩ := Compile.form_assembled f name node hnode
  exact ⟨node, he, hform, Expr.trees_roles hf hform,
    Compile.form_inRoles hf name node hnode⟩

/-- The operands of `["match", ["get", "x"], ["a", "b"], 1, 2]`. -/
def selectionOperands : List Json :=
  [.array [.string "get", .string "x"],
    .array [.string "a", .string "b"], .number (.integer 1),
    .number (.integer 2)]

def readProperty (name : String) : Expr :=
  .compound "get" .value .property false [.literal .string (.string name)]

def selectionTree : Expr :=
  .selection .number .string (readProperty "x")
    [([.text "a", .text "b"], Expr.ofJson (.number (.integer 1)))]
    (Expr.ofJson (.number (.integer 2)))

set_option maxRecDepth 4000 in
theorem operands_in_roles_selection :
    Registry.standard.lookup "match" = some (.special "match" .selection) ∧
      .selection ∈ SpecialForm.strided ∧
      compile { registry := .standard }
        (.array (.string "match" :: selectionOperands)) {} none =
          .ok selectionTree ∧
      ∃ node, Compile.finish true {} none node = .ok selectionTree ∧
        node.form? = some .selection ∧
        node.roles.filterMap Role.tree? = node.children ∧
        Compile.InRoles .selection {}
          (operands { registry := .standard } selectionOperands) node := by
  have hlookup : Registry.standard.lookup "match" =
      some (.special "match" .selection) := by rfl
  have hstrided : SpecialForm.selection ∈ SpecialForm.strided := by decide
  have hcompile : compile { registry := .standard }
      (.array (.string "match" :: selectionOperands)) {} none =
        .ok selectionTree := by rfl
  exact ⟨hlookup, hstrided, hcompile,
    operands_in_roles hlookup hstrided hcompile⟩

/-- The operands of `["let", "a", ["get", "x"], "b", ["get", "y"]]`, which end
with the value of a name. -/
def bindingOperands : List Json :=
  [.string "a", .array [.string "get", .string "x"], .string "b",
    .array [.string "get", .string "y"]]

set_option maxRecDepth 4000 in
theorem last_operand_in_two_roles :
    bindingOperands.length = 4 ∧ ¬ SpecialForm.binding.Fits 4 ∧
      ∃ e, compile { registry := .standard }
          (.array (.string "let" :: bindingOperands)) {} none = .ok e ∧
        e.roles = [.name "a", .value (readProperty "x"), .name "b",
          .value (readProperty "y"), .body (readProperty "y")] := by
  refine ⟨rfl, ?_, .binding [("a", readProperty "x"), ("b", readProperty "y")]
    (readProperty "y"), rfl, rfl⟩
  rintro ⟨-, hodd⟩
  cases hodd

end Compiler

end MapStyle
