import MapStyle.Proofs.Compile.Assembly
import MapStyle.Proofs.Expr.Constant

/-!
# Where bound names come from

A reference carries the expression that its name is bound to. In a compiled tree
this is no expression from elsewhere: the name is bound by a binding around the
reference, and the expression is the last that the innermost such binding gives
it. `Scoped` says so relative to the names that are bound outside of the tree.

The analyses visit the nodes of a tree and do not follow references. They miss
nothing, since what a reference carries is visited where it is bound: in a
closed tree every part is a node (`Scoped.mem_nodes`).
-/

namespace MapStyle

namespace Expr

/-- Whether the references of a tree carry what the names are bound to, by the
bindings around them or by the scope. -/
inductive Scoped : Scope → Expr → Prop where
  | binding {scope : Scope} {names : List (String × Expr)} {body : Expr}
      (hnames : ∀ p ∈ names, Scoped scope p.2)
      (hbody : Scoped (names.reverse ++ scope) body) :
      Scoped scope (.binding names body)
  | reference {scope : Scope} {name : String} {bound : Expr}
      (h : scope.lookup name = some bound) :
      Scoped scope (.reference name bound)
  | plain {scope : Scope} {e : Expr} (hbinding : e.form? ≠ some .binding)
      (hreference : e.form? ≠ some .reference)
      (h : ∀ c ∈ e.children, Scoped scope c) : Scoped scope e

variable {scope : Scope} {e p : Expr}

theorem operands_eq_children (h : e.form? ≠ some .reference) :
    e.operands = e.children := by
  cases e with
  | reference => exact absurd rfl h
  | _ => rfl

theorem mem_of_lookup {name : String} (h : scope.lookup name = some e) :
    (name, e) ∈ scope := by
  obtain ⟨before, after, rfl, -⟩ := List.lookup_eq_some_iff.1 h
  exact List.mem_append_right before List.mem_cons_self

theorem mem_nodes_of_child {c : Expr} (hc : c ∈ e.children)
    (hp : p ∈ c.nodes) : p ∈ e.nodes := by
  rw [nodes_eq]
  exact List.mem_cons_of_mem e (List.mem_flatMap.2 ⟨c, hc, hp⟩)

theorem mem_operands_of_mem_children {c : Expr} (h : c ∈ e.children) :
    c ∈ e.operands := by
  cases e with
  | reference => cases h
  | _ => exact h

/-- The nodes of a tree are parts of it, closed or not. -/
theorem partOf_of_mem_nodes (h : p ∈ e.nodes) : p.PartOf e := by
  induction e using Expr.induction with
  | step e ih =>
      rw [nodes_eq] at h
      rcases List.mem_cons.1 h with rfl | h
      · exact .refl
      · obtain ⟨c, hc, hp⟩ := List.mem_flatMap.1 h
        have hc := mem_operands_of_mem_children hc
        exact .operand hc (ih c hc hp)

/-- A part of a scoped tree is one of its nodes, or part of something that is
bound outside. -/
theorem Scoped.mem_nodes_or (h : e.Scoped scope) (hp : p.PartOf e) :
    p ∈ e.nodes ∨ ∃ b ∈ scope, p.PartOf b.2 := by
  induction h with
  | @binding scope names body _ _ ihnames ihbody =>
      have hname {q : String × Expr} (hq : q ∈ names) (hp : p.PartOf q.2) :
          p ∈ (Expr.binding names body).nodes ∨ ∃ b ∈ scope, p.PartOf b.2 := by
        have hchild : q.2 ∈ (Expr.binding names body).children :=
          List.mem_append_left _ (List.mem_map_of_mem hq)
        exact (ihnames q hq hp).imp_left (mem_nodes_of_child hchild)
      cases hp with
      | refl => exact .inl (mem_nodes_self _)
      | operand hc hp =>
          rcases List.mem_append.1 hc with hc | hc
          · obtain ⟨q, hq, rfl⟩ := List.mem_map.1 hc
            exact hname hq hp
          · have hchild := List.mem_append_right (names.map Prod.snd) hc
            obtain rfl := List.mem_singleton.1 hc
            -- What the body has from the scope may come from this binding.
            rcases ihbody hp with hp | ⟨b, hb, hp⟩
            · exact .inl (mem_nodes_of_child hchild hp)
            · rcases List.mem_append.1 hb with hb | hb
              · exact hname (List.mem_reverse.1 hb) hp
              · exact .inr ⟨b, hb, hp⟩
  | reference h =>
      cases hp with
      | refl => exact .inl (mem_nodes_self _)
      | operand hc hp =>
          obtain rfl := List.mem_singleton.1 hc
          exact .inr ⟨_, mem_of_lookup h, hp⟩
  | plain _ hreference _ ih =>
      cases hp with
      | refl => exact .inl (mem_nodes_self _)
      | operand hc hp =>
          rw [operands_eq_children hreference] at hc
          exact (ih _ hc hp).imp_left (mem_nodes_of_child hc)

/-- The parts of a closed tree are its nodes. -/
theorem Scoped.mem_nodes (h : e.Scoped []) (hp : p.PartOf e) : p ∈ e.nodes :=
  (h.mem_nodes_or hp).resolve_right nofun

end Expr

namespace Compiler

open Compile

theorem scoped_hereditary (r : Registry) :
    Hereditary r fun _ scope e => e.Scoped scope where
  literal _ _ _ _ := .plain nofun nofun nofun
  assertion _ _ _ _ h :=
    .plain nofun nofun (List.forall_mem_singleton.2 h)
  coercion _ _ _ _ h :=
    .plain nofun nofun (List.forall_mem_singleton.2 h)
  application _ _ _ _ h _ := by
    cases h with
    | binding hnames hbody =>
        obtain ⟨_, -, hbody⟩ := hbody
        exact .binding (fun p hp => (hnames p hp).choose_spec.2) hbody
    | reference h => exact .reference h
    | plain hbinding hreference h =>
        exact .plain hbinding hreference fun c hc => (h c hc).choose_spec.2

/-- A document compiles to a tree that is scoped by the names of its site. -/
theorem scoped_of_compile {c : Compiler} {raw : Json} {s : Site}
    {how : Option Narrowing} {e : Expr} (h : c.compile raw s how = .ok e) :
    e.Scoped s.scope :=
  compile_inherits (scoped_hereditary c.registry) raw s how e h

end Compiler

end MapStyle
