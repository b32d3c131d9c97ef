import MapStyle.Proofs.Compile.Documents
import MapStyle.Proofs.Compile.Outputs

/-!
# Outputs that agree in type

A conditional, a selection and a step list outputs, with tests or labels between
them. The outputs are compiled one after the other against one type, which the
first of them sets if it is open (`Agree`), and what stands between them has no
part in that.

This is stated by comparing two lists of operands that are the same apart from
the outputs (`Reworked`): if a form compiles with the one list, it compiles with
the other just if the outputs of that one agree in type (`form_agree`). The node
that it makes has the outputs in their order (`form_outputs`).
-/

namespace MapStyle

/-- The position from which the operands of a form are tests or labels in turns
with outputs, up to an output that may stand last on its own. In front of the
first output of a step is its input. -/
def SpecialForm.outputsFrom? : SpecialForm → Option Nat
  | .conditional | .step => some 1
  | .selection => some 2
  | _ => none

/-- Whether an output stands at position `i`, where tests or labels and outputs
are in turns from `start` on and end before `stop`. -/
def IsOutput (start stop i : Nat) : Prop :=
  start ≤ i ∧ i < stop ∧ ((i - start) % 2 = 1 ∨ i + 1 = stop)

instance (start stop i : Nat) : Decidable (IsOutput start stop i) :=
  inferInstanceAs (Decidable (_ ∧ _ ∧ _))

namespace Compile

variable {α β : Type} {s : Site}

/-! ## Runs that succeed -/

def Succeeds (x : Compiled α) : Prop :=
  ∃ a, x = .ok a

theorem succeeds_pure (a : α) : Succeeds (pure a : Compiled α) :=
  ⟨a, rfl⟩

theorem succeeds_bind {x : Compiled α} {f : α → Compiled β} :
    Succeeds (x >>= f) ↔ ∃ a, x = .ok a ∧ Succeeds (f a) := by
  constructor
  · rintro ⟨b, hb⟩
    obtain ⟨a, ha, hb⟩ := ok_of_bind hb
    exact ⟨a, ha, b, hb⟩
  · rintro ⟨a, rfl, h⟩
    exact h

theorem not_succeeds_fail {issue : Issue} :
    ¬ Succeeds (s.fail issue : Compiled α) := nofun

theorem not_succeeds_failAt {keys : List Nat} {issue : Issue} :
    ¬ Succeeds (s.failAt keys issue : Compiled α) := nofun

/-! ## Outputs -/

/-- The outputs among operands from a position on, each with its own. -/
def outputs : Nat → List Operand → List (Nat × Operand)
  | _, [] => []
  | i, [o] => [(i, o)]
  | i, _ :: o :: rest => (i + 1, o) :: outputs (i + 2) rest

theorem mem_outputs {i j : Nat} {o : Operand} {os : List Operand} :
    (j, o) ∈ outputs i os ↔
      IsOutput i (i + os.length) j ∧ os[j - i]? = some o := by
  fun_induction outputs i os with
  | case1 i => simp
  | case2 i o' =>
      simp only [List.mem_singleton, Prod.mk.injEq, List.length_singleton]
      constructor
      · rintro ⟨rfl, rfl⟩
        refine ⟨⟨by omega, by omega, .inr rfl⟩, ?_⟩
        rw [Nat.sub_self]
        rfl
      · rintro ⟨⟨hle, hlt, -⟩, ho⟩
        obtain rfl : j = i := by omega
        rw [Nat.sub_self] at ho
        exact ⟨rfl, (Option.some.inj ho).symm⟩
  | case3 i x o' rest ih =>
      rw [List.mem_cons, ih, Prod.mk.injEq]
      simp only [List.length_cons, IsOutput]
      constructor
      · rintro (⟨rfl, rfl⟩ | ⟨⟨hle, hlt, hturn⟩, ho⟩)
        · refine ⟨⟨by omega, by omega, .inl (by omega)⟩, ?_⟩
          rw [Nat.add_sub_cancel_left]
          rfl
        · refine ⟨⟨by omega, by omega, by omega⟩, ?_⟩
          obtain ⟨k, rfl⟩ := Nat.exists_eq_add_of_le hle
          rw [Nat.add_sub_cancel_left] at ho
          rw [show i + 2 + k - i = k + 2 by omega]
          exact ho
      · rintro ⟨⟨hle, hlt, hturn⟩, ho⟩
        obtain ⟨k, rfl⟩ := Nat.exists_eq_add_of_le hle
        rw [Nat.add_sub_cancel_left] at ho
        match k with
        | 0 => exact absurd hturn (by omega)
        | 1 => exact .inl ⟨rfl, (Option.some.inj ho).symm⟩
        | k + 2 =>
            refine .inr ⟨⟨by omega, by omega, by omega⟩, ?_⟩
            rw [show i + (k + 2) - (i + 2) = k by omega]
            exact ho

/-- Whether the outputs compile in order, against the type of those before. -/
def Agree (s : Site) : Option Ty → List (Nat × Operand) → Prop
  | _, [] => True
  | ty, (i, o) :: rest => ∃ e, o.compileAt s i ty = .ok e ∧
      Agree s (some (ty.getD e.type)) rest

/-- Outputs agree in a type if each compiles against it. -/
theorem agree_some {t : Ty} {ps : List (Nat × Operand)} :
    Agree s (some t) ps ↔
      ∀ p ∈ ps, Succeeds (p.2.compileAt s p.1 (some t)) := by
  induction ps with
  | nil => exact ⟨fun _ => nofun, fun _ => trivial⟩
  | cons p ps ih =>
      rw [List.forall_mem_cons, ← ih]
      exact ⟨fun ⟨e, he, h⟩ => ⟨⟨e, he⟩, h⟩, fun ⟨⟨e, he⟩, h⟩ => ⟨e, he, h⟩⟩

/-! ## Loops over tests and outputs -/

/-- Operands that are the same, apart from the outputs. -/
inductive Reworked : List Operand → List Operand → Prop where
  | nil : Reworked [] []
  | last (o o' : Operand) : Reworked [o] [o']
  | pair (x o o' : Operand) {os os' : List Operand} (h : Reworked os os') :
      Reworked (x :: o :: os) (x :: o' :: os')

theorem Reworked.refl : ∀ os, Reworked os os
  | [] => .nil
  | [o] => .last o o
  | x :: o :: os => .pair x o o (refl os)

theorem Reworked.set {k : Nat} {o : Operand} :
    ∀ {os : List Operand}, IsOutput 0 os.length k → Reworked os (os.set k o)
  | [], ⟨_, hlt, _⟩ => absurd hlt (Nat.not_lt_zero k)
  | [o'], ⟨_, hlt, _⟩ => by
      obtain rfl : k = 0 := Nat.lt_one_iff.1 hlt
      exact .last o' o
  | x :: o' :: os, ⟨_, hlt, hturn⟩ => by
      simp only [List.length_cons] at hlt hturn
      match k with
      | 0 => exact absurd hturn (by omega)
      | 1 => exact .pair x o' o (.refl os)
      | k + 2 =>
          have hk : IsOutput 0 os.length k :=
            ⟨Nat.zero_le k, by omega, by omega⟩
          exact .pair x o' o' (.set hk)

variable {os os' : List Operand}

theorem Reworked.length_eq (h : Reworked os os') : os'.length = os.length := by
  induction h with
  | nil | last => rfl
  | pair x o o' _ ih => simp only [List.length_cons, ih]

theorem succeeds_output {i : Nat} {ty : Option Ty} {o : Operand}
    {f : Expr × Ty → Compiled α} : Succeeds (output s i ty o >>= f) ↔
      ∃ e, o.compileAt s i ty = .ok e ∧ Succeeds (f (e, ty.getD e.type)) := by
  rw [output, bind_assoc, succeeds_bind]
  rfl

theorem branches_agree (h : Reworked os os') (i : Nat) {ty : Option Ty}
    (hok : Succeeds (branches s i ty os)) (ty' : Option Ty) :
    Succeeds (branches s i ty' os') ↔ Agree s ty' (outputs i os') := by
  induction h generalizing i ty ty' with
  | nil => exact absurd hok not_succeeds_fail
  | last o o' =>
      refine succeeds_output.trans (exists_congr fun e => ?_)
      exact and_congr_right fun _ =>
        ⟨fun _ => trivial, fun _ => succeeds_pure _⟩
  | pair x o o' _ ih =>
      obtain ⟨test, htest, hok⟩ := succeeds_bind.1 hok
      obtain ⟨e, he, hok⟩ := succeeds_output.1 hok
      obtain ⟨p, hp, -⟩ := succeeds_bind.1 hok
      constructor
      · intro hok'
        obtain ⟨test', htest', hok'⟩ := succeeds_bind.1 hok'
        obtain ⟨e', he', hok'⟩ := succeeds_output.1 hok'
        obtain ⟨p', hp', -⟩ := succeeds_bind.1 hok'
        exact ⟨e', he', (ih (i + 2) ⟨p, hp⟩ _).1 ⟨p', hp'⟩⟩
      · rintro ⟨e', he', hagree⟩
        obtain ⟨p', hp'⟩ := (ih (i + 2) ⟨p, hp⟩ _).2 hagree
        refine succeeds_bind.2 ⟨test, htest, succeeds_output.2 ⟨e', he', ?_⟩⟩
        exact succeeds_bind.2 ⟨p', hp', succeeds_pure _⟩

/-- A turn of the loop over labels and outputs. -/
theorem labelled_pair {i : Nat} {seen : List Label} {inputTy ty : Option Ty}
    {x o : Operand} {p : List (List Label × Expr) × Option Ty × Option Ty ×
      Nat × Operand} :
    labelled s i seen inputTy ty (x :: o :: os) = .ok p ↔
      (labelDocuments x.raw).isEmpty = false ∧
      ∃ ls, labels s i seen inputTy (labelDocuments x.raw) = .ok ls ∧
      ∃ e, o.compileAt s (i + 1) ty = .ok e ∧
      ∃ q, labelled s (i + 2) (ls.1 ++ seen) ls.2 (some (ty.getD e.type)) os =
        .ok q ∧ p = ((ls.1, e) :: q.1, q.2) := by
  rw [labelled]
  simp only
  constructor
  · intro h
    split at h
    · cases h
    · next hempty =>
        obtain ⟨ls, hls, h⟩ := ok_of_bind h
        obtain ⟨_, hout, h⟩ := ok_of_bind h
        obtain ⟨e, he, hout⟩ := ok_of_bind hout
        obtain rfl := ok_of_pure hout
        obtain ⟨q, hq, h⟩ := ok_of_bind h
        obtain rfl := ok_of_pure h
        exact ⟨Bool.eq_false_iff.2 hempty, ls, hls, e, he, q, hq, rfl⟩
  · rintro ⟨hempty, ls, hls, e, he, q, hq, rfl⟩
    rw [hempty, hls, output, he]
    show labelled s (i + 2) _ ls.2 _ os >>= _ = _
    rw [hq]
    rfl

/-- The labels decide what type they are of. -/
theorem labelled_inputTy (h : Reworked os os') (i : Nat) {seen : List Label}
    {inputTy ty ty' : Option Ty} {p p' : List (List Label × Expr) × Option Ty ×
      Option Ty × Nat × Operand}
    (hok : labelled s i seen inputTy ty os = .ok p)
    (hok' : labelled s i seen inputTy ty' os' = .ok p') : p'.2.1 = p.2.1 := by
  induction h generalizing i seen inputTy ty ty' p p' with
  | nil => cases hok
  | last o o' =>
      obtain rfl := ok_of_pure hok
      obtain rfl := ok_of_pure hok'
      rfl
  | pair x o o' _ ih =>
      obtain ⟨-, ls, hls, e, -, q, hq, rfl⟩ := labelled_pair.1 hok
      obtain ⟨-, ls', hls', e', -, q', hq', rfl⟩ := labelled_pair.1 hok'
      obtain rfl := Except.ok.inj (hls.symm.trans hls')
      have hrest : q'.2.1 = q.2.1 := ih (i + 2) hq hq'
      exact hrest

/-- The last output of a selection is compiled at the position and against the
type that the loop over the others ends with. -/
theorem labelled_agree (h : Reworked os os') (i : Nat) {seen : List Label}
    {inputTy ty : Option Ty}
    (hok : Succeeds (labelled s i seen inputTy ty os)) (ty' : Option Ty) :
    (∃ p, labelled s i seen inputTy ty' os' = .ok p ∧
      Succeeds (p.2.2.2.2.compileAt s p.2.2.2.1 p.2.2.1)) ↔
    Agree s ty' (outputs i os') := by
  induction h generalizing i seen inputTy ty ty' with
  | nil => exact absurd hok not_succeeds_fail
  | last o o' =>
      constructor
      · rintro ⟨p, hp, e, he⟩
        obtain rfl := ok_of_pure hp
        exact ⟨e, he, trivial⟩
      · rintro ⟨e, he, -⟩
        exact ⟨_, rfl, e, he⟩
  | pair x o o' _ ih =>
      obtain ⟨p, hok⟩ := hok
      obtain ⟨hempty, ls, hls, e, -, q, hq, rfl⟩ := labelled_pair.1 hok
      constructor
      · rintro ⟨p', hp', hlast⟩
        obtain ⟨-, ls', hls', e', he', q', hq', rfl⟩ := labelled_pair.1 hp'
        obtain rfl := Except.ok.inj (hls.symm.trans hls')
        exact ⟨e', he', (ih (i + 2) ⟨q, hq⟩ _).1 ⟨q', hq', hlast⟩⟩
      · rintro ⟨e', he', hagree⟩
        obtain ⟨q', hq', hlast⟩ := (ih (i + 2) ⟨q, hq⟩ _).2 hagree
        exact ⟨_, labelled_pair.2 ⟨hempty, ls, hls, e', he', q', hq', rfl⟩,
          hlast⟩

theorem stops_agree {name : String} (h : Reworked os os')
    (heven : os.length % 2 = 0) (i : Nat) {previous : Option Float}
    {ty : Option Ty} (hok : Succeeds (stops name s i previous ty os))
    (ty' : Option Ty) : Succeeds (stops name s i previous ty' os') ↔
      Agree s ty' (outputs i os') := by
  induction h generalizing i previous ty ty' with
  | nil => exact ⟨fun _ => trivial, fun _ => succeeds_pure _⟩
  | last => cases heven
  | pair x o o' _ ih =>
      obtain ⟨label, hlabel, hok⟩ := succeeds_bind.1 hok
      obtain ⟨e, he, hok⟩ := succeeds_bind.1 hok
      obtain ⟨p, hp, -⟩ := succeeds_bind.1 hok
      have heven := Nat.add_mod_right _ 2 ▸ heven
      constructor
      · intro hok'
        obtain ⟨label', hlabel', hok'⟩ := succeeds_bind.1 hok'
        obtain rfl := Except.ok.inj (hlabel.symm.trans hlabel')
        obtain ⟨e', he', hok'⟩ := succeeds_bind.1 hok'
        obtain ⟨p', hp', -⟩ := succeeds_bind.1 hok'
        exact ⟨e', he', (ih heven (i + 2) ⟨p, hp⟩ _).1 ⟨p', hp'⟩⟩
      · rintro ⟨e', he', hagree⟩
        obtain ⟨p', hp'⟩ := (ih heven (i + 2) ⟨p, hp⟩ _).2 hagree
        refine succeeds_bind.2 ⟨label, hlabel, succeeds_bind.2 ⟨e', he', ?_⟩⟩
        exact succeeds_bind.2 ⟨p', hp', succeeds_pure _⟩

/-! ## Forms -/

theorem conditional_agree (h : Reworked os os')
    (hok : Succeeds (conditional s os)) :
    Succeeds (conditional s os') ↔ Agree s s.declared (outputs 1 os') := by
  unfold conditional at hok ⊢
  rw [h.length_eq]
  split at hok
  · exact absurd hok not_succeeds_fail
  · next hleast =>
      rw [if_neg hleast]
      split at hok
      · exact absurd hok not_succeeds_fail
      · next hodd =>
          rw [if_neg hodd]
          obtain ⟨p, hp, -⟩ := succeeds_bind.1 hok
          rw [succeeds_bind, ← branches_agree h 1 ⟨p, hp⟩]
          exact exists_congr fun _ => and_iff_left (succeeds_pure _)

theorem selection_agree {input : Operand} (h : Reworked os os')
    (hok : Succeeds (selection s (input :: os))) :
    Succeeds (selection s (input :: os')) ↔
      Agree s s.declared (outputs 2 os') := by
  unfold selection at hok ⊢
  rw [List.length_cons, h.length_eq, ← List.length_cons]
  split at hok
  · exact absurd hok not_succeeds_fail
  · next hleast =>
      rw [if_neg hleast]
      split at hok
      · exact absurd hok not_succeeds_fail
      · next heven =>
          rw [if_neg heven]
          simp only at hok ⊢
          obtain ⟨p, hp, hok⟩ := succeeds_bind.1 hok
          obtain ⟨e, he, hok⟩ := succeeds_bind.1 hok
          obtain ⟨last, hlast, hok⟩ := succeeds_output.1 hok
          rw [← labelled_agree h 2 ⟨p, hp⟩]
          constructor
          · intro hok'
            obtain ⟨p', hp', hok'⟩ := succeeds_bind.1 hok'
            obtain ⟨e', -, hok'⟩ := succeeds_bind.1 hok'
            obtain ⟨last', hlast', -⟩ := succeeds_output.1 hok'
            exact ⟨p', hp', last', hlast'⟩
          · rintro ⟨p', hp', last', hlast'⟩
            refine succeeds_bind.2 ⟨p', hp', succeeds_bind.2 ⟨e, he, ?_⟩⟩
            refine succeeds_output.2 ⟨last', hlast', ?_⟩
            simp only [labelled_inputTy h 2 hp hp'] at hok ⊢
            split at hok
            · exact absurd hok not_succeeds_failAt
            · next hinputTy =>
                rw [if_neg hinputTy]
                exact succeeds_pure _

theorem expectPairs_eq (h : os'.length = os.length) :
    expectPairs s os' = expectPairs s os := by
  rw [expectPairs, expectPairs, h]

theorem step_agree (h : Reworked os os') (hok : Succeeds (step s os)) :
    Succeeds (step s os') ↔ Agree s s.declared (outputs 1 os') := by
  unfold step at hok ⊢
  rw [expectPairs_eq h.length_eq]
  obtain ⟨u, hpairs, hok⟩ := succeeds_bind.1 hok
  obtain ⟨hleast, heven⟩ := expectPairs_ok hpairs
  cases h with
  | nil => cases hleast
  | last => cases heven
  | pair input first first' h =>
      have heven := Nat.add_mod_right _ 2 ▸ heven
      obtain ⟨e, he, hok⟩ := succeeds_bind.1 hok
      obtain ⟨e₁, he₁, hok⟩ := succeeds_bind.1 hok
      obtain ⟨p, hp, -⟩ := succeeds_bind.1 hok
      constructor
      · intro hok'
        obtain ⟨_, -, hok'⟩ := succeeds_bind.1 hok'
        obtain ⟨e', -, hok'⟩ := succeeds_bind.1 hok'
        obtain ⟨e₁', he₁', hok'⟩ := succeeds_bind.1 hok'
        obtain ⟨p', hp', -⟩ := succeeds_bind.1 hok'
        exact ⟨e₁', he₁', (stops_agree h heven 3 ⟨p, hp⟩ _).1 ⟨p', hp'⟩⟩
      · rintro ⟨e₁', he₁', hagree⟩
        obtain ⟨p', hp'⟩ := (stops_agree h heven 3 ⟨p, hp⟩ _).2 hagree
        refine succeeds_bind.2 ⟨u, hpairs, succeeds_bind.2 ⟨e, he, ?_⟩⟩
        refine succeeds_bind.2 ⟨e₁', he₁', ?_⟩
        exact succeeds_bind.2 ⟨p', hp', succeeds_pure _⟩

variable {f : SpecialForm} {k : Nat} {args args' : List Operand}

/-- A form whose outputs agree in type compiles with other outputs if these
agree in type as well. -/
theorem form_agree (hf : f.outputsFrom? = some (k + 1)) (name : String)
    (hfront : args'.take k = args.take k)
    (h : Reworked (args.drop k) (args'.drop k))
    (hok : Succeeds (form f name s args)) : Succeeds (form f name s args') ↔
      Agree s s.declared (outputs (k + 1) (args'.drop k)) := by
  cases f with
  | conditional =>
      cases hf
      exact conditional_agree h hok
  | step =>
      cases hf
      exact step_agree h hok
  | selection =>
      cases hf
      match args, args' with
      | [], _ => exact absurd hok not_succeeds_fail
      | _ :: _, [] => cases hfront
      | input :: os, input' :: os' =>
          obtain rfl := (List.cons.inj hfront).1
          exact selection_agree h hok
  | _ => cases hf

/-! ## Nodes and their outputs -/

/-- Where nothing is expected, what is finished to an expression that is no
literal is this expression already. -/
theorem eq_of_finish {folding : Bool} {how : Option Narrowing} {node e : Expr}
    (hs : s.expected = none) (h : finish folding s how node = .ok e)
    (he : e.isLiteral = false) : node = e := by
  rw [finish, conform, hs] at h
  replace h : settle folding s node = .ok e := h
  unfold settle at h
  split at h
  · split at h
    · cases h
      cases he
    · cases h
  · exact ok_of_pure h

/-- The tree of one of the outputs. -/
def CompiledFrom (s : Site) (p : Nat × Operand) (e : Expr) : Prop :=
  ∃ ty, p.2.compileAt s p.1 ty = .ok e

theorem output_compiledFrom {i : Nat} {ty : Option Ty} {o : Operand} :
    Ensures (fun p => CompiledFrom s (i, o) p.1 ∧ ∀ t ∈ ty, p.2 = t)
      (output s i ty o) := by
  intro p hp
  obtain ⟨e, he, hp⟩ := ok_of_bind hp
  obtain rfl := ok_of_pure hp
  refine ⟨⟨ty, he⟩, ?_⟩
  rintro t rfl
  rfl

theorem branches_outputs (os : List Operand) (i : Nat) (ty : Option Ty) :
    Ensures (fun p => List.Forall₂ (CompiledFrom s) (outputs i os)
        (p.1.map Prod.snd ++ [p.2.1]) ∧ ∀ t ∈ ty, p.2.2 = t)
      (branches s i ty os) := by
  match os with
  | [] => exact .fail
  | [o] =>
      refine .bind output_compiledFrom fun p ⟨hp, hty⟩ => ?_
      exact .pure ⟨.cons hp .nil, hty⟩
  | x :: o :: os =>
      refine .skip fun test => ?_
      refine .bind output_compiledFrom fun p ⟨hp, hty⟩ => ?_
      refine .bind (branches_outputs os (i + 2) _) fun q ⟨hq, hkeep⟩ => ?_
      exact .pure ⟨.cons hp hq, fun t ht => (hkeep _ rfl).trans (hty t ht)⟩

theorem labelled_outputs {os : List Operand} {i : Nat} {seen : List Label}
    {inputTy ty : Option Ty}
    {p : List (List Label × Expr) × Option Ty × Option Ty × Nat × Operand}
    (h : labelled s i seen inputTy ty os = .ok p) :
    (∀ e, CompiledFrom s (p.2.2.2.1, p.2.2.2.2) e →
      List.Forall₂ (CompiledFrom s) (outputs i os) (p.1.map Prod.snd ++ [e])) ∧
    ∀ t ∈ ty, p.2.2.1 = some t := by
  match os with
  | [] => cases h
  | [o] =>
      obtain rfl := ok_of_pure h
      exact ⟨fun e he => .cons he .nil, fun t ht => ht⟩
  | x :: o :: os =>
      obtain ⟨-, ls, -, e₁, he₁, q, hq, rfl⟩ := labelled_pair.1 h
      obtain ⟨hmore, hkeep⟩ := labelled_outputs hq
      refine ⟨fun e he => .cons ⟨ty, he₁⟩ (hmore e he), ?_⟩
      rintro t rfl
      exact hkeep t rfl

theorem stops_outputs {name : String} (os : List Operand)
    (heven : os.length % 2 = 0) (i : Nat) (previous : Option Float)
    (ty : Option Ty) :
    Ensures (fun p => List.Forall₂ (CompiledFrom s) (outputs i os)
        (p.1.map Prod.snd)) (stops name s i previous ty os) := by
  match os with
  | [] => exact .pure .nil
  | [_] => cases heven
  | x :: o :: os =>
      have heven := Nat.add_mod_right _ 2 ▸ heven
      refine .skip fun label => ?_
      have hfirst : Ensures (CompiledFrom s (i + 1, o))
          (o.compileAt s (i + 1) ty) := fun e he => ⟨ty, he⟩
      refine .bind hfirst fun e he => ?_
      refine .bind (stops_outputs os heven (i + 2) _ _) fun p hp => ?_
      exact .pure (.cons he hp)

end Compile

/-- The outputs of a choice or a step, in order. -/
def Expr.outputs : Expr → List Expr
  | .conditional _ branches otherwise => branches.map Prod.snd ++ [otherwise]
  | .selection _ _ _ branches otherwise => branches.map Prod.snd ++ [otherwise]
  | .step _ _ stops => stops.map Prod.snd
  | _ => []

theorem Expr.mem_children_of_mem_outputs {e c : Expr} (h : c ∈ e.outputs) :
    c ∈ e.children := by
  cases e with
  | conditional ty branches otherwise =>
      refine List.mem_append.2 ((List.mem_append.1 h).imp_left fun h => ?_)
      obtain ⟨b, hb, rfl⟩ := List.mem_map.1 h
      exact List.mem_flatMap.2 ⟨b, hb, by simp⟩
  | selection => exact List.mem_cons_of_mem _ h
  | step => exact List.mem_cons_of_mem _ h
  | _ => cases h

namespace Compile

variable {s : Site} {os : List Operand}

/-- What a form with the operands makes: its outputs are what those of the
operands compile to, and it has the type that is declared, if one is. -/
def Outputs (s : Site) (start : Nat) (os : List Operand) (e : Expr) : Prop :=
  List.Forall₂ (CompiledFrom s) (outputs start os) e.outputs ∧
    ∀ t ∈ s.declared, e.type = t

theorem conditional_outputs :
    Ensures (Outputs s 1 os) (conditional s os) := by
  unfold conditional
  split
  · exact .fail
  · split
    · exact .fail
    · exact .bind (branches_outputs os 1 _) fun p hp => .pure hp

theorem selection_outputs {input : Operand} :
    Ensures (Outputs s 2 os) (selection s (input :: os)) := by
  unfold selection
  split
  · exact .fail
  · split
    · exact .fail
    · refine .bind (fun p hp => labelled_outputs hp) fun p ⟨hp, hkeep⟩ => ?_
      refine .skip fun input => ?_
      refine .bind output_compiledFrom fun q ⟨hq, hty⟩ => ?_
      simp only
      split
      · exact .failAt
      · exact .pure ⟨hp _ hq, fun t ht => hty t (hkeep t ht)⟩

theorem step_outputs : Ensures (Outputs s 1 os) (step s os) := by
  have hpairs : Ensures (fun _ => os.length % 2 = 0) (expectPairs s os) :=
    fun _ h => (expectPairs_ok h).2
  refine .bind hpairs fun _ heven => ?_
  match os with
  | [] | [_] => exact .fail
  | input :: first :: os =>
      have heven := Nat.add_mod_right _ 2 ▸ heven
      refine .skip fun input => ?_
      have hfirst : Ensures (CompiledFrom s (2, first))
          (first.compileAt s 2 s.declared) := fun e he => ⟨_, he⟩
      refine .bind hfirst fun e he => ?_
      refine .bind (stops_outputs os heven 3 _ _) fun p hp => ?_
      refine .pure ⟨.cons he hp, fun t ht => ?_⟩
      show s.declared.getD e.type = t
      rw [ht]
      rfl

variable {f : SpecialForm} {k : Nat} {args : List Operand}

theorem form_outputs (hf : f.outputsFrom? = some (k + 1)) (name : String) :
    Ensures (Outputs s (k + 1) (args.drop k)) (form f name s args) := by
  cases f with
  | conditional =>
      cases hf
      exact conditional_outputs
  | step =>
      cases hf
      exact step_outputs
  | selection =>
      cases hf
      cases args with
      | nil => exact .fail
      | cons => exact selection_outputs
  | _ => cases hf

end Compile

end MapStyle
