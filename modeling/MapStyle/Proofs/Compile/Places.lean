import MapStyle.Proofs.Compile.Documents

/-!
# Where diagnostics point

A diagnostic names the place of the fault by the positions that lead there from
the root of the document. The recursion of the compiler adds one position for
each operand, and every form adds those of its own: labels stand at every
second position, a description of an interpolation has parts of its own, and
alternatives are tried at the same place.

None of these positions leads out of the document. A place is the document
itself, a place in one of its items, or the place right behind the last item of
an array, which only a diagnostic about a missing item points to
(`Json.Place`). `Explained` says of a run that a failure leaves diagnostics, all
of them at places of the document. A form is explained if its operands are, and
if they stand at the positions that the form counts for them (`StandFrom`); the
statement about documents is then an induction (`Compiler.induction`).
-/

namespace MapStyle

variable {α β : Type}

/-! ## Places in a document -/

/-- An issue about an item that an array should have and has not: the
description of an interpolation, or the base of an exponential one. -/
inductive Issue.Lacks : Issue → List Json → Prop where
  | description (head : Json) : Lacks .interpolationMissing [head]
  | base : Lacks .exponentialBase [.string "exponential"]

namespace Json

/-- The document that a path of positions leads to. -/
def at? : Json → List Nat → Option Json
  | j, [] => some j
  | j, i :: path => do at? (← (← j.array?)[i]?) path

/-- The paths to the places of a document that an issue may be about. -/
inductive Place (issue : Issue) : Json → List Nat → Prop where
  | here (j : Json) : Place issue j []
  | item {items : List Json} {i : Nat} {j : Json} {path : List Nat}
      (hi : items[i]? = some j) (h : Place issue j path) :
      Place issue (.array items) (i :: path)
  | behind {items : List Json} (h : issue.Lacks items) :
      Place issue (.array items) [items.length]

/-- Each position on the way to a place is one in an array. It is that of an
item, unless it is the last one and the issue is that the item is missing. -/
theorem Place.position {issue : Issue} {j : Json} {path : List Nat}
    (h : j.Place issue path) {before after : List Nat} {i : Nat}
    (hpath : path = before ++ i :: after) :
    ∃ items, j.at? before = some (.array items) ∧
      (i < items.length ∨
        i = items.length ∧ after = [] ∧ issue.Lacks items) := by
  induction h generalizing before with
  | here j =>
      cases before <;> cases hpath
  | @item items k j path hk _ ih =>
      cases before with
      | nil =>
          obtain ⟨rfl, rfl⟩ := List.cons.inj hpath
          have hlt := (List.getElem?_eq_some_iff.1 hk).1
          exact ⟨items, rfl, .inl hlt⟩
      | cons k' before =>
          obtain ⟨rfl, hrest⟩ := List.cons.inj hpath
          obtain ⟨items', hat, hi⟩ := ih hrest
          have hitem : (Json.array items).at? (k :: before) =
              j.at? before := by
            show (items[k]?).bind (fun item => item.at? before) = _
            rw [hk]
            rfl
          exact ⟨items', hitem.trans hat, hi⟩
  | @behind items hlacks =>
      cases before with
      | nil =>
          obtain ⟨rfl, rfl⟩ := List.cons.inj hpath
          exact ⟨items, rfl, .inr ⟨rfl, rfl, hlacks⟩⟩
      | cons k' before =>
          have hnil := (List.cons.inj hpath).2
          cases before <;> cases hnil

end Json

/-! ## Runs that explain their failures -/

/-- Whether a run that fails leaves diagnostics, all of them at places of the
document that stands at a path. -/
def Explained (path : List Nat) (raw : Json) (x : Compiled α) : Prop :=
  ∀ ds, x = .error ds → ds ≠ [] ∧
    ∀ d ∈ ds, ∃ keys, d.path = path ++ keys ∧ raw.Place d.issue keys

namespace Explained

variable {path : List Nat} {raw : Json} {s : Site} {x : Compiled α}
  {y : Compiled β}

theorem pure {a : α} : Explained path raw (Pure.pure a : Compiled α) := nofun

theorem failAt {keys : List Nat} {issue : Issue}
    (h : raw.Place issue keys) :
    Explained s.path raw (s.failAt keys issue : Compiled α) := by
  rintro _ ⟨⟩
  exact ⟨nofun, List.forall_mem_singleton.2 ⟨keys, rfl, h⟩⟩

theorem fail {issue : Issue} :
    Explained s.path raw (s.fail issue : Compiled α) := by
  rintro _ ⟨⟩
  refine ⟨nofun, List.forall_mem_singleton.2 ⟨[], ?_, .here raw⟩⟩
  exact (List.append_nil s.path).symm

theorem bind_ok {f : α → Compiled β} (h : Explained path raw x)
    (hf : ∀ a, x = .ok a → Explained path raw (f a)) :
    Explained path raw (x >>= f) := by
  cases x with
  | error ds =>
      rintro _ ⟨⟩
      exact h ds rfl
  | ok a => exact hf a rfl

theorem bind {f : α → Compiled β} (h : Explained path raw x)
    (hf : ∀ a, Explained path raw (f a)) : Explained path raw (x >>= f) :=
  bind_ok h fun a _ => hf a

theorem both (h : Explained path raw x) (h' : Explained path raw y) :
    Explained path raw (Operand.both x y) := by
  cases x with
  | ok a =>
      cases y with
      | ok b => exact nofun
      | error es =>
          rintro _ ⟨⟩
          exact h' es rfl
  | error ds =>
      cases y with
      | ok b =>
          rintro _ ⟨⟩
          exact h ds rfl
      | error es =>
          rintro _ ⟨⟩
          obtain ⟨hne, hds⟩ := h ds rfl
          exact ⟨List.append_ne_nil_of_left_ne_nil hne es,
            List.forall_mem_append.2 ⟨hds, (h' es rfl).2⟩⟩

/-- A place of an item is one of the array. -/
theorem of_child {items : List Json} {i : Nat} (hi : items[i]? = some raw)
    (h : Explained (path ++ [i]) raw x) :
    Explained path (.array items) x := by
  intro ds hds
  obtain ⟨hne, hplaces⟩ := h ds hds
  refine ⟨hne, fun d hd => ?_⟩
  obtain ⟨keys, hpath, hplace⟩ := hplaces d hd
  refine ⟨i :: keys, ?_, .item hi hplace⟩
  rw [hpath, List.append_assoc, List.singleton_append]

end Explained

namespace Operand

/-- Whether an operand explains its failures wherever it is compiled. -/
def Explains (o : Operand) : Prop :=
  ∀ (s : Site) (how : Option Narrowing),
    Explained s.path o.raw (o.compile s how)

/-- An operand that is the item of an array at a position, and explains its
failures. -/
structure StandsAt (items : List Json) (i : Nat) (o : Operand) : Prop where
  item : items[i]? = some o.raw
  explains : o.Explains

/-- Operands that are the items of an array from a position on, and explain
their failures. -/
inductive StandFrom (items : List Json) : Nat → List Operand → Prop where
  | nil {i : Nat} (h : items.length = i) : StandFrom items i []
  | cons {i : Nat} {o : Operand} {os : List Operand}
      (head : StandsAt items i o) (tail : StandFrom items (i + 1) os) :
      StandFrom items i (o :: os)

variable {items : List Json} {i : Nat} {o : Operand} {os : List Operand}

/-- An issue may be about any operand. -/
theorem StandsAt.place (h : StandsAt items i o) (issue : Issue) :
    (Json.array items).Place issue [i] :=
  .item h.item (.here o.raw)

theorem standFrom_append (before : List Json) (hos : ∀ o ∈ os, o.Explains) :
    StandFrom (before ++ os.map raw) before.length os := by
  induction os generalizing before with
  | nil => exact .nil (by simp)
  | cons o os ih =>
      obtain ⟨ho, hos⟩ := List.forall_mem_cons.1 hos
      refine .cons ⟨by simp, ho⟩ ?_
      have htail := ih (before ++ [o.raw]) hos
      rwa [List.append_assoc, List.singleton_append, List.length_append,
        List.length_singleton] at htail

end Operand

namespace Compile

open Operand (StandsAt StandFrom)

variable {s : Site} {items : List Json} {i : Nat} {o : Operand}
  {os args : List Operand}

/-! ## Operands -/

theorem compileAt_explained (ho : StandsAt items i o) (expected : Option Ty) :
    Explained s.path (.array items) (o.compileAt s i expected) :=
  .of_child ho.item (ho.explains _ _)

theorem compileAll_explained (hos : StandFrom items i os)
    (expected : Option Ty) :
    Explained s.path (.array items) (Operand.compileAll s expected i os) := by
  induction hos with
  | nil => exact .pure
  | cons ho _ ih =>
      refine .bind (compileAt_explained ho expected) fun _ => ?_
      exact .bind ih fun _ => .pure

theorem operandsAgainst_explained (hos : StandFrom items i os)
    (tys : List Ty) :
    Explained s.path (.array items) (operandsAgainst s i tys os) := by
  induction hos generalizing tys with
  | nil => cases tys <;> exact .pure
  | cons ho _ ih =>
      cases tys with
      | nil => exact .pure
      | cons ty tys =>
          refine .bind (compileAt_explained ho _) fun _ => ?_
          exact .bind (ih tys) fun _ => .pure

/-! ## Literals, assertions and conversions -/

theorem literal_explained {raw : Json} :
    Explained s.path raw (literal s args) := by
  unfold literal
  split
  · split
    · split <;> exact .pure
    · exact .pure
  · exact .fail

theorem arrayItem_explained (ho : StandsAt items 1 o) :
    Explained s.path (.array items) (arrayItem s o.raw) := by
  unfold arrayItem
  split
  · split
    · exact .failAt (ho.place _)
    · exact .pure
  · exact .failAt (ho.place _)

theorem arrayLength_explained (ho : StandsAt items 2 o) :
    Explained s.path (.array items) (arrayLength s o.raw) := by
  unfold arrayLength
  split
  · exact .pure
  · simp only
    split
    · exact .pure
    · exact .failAt (ho.place _)
  · exact .failAt (ho.place _)

theorem assertion_explained {name : String} (hargs : StandFrom items 1 args) :
    Explained s.path (.array items) (assertion name s args) := by
  have made {i : Nat} {os : List Operand} (hos : StandFrom items i os)
      (ty : Ty) : Explained s.path (.array items)
        (do return Expr.assertion ty
              (← Operand.compileAll s (some .value) i os)) :=
    .bind (compileAll_explained hos _) fun _ => .pure
  unfold assertion
  split
  · exact .fail
  · split
    · unfold arrayAssertion
      split
      · obtain _ | ⟨hitem, _ | ⟨hlength, hrest⟩⟩ := hargs
        refine .bind (arrayItem_explained hitem) fun _ => ?_
        exact .bind (arrayLength_explained hlength) fun _ => made hrest _
      · obtain _ | ⟨hitem, hrest⟩ := hargs
        exact .bind (arrayItem_explained hitem) fun _ => made hrest _
      · exact made hargs _
    · split
      · exact .fail
      · exact made hargs _

theorem conversion_explained {name : String}
    (hargs : StandFrom items 1 args) :
    Explained s.path (.array items) (conversion name s args) := by
  unfold conversion
  simp only
  split
  · exact .fail
  · split
    · exact .fail
    · exact .bind (compileAll_explained hargs _) fun _ => .pure

/-! ## Bound names -/

theorem boundName_explained (ho : StandsAt items i o) :
    Explained s.path (.array items) (boundName s i o.raw) := by
  unfold boundName
  split
  · split
    · exact .pure
    · exact .failAt (ho.place _)
  · exact .failAt (ho.place _)

theorem boundNames_explained {os : List Operand} {i : Nat}
    (hos : StandFrom items i os) :
    Explained s.path (.array items) (boundNames s i os) := by
  match os, hos with
  | [], _ => exact .fail
  | [_], _ => exact .pure
  | [_, _], .cons hname (.cons hvalue _) =>
      refine .bind (boundName_explained hname) fun _ => ?_
      exact .bind (compileAt_explained hvalue _) fun _ => .pure
  | _ :: _ :: _ :: _, .cons hname (.cons hvalue hrest) =>
      refine .bind (boundName_explained hname) fun _ => ?_
      refine .bind (compileAt_explained hvalue _) fun _ => ?_
      exact .bind (boundNames_explained hrest) fun _ => .pure

/-- The body stands at the position that comes with it, also where it is the
value of the last name as well. -/
theorem boundNames_position {os : List Operand} {i : Nat}
    (hos : StandFrom items i os) :
    Ensures (fun p => StandsAt items p.2.1 p.2.2) (boundNames s i os) := by
  match os, hos with
  | [], _ => exact .fail
  | [_], .cons hbody _ => exact .pure hbody
  | [_, _], .cons _ (.cons hvalue _) =>
      exact .skip fun _ => .skip fun _ => .pure hvalue
  | _ :: _ :: _ :: _, .cons _ (.cons _ hrest) =>
      refine .skip fun _ => .skip fun _ => ?_
      exact .bind (boundNames_position hrest) fun _ hbody => .pure hbody

theorem binding_explained (hargs : StandFrom items 1 args) :
    Explained s.path (.array items) (binding s args) := by
  unfold binding
  split
  · exact .fail
  · refine .bind_ok (boundNames_explained hargs) fun p hp => ?_
    have hbody := boundNames_position hargs p hp
    refine .bind (.of_child hbody.item (hbody.explains _ _)) fun _ => ?_
    exact .pure

theorem reference_explained (hargs : StandFrom items 1 args) :
    Explained s.path (.array items) (reference s args) := by
  unfold reference
  split
  · next name heq =>
      split
      · exact .pure
      · obtain ⟨o, rfl, -⟩ := List.map_eq_singleton_iff.1 heq
        obtain _ | ⟨hname, _⟩ := hargs
        exact .failAt (hname.place _)
  · exact .fail

theorem globalState_explained {raw : Json} :
    Explained s.path raw (globalState s args) := by
  unfold globalState
  split
  · exact .pure
  · exact .fail

/-! ## Sequences -/

theorem expectCount_explained {least most : Nat} {raw : Json} :
    Explained s.path raw (expectCount s least most args) := by
  unfold expectCount
  split
  · exact .pure
  · exact .fail

theorem item_explained (hargs : StandFrom items 1 args) :
    Explained s.path (.array items) (item s args) := by
  refine .bind expectCount_explained fun _ => ?_
  split
  · obtain _ | ⟨hindex, _ | ⟨hinput, _⟩⟩ := hargs
    refine .bind (.both (compileAt_explained hindex _)
      (compileAt_explained hinput _)) fun p => ?_
    simp only
    split <;> exact .pure
  · exact .fail

theorem needleAndHaystack_explained {needle haystack : Operand}
    (hneedle : StandsAt items 1 needle)
    (hhaystack : StandsAt items 2 haystack) :
    Explained s.path (.array items)
      (needleAndHaystack s needle haystack) := by
  refine .bind (.both (compileAt_explained hneedle _)
    (compileAt_explained hhaystack _)) fun p => ?_
  simp only
  split
  · exact .fail
  · split
    · exact .fail
    · exact .pure

theorem membership_explained (hargs : StandFrom items 1 args) :
    Explained s.path (.array items) (membership s args) := by
  refine .bind expectCount_explained fun _ => ?_
  split
  · obtain _ | ⟨hneedle, _ | ⟨hhaystack, _⟩⟩ := hargs
    exact .bind (needleAndHaystack_explained hneedle hhaystack) fun _ => .pure
  · exact .fail

theorem optionalNumber_explained (hos : StandFrom items i os) :
    Explained s.path (.array items) (optionalNumber s i os) := by
  cases hos with
  | nil => exact .pure
  | cons ho _ =>
      exact .bind (compileAt_explained ho _) fun _ => .pure

theorem position_explained (hargs : StandFrom items 1 args) :
    Explained s.path (.array items) (position s args) := by
  refine .bind expectCount_explained fun _ => ?_
  split
  · obtain _ | ⟨hneedle, _ | ⟨hhaystack, hrest⟩⟩ := hargs
    refine .bind (needleAndHaystack_explained hneedle hhaystack) fun p => ?_
    exact .bind (optionalNumber_explained hrest) fun _ => .pure
  · exact .fail

theorem slice_explained (hargs : StandFrom items 1 args) :
    Explained s.path (.array items) (slice s args) := by
  refine .bind expectCount_explained fun _ => ?_
  split
  · obtain _ | ⟨hinput, _ | ⟨hstart, hrest⟩⟩ := hargs
    refine .bind (.both (compileAt_explained hinput _)
      (compileAt_explained hstart _)) fun p => ?_
    simp only
    split
    · exact .fail
    · exact .bind (optionalNumber_explained hrest) fun _ => .pure
  · exact .fail

theorem length_explained (hargs : StandFrom items 1 args) :
    Explained s.path (.array items) (length s args) := by
  refine .bind expectCount_explained fun _ => ?_
  split
  · obtain _ | ⟨hinput, _⟩ := hargs
    refine .bind (compileAt_explained hinput none) fun _ => ?_
    split
    · exact .pure
    · exact .fail
  · exact .fail

/-! ## Choices -/

theorem output_explained (ho : StandsAt items i o) (ty : Option Ty) :
    Explained s.path (.array items) (output s i ty o) :=
  .bind (compileAt_explained ho ty) fun _ => .pure

theorem branches_explained {os : List Operand} {i : Nat}
    (hos : StandFrom items i os) (ty : Option Ty) :
    Explained s.path (.array items) (branches s i ty os) := by
  match os, hos with
  | [], _ => exact .fail
  | [_], .cons hotherwise _ =>
      exact .bind (output_explained hotherwise ty) fun _ => .pure
  | _ :: _ :: _, .cons htest (.cons hresult hrest) =>
      refine .bind (compileAt_explained htest _) fun _ => ?_
      refine .bind (output_explained hresult ty) fun _ => ?_
      exact .bind (branches_explained hrest _) fun _ => .pure

theorem conditional_explained (hargs : StandFrom items 1 args) :
    Explained s.path (.array items) (conditional s args) := by
  unfold conditional
  split
  · exact .fail
  · split
    · exact .fail
    · exact .bind (branches_explained hargs _) fun _ => .pure

theorem label_explained (ho : StandsAt items i o) {raw : Json} :
    Explained s.path (.array items) (label s i raw) := by
  unfold label
  split
  · simp only
    split
    · exact .failAt (ho.place _)
    · split
      · exact .pure
      · exact .failAt (ho.place _)
  · exact .pure
  · exact .failAt (ho.place _)

/-- Whatever is wrong with one of several labels is said of all of them. -/
theorem labels_explained (ho : StandsAt items i o) {seen : List Label}
    {ty : Option Ty} {raws : List Json} :
    Explained s.path (.array items) (labels s i seen ty raws) := by
  induction raws generalizing seen ty with
  | nil => exact .pure
  | cons raw raws ih =>
      refine .bind (label_explained ho) fun _ => ?_
      simp only
      split
      · exact .failAt (ho.place _)
      · split
        · exact .failAt (ho.place _)
        · exact .bind ih fun _ => .pure

theorem labelled_explained {os : List Operand} {i : Nat}
    (hos : StandFrom items i os) (seen : List Label)
    (inputTy ty : Option Ty) :
    Explained s.path (.array items) (labelled s i seen inputTy ty os) := by
  cases hos with
  | nil => exact .fail
  | cons hlabel hrest =>
      cases hrest with
      | nil => exact .pure
      | cons hresult hrest =>
          unfold labelled
          simp only
          split
          · exact .failAt (hlabel.place _)
          · refine .bind (labels_explained hlabel) fun _ => ?_
            refine .bind (output_explained hresult ty) fun _ => ?_
            exact .bind (labelled_explained hrest _ _ _) fun _ => .pure

/-- The operand that is left over stands at the position that comes with
it. -/
theorem labelled_position {os : List Operand} {i : Nat}
    (hos : StandFrom items i os) (seen : List Label)
    (inputTy ty : Option Ty) :
    Ensures (fun p => StandsAt items p.2.2.2.1 p.2.2.2.2)
      (labelled s i seen inputTy ty os) := by
  cases hos with
  | nil => exact .fail
  | cons hfirst hrest =>
      cases hrest with
      | nil => exact .pure hfirst
      | cons _ hrest =>
          unfold labelled
          simp only
          split
          · exact .failAt
          · refine .skip fun _ => .skip fun _ => ?_
            exact .bind (labelled_position hrest _ _ _) fun _ hlast =>
              .pure hlast

theorem selection_explained (hargs : StandFrom items 1 args) :
    Explained s.path (.array items) (selection s args) := by
  unfold selection
  split
  · exact .fail
  · split
    · exact .fail
    · split
      · exact .fail
      · obtain _ | ⟨hinput, hrest⟩ := hargs
        refine .bind_ok (labelled_explained hrest _ _ _) fun p hp => ?_
        have hlast := labelled_position hrest _ _ _ p hp
        refine .bind (compileAt_explained hinput _) fun _ => ?_
        refine .bind (output_explained hlast _) fun _ => ?_
        simp only
        split
        · exact .failAt (hinput.place _)
        · exact .pure

theorem alternatives_explained (hos : StandFrom items i os)
    (ty : Option Ty) :
    Explained s.path (.array items) (alternatives s i ty os) := by
  induction hos generalizing ty with
  | nil => exact .pure
  | cons ho _ ih =>
      refine .bind (.of_child ho.item (ho.explains _ _)) fun _ => ?_
      exact .bind (ih _) fun _ => .pure

theorem coalesce_explained (hargs : StandFrom items 1 args) :
    Explained s.path (.array items) (coalesce s args) := by
  unfold coalesce
  split
  · exact .fail
  · exact .bind (alternatives_explained hargs _) fun _ => .pure

/-! ## Curves -/

theorem expectPairs_explained {raw : Json} :
    Explained s.path raw (expectPairs s args) := by
  unfold expectPairs
  split
  · exact .fail
  · split
    · exact .fail
    · exact .pure

theorem stopLabel_explained {name : String} (ho : StandsAt items i o)
    {previous : Option Float} :
    Explained s.path (.array items) (stopLabel name s i previous o.raw) := by
  unfold stopLabel
  split
  · exact .failAt (ho.place _)
  · split
    · exact .failAt (ho.place _)
    · exact .pure

theorem stops_explained {name : String} {os : List Operand} {i : Nat}
    (hos : StandFrom items i os) (previous : Option Float)
    (ty : Option Ty) :
    Explained s.path (.array items) (stops name s i previous ty os) := by
  match os, hos with
  | [], _ | [_], _ => exact .pure
  | _ :: _ :: _, .cons hlabel (.cons houtput hrest) =>
      refine .bind (stopLabel_explained hlabel) fun _ => ?_
      refine .bind (compileAt_explained houtput ty) fun _ => ?_
      exact .bind (stops_explained hrest _ _) fun _ => .pure

theorem step_explained (hargs : StandFrom items 1 args) :
    Explained s.path (.array items) (step s args) := by
  refine .bind expectPairs_explained fun _ => ?_
  split
  · obtain _ | ⟨hinput, _ | ⟨hfirst, hrest⟩⟩ := hargs
    refine .bind (compileAt_explained hinput _) fun _ => ?_
    refine .bind (compileAt_explained hfirst _) fun _ => ?_
    exact .bind (stops_explained hrest _ _) fun _ => .pure
  · exact .fail

/-- Only an exponential description without a base points behind its last
item. -/
theorem interpolation_explained (ho : StandsAt items 1 o) :
    Explained s.path (.array items) (interpolation s o.raw) := by
  have within {issue : Issue} {path : List Nat}
      (h : o.raw.Place issue path) :
      (Json.array items).Place issue (1 :: path) := .item ho.item h
  generalize o.raw = raw at within ⊢
  unfold interpolation
  split
  · next head rest =>
      have hhead (issue : Issue) :
          (Json.array (head :: rest)).Place issue [0] := .item rfl (.here head)
      split
      · exact .pure
      · split
        · exact .pure
        · refine .failAt (within ?_)
          cases rest with
          | nil => exact .behind .base
          | cons base rest => exact .item rfl (.here base)
      · split
        · exact .pure
        · exact .failAt (within (.here _))
      · exact .failAt (within (hhead _))
      · exact .failAt (within (hhead _))
  · exact .failAt (within (.here _))

theorem interpolate_explained {name : String}
    (hargs : StandFrom items 1 args) :
    Explained s.path (.array items) (interpolate name s args) := by
  unfold interpolate
  split
  · -- The name stands alone, so that the description would come next.
    obtain ⟨hlength⟩ := hargs
    obtain ⟨head, rfl⟩ := List.length_eq_one_iff.1 hlength
    exact .failAt (.behind (.description head))
  · obtain _ | ⟨hkind, hoperands⟩ := hargs
    refine .bind (interpolation_explained hkind) fun _ => ?_
    refine .bind expectPairs_explained fun _ => ?_
    split
    · obtain _ | ⟨hinput, hrest⟩ := hoperands
      refine .bind (compileAt_explained hinput _) fun _ => ?_
      refine .bind (stops_explained hrest _ _) fun _ => ?_
      simp only
      split
      · exact .pure
      · exact .fail
    · exact .fail

/-! ## Comparisons and geometry -/

theorem comparisonOperand_explained {op : Comparator}
    (ho : StandsAt items i o) :
    Explained s.path (.array items) (comparisonOperand op s i o) := by
  refine .bind (compileAt_explained ho _) fun _ => ?_
  split
  · exact .pure
  · exact .failAt (ho.place _)

theorem comparison_explained {name : String}
    (hargs : StandFrom items 1 args) :
    Explained s.path (.array items) (comparison name s args) := by
  unfold comparison
  split
  · exact .fail
  · split
    · obtain _ | ⟨hlhs, _ | ⟨hrhs, _⟩⟩ := hargs
      refine .bind (comparisonOperand_explained hlhs) fun _ => ?_
      refine .bind (comparisonOperand_explained hrhs) fun _ => ?_
      simp only
      split
      · exact .fail
      · split <;> exact .pure
    · obtain _ | ⟨_, _ | ⟨_, _ | ⟨hcollator, _⟩⟩⟩ := hargs
      exact .failAt (hcollator.place _)
    · exact .fail

theorem within_explained {raw : Json} :
    Explained s.path raw (within s args) := by
  unfold within
  split
  · simp only
    split
    · exact .fail
    · exact .pure
  · exact .fail

theorem distance_explained {raw : Json} :
    Explained s.path raw (distance s args) := by
  unfold distance
  split
  · simp only
    split
    · exact .fail
    · exact .pure
  · exact .fail

/-! ## Connectives and compound operators -/

theorem connective_explained (node : Ty → List Expr → Expr)
    (hargs : StandFrom items 1 args) :
    Explained s.path (.array items) (connective node s args) :=
  .bind (compileAll_explained hargs _) fun _ => .pure

variable {ω : Type}

theorem attempt_explained (op : CompoundOperator ω)
    (hargs : StandFrom items 1 args) (sig : Signature ω) :
    Explained s.path (.array items) (attempt op s args sig) :=
  .bind (operandsAgainst_explained hargs _) fun _ => .pure

theorem noSignature_explained (hargs : StandFrom items 1 args)
    (sigs : List (Signature ω)) :
    Explained s.path (.array items) (noSignature s args sigs) :=
  .bind (compileAll_explained hargs none) fun _ => .fail

/-- The diagnostics of signatures that do not fit are dropped together, so one
of the operands compiled once more or of the operator itself takes their
place. -/
theorem choice_explained (op : CompoundOperator ω)
    (hargs : StandFrom items 1 args) :
    Explained s.path (.array items) (choice op s args) := by
  unfold choice
  split
  · exact noSignature_explained hargs _
  · exact attempt_explained op hargs _
  · split
    · exact .pure
    · exact noSignature_explained hargs _

theorem compound_explained (op : CompoundOperator Primitive)
    (hargs : StandFrom items 1 args) :
    Explained s.path (.array items) (compound op s args) :=
  .bind (choice_explained op hargs) fun _ => .pure

/-! ## Applications -/

theorem form_explained (f : SpecialForm) (name : String)
    (hargs : StandFrom items 1 args) :
    Explained s.path (.array items) (form f name s args) := by
  cases f with
  | literal => exact literal_explained
  | assertion => exact assertion_explained hargs
  | coercion => exact conversion_explained hargs
  | binding => exact binding_explained hargs
  | reference => exact reference_explained hargs
  | item => exact item_explained hargs
  | membership => exact membership_explained hargs
  | position => exact position_explained hargs
  | slice => exact slice_explained hargs
  | length => exact length_explained hargs
  | conditional => exact conditional_explained hargs
  | selection => exact selection_explained hargs
  | coalesce => exact coalesce_explained hargs
  | step => exact step_explained hargs
  | interpolate => exact interpolate_explained hargs
  | comparison => exact comparison_explained hargs
  | all => exact connective_explained .all hargs
  | any => exact connective_explained .any hargs
  | globalState => exact globalState_explained
  | within => exact within_explained
  | distance => exact distance_explained

theorem application_explained (r : Registry)
    (hargs : StandFrom items 0 args) :
    Explained s.path (.array items) (application r s args) := by
  cases hargs with
  | nil => exact .fail
  | cons hhead hargs =>
      simp only [application]
      split
      · split
        · exact form_explained _ _ hargs
        · exact compound_explained _ hargs
        · exact .failAt (hhead.place _)
      · exact .failAt (hhead.place _)

variable {raw : Json}

theorem conform_explained (how : Option Narrowing) (e : Expr) :
    Explained s.path raw (conform s how e) := by
  unfold conform
  split
  · exact .pure
  · split
    · exact .pure
    · split
      · exact .pure
      · split
        · exact .pure
        · exact .fail

theorem settle_explained (folding : Bool) (e : Expr) :
    Explained s.path raw (settle folding s e) := by
  unfold settle
  split
  · split
    · exact .pure
    · exact .fail
  · exact .pure

theorem finish_explained (folding : Bool) (how : Option Narrowing)
    (e : Expr) : Explained s.path raw (finish folding s how e) :=
  .bind (conform_explained how e) fun _ => settle_explained folding _

end Compile

/-! ## Documents -/

/-- A document that does not compile at a site leaves diagnostics, all of them
at places of the document. -/
theorem Compiler.compile_explained (c : Compiler) (raw : Json) (s : Site)
    (how : Option Narrowing) : Explained s.path raw (c.compile raw s how) := by
  have hraw : Operand.Explains ⟨raw, c.compile raw⟩ := by
    refine Compiler.induction (fun raw s how => ?_) (fun fields s how => ?_)
      (fun raws hraws s how => ?_) raw
    · exact Compile.finish_explained _ _ _
    · exact .fail
    · have hoperands : Operand.StandFrom raws 0 (c.operands raws) := by
        have hfrom := Operand.standFrom_append [] hraws
        rwa [raws_operands] at hfrom
      refine .bind (Compile.application_explained c.registry hoperands)
        fun _ => ?_
      exact Compile.finish_explained _ _ _
  exact hraw s how

end MapStyle
