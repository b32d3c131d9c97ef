import MapStyle.Operator.Standard
import MapStyle.Proofs.Compile.Agreement
import MapStyle.Proofs.Number.Integers

/-!
# Selections scan their labels

A selection looks its input up in a table of labels, which are texts or
integers, all of one type. The integers come from doubles of the document and
are compared with the integer of the input, so it is not obvious that a label is
found just if the input equals it. It is because an integer of safe size has one
double, up to the sign of zero, and because an input without such an integer
equals no label (`Label.Reads.inputLabel?_iff`).

No label occurs twice, as the compiler goes along with the labels that it has
seen. So the branch that is found is the only one that lists the input, and a
selection amounts to a scan of the documents of its labels.
-/

namespace MapStyle

/-- Whether the value equals one of the documents. -/
def Value.isListed (v : Value) (documents : List Json) : Bool :=
  documents.any fun j => (Value.ofJson j).equals v

/-- The output of the first branch that lists the value. -/
def Semantics.scan (v : Value) :
    List (List Json × Outcome) → Outcome → Outcome
  | [], otherwise => otherwise
  | (documents, output) :: rest, otherwise =>
    if v.isListed documents then output else scan v rest otherwise

namespace Label

/-- The label that a document is read as. -/
inductive Reads : Json → Label → Prop where
  | integer {n : Json.Number} {i : Int}
      (h : Number.safeInteger? n.toFloat = some i) :
      Reads (.number n) (.integer i)
  | text (t : String) : Reads (.string t) (.text t)

def type : Label → Ty
  | .integer _ => .number
  | .text _ => .string

/-- Neither of the two types stands for the other one. -/
theorem type_eq_of_accepts {l m : Label} (h : l.type.accepts m.type = true) :
    m.type = l.type := by
  cases l <;> cases m <;> first | rfl | cases h

variable {j : Json} {l : Label} {v : Value}

/-- A value is looked up under a label just if it equals the document of the
label. -/
theorem Reads.inputLabel?_iff (h : Reads j l) :
    Semantics.inputLabel? l.type v = some l ↔
      (Value.ofJson j).equals v = true := by
  cases h with
  | integer h =>
      cases v with
      | number y =>
          show (Number.safeInteger? y).map Label.integer = some (.integer _) ↔
            (_ == y) = true
          rw [← Number.safeInteger?_iff_beq h, Option.map_eq_some_iff]
          simp
      | _ => exact iff_of_false nofun nofun
  | text t =>
      cases v with
      | string t' =>
          show some (Label.text t') = some (.text t) ↔ (t == t') = true
          rw [beq_iff_eq]
          simp [eq_comm]
      | _ => exact iff_of_false nofun nofun

/-- The labels of a branch over inputs of a type, and their documents. -/
structure AreRead (ty : Ty) (documents : List Json) (ls : List Label) :
    Prop where
  reads : List.Forall₂ Reads documents ls
  type_eq : ∀ l ∈ ls, l.type = ty

/-- A value is looked up under one of the labels just if the documents list
it. -/
theorem AreRead.isListed_eq {ty : Ty} {documents : List Json}
    {ls : List Label} (h : AreRead ty documents ls) :
    v.isListed documents =
      ls.any fun l => Semantics.inputLabel? ty v == some l := by
  obtain ⟨hreads, htype⟩ := h
  induction hreads with
  | nil => rfl
  | @cons j l _ _ hl _ ih =>
      obtain ⟨rfl, htype⟩ := List.forall_mem_cons.1 htype
      have hfirst : (Value.ofJson j).equals v =
          (Semantics.inputLabel? l.type v == some l) := by
        rw [Bool.eq_iff_iff, ← hl.inputLabel?_iff, beq_iff_eq]
      rw [Value.isListed, List.any_cons, List.any_cons, hfirst, ← ih htype]
      rfl

end Label

namespace Semantics

variable {v : Value} {ty : Ty} {otherwise : Outcome}

/-- A selection takes its first branch or goes on with the others. -/
theorem selection_cons {ls : List Label} {output : Outcome}
    {rest : List (List Label × Outcome)} :
    selection ty (.ok v) ((ls, output) :: rest) otherwise =
      if ls.any fun l => inputLabel? ty v == some l then output
      else selection ty (.ok v) rest otherwise := by
  simp only [selection, bind, Except.bind]
  cases inputLabel? ty v with
  | none => simp
  | some label =>
      have hcontains : ls.contains label =
          ls.any fun l => some label == some l := by
        rw [List.contains_eq_any_beq]
        simp
      simp only [List.find?_cons, ← hcontains]
      cases ls.contains label <;> rfl

theorem selection_eq_scan {documents : List (List Json)}
    {branches : List (List Label × Outcome)}
    (h : List.Forall₂ (fun ds b => Label.AreRead ty ds b.1) documents
      branches) :
    selection ty (.ok v) branches otherwise =
      scan v (documents.zip (branches.map Prod.snd)) otherwise := by
  induction h with
  | nil =>
      simp only [selection, bind, Except.bind]
      cases inputLabel? ty v <;> rfl
  | cons hb _ ih =>
      rw [selection_cons, List.map_cons, List.zip_cons_cons, scan,
        hb.isListed_eq, ih]

end Semantics

namespace Compile

variable {s : Site}

/-- The documents of the labels, branch by branch, among the operands of a
selection behind its input. -/
def listings : List Json → List (List Json)
  | labels :: _ :: rest => labelDocuments labels :: listings rest
  | _ => []

/-! ## What the compiler makes of labels -/

theorem label_reads {i : Nat} {raw : Json} :
    Ensures (fun p => Label.Reads raw p.1 ∧ p.2 = p.1.type)
      (label s i raw) := by
  unfold label
  split
  · simp only
    split
    · exact .failAt
    · split
      · next hsafe => exact .pure ⟨.integer hsafe, rfl⟩
      · exact .failAt
  · exact .pure ⟨.text _, rfl⟩
  · exact .failAt

/-- The labels of a branch are read from its documents, and none of them has
been seen before. They are of the type that is set, or set it. -/
theorem labels_read {i : Nat} {seen : List Label} {ty : Option Ty}
    (hty : ∀ t ∈ ty, ∃ l : Label, l.type = t) (raws : List Json) :
    Ensures (fun p => List.Forall₂ Label.Reads raws p.1 ∧
        (∀ l ∈ p.1, l ∉ seen ∧ p.2 = some l.type) ∧
        (∀ t ∈ ty, p.2 = some t) ∧ ∀ t ∈ p.2, ∃ l : Label, l.type = t)
      (labels s i seen ty raws) := by
  induction raws generalizing seen ty with
  | nil => exact .pure ⟨.nil, nofun, fun _ h => h, hty⟩
  | cons raw raws ih =>
      refine .bind label_reads ?_
      rintro ⟨l, found⟩ ⟨hl, hfound⟩
      obtain rfl : found = l.type := hfound
      simp only
      split
      · exact .failAt
      · next haccepts =>
          split
          · exact .failAt
          · next hseen =>
              have hset : ty.getD l.type = l.type := by
                cases ty with
                | none => rfl
                | some t =>
                    obtain ⟨m, rfl⟩ := hty t rfl
                    have haccepts : m.type.accepts l.type = true := by
                      simpa using haccepts
                    exact (Label.type_eq_of_accepts haccepts).symm
              rw [hset]
              have htype : ∀ t ∈ some l.type, ∃ m : Label, m.type = t :=
                fun t ht => ⟨l, Option.some.inj ht⟩
              refine .bind (ih htype) ?_
              rintro ⟨more, ty'⟩ ⟨hmore, hnew, hkeep, hty'⟩
              have hkeep : ty' = some l.type := hkeep _ rfl
              refine .pure ⟨.cons hl hmore, ?_, ?_, hty'⟩
              · refine List.forall_mem_cons.2 ⟨⟨?_, hkeep⟩, fun m hm => ?_⟩
                · simpa using hseen
                · exact ⟨fun h => (hnew m hm).1 (List.mem_cons_of_mem l h),
                    (hnew m hm).2⟩
              · rintro t rfl
                exact hkeep.trans (congrArg some hset.symm)

/-- The branches of a selection are read from the documents of their labels, and
no label is in two of them. -/
theorem labelled_read {os : List Operand} {i : Nat} {seen : List Label}
    {inputTy ty : Option Ty} (hty : ∀ t ∈ inputTy, ∃ l : Label, l.type = t)
    {p : List (List Label × Expr) × Option Ty × Option Ty × Nat × Operand}
    (h : labelled s i seen inputTy ty os = .ok p) :
    List.Forall₂ (fun ds b => Label.AreRead (p.2.1.getD .value) ds b.1)
        (listings (os.map Operand.raw)) p.1 ∧
      p.1.Pairwise (fun a b => ∀ l ∈ b.1, l ∉ a.1) ∧
      (∀ b ∈ p.1, ∀ l ∈ b.1, l ∉ seen) ∧ ∀ t ∈ inputTy, p.2.1 = some t := by
  match os with
  | [] => cases h
  | [o] =>
      obtain rfl := ok_of_pure h
      exact ⟨.nil, .nil, nofun, fun t ht => ht⟩
  | x :: o :: os =>
      obtain ⟨-, ⟨ls, inputTy'⟩, hls, e, -, q, hq, rfl⟩ := labelled_pair.1 h
      obtain ⟨hreads, hnew, hset, hty'⟩ := labels_read hty _ _ hls
      obtain ⟨hmore, hdistinct, hlater, hkeep⟩ := labelled_read hty' hq
      have hlater (b) (hb : b ∈ q.1) (l) (hl : l ∈ b.1) :=
        not_or.1 (List.mem_append.not.1 (hlater b hb l hl))
      refine ⟨.cons ⟨hreads, fun l hl => ?_⟩ hmore, .cons ?_ hdistinct, ?_, ?_⟩
      · have hinput : q.2.1 = some l.type := hkeep _ (hnew l hl).2
        show l.type = q.2.1.getD .value
        rw [hinput]
        rfl
      · exact fun b hb l hl => (hlater b hb l hl).1
      · refine List.forall_mem_cons.2 ⟨fun l hl => (hnew l hl).1, ?_⟩
        exact fun b hb l hl => (hlater b hb l hl).2
      · exact fun t ht => hkeep t (hset t ht)

/-- No two branches list a value. -/
theorem pairwise_isListed {ty : Ty} {documents : List (List Json)}
    {branches : List (List Label × Expr)}
    (h : List.Forall₂ (fun ds b => Label.AreRead ty ds b.1) documents branches)
    (hdistinct : branches.Pairwise fun a b => ∀ l ∈ b.1, l ∉ a.1) (v : Value) :
    documents.Pairwise fun a b => ¬ (v.isListed a = true ∧
      v.isListed b = true) := by
  obtain ⟨hlength, hread⟩ := List.forall₂_iff_get.1 h
  rw [List.pairwise_iff_get] at hdistinct ⊢
  rintro ⟨i, hi⟩ ⟨j, hj⟩ hlt ⟨hlisted, hlisted'⟩
  have hi' : i < branches.length := hlength ▸ hi
  have hj' : j < branches.length := hlength ▸ hj
  rw [(hread i hi hi').isListed_eq, List.any_eq_true] at hlisted
  rw [(hread j hj hj').isListed_eq, List.any_eq_true] at hlisted'
  obtain ⟨l, hl, hfound⟩ := hlisted
  obtain ⟨l', hl', hfound'⟩ := hlisted'
  rw [beq_iff_eq] at hfound hfound'
  obtain rfl := Option.some.inj (hfound.symm.trans hfound')
  exact hdistinct ⟨i, hi'⟩ ⟨j, hj'⟩ hlt l hl' hl

/-- What a selection is made of. -/
theorem selection_made {input : Operand} {os : List Operand} {e : Expr}
    (h : selection s (input :: os) = .ok e) :
    ∃ ty inputTy i branches otherwise,
      e = .selection ty inputTy i branches otherwise ∧
      input.compileAt s 1 (some .value) = .ok i ∧
      List.Forall₂ (CompiledFrom s) (outputs 2 os)
        (branches.map Prod.snd ++ [otherwise]) ∧
      List.Forall₂ (fun ds b => Label.AreRead inputTy ds b.1)
        (listings (os.map Operand.raw)) branches ∧
      branches.Pairwise fun a b => ∀ l ∈ b.1, l ∉ a.1 := by
  have houtputs := (selection_outputs e h).1
  unfold selection at h
  split at h
  · cases h
  · split at h
    · cases h
    · obtain ⟨p, hp, h⟩ := ok_of_bind h
      obtain ⟨i, hi, h⟩ := ok_of_bind h
      obtain ⟨q, -, h⟩ := ok_of_bind h
      simp only at h
      split at h
      · cases h
      · obtain rfl := ok_of_pure h
        have hopen : ∀ t ∈ (none : Option Ty), ∃ l : Label, l.type = t :=
          fun t ht => absurd ht (Option.not_mem_none t)
        obtain ⟨hread, hdistinct, -, -⟩ := labelled_read hopen hp
        exact ⟨_, _, i, p.1, q.1, rfl, hi, houtputs, hread, hdistinct⟩

end Compile

namespace Compiler

open Compile

variable {items : List Json} {s : Site} {how : Option Narrowing} {e : Expr}

/-- A selection is a scan of the documents of its labels: it has the output of
the branch that lists the value of its input, which is at most one, and the
fallback if there is none. -/
theorem selection_scans (h : compile { registry := .standard }
    (.array (.string "match" :: items)) s how = .ok e) :
    ∃ ty inputTy input branches otherwise,
      finish true s how (.selection ty inputTy input branches otherwise) =
        .ok e ∧
      (∃ raw ∈ items.head?, compile { registry := .standard } raw
        (s.child 1 (some .value) []) none = .ok input) ∧
      List.Forall₂ (CompiledFrom s)
        (outputs 2 (operands { registry := .standard } items.tail))
        (branches.map Prod.snd ++ [otherwise]) ∧
      (listings items.tail).length = branches.length ∧
      (∀ v : Value, (listings items.tail).Pairwise fun a b =>
        ¬ (v.isListed a = true ∧ v.isListed b = true)) ∧
      ∀ ctx v, input.evaluate ctx = .ok v →
        (Expr.selection ty inputTy input branches otherwise).evaluate ctx =
          Semantics.scan v ((listings items.tail).zip
            (branches.map fun b => b.2.evaluate ctx))
            (otherwise.evaluate ctx) := by
  rw [compile_form _ (f := .selection) rfl] at h
  obtain ⟨node, hnode, hfinish⟩ := ok_of_bind h
  cases items with
  | nil =>
      rw [operands] at hnode
      cases hnode
  | cons raw items =>
      rw [operands] at hnode
      obtain ⟨ty, inputTy, input, branches, otherwise, rfl, hinput, houtputs,
        hread, hdistinct⟩ := selection_made hnode
      rw [raws_operands] at hread
      refine ⟨ty, inputTy, input, branches, otherwise, hfinish,
        ⟨raw, rfl, hinput⟩, houtputs, hread.length_eq,
        pairwise_isListed hread hdistinct, fun ctx v hv => ?_⟩
      have hscan : List.Forall₂ (fun ds b => Label.AreRead inputTy ds b.1)
          (listings items) (Expr.evaluateLabelled ctx branches) := by
        rw [Expr.evaluateLabelled_eq_map, List.forall₂_map_right_iff]
        exact hread
      rw [Expr.evaluate, hv, Semantics.selection_eq_scan hscan,
        Expr.evaluateLabelled_eq_map, List.map_map]
      rfl

/-- A feature's `x`, one text for zero and one, and another text. -/
def matchItems : List Json :=
  [.array [.string "get", .string "x"],
    .array [.number (.integer 0), .number (.integer 1)], .string "few",
    .string "many"]

/-- What the selection compiles to. -/
def matchExpression : Expr :=
  .selection .string .number
    (.compound "get" .value .property false [.literal .string (.string "x")])
    [([.integer 0, .integer 1], .literal .string (.string "few"))]
    (.literal .string (.string "many"))

theorem compile_matchItems : compile { registry := .standard }
    (.array (.string "match" :: matchItems)) {} none = .ok matchExpression := by
  rfl

/-- A feature whose `x` is one. -/
def ofOne : Feature :=
  { properties := [("x", .number (Float.ofInt 1))] }

theorem selection_scans_few :
    compile { registry := .standard } (.array (.string "match" :: matchItems))
      {} none = .ok matchExpression ∧
    ∃ (node input otherwise : Expr) (branches : List (List Label × Expr)),
      finish true {} none node = .ok matchExpression ∧
      (listings matchItems.tail).length = branches.length ∧
      (∀ ctx v, input.evaluate ctx = .ok v → node.evaluate ctx =
        Semantics.scan v ((listings matchItems.tail).zip
          (branches.map fun b => b.2.evaluate ctx))
          (otherwise.evaluate ctx)) ∧
      node.evaluate { feature := some ofOne } = .ok (.string "few") := by
  obtain ⟨ty, inputTy, input, branches, otherwise, hfinish, -, -, hlength, -,
    hscans⟩ := selection_scans compile_matchItems
  refine ⟨compile_matchItems, _, input, otherwise, branches, hfinish, hlength,
    hscans, ?_⟩
  cases eq_of_finish rfl hfinish rfl
  exact hscans { feature := some ofOne } (.number (Float.ofInt 1)) rfl

end Compiler

end MapStyle
