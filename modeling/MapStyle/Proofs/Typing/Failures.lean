import MapStyle.Compile.Compiler
import MapStyle.Proofs.Typing.Results

/-!
# The failures of the rules of evaluation

The counterpart of the types of results: if the operands of a node have values
of the types that the node reads, then its rule neither blends what cannot be
blended nor complains about the type of a value.

What is known of the outcome of an operand is `Outcome.Reads`: its failures are
harmless ones, and its values are of the type it is read as. One exception has
to be carried along. A loose tree is one that may have type mismatches, because
something in it asserts a type or may be null in the place of a number; there a
value that is read as a number can be anything. Curves of arrays are not
affected, since what they read is not a number.
-/

namespace MapStyle

variable {α β : Type} {P : EvalError → Prop} {loose : Prop}

/-- All failures of a result are of one kind. -/
def Fails (P : EvalError → Prop) (x : Except EvalError α) : Prop :=
  ∀ err, x = .error err → P err

namespace Fails

theorem pure {a : α} : Fails P (pure a) :=
  nofun

theorem throw {err : EvalError} (h : P err) :
    Fails P (throw err : Except EvalError α) := by
  rintro _ ⟨⟩
  exact h

theorem bind {x : Except EvalError α} {f : α → Except EvalError β}
    (hx : Fails P x) (hf : ∀ a, x = .ok a → Fails P (f a)) :
    Fails P (x >>= f) := by
  cases x with
  | error err => exact throw (hx err rfl)
  | ok a => exact hf a rfl

theorem guard {c : Prop} [Decidable c] {err : EvalError}
    {f : PUnit → Except EvalError β} (herr : c → P err)
    (hf : ¬ c → Fails P (f ⟨⟩)) :
    Fails P (if c then MonadExcept.throw err >>= f else f ⟨⟩) := by
  split
  · next hc => exact throw (herr hc)
  · next hc => exact hf hc

theorem mapM {f : β → Except EvalError α} {xs : List β}
    (h : ∀ x ∈ xs, Fails P (f x)) : Fails P (xs.mapM f) := by
  induction xs with
  | nil => exact pure
  | cons x xs ih =>
      rw [List.mapM_cons]
      refine (h x List.mem_cons_self).bind fun _ _ => ?_
      refine (ih fun y hy => h y (List.mem_cons_of_mem x hy)).bind fun _ _ => ?_
      exact pure

end Fails

/-- The failures that remain possible where every operand is of the type that
it is read as. -/
def EvalError.Possible (loose : Prop) : EvalError → Prop
  | .notInterpolatable _ | .arrayLengthMismatch _ _ => False
  | .typeMismatch _ _ => loose
  | _ => True

theorem Value.eq_number_of_type {v : Value} (h : v.type = .number) :
    ∃ x, v = .number x := by
  cases v with
  | number x => exact ⟨x, rfl⟩
  | _ => simp [type] at h

theorem Value.numbers_of_accepts {item : Ty} {n : Nat} {v : Value}
    (hitem : Ty.number.accepts item = true)
    (h : (Ty.array item (some n)).accepts v.type = true) :
    ∃ xs, v = .array xs ∧ xs.length = n ∧ ∀ x ∈ xs, x.type = .number := by
  cases v with
  | array xs =>
      obtain ⟨-, hlength⟩ := accepts_array_iff.1 h
      refine ⟨xs, rfl, by simpa [eq_comm] using hlength, fun x hx => ?_⟩
      have hnumber := accepts_trans hitem (accepts_item h hx)
      cases x with
      | number => rfl
      | _ => simp [Ty.accepts, Ty.sameKind, type] at hnumber
  | _ => simp [Ty.accepts, type] at h

namespace Outcome

/-- What is known of the outcome of an operand that is read as a value of type
`ty`. -/
structure Reads (loose : Prop) (ty : Ty) (o : Outcome) : Prop where
  possible : Fails (EvalError.Possible loose) o
  accepts : ∀ v, o = .ok v →
    ty.accepts v.type = true ∨ (ty.accepts .number = true ∧ loose)

namespace Reads

variable {o : Outcome} {s ty : Ty} {v : Value}

theorem mono (h : Reads loose s o) (hty : ty.accepts s = true) :
    Reads loose ty o where
  possible := h.possible
  accepts v hv := (h.accepts v hv).imp (Value.accepts_trans hty) fun hnumber =>
    ⟨Value.accepts_trans (v := .number 0) hty hnumber.1, hnumber.2⟩

theorem mismatch (h : Reads loose ty o) (hv : o = .ok v)
    (hno : ty.accepts v.type = false) : loose :=
  ((h.accepts v hv).resolve_left (Bool.eq_false_iff.1 hno)).2

theorem number (h : Reads loose .number o) :
    Fails (EvalError.Possible loose) o.number := by
  refine h.possible.bind fun v hv => ?_
  cases v with
  | number => exact .pure
  | _ => exact .throw (h.mismatch hv rfl)

theorem string (h : Reads loose .string o) :
    Fails (EvalError.Possible loose) o.string := by
  refine h.possible.bind fun v hv => ?_
  cases v with
  | string => exact .pure
  | _ => exact .throw (h.mismatch hv rfl)

theorem boolean (h : Reads loose .boolean o) :
    Fails (EvalError.Possible loose) o.boolean := by
  refine h.possible.bind fun v hv => ?_
  cases v with
  | boolean => exact .pure
  | _ => exact .throw (h.mismatch hv rfl)

theorem color (h : Reads loose .color o) :
    Fails (EvalError.Possible loose) o.color := by
  refine h.possible.bind fun v hv => ?_
  cases v with
  | color => exact .pure
  | _ => exact .throw (h.mismatch hv rfl)

theorem object (h : Reads loose .object o) :
    Fails (EvalError.Possible loose) o.object := by
  refine h.possible.bind fun v hv => ?_
  cases v with
  | object => exact .pure
  | _ => exact .throw (h.mismatch hv rfl)

theorem array {item : Ty} {length : Option Nat}
    (h : Reads loose (.array item length) o) :
    Fails (EvalError.Possible loose) o.array := by
  refine h.possible.bind fun v hv => ?_
  cases v with
  | array => exact .pure
  | _ => exact .throw (h.mismatch hv rfl)

end Reads

end Outcome

namespace Semantics

open Outcome (Reads)

variable {ty : Ty} {o : Outcome} {os : List Outcome}

/-! ## Narrowing -/

/-- An assertion is what makes a tree loose. -/
theorem assertType_possible {last : Value} (hloose : loose)
    (h : ∀ o ∈ os, Fails (EvalError.Possible loose) o) :
    Fails (EvalError.Possible loose) (assertType ty last os) := by
  induction os generalizing last with
  | nil => exact .throw hloose
  | cons o os ih =>
      obtain ⟨ho, hos⟩ := List.forall_mem_cons.1 h
      refine ho.bind fun v _ => ?_
      split
      · exact .pure
      · exact ih hos

theorem firstOperand_possible
    (h : ∀ o ∈ os, Fails (EvalError.Possible loose) o) :
    Fails (EvalError.Possible loose) (firstOperand os) := by
  cases os with
  | nil => exact .pure
  | cons o os => exact h o List.mem_cons_self

theorem toNumber_possible {last : Value}
    (h : ∀ o ∈ os, Fails (EvalError.Possible loose) o) :
    Fails (EvalError.Possible loose) (toNumber last os) := by
  induction os generalizing last with
  | nil => exact .throw trivial
  | cons o os ih =>
      obtain ⟨ho, hos⟩ := List.forall_mem_cons.1 h
      refine ho.bind fun v _ => ?_
      show Fails _ (if (numberOf v).isNaN then _ else _)
      split
      · exact ih hos
      · exact .pure

theorem toColor_possible {failure : ColorFailure}
    (h : ∀ o ∈ os, Fails (EvalError.Possible loose) o) :
    Fails (EvalError.Possible loose) (toColor failure os) := by
  induction os generalizing failure with
  | nil => exact .throw trivial
  | cons o os ih =>
      obtain ⟨ho, hos⟩ := List.forall_mem_cons.1 h
      refine ho.bind fun v _ => ?_
      split
      · exact .pure
      · exact ih hos

theorem convert_possible
    (h : ∀ o ∈ os, Fails (EvalError.Possible loose) o) :
    Fails (EvalError.Possible loose) (convert ty os) := by
  cases ty with
  | color => exact (toColor_possible h).bind fun _ _ => .pure
  | number => exact (toNumber_possible h).bind fun _ _ => .pure
  | _ => exact (firstOperand_possible h).bind fun _ _ => .pure

/-! ## Sequences -/

theorem item_possible {item' inputTy : Ty} {index : Outcome}
    (hindex : Reads loose .number index)
    (hinput : Reads loose (.array item' none) o) :
    Fails (EvalError.Possible loose) (item inputTy index o) := by
  refine hindex.number.bind fun x _ => hinput.possible.bind fun v hv => ?_
  cases v with
  | array items =>
      refine .guard (fun _ => trivial) fun _ => ?_
      refine .guard (fun _ => trivial) fun _ => ?_
      refine .guard (fun _ => trivial) fun _ => ?_
      split
      · exact .pure
      · exact .throw trivial
  | _ => exact .throw (hinput.mismatch hv rfl)

theorem contains_possible {needle : Outcome}
    (hneedle : Fails (EvalError.Possible loose) needle)
    (ho : Fails (EvalError.Possible loose) o) :
    Fails (EvalError.Possible loose) (contains needle o) := by
  refine hneedle.bind fun n _ => ho.bind fun v _ => ?_
  split
  · exact .pure
  · refine .guard (fun _ => trivial) fun _ => ?_
    split
    · exact .pure
    · exact .pure
    · exact .throw trivial

theorem findFrom?_possible {needle haystack : Value} {start : Float} :
    Fails (EvalError.Possible loose) (findFrom? needle haystack start) := by
  unfold findFrom?
  split
  · exact .pure
  · exact .pure
  · exact .throw trivial

theorem position_possible {needle : Outcome} {start : Option Outcome}
    (hneedle : Fails (EvalError.Possible loose) needle)
    (ho : Fails (EvalError.Possible loose) o)
    (hstart : ∀ s ∈ start, Reads loose .number s) :
    Fails (EvalError.Possible loose) (position needle o start) := by
  refine hneedle.bind fun n _ => ho.bind fun v _ => ?_
  refine .guard (fun _ => trivial) fun _ => ?_
  cases start with
  | none =>
      refine .bind .pure fun x _ => findFrom?_possible.bind fun i _ => ?_
      split
      · exact .pure
      · exact .pure
  | some s =>
      refine (hstart s rfl).number.bind fun x _ => ?_
      refine findFrom?_possible.bind fun i _ => ?_
      split
      · exact .pure
      · exact .pure

theorem slice_possible {start : Outcome} {stop : Option Outcome}
    (ho : Fails (EvalError.Possible loose) o)
    (hstart : Reads loose .number start)
    (hstop : ∀ s ∈ stop, Reads loose .number s) :
    Fails (EvalError.Possible loose) (slice o start stop) := by
  refine ho.bind fun v _ => hstart.number.bind fun x _ => ?_
  cases stop with
  | none =>
      refine .bind .pure fun y _ => ?_
      split
      · exact .pure
      · exact .pure
      · exact .throw trivial
  | some s =>
      refine .bind ((hstop s rfl).number.bind fun _ _ => .pure) fun y _ => ?_
      split
      · exact .pure
      · exact .pure
      · exact .throw trivial

theorem length_possible (ho : Fails (EvalError.Possible loose) o) :
    Fails (EvalError.Possible loose) (length o) := by
  refine ho.bind fun v _ => ?_
  split
  · exact .pure
  · exact .pure
  · exact .throw trivial

/-! ## Choices -/

theorem conditional_possible {branches : List (Outcome × Outcome)}
    (h : ∀ b ∈ branches, Fails (EvalError.Possible loose) b.1 ∧
      Fails (EvalError.Possible loose) b.2)
    (ho : Fails (EvalError.Possible loose) o) :
    Fails (EvalError.Possible loose) (conditional branches o) := by
  induction branches with
  | nil => exact ho
  | cons b rest ih =>
      obtain ⟨⟨htest, houtput⟩, hrest⟩ := List.forall_mem_cons.1 h
      refine htest.bind fun v _ => ?_
      split
      · exact houtput
      · exact ih hrest

theorem selection_possible {input : Outcome}
    {branches : List (List Label × Outcome)}
    (hinput : Fails (EvalError.Possible loose) input)
    (h : ∀ b ∈ branches, Fails (EvalError.Possible loose) b.2)
    (ho : Fails (EvalError.Possible loose) o) :
    Fails (EvalError.Possible loose) (selection ty input branches o) := by
  refine hinput.bind fun v _ => ?_
  split
  · exact ho
  · split
    · next hfind => exact h _ (List.mem_of_find?_eq_some hfind)
    · exact ho

theorem coalesce_possible
    (h : ∀ o ∈ os, Fails (EvalError.Possible loose) o) :
    Fails (EvalError.Possible loose) (coalesce os) := by
  induction os with
  | nil => exact .pure
  | cons o os ih =>
      obtain ⟨ho, hos⟩ := List.forall_mem_cons.1 h
      refine ho.bind fun v _ => ?_
      split
      · exact ih hos
      · exact .pure

theorem all_possible (h : ∀ o ∈ os, Reads loose .boolean o) :
    Fails (EvalError.Possible loose) (all os) := by
  induction os with
  | nil => exact .pure
  | cons o os ih =>
      obtain ⟨ho, hos⟩ := List.forall_mem_cons.1 h
      refine ho.boolean.bind fun b _ => ?_
      split
      · exact ih hos
      · exact .pure

theorem any_possible (h : ∀ o ∈ os, Reads loose .boolean o) :
    Fails (EvalError.Possible loose) (any os) := by
  induction os with
  | nil => exact .pure
  | cons o os ih =>
      obtain ⟨ho, hos⟩ := List.forall_mem_cons.1 h
      refine ho.boolean.bind fun b _ => ?_
      split
      · exact .pure
      · exact ih hos

theorem comparison_possible {op : Comparator} {untyped : Bool} {lhs : Outcome}
    (hlhs : Fails (EvalError.Possible loose) lhs)
    (ho : Fails (EvalError.Possible loose) o) :
    Fails (EvalError.Possible loose) (comparison op untyped lhs o) := by
  refine hlhs.bind fun v _ => ho.bind fun w _ => ?_
  split
  · exact .pure
  · exact .pure
  · exact .guard (fun _ => trivial) fun _ => .pure

/-! ## Curves -/

theorem step_possible {stops : List (Float × Outcome)}
    (ho : Reads loose .number o)
    (h : ∀ s ∈ stops, Fails (EvalError.Possible loose) s.2) :
    Fails (EvalError.Possible loose) (step o stops) := by
  unfold step
  split
  · exact h _ (List.mem_singleton_self _)
  · refine ho.number.bind fun x _ => ?_
    split
    · next hstop =>
        obtain ⟨_, hmem⟩ := Curve.mem_of_locate_stop hstop
        exact h _ hmem
    · next hbetween => exact h _ (Curve.mem_of_locate_between hbetween).1
    · exact .throw trivial
    · exact .throw trivial

theorem blendItems_possible {t : Float} {xs ys : List Value}
    (hxs : ∀ x ∈ xs, x.type = .number) (hys : ∀ y ∈ ys, y.type = .number) :
    Fails (EvalError.Possible loose) (blendItems t xs ys) := by
  induction xs generalizing ys with
  | nil => exact .pure
  | cons x xs ih =>
      cases ys with
      | nil => exact .pure
      | cons y ys =>
          obtain ⟨a, rfl⟩ :=
            Value.eq_number_of_type (hxs x List.mem_cons_self)
          obtain ⟨b, rfl⟩ :=
            Value.eq_number_of_type (hys y List.mem_cons_self)
          refine .bind (ih ?_ ?_) fun _ _ => .pure
          · exact fun x hx => hxs x (List.mem_cons_of_mem _ hx)
          · exact fun y hy => hys y (List.mem_cons_of_mem _ hy)

/-- Arrays of a fixed length can be blended: both outputs have that length, and
no item is anything but a number. -/
theorem blendOutputs_possible {space : ColorSpace} {t : Float}
    {first second : Outcome} (hty : Compile.isInterpolatable ty = true)
    (hfirst : Reads loose ty first) (hsecond : Reads loose ty second) :
    Fails (EvalError.Possible loose)
      (blendOutputs ty space t first second) := by
  unfold blendOutputs
  split
  · refine hfirst.color.bind fun x _ => hsecond.color.bind fun y _ => ?_
    exact .pure
  · next item length =>
      match length with
      | none => cases hty
      | some n =>
          have hitems {o : Outcome} (ho : Reads loose (.array item (some n)) o)
              {v : Value} (hv : o = .ok v) :=
            Value.numbers_of_accepts hty ((ho.accepts v hv).resolve_right nofun)
          refine hfirst.possible.bind fun v hv => ?_
          refine hsecond.possible.bind fun w hw => ?_
          obtain ⟨xs, rfl, hxlength, hxs⟩ := hitems hfirst hv
          obtain ⟨ys, rfl, hylength, hys⟩ := hitems hsecond hw
          refine .guard (fun hne => ?_) fun _ => ?_
          · simp [hxlength, hylength] at hne
          · exact (blendItems_possible hxs hys).bind fun _ _ => .pure
  · have hnumber : Ty.number.accepts ty = true := by
      cases ty with
      | number | error => rfl
      | _ => simp_all [Compile.isInterpolatable, Ty.accepts, Ty.sameKind]
    refine (hfirst.mono hnumber).number.bind fun x _ => ?_
    exact (hsecond.mono hnumber).number.bind fun y _ => .pure

theorem interpolate_possible {space : ColorSpace} {kind : Interpolation}
    {stops : List (Float × Outcome)}
    (hty : Compile.isInterpolatable ty = true) (ho : Reads loose .number o)
    (h : ∀ s ∈ stops, Reads loose ty s.2) :
    Fails (EvalError.Possible loose) (interpolate ty space kind o stops) := by
  unfold interpolate
  split
  · exact (h _ (List.mem_singleton_self _)).possible
  · refine ho.number.bind fun x _ => ?_
    split
    · next hstop =>
        obtain ⟨_, hmem⟩ := Curve.mem_of_locate_stop hstop
        exact (h _ hmem).possible
    · next hbetween =>
        obtain ⟨hfirst, hsecond⟩ := Curve.mem_of_locate_between hbetween
        exact blendOutputs_possible hty (h _ hfirst) (h _ hsecond)
    · exact .throw trivial
    · exact .throw trivial

end Semantics

/-! ## Primitives -/

namespace Primitive

open Outcome (Reads)

/-- The operands that a primitive takes, by the types that it reads them as. -/
def takes : Primitive → List Params
  | .sum | .product | .least | .greatest => [.variadic .number]
  | .difference | .quotient | .remainder | .power => [.fixed [.number, .number]]
  | .negation | .function _ => [.fixed [.number]]
  | .concat => [.variadic .value]
  | .upcase | .downcase | .property | .hasProperty | .state | .fail
  | .kindEquals => [.fixed [.string]]
  | .typeName | .idEquals | .propertyPresent => [.fixed [.value]]
  | .color =>
    [.fixed [.number, .number, .number],
     .fixed [.number, .number, .number, .number]]
  | .channels => [.fixed [.color]]
  | .member | .hasMember => [.fixed [.string, .object]]
  | .not => [.fixed [.boolean]]
  | .propertyEquals | .propertyCompares _ => [.fixed [.string, .value]]
  | .kindIn => [.fixed [.array .string none]]
  | .idIn => [.fixed [.anyArray]]
  | .propertyIn | .propertyInSorted => [.fixed [.string, .anyArray]]
  | .constant _ | .properties | .geometryType | .id | .zoom | .heatmapDensity
  | .lineProgress | .accumulated | .idPresent => [.fixed []]

theorem colorOf_possible {r g b : Float} {a : Option Float} :
    Fails (EvalError.Possible loose) (colorOf r g b a) := by
  unfold colorOf
  split
  · exact .throw trivial
  · exact .pure

theorem mapM_number_possible {os : List Outcome}
    (h : ∀ o ∈ os, Reads loose .number o) :
    Fails (EvalError.Possible loose) (os.mapM Outcome.number) :=
  .mapM fun o ho => (h o ho).number

theorem reads_of_replicate {ty : Ty} {os : List Outcome}
    (h : List.Forall₂ (Reads loose) (List.replicate os.length ty) os) :
    ∀ o ∈ os, Reads loose ty o := by
  induction os with
  | nil => nofun
  | cons o os ih =>
      cases h with
      | cons ho hos => exact List.forall_mem_cons.2 ⟨ho, ih hos⟩

/-- A primitive that is given operands it takes. -/
theorem apply_possible {p : Primitive} {params : Params} {ctx : Context}
    {os : List Outcome} (hparams : params ∈ p.takes)
    (hos : List.Forall₂ (Reads loose) (params.expected os.length) os) :
    Fails (EvalError.Possible loose) (p.apply ctx os) := by
  cases p with
  | sum | product | least | greatest =>
      obtain rfl := List.mem_singleton.1 hparams
      exact (mapM_number_possible (reads_of_replicate hos)).bind fun _ _ => .pure
  | concat =>
      obtain rfl := List.mem_singleton.1 hparams
      refine .bind (.mapM fun o ho => ?_) fun _ _ => .pure
      exact (reads_of_replicate hos o ho).possible
  | color =>
      rcases List.mem_pair.1 hparams with rfl | rfl
      · obtain _ | ⟨hr, _ | ⟨hg, _ | ⟨hb, _ | _⟩⟩⟩ := hos
        refine hr.number.bind fun _ _ => hg.number.bind fun _ _ => ?_
        exact hb.number.bind fun _ _ => colorOf_possible
      · obtain _ | ⟨hr, _ | ⟨hg, _ | ⟨hb, _ | ⟨ha, _ | _⟩⟩⟩⟩ := hos
        refine hr.number.bind fun _ _ => hg.number.bind fun _ _ => ?_
        refine hb.number.bind fun _ _ => ha.number.bind fun _ _ => ?_
        exact colorOf_possible
  | difference | quotient | remainder | power =>
      obtain rfl := List.mem_singleton.1 hparams
      obtain _ | ⟨ha, _ | ⟨hb, _ | _⟩⟩ := hos
      exact ha.number.bind fun _ _ => hb.number.bind fun _ _ => .pure
  | negation | function f =>
      obtain rfl := List.mem_singleton.1 hparams
      obtain _ | ⟨ha, _ | _⟩ := hos
      exact ha.number.bind fun _ _ => .pure
  | upcase | downcase | property | hasProperty | state | kindEquals =>
      obtain rfl := List.mem_singleton.1 hparams
      obtain _ | ⟨ha, _ | _⟩ := hos
      exact ha.string.bind fun _ _ => .pure
  | fail =>
      obtain rfl := List.mem_singleton.1 hparams
      obtain _ | ⟨ha, _ | _⟩ := hos
      exact ha.string.bind fun _ _ => .throw trivial
  | typeName | idEquals | propertyPresent =>
      obtain rfl := List.mem_singleton.1 hparams
      obtain _ | ⟨ha, _ | _⟩ := hos
      exact ha.possible.bind fun _ _ => .pure
  | channels =>
      obtain rfl := List.mem_singleton.1 hparams
      obtain _ | ⟨ha, _ | _⟩ := hos
      exact ha.color.bind fun _ _ => .pure
  | member | hasMember =>
      obtain rfl := List.mem_singleton.1 hparams
      obtain _ | ⟨ha, _ | ⟨hb, _ | _⟩⟩ := hos
      exact ha.string.bind fun _ _ => hb.object.bind fun _ _ => .pure
  | not =>
      obtain rfl := List.mem_singleton.1 hparams
      obtain _ | ⟨ha, _ | _⟩ := hos
      exact ha.boolean.bind fun _ _ => .pure
  | propertyEquals | propertyCompares op =>
      obtain rfl := List.mem_singleton.1 hparams
      obtain _ | ⟨ha, _ | ⟨hb, _ | _⟩⟩ := hos
      exact ha.string.bind fun _ _ => hb.possible.bind fun _ _ => .pure
  | kindIn | idIn =>
      obtain rfl := List.mem_singleton.1 hparams
      obtain _ | ⟨ha, _ | _⟩ := hos
      exact ha.array.bind fun _ _ => .pure
  | propertyIn | propertyInSorted =>
      obtain rfl := List.mem_singleton.1 hparams
      obtain _ | ⟨ha, _ | ⟨hb, _ | _⟩⟩ := hos
      exact ha.string.bind fun _ _ => hb.array.bind fun _ _ => .pure
  | constant c | properties | geometryType | id | zoom | heatmapDensity
  | lineProgress | accumulated | idPresent => exact .pure

end Primitive

end MapStyle
