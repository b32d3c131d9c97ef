import MapStyle.Parse.Forms
import MapStyle.Proofs.Compile.Outputs
import MapStyle.Proofs.Parse.Rule

/-!
# Each form does what its compilation gives

One lemma for each form, along its grammar: operands are parsed in the order in
which they are compiled, and where a form gives up it has recorded the one
diagnostic that its compilation fails with. Three forms take another way than
their compilation. A binding looks for its body behind the names and not among
them (`boundNames_simulates`); a selection keeps its last operand as a part; and
the stops of a curve give up without a word if the type of the outputs is not
known in the end, which the number of operands rules out
(`typedStops_simulates`).
-/

namespace MapStyle.Parse

open Rule

variable {s : Session} {args : List Operand}

theorem raws_parts (args : List Operand) :
    (args.map Operand.part).map Part.raw = args.map Operand.raw := by
  rw [List.map_map]
  rfl

/-- A form that takes one operand and has some other number of them. -/
theorem exactlyOne_simulates {form : String} (args : List Operand) :
    Simulates s
      (error (.exactlyOne form (args.map Operand.part).length) : Rule Expr)
      (s.site.fail (.exactlyOne form args.length)) := by
  rw [List.length_map]
  exact .error

/-! ## Literals, assertions and conversions -/

theorem literal_simulates :
    Simulates s (literal (args.map Operand.part))
      (Compile.literal s.site args) := by
  unfold literal Compile.literal
  match args with
  | [o] =>
      refine .expected ?_
      obtain ⟨t, v, hraw⟩ : ∃ t v, Expr.ofJson o.raw = .literal t v :=
        ⟨_, _, rfl⟩
      simp only [Operand.part, hraw]
      cases t with
      | array item length =>
          rcases length with _ | _ | _
          · exact .pure
          · cases s.site.expected with
            | none => exact .pure
            | some ty =>
                cases ty with
                | array _ _ => exact .ite (fun _ => .pure) fun _ => .pure
                | _ => exact .pure
          · exact .pure
      | _ => exact .pure
  | [] => exact .error
  | first :: second :: rest =>
      exact exactlyOne_simulates (first :: second :: rest)

theorem arrayItem_simulates {raw : Json} :
    Simulates s (arrayItem raw) (Compile.arrayItem s.site raw) := by
  unfold arrayItem Compile.arrayItem
  cases raw.string?.bind Compile.scalarType? with
  | none => exact .errorAt
  | some ty => exact .ite (fun _ => .errorAt) fun _ => .pure

theorem arrayLength_simulates {raw : Json} :
    Simulates s (arrayLength raw) (Compile.arrayLength s.site raw) := by
  cases raw with
  | null => exact .pure
  | number n => exact .ite (fun _ => .pure) fun _ => .errorAt
  | boolean _ | string _ | array _ | object _ => exact .errorAt

theorem arrayAssertion_simulates :
    Simulates s (arrayAssertion (args.map Operand.part))
      (Compile.arrayAssertion s.site args) := by
  match args with
  | _ :: _ :: o :: rest =>
      refine arrayItem_simulates.bind fun item => ?_
      refine arrayLength_simulates.bind fun length => ?_
      exact (Simulates.parseAll (o :: rest)).bind fun _ => .pure
  | [_, o] =>
      refine arrayItem_simulates.bind fun item => ?_
      exact (Simulates.parseAll [o]).bind fun _ => .pure
  | [o] => exact (Simulates.parseAll [o]).bind fun _ => .pure
  | [] => exact (Simulates.parseAll []).bind fun _ => .pure

theorem assertion_simulates {name : String} :
    Simulates s (assertion name (args.map Operand.part))
      (Compile.assertion name s.site args) := by
  unfold assertion Compile.assertion
  rw [List.isEmpty_map]
  refine .ite (fun _ => .error) fun _ => ?_
  refine .ite (fun _ => arrayAssertion_simulates) fun _ => ?_
  cases Compile.scalarType? name with
  | none => exact .error
  | some ty => exact (Simulates.parseAll args).bind fun _ => .pure

theorem conversion_simulates {name : String} :
    Simulates s (conversion name (args.map Operand.part))
      (Compile.conversion name s.site args) := by
  unfold conversion Compile.conversion
  simp only [List.isEmpty_map, List.length_map]
  refine .ite (fun _ => .error) fun _ => .ite (fun _ => .error) fun _ => ?_
  exact (Simulates.parseAll args).bind fun _ => .pure

/-! ## Bound names -/

theorem boundName_simulates {i : Nat} {raw : Json} :
    Simulates s (boundName i raw) (Compile.boundName s.site i raw) := by
  cases raw with
  | string name => exact .ite (fun _ => .pure) fun _ => .errorAt
  | null | boolean _ | number _ | array _ | object _ => exact .errorAt

/-- Where the names end, the last operand is left as the body. -/
theorem boundNames_simulates (i : Nat) (o : Operand) (rest : List Operand) :
    Simulates s
      (do
        let names ← boundNames i ((o :: rest).map Operand.part)
        return (names, i + rest.length, (o :: rest).getLast nofun))
      (Compile.boundNames s.site i (o :: rest)) := by
  match rest with
  | [] => exact .pure
  | [value] =>
      simp only [List.map_cons, List.map_nil, boundNames, bind_assoc, pure_bind]
      refine boundName_simulates.bind fun name => ?_
      exact Simulates.parseAt.bind fun bound => .pure
  | value :: next :: rest =>
      simp only [List.map_cons, boundNames, bind_assoc, pure_bind]
      refine boundName_simulates.bind fun name => ?_
      refine Simulates.parseAt.bind fun bound => ?_
      have hrest := (boundNames_simulates (i + 2) next rest).bind
        (f := fun found => pure ((name, bound) :: found.1, found.2))
        fun _ => .pure
      simp only [List.map_cons, bind_assoc, pure_bind] at hrest
      rw [Nat.add_assoc, Nat.add_comm 2] at hrest
      exact hrest

theorem binding_simulates :
    Simulates s (binding (args.map Operand.part))
      (Compile.binding s.site args) := by
  unfold binding Compile.binding
  rw [List.length_map]
  refine .ite (fun _ => .error) fun hlength => ?_
  match args with
  | [] => exact absurd (by decide) hlength
  | o :: rest =>
      have hlast : ((o :: rest).map Operand.part).getLast? =
          some ((o :: rest).getLast nofun).part := by
        rw [List.getLast?_map, List.getLast?_eq_some_getLast]
        rfl
      have hbody := (boundNames_simulates (s := s) 1 o rest).bind
        (f := fun found => do
          return Expr.binding found.1 (← found.2.2.part.parseWith found.2.1
            (← expected) found.1 none))
        fun _ => .expected (Simulates.parseWith.bind fun _ => .pure)
      simp only [bind_assoc, pure_bind, Nat.add_comm 1] at hbody
      simp only [hlast]
      exact hbody

theorem reference_simulates :
    Simulates s (reference (args.map Operand.part))
      (Compile.reference s.site args) := by
  rw [reference, Compile.reference, raws_parts]
  rcases args.map Operand.raw with _ | ⟨first, _ | ⟨second, rest⟩⟩
  · exact .error
  · cases first with
    | string name =>
        refine .get ?_
        cases hbound : s.site.scope.lookup name with
        | some bound =>
            simp only [hbound]
            exact .pure
        | none =>
            simp only [hbound]
            exact .errorAt
    | null | boolean _ | number _ | array _ | object _ => exact .error
  · cases first <;> exact .error

theorem globalState_simulates :
    Simulates s (globalState (args.map Operand.part))
      (Compile.globalState s.site args) := by
  rw [globalState, Compile.globalState, raws_parts]
  rcases args.map Operand.raw with _ | ⟨first, _ | ⟨second, rest⟩⟩
  · exact .error
  · cases first with
    | string key => exact .pure
    | null | boolean _ | number _ | array _ | object _ => exact .error
  · cases first <;> exact .error

/-! ## Choices -/

theorem output_simulates {i : Nat} {ty : Option Ty} {o : Operand} :
    Simulates s (output i ty o.part) (Compile.output s.site i ty o) :=
  Simulates.parseAt.bind fun _ => .pure

theorem branches_simulates {i : Nat} {ty : Option Ty} (args : List Operand) :
    Simulates s (branches i ty (args.map Operand.part))
      (Compile.branches s.site i ty args) := by
  match args with
  | [] => exact .error
  | [otherwise] => exact output_simulates.bind fun ⟨e, ty⟩ => .pure
  | test :: result :: next :: rest =>
      refine Simulates.parseAt.bind fun test => ?_
      refine output_simulates.bind fun ⟨result, ty⟩ => ?_
      exact (branches_simulates (next :: rest)).bind fun ⟨_, _, _⟩ => .pure
  | [test, result] =>
      refine Simulates.parseAt.bind fun test => ?_
      refine output_simulates.bind fun ⟨result, ty⟩ => ?_
      exact (branches_simulates []).bind fun ⟨_, _, _⟩ => .pure

theorem conditional_simulates :
    Simulates s (conditional (args.map Operand.part))
      (Compile.conditional s.site args) := by
  unfold conditional Compile.conditional
  rw [List.length_map]
  refine .ite (fun _ => .error) fun _ => .ite (fun _ => .error) fun _ => ?_
  exact .declared ((branches_simulates args).bind fun ⟨_, _, _⟩ => .pure)

theorem label_simulates {i : Nat} {raw : Json} :
    Simulates s (label i raw) (Compile.label s.site i raw) := by
  cases raw with
  | number n =>
      refine .ite (fun _ => .errorAt) fun _ => ?_
      cases Number.safeInteger? n.toFloat with
      | some k => exact .pure
      | none => exact .errorAt
  | string t => exact .pure
  | null | boolean _ | array _ | object _ => exact .errorAt

theorem labels_simulates {i : Nat} {seen : List Label} {ty : Option Ty}
    {raws : List Json} :
    Simulates s (labels i seen ty raws)
      (Compile.labels s.site i seen ty raws) := by
  induction raws generalizing seen ty with
  | nil => exact .pure
  | cons raw rest ih =>
      refine label_simulates.bind fun ⟨l, found⟩ => ?_
      refine .checked fun _ => ?_
      refine .ite (fun _ => .errorAt) fun _ => ?_
      exact ih.bind fun ⟨_, _⟩ => .pure

theorem labelled_simulates {i : Nat} {seen : List Label}
    {inputTy ty : Option Ty} {args : List Operand} :
    Simulates s
      (labelled i seen inputTy ty (args.map Operand.part))
      ((fun (branches, inputTy, ty, position, otherwise) =>
          (branches, inputTy, ty, position, otherwise.part)) <$>
        Compile.labelled s.site i seen inputTy ty args) := by
  match args with
  | [] => exact .error
  | [otherwise] => exact .pure
  | raw :: result :: rest =>
      simp only [List.map_cons, labelled, Compile.labelled,
        apply_ite (Functor.map _), map_bind, map_pure]
      refine .ite (fun _ => .errorAt) fun _ => ?_
      refine labels_simulates.bind fun read => ?_
      refine output_simulates.bind fun result => ?_
      exact labelled_simulates.bind_map fun _ _ => .pure

theorem selection_simulates :
    Simulates s (selection (args.map Operand.part))
      (Compile.selection s.site args) := by
  unfold selection Compile.selection
  rw [List.length_map]
  refine .ite (fun _ => .error) fun _ => .ite (fun _ => .error) fun _ => ?_
  match args with
  | [] => exact .error
  | input :: rest =>
      refine .declared (labelled_simulates.bind_map
        fun ⟨branches, inputTy, ty, position, otherwise⟩ _ => ?_)
      refine Simulates.parseAt.bind fun input => ?_
      refine output_simulates.bind fun ⟨otherwise, ty⟩ => ?_
      dsimp only
      by_cases hvalue : (input.type == .value) = true
      · rw [if_pos hvalue, bne, hvalue]
        exact .pure
      · rw [if_neg hvalue, bne, Bool.eq_false_iff.2 hvalue]
        exact .checked fun _ => .pure

theorem alternatives_simulates {i : Nat} {ty : Option Ty} :
    Simulates s (alternatives i ty (args.map Operand.part))
      (Compile.alternatives s.site i ty args) := by
  induction args generalizing i ty with
  | nil => exact .pure
  | cons o rest ih =>
      exact Simulates.parseWith.bind fun _ => ih.bind fun ⟨_, _⟩ => .pure

theorem coalesce_simulates :
    Simulates s (coalesce (args.map Operand.part))
      (Compile.coalesce s.site args) := by
  unfold coalesce Compile.coalesce
  rw [List.isEmpty_map]
  refine .ite (fun _ => .error) fun _ => ?_
  exact .declared (alternatives_simulates.bind fun ⟨_, _⟩ => .expected .pure)

theorem connective_simulates {node : Ty → List Expr → Expr} :
    Simulates s (connective node (args.map Operand.part))
      (Compile.connective node s.site args) :=
  (Simulates.parseAll args).bind fun _ => .pure

/-! ## Items, searches and slices -/

theorem expectCount_simulates {least most : Nat} :
    Simulates s (expectCount least most (args.map Operand.part))
      (Compile.expectCount s.site least most args) := by
  unfold expectCount hasCount Compile.expectCount
  rw [List.length_map]
  by_cases h :
      (decide (least ≤ args.length) && decide (args.length ≤ most)) = true
  · rw [if_pos h, if_pos h]
    exact .pure
  · rw [if_neg h, if_neg h]
    exact .error

theorem item_simulates :
    Simulates s (item (args.map Operand.part)) (Compile.item s.site args) := by
  refine expectCount_simulates.bind fun _ => ?_
  match args with
  | [index, input] =>
      refine .expected ?_
      refine (Simulates.together .parseAt fun _ => .parseAt).bind
        fun ⟨index, input⟩ => ?_
      dsimp only
      cases input.type <;> exact .pure
  | [] | [_] | _ :: _ :: _ :: _ => exact .error

theorem needleAndHaystack_simulates {needle haystack : Operand} :
    Simulates s (needleAndHaystack needle.part haystack.part)
      (Compile.needleAndHaystack s.site needle haystack) := by
  refine (Simulates.together .parseAt fun _ => .parseAt).bind
    fun ⟨needle, haystack⟩ => ?_
  exact .ite (fun _ => .error) fun _ => .ite (fun _ => .error) fun _ => .pure

theorem membership_simulates :
    Simulates s (membership (args.map Operand.part))
      (Compile.membership s.site args) := by
  refine expectCount_simulates.bind fun _ => ?_
  match args with
  | [needle, haystack] =>
      exact needleAndHaystack_simulates.bind fun ⟨_, _⟩ => .pure
  | [] | [_] | _ :: _ :: _ :: _ => exact .error

theorem optionalNumber_simulates {i : Nat} :
    Simulates s (optionalNumber i (args.map Operand.part))
      (Compile.optionalNumber s.site i args) := by
  cases args with
  | nil => exact .pure
  | cons o rest => exact Simulates.parseAt.bind fun _ => .pure

theorem position_simulates :
    Simulates s (position (args.map Operand.part))
      (Compile.position s.site args) := by
  refine expectCount_simulates.bind fun _ => ?_
  match args with
  | needle :: haystack :: rest =>
      refine needleAndHaystack_simulates.bind fun ⟨_, _⟩ => ?_
      exact optionalNumber_simulates.bind fun _ => .pure
  | [] | [_] => exact .error

theorem slice_simulates :
    Simulates s (slice (args.map Operand.part)) (Compile.slice s.site args) := by
  refine expectCount_simulates.bind fun _ => ?_
  match args with
  | input :: start :: rest =>
      refine (Simulates.together .parseAt fun _ => .parseAt).bind
        fun ⟨input, start⟩ => ?_
      dsimp only
      cases Compile.sliceType? input.type with
      | none => exact .error
      | some ty => exact optionalNumber_simulates.bind fun _ => .pure
  | [] | [_] => exact .error

theorem length_simulates :
    Simulates s (length (args.map Operand.part))
      (Compile.length s.site args) := by
  refine expectCount_simulates.bind fun _ => ?_
  match args with
  | [input] =>
      refine Simulates.parseAt.bind fun input => ?_
      exact .ite (fun _ => .pure) fun _ => .error
  | [] | _ :: _ :: _ => exact .error

/-! ## Comparisons -/

theorem comparisonOperand_simulates {op : Comparator} {i : Nat} {o : Operand} :
    Simulates s (comparisonOperand op i o.part)
      (Compile.comparisonOperand op s.site i o) :=
  Simulates.parseAt.bind fun _ => .ite (fun _ => .pure) fun _ => .errorAt

theorem comparison_simulates {name : String} :
    Simulates s (comparison name (args.map Operand.part))
      (Compile.comparison name s.site args) := by
  unfold comparison Compile.comparison
  cases Comparator.ofSymbol? name with
  | none => exact .error
  | some op =>
      match args with
      | [lhs, rhs] =>
          refine comparisonOperand_simulates.bind fun lhs => ?_
          refine comparisonOperand_simulates.bind fun rhs => ?_
          exact .ite (fun _ => .error) fun _ => .pure
      | [_, _, _] => exact .errorAt
      | [] | [_] | _ :: _ :: _ :: _ :: _ => exact .error

/-! ## Steps and interpolations -/

theorem expectPairs_simulates (args : List Operand) :
    Simulates s (expectPairs (args.map Operand.part))
      (Compile.expectPairs s.site args) := by
  unfold expectPairs hasPairs Compile.expectPairs
  rw [List.length_map]
  by_cases hfew : args.length < 4
  · rw [if_pos hfew, if_pos hfew]
    exact .error
  · rw [if_neg hfew, if_neg hfew]
    by_cases hodd : (args.length % 2 == 1) = true
    · rw [if_pos hodd, if_pos hodd]
      exact .error
    · rw [if_neg hodd, if_neg hodd]
      exact .pure

theorem stopLabel_simulates {name : String} {i : Nat} {previous : Option Float}
    {raw : Json} :
    Simulates s (stopLabel name i previous raw)
      (Compile.stopLabel name s.site i previous raw) := by
  unfold stopLabel Compile.stopLabel
  cases raw.number? with
  | none => exact .errorAt
  | some x => exact .ite (fun _ => .errorAt) fun _ => .pure

theorem stops_simulates {name : String} {i : Nat} {previous : Option Float}
    {ty : Option Ty} {args : List Operand} :
    Simulates s (stops name i previous ty (args.map Operand.part))
      (Compile.stops name s.site i previous ty args) := by
  match args with
  | [] | [_] => exact .pure
  | l :: o :: rest =>
      refine stopLabel_simulates.bind fun x => ?_
      refine Simulates.parseAt.bind fun e => ?_
      exact stops_simulates.bind fun ⟨_, _⟩ => .pure

/-- The type of the outputs is the one that was there, and known after a
pair. -/
theorem type_of_stops {name : String} {s : Site} {i : Nat}
    {previous : Option Float} {ty found : Option Ty} {args : List Operand}
    {stops : List (Float × Expr)}
    (h : Compile.stops name s i previous ty args = .ok (stops, found)) :
    (∀ t, ty = some t → found = some t) ∧
      (2 ≤ args.length → ∃ t, found = some t) := by
  match args with
  | [] | [_] =>
      cases h
      exact ⟨fun _ h => h, fun h => absurd h (by simp)⟩
  | l :: o :: rest =>
      obtain ⟨x, -, h⟩ := ok_of_bind h
      obtain ⟨e, -, h⟩ := ok_of_bind h
      obtain ⟨⟨more, ty'⟩, hmore, h⟩ := ok_of_bind h
      cases h
      have hfound : found = some (ty.getD e.type) :=
        (type_of_stops hmore).1 _ rfl
      refine ⟨fun t ht => ?_, fun _ => ⟨_, hfound⟩⟩
      rw [hfound, ht]
      rfl

theorem typedStops_simulates {name : String} {previous : Option Float}
    {ty : Option Ty} {args : List Operand}
    (h : (∃ t, ty = some t) ∨ 2 ≤ args.length) :
    Simulates s (typedStops name previous ty (args.map Operand.part))
      ((fun (stops, ty) => (stops, ty.getD .value)) <$>
        Compile.stops name s.site 3 previous ty args) := by
  rw [← bind_pure_comp]
  refine stops_simulates.bind_of_ok fun ⟨stops, found⟩ hstops => ?_
  obtain ⟨hkept, hpair⟩ := type_of_stops hstops
  obtain ⟨t, rfl⟩ : ∃ t, found = some t := by
    rcases h with ⟨t, ht⟩ | hlength
    · exact ⟨t, hkept t ht⟩
    · exact hpair hlength
  exact .pure

theorem step_simulates :
    Simulates s (step (args.map Operand.part)) (Compile.step s.site args) := by
  refine (expectPairs_simulates args).bind fun _ => ?_
  match args with
  | [] | [_] => exact .error
  | input :: first :: rest =>
      refine Simulates.parseAt.bind fun input => .declared ?_
      refine Simulates.parseAt.bind fun first => ?_
      refine (typedStops_simulates (.inl ⟨_, rfl⟩)).bind_map
        fun ⟨more, found⟩ h => ?_
      obtain rfl := (type_of_stops h).1 _ rfl
      exact .pure

theorem interpolation_simulates {raw : Json} :
    Simulates s (interpolation raw) (Compile.interpolation s.site raw) := by
  match raw with
  | .array (.string name :: rest) =>
      by_cases hlinear : name = "linear"
      · subst hlinear
        exact .pure
      by_cases hexponential : name = "exponential"
      · subst hexponential
        simp only [interpolation, Compile.interpolation]
        cases rest.head?.bind Json.number? with
        | some base => exact .pure
        | none => exact .errorAt
      by_cases hbezier : name = "cubic-bezier"
      · subst hbezier
        simp only [interpolation, Compile.interpolation]
        cases Compile.control? rest with
        | some kind => exact .pure
        | none => exact .errorAt
      simp only [interpolation, Compile.interpolation]
      exact .errorAt
  | .array (.null :: _) | .array (.boolean _ :: _) | .array (.number _ :: _)
  | .array (.array _ :: _) | .array (.object _ :: _) => exact .errorAt
  | .array [] | .null | .boolean _ | .number _ | .string _ | .object _ =>
      exact .errorAt

theorem interpolate_simulates {name : String} :
    Simulates s (interpolate name (args.map Operand.part))
      (Compile.interpolate name s.site args) := by
  match args with
  | [] => exact .errorAt
  | kind :: operands =>
      refine interpolation_simulates.bind fun kind => ?_
      refine (expectPairs_simulates (_ :: operands)).bind_of_ok
        fun _ hpairs => ?_
      match operands with
      | [] => exact .error
      | input :: rest =>
          refine Simulates.parseAt.bind fun input => .declared ?_
          refine (typedStops_simulates (.inr ?_)).bind_map
            fun ⟨stops, ty⟩ _ => ?_
          · have hleast := (Compile.expectPairs_ok hpairs).1
            simp only [List.length_cons] at hleast
            omega
          · exact .ite (fun _ => .pure) fun _ => .error

/-! ## Geometry operands -/

theorem within_simulates :
    Simulates s (within (args.map Operand.part))
      (Compile.within s.site args) := by
  match args with
  | [o] => exact .ite (fun _ => .error) fun _ => .pure
  | [] => exact .error
  | first :: second :: rest =>
      exact exactlyOne_simulates (first :: second :: rest)

theorem distance_simulates :
    Simulates s (distance (args.map Operand.part))
      (Compile.distance s.site args) := by
  match args with
  | [o] => exact .ite (fun _ => .error) fun _ => .pure
  | [] => exact .error
  | first :: second :: rest =>
      exact exactlyOne_simulates (first :: second :: rest)

end MapStyle.Parse
