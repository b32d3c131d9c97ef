import MapStyle.Expr.ZoomCurve
import MapStyle.Proofs.Compile.Scoping

/-!
# What the search for a zoom curve finds

A curve over zoom is a step or an interpolation whose input is an operator
without operands that reads the zoom level and nothing else (`isZoomCurve_iff`,
`isZoomInput_iff`). The search goes up the tree, and a node passes on what one
of its children has found or is such a curve itself. So whatever is found is a
node of the tree and a curve over zoom.
-/

namespace MapStyle.Expr

variable {e : Expr} {l : Located}

/-! ## Curves over the zoom level -/

/-- One operator reads the zoom level and nothing else. -/
theorem reads_eq_zoom_iff {primitive : Primitive} :
    primitive.reads = [.zoom] ↔ primitive = .zoom := by
  constructor
  · intro h
    cases primitive <;> first | rfl | cases h
  · rintro rfl
    rfl

/-- The zoom level as an input: an operator without operands that reads it and
nothing else. -/
theorem isZoomInput_iff : e.isZoomInput = true ↔
    ∃ name ty primitive impure, e = .compound name ty primitive impure [] ∧
      primitive.reads = [.zoom] := by
  constructor
  · intro h
    cases e with
    | compound name ty primitive impure args =>
        cases args with
        | nil => exact ⟨name, ty, primitive, impure, rfl, eq_of_beq h⟩
        | cons => cases h
    | _ => cases h
  · rintro ⟨name, ty, primitive, impure, rfl, hreads⟩
    exact beq_iff_eq.2 hreads

/-- A curve over zoom: a step or an interpolation whose input is the zoom
level. -/
theorem isZoomCurve_iff : e.isZoomCurve = true ↔
    ∃ input, input.isZoomInput = true ∧
      ((∃ ty stops, e = .step ty input stops) ∨
        ∃ ty space kind stops, e = .interpolate ty space kind input stops) := by
  constructor
  · intro h
    cases e with
    | step ty input stops => exact ⟨input, h, .inl ⟨ty, stops, rfl⟩⟩
    | interpolate ty space kind input stops =>
        exact ⟨input, h, .inr ⟨ty, space, kind, stops, rfl⟩⟩
    | _ => cases h
  · rintro ⟨input, h, ⟨ty, stops, rfl⟩ | ⟨ty, space, kind, stops, rfl⟩⟩
    · exact h
    · exact h

/-! ## The search -/

theorem zoomCurve_eq (e : Expr) :
    e.zoomCurve = searchCurve e (e.children.map zoomCurve) := by
  rw [zoomCurve, fold_eq]

/-- A curve found first is one of those that were found. -/
theorem mem_of_firstCurve {searches : List CurveSearch}
    (h : firstCurve searches = .ok (some l)) : .ok (some l) ∈ searches := by
  induction searches with
  | nil => cases h
  | cons s rest ih =>
      obtain ⟨found, rfl, h⟩ := ok_of_bind h
      cases found with
      | none => exact List.mem_cons_of_mem _ (ih h)
      | some curve =>
          cases h
          exact List.mem_cons_self

/-- An admitted curve was found below the node, or is the node. -/
theorem mem_of_admittedCurve {below : List CurveSearch}
    (h : e.admittedCurve below = .ok (some l)) :
    .ok (some l) ∈ below ∨ (l.node = e ∧ e.isZoomCurve = true) := by
  have own {e : Expr} (h : (return if e.isZoomCurve then some ⟨[], e⟩ else none
      : CurveSearch) = .ok (some l)) : l.node = e ∧ e.isZoomCurve = true := by
    have h := ok_of_pure h
    split at h
    · next hcurve =>
        cases h
        exact ⟨rfl, hcurve⟩
    · cases h
  cases e with
  | binding =>
      have hmem := mem_of_firstCurve h
      rw [Option.mem_toList] at hmem
      exact .inl (List.mem_of_getLast? hmem)
  | coalesce => exact .inl (mem_of_firstCurve h)
  | _ => exact .inr (own h)

/-- The search at a node finds what the search at a child has found, or the
node itself. -/
theorem found_of_searchCurve {below : List CurveSearch}
    (h : e.searchCurve below = .ok (some l)) :
    (∃ l' : Located, .ok (some l') ∈ below ∧ l'.node = l.node) ∨
      (l.node = e ∧ e.isZoomCurve = true) := by
  obtain ⟨admitted, hadmitted, h⟩ := ok_of_bind h
  obtain ⟨_, -, h⟩ := ok_of_bind h
  obtain rfl := ok_of_pure h
  refine (mem_of_admittedCurve hadmitted).imp_left fun hmem => ?_
  obtain ⟨⟨s, i⟩, hs, heq⟩ := List.mem_map.1 hmem
  cases s with
  | error err => cases heq
  | ok found =>
      cases found with
      | none => cases heq
      | some l' =>
          cases heq
          exact ⟨l', List.fst_mem_of_mem_zipIdx hs, rfl⟩

/-- The curve over zoom is a node of the tree. -/
theorem mem_nodes_of_zoomCurve (h : e.zoomCurve = .ok (some l)) :
    l.node ∈ e.nodes ∧ l.node.isZoomCurve = true := by
  induction e using Expr.induction generalizing l with
  | step e ih =>
      rw [zoomCurve_eq] at h
      rcases found_of_searchCurve h with ⟨l', hfound, hnode⟩ | ⟨hnode, hcurve⟩
      · obtain ⟨c, hc, hsearch⟩ := List.mem_map.1 hfound
        obtain ⟨hmem, hcurve⟩ :=
          ih c (mem_operands_of_mem_children hc) hsearch
        rw [← hnode]
        exact ⟨mem_nodes_of_child hc hmem, hcurve⟩
      · rw [hnode]
        exact ⟨mem_nodes_self e, hcurve⟩

end MapStyle.Expr
