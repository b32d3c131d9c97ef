import MapStyle.Proofs.Expr.CurvePlaces
import MapStyle.Proofs.Property.Steps

/-!
# Trees with one curve over zoom

Every curve over zoom reads the zoom level for its input. A tree that reads it
once therefore has at most one curve (`HasCurve.unique`), and if that curve is
top-level then no conversion or assertion stands around it
(`IsTopLevel.not_narrows`). Reads are counted by place, since one node may stand
in several places.
-/

namespace MapStyle

theorem add_le_sum {ns : List Nat} {i j m n : Nat} (hi : ns[i]? = some m)
    (hj : ns[j]? = some n) (hne : i ≠ j) : m + n ≤ ns.sum := by
  induction ns generalizing i j with
  | nil => cases hi
  | cons k ns ih =>
      rw [List.sum_cons]
      cases i with
      | zero =>
          cases j with
          | zero => exact absurd rfl hne
          | succ j =>
              obtain rfl : k = m := Option.some.inj hi
              have hle : n ≤ ns.sum := List.le_sum_of_mem (List.mem_of_getElem? hj)
              omega
      | succ i =>
          cases j with
          | zero =>
              obtain rfl : k = n := Option.some.inj hj
              have hle : m ≤ ns.sum := List.le_sum_of_mem (List.mem_of_getElem? hi)
              omega
          | succ j =>
              have hle := ih hi hj fun h => hne (congrArg Nat.succ h)
              omega

namespace Expr

variable {e c d n : Expr} {l l' : Located} {i j : Nat}

/-- What children in two places read is read by the node. -/
theorem zoomReads_add_le_of_ne (hc : e.children[i]? = some c)
    (hd : e.children[j]? = some d) (hne : i ≠ j) :
    c.zoomReads + d.zoomReads ≤ e.zoomReads := by
  have hle : c.zoomReads + d.zoomReads ≤ (e.children.map zoomReads).sum := by
    refine add_le_sum (i := i) (j := j) ?_ ?_ hne
    · rw [List.getElem?_map, hc, Option.map_some]
    · rw [List.getElem?_map, hd, Option.map_some]
  rw [zoomReads_eq e]
  omega

/-! ## Curves read the zoom level -/

/-- The input of a curve is its first child. -/
theorem exists_input (h : e.isZoomCurve = true) :
    ∃ input, e.children[0]? = some input ∧ input.isZoomInput = true := by
  obtain ⟨input, hinput, ⟨_, _, rfl⟩ | ⟨_, _, _, _, rfl⟩⟩ := isZoomCurve_iff.1 h
  · exact ⟨input, rfl, hinput⟩
  · exact ⟨input, rfl, hinput⟩

theorem nodes_of_isZoomInput (h : e.isZoomInput = true) : e.nodes = [e] := by
  obtain ⟨_, _, _, _, rfl, -⟩ := isZoomInput_iff.1 h
  rfl

theorem zoomReads_of_isZoomInput (h : e.isZoomInput = true) :
    e.zoomReads = 1 := by
  rw [zoomReads, nodes_of_isZoomInput h, List.countP_singleton,
    if_pos (readsZoom_of_isZoomInput h)]

theorem HasCurve.mem_nodes (h : e.HasCurve l) : l.node ∈ e.nodes := by
  obtain ⟨path, node⟩ := l
  obtain ⟨hat, -⟩ := h
  induction path generalizing e with
  | nil =>
      obtain rfl := Option.some.inj hat
      exact mem_nodes_self e
  | cons i path ih =>
      obtain ⟨c, hc, hat⟩ := Option.bind_eq_some_iff.1 hat
      exact mem_nodes_of_child (List.mem_of_getElem? hc) (ih hat)

theorem HasCurve.zoomReads_pos (h : e.HasCurve l) : 0 < e.zoomReads := by
  obtain ⟨input, hinput, hzoom⟩ := exists_input h.2
  have hmem : input ∈ l.node.children := List.mem_of_getElem? hinput
  have hnode := (zoomReads_le_of_child hmem).trans (zoomReads_le h.mem_nodes)
  rw [zoomReads_of_isZoomInput hzoom] at hnode
  exact hnode

/-- Below a curve the zoom level is read for its input and, where it is read
once, nowhere else. -/
theorem zoomReads_of_curve_child (h : e.isZoomCurve = true)
    (hone : e.zoomReads ≤ 1) (hc : e.children[i]? = some c) :
    c.isZoomInput = true ∨ c.zoomReads = 0 := by
  obtain ⟨input, hinput, hzoom⟩ := exists_input h
  by_cases hi : i = 0
  · subst hi
    obtain rfl := Option.some.inj (hinput.symm.trans hc)
    exact .inl hzoom
  · have hsum := zoomReads_add_le_of_ne hc hinput hi
    rw [zoomReads_of_isZoomInput hzoom] at hsum
    exact .inr (by omega)

/-- Below a curve there is no other where the zoom level is read once. -/
theorem not_hasCurve_of_curve_child (h : e.isZoomCurve = true)
    (hone : e.zoomReads ≤ 1) (hc : e.children[i]? = some c) :
    ¬ c.HasCurve l := by
  intro hl
  rcases zoomReads_of_curve_child h hone hc with hzoom | hnone
  · have hmem := hl.mem_nodes
    rw [nodes_of_isZoomInput hzoom, List.mem_singleton] at hmem
    have hcurve := hl.2
    rw [hmem] at hcurve
    cases c with
    | compound => cases hcurve
    | _ => cases hzoom
  · exact absurd hl.zoomReads_pos (by omega)

/-- Where the zoom level is read once there is one curve at most. -/
theorem HasCurve.unique (hone : e.zoomReads ≤ 1) (h : e.HasCurve l)
    (h' : e.HasCurve l') : l' = l := by
  induction e using Expr.induction generalizing l l' with
  | step e ih =>
      rcases hasCurve_iff.1 h with ⟨rfl, hcurve⟩ | ⟨i, c, l₁, hc, h₁, rfl⟩
      · rcases hasCurve_iff.1 h' with ⟨rfl, -⟩ | ⟨j, d, l₂, hd, h₂, rfl⟩
        · rfl
        · exact absurd h₂ (not_hasCurve_of_curve_child hcurve hone hd)
      · rcases hasCurve_iff.1 h' with ⟨rfl, hcurve⟩ | ⟨j, d, l₂, hd, h₂, rfl⟩
        · exact absurd h₁ (not_hasCurve_of_curve_child hcurve hone hc)
        · by_cases hij : i = j
          · subst hij
            obtain rfl := Option.some.inj (hc.symm.trans hd)
            have hmem := List.mem_of_getElem? hc
            have hle := (zoomReads_le_of_child hmem).trans hone
            rw [ih c (mem_operands_of_mem_children hmem) hle h₁ h₂]
          · have hsum := zoomReads_add_le_of_ne hc hd hij
            have := h₁.zoomReads_pos
            have := h₂.zoomReads_pos
            omega

/-! ## What stands around a curve -/

/-- Whether the node narrows its operands to a type. -/
def narrows : Expr → Bool
  | .assertion _ _ | .coercion _ _ => true
  | _ => false

theorem HasCurve.of_under (hc : e.children[i]? = some c)
    (h : e.HasCurve (l.under i)) : c.HasCurve l := by
  obtain ⟨hat, hcurve⟩ := h
  obtain ⟨d, hd, hat⟩ := Option.bind_eq_some_iff.1 hat
  obtain rfl := Option.some.inj (hc.symm.trans hd)
  exact ⟨hat, hcurve⟩

/-- Where the zoom level is read once, what reads it and is not the node stands
in the child with the curve. -/
theorem HasCurve.mem_nodes_of_reads (hone : e.zoomReads ≤ 1)
    (hc : e.children[i]? = some c) (h : c.HasCurve l) (hn : n ∈ e.nodes)
    (hne : n ≠ e) (hreads : 0 < n.zoomReads) : n ∈ c.nodes := by
  rw [nodes_eq] at hn
  obtain ⟨d, hd, hn⟩ := List.mem_flatMap.1 (List.mem_of_ne_of_mem hne hn)
  obtain ⟨j, hj⟩ := List.getElem?_of_mem hd
  by_cases hij : i = j
  · subst hij
    obtain rfl := Option.some.inj (hc.symm.trans hj)
    exact hn
  · have hsum := zoomReads_add_le_of_ne hc hj hij
    have hpos := h.zoomReads_pos
    have hle := zoomReads_le hn
    omega

/-- Where the zoom level is read once, and for a top-level curve, what reads it
narrows nothing. -/
theorem IsTopLevel.not_narrows (htop : e.IsTopLevel l) (h : e.HasCurve l)
    (hone : e.zoomReads ≤ 1) (hn : n ∈ e.nodes) (hreads : 0 < n.zoomReads) :
    n.narrows = false := by
  induction htop with
  | root e =>
      have hcurve : e.isZoomCurve = true := h.2
      rw [nodes_eq] at hn
      rcases List.mem_cons.1 hn with rfl | hn
      · cases n with
        | step | interpolate => rfl
        | _ => cases hcurve
      · obtain ⟨c, hc, hn⟩ := List.mem_flatMap.1 hn
        obtain ⟨i, hi⟩ := List.getElem?_of_mem hc
        rcases zoomReads_of_curve_child hcurve hone hi with hzoom | hnone
        · rw [nodes_of_isZoomInput hzoom, List.mem_singleton] at hn
          subst hn
          cases n with
          | compound => rfl
          | _ => cases hzoom
        · have hle := zoomReads_le hn
          omega
  | @body names body l _ ih =>
      have hc := getElem?_body names body
      by_cases hself : n = binding names body
      · rw [hself]
        rfl
      · have hbody := h.of_under hc
        have hle := (zoomReads_le_of_child (List.mem_of_getElem? hc)).trans hone
        exact ih hbody hle (hbody.mem_nodes_of_reads hone hc hn hself hreads)
  | @operand ty args i arg l harg _ ih =>
      have hc : (coalesce ty args).children[i]? = some arg := harg
      by_cases hself : n = coalesce ty args
      · rw [hself]
        rfl
      · have harg := h.of_under hc
        have hle := (zoomReads_le_of_child (List.mem_of_getElem? hc)).trans hone
        exact ih harg hle (harg.mem_nodes_of_reads hone hc hn hself hreads)

end Expr

end MapStyle
