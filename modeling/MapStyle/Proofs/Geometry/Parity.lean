import MapStyle.Proofs.Geometry.Segments

/-!
# How often a ray meets a ring

A point is inside a polygon when the ray from it crosses the edges an odd number
of times. That this is a fact about the region, and not about the ray, is what
comes out here: two points have the same answer if no edge has a point in common
with the segment between them (`oddMany_rayCrosses_congr`).

The argument stays in the strip between the heights of the two points. What is
in it to the right of the segment between them is an area (`rightOf`), and an
edge that does not meet that segment is crossed by exactly one of the two rays
if and only if it leads into the area or out of it (`rayCrosses_xor`). A closed
ring does that an even number of times.
-/

namespace MapStyle.Geometry

/-! ## Parity -/

section Parity

variable {β γ : Type} (f g : β → Bool)

/-- Whether a test holds of an odd number of items. -/
def oddMany (l : List β) : Bool :=
  l.countP f % 2 == 1

theorem oddMany_nil : oddMany f [] = false := rfl

theorem oddMany_cons (x : β) (l : List β) :
    oddMany f (x :: l) = (f x ^^ oddMany f l) := by
  rw [oddMany, oddMany, List.countP_cons, Bool.eq_iff_iff]
  cases f x with
  | false => simp
  | true => simp; omega

theorem oddMany_append (l l' : List β) :
    oddMany f (l ++ l') = (oddMany f l ^^ oddMany f l') := by
  induction l with
  | nil => rw [List.nil_append, oddMany_nil, Bool.false_xor]
  | cons x l ih =>
      rw [List.cons_append, oddMany_cons, oddMany_cons, ih, Bool.xor_assoc]

theorem oddMany_flatMap {rows : List γ} {h : γ → List β}
    (heven : ∀ row ∈ rows, oddMany f (h row) = false) :
    oddMany f (rows.flatMap h) = false := by
  induction rows with
  | nil => rfl
  | cons row rows ih =>
      rw [List.flatMap_cons, oddMany_append, heven row List.mem_cons_self,
        ih fun row hmem => heven row (List.mem_cons_of_mem _ hmem),
        Bool.xor_self]

theorem oddMany_xor (l : List β) :
    oddMany (fun x => f x ^^ g x) l = (oddMany f l ^^ oddMany g l) := by
  induction l with
  | nil => rfl
  | cons x l ih =>
      rw [oddMany_cons, oddMany_cons, oddMany_cons, ih, Bool.xor_assoc,
        Bool.xor_assoc, Bool.xor_left_comm (g x)]

theorem oddMany_congr {f g : β → Bool} {l : List β}
    (h : ∀ x ∈ l, f x = g x) : oddMany f l = oddMany g l := by
  rw [oddMany, oddMany, List.countP_congr fun x hx => by rw [h x hx]]

end Parity

/-! ## Rings -/

section Rings

variable {α : Type}

/-- Whether the first vertex of a ring is repeated as its last one. -/
def Closed (ring : Ring α) : Prop :=
  ring.head? = ring.getLast?

theorem edges_cons_cons (v w : Position α) (line : List (Position α)) :
    edges (v :: w :: line) = (v, w) :: edges (w :: line) := rfl

/-- Along a line an area is entered and left an odd number of times just if one
end of the line is in it and the other one is not. -/
theorem oddMany_edges (area : Position α → Bool) (v : Position α)
    (ring : Ring α) :
    oddMany (fun e => area e.1 ^^ area e.2) (edges (v :: ring))
      = (area v ^^ area ((v :: ring).getLast (List.cons_ne_nil v ring))) := by
  induction ring generalizing v with
  | nil => simp [edges, oddMany_nil]
  | cons w ring ih =>
      rw [edges_cons_cons, oddMany_cons, ih,
        List.getLast_cons (List.cons_ne_nil w ring), Bool.xor_assoc,
        ← Bool.xor_assoc (area w), Bool.xor_self, Bool.false_xor]

theorem oddMany_closed (area : Position α → Bool) {ring : Ring α}
    (h : Closed ring) :
    oddMany (fun e => area e.1 ^^ area e.2) (edges ring) = false := by
  cases ring with
  | nil => rfl
  | cons v ring =>
      rw [Closed, List.head?_cons,
        List.getLast?_eq_some_getLast (List.cons_ne_nil v ring),
        Option.some_inj] at h
      rw [oddMany_edges, ← h, Bool.xor_self]

end Rings

/-! ## The strip between two points -/

section Strip

variable {α : Type} [Field α]

/-- The point of the line through `a` and `b` at the height of `p`. -/
def atHeight (p a b : Position α) : Position α :=
  ⟨(b.x - a.x) * (p.y - a.y) / (b.y - a.y) + a.x, p.y⟩

theorem along_eq_atHeight {p a b : Position α} (h : b.y - a.y ≠ 0) :
    along a b ((p.y - a.y) / (b.y - a.y)) = atHeight p a b := by
  ext <;> simp only [along, atHeight]
  · ring
  · rw [mul_div_cancel₀ _ h]
    ring

theorem atHeight_swap {p a b : Position α} (h : b.y - a.y ≠ 0) :
    atHeight p b a = atHeight p a b := by
  have hneg : a.y - b.y = -(b.y - a.y) := by ring
  rw [← along_eq_atHeight h, ← along_eq_atHeight (hneg ▸ neg_ne_zero.2 h),
    along_reverse a b, hneg]
  congr 1
  rw [div_neg, sub_neg_eq_add, one_add_div h]
  congr 1
  ring

variable [LinearOrder α] [IsStrictOrderedRing α] {a b c c' p q : Position α}

theorem onSegment_atHeight (hab : a.y < b.y) (ha : a.y ≤ p.y) (hb : p.y ≤ b.y) :
    OnSegment a b (atHeight p a b) := by
  have hpos : 0 < b.y - a.y := sub_pos.2 hab
  refine ⟨(p.y - a.y) / (b.y - a.y), ?_, ?_, along_eq_atHeight hpos.ne'⟩
  · exact div_nonneg (sub_nonneg.2 ha) hpos.le
  · exact (div_le_one hpos).2 (sub_le_sub_right hb a.y)

/-- An edge with one end above the height of `p` contains a point there. -/
theorem onSegment_atHeight_of_ne
    (h : decide (p.y < a.y) ≠ decide (p.y < b.y)) :
    OnSegment a b (atHeight p a b) := by
  rcases lt_or_ge p.y a.y with ha | ha <;> rcases lt_or_ge p.y b.y with hb | hb
  · simp [ha, hb] at h
  · have hba := hb.trans_lt ha
    rw [← atHeight_swap (sub_neg.2 hba).ne]
    exact (onSegment_atHeight hba hb ha.le).symm
  · exact onSegment_atHeight (ha.trans_lt hb) ha hb.le
  · simp [ha.not_gt, hb.not_gt] at h

/-- A point of the strip that is on neither side is on the segment. -/
theorem onSegment_of_side (hpq : p.y < q.y) (hc : p.y ≤ c.y) (hc' : c.y ≤ q.y)
    (hside : side p q c = 0) : OnSegment p q c := by
  have hne : q.y - p.y ≠ 0 := (sub_pos.2 hpq).ne'
  have heq : atHeight c p q = c := by
    ext
    · rw [side, sub_eq_zero, mul_comm (q.y - p.y)] at hside
      simp only [atHeight]
      rw [hside, mul_div_cancel_right₀ _ hne, sub_add_cancel]
    · rfl
  rw [← heq]
  exact onSegment_atHeight hpq hc hc'

/-- What an edge has in the strip is all on one side, if the edge does not meet
the segment. -/
theorem side_neg_of_apart (hpq : p.y < q.y) (hapart : Apart p q a b)
    (hc : OnSegment a b c) (hc' : OnSegment a b c')
    (hstrip : p.y ≤ c.y ∧ c.y ≤ q.y) (hstrip' : p.y ≤ c'.y ∧ c'.y ≤ q.y)
    (hneg : side p q c < 0) : side p q c' < 0 := by
  by_contra hge
  rcases (not_lt.1 hge).eq_or_lt with heq | hpos
  · exact hapart c' (onSegment_of_side hpq hstrip'.1 hstrip'.2 heq.symm) hc'
  obtain ⟨t, ht, ht', hmix⟩ :=
    exists_mix_of_opposite (opposite_iff.2 (.inr ⟨hneg, hpos⟩))
  have hzero : side p q (along c c' t) = 0 :=
    (side_along c c' p q t).trans hmix
  refine hapart _ (onSegment_of_side hpq ?_ ?_ hzero)
    (onSegment_along hc hc' ht.le ht'.le)
  · rw [along_y]
    exact le_mix ht.le ht'.le hstrip.1 hstrip'.1
  · rw [along_y]
    exact mix_le ht.le ht'.le hstrip.2 hstrip'.2

/-- The edge decides on which side of the segment it passes the strip. -/
theorem exists_side_of_apart (hpq : p.y < q.y) (hapart : Apart p q a b) :
    ∃ r, ∀ c, OnSegment a b c → p.y ≤ c.y → c.y ≤ q.y →
      decide (side p q c < 0) = r := by
  by_cases hex : ∃ c, OnSegment a b c ∧ (p.y ≤ c.y ∧ c.y ≤ q.y) ∧ side p q c < 0
  · obtain ⟨c, hc, hstrip, hneg⟩ := hex
    exact ⟨true, fun c' hc' hlo hhi => decide_eq_true
      (side_neg_of_apart hpq hapart hc hc' hstrip ⟨hlo, hhi⟩ hneg)⟩
  · exact ⟨false, fun c hc hlo hhi => decide_eq_false fun hneg =>
      hex ⟨c, hc, ⟨hlo, hhi⟩, hneg⟩⟩

/-- Points of one height are passed by an edge on the same side. -/
theorem lt_atHeight_of_apart (hpq : p.y = q.y) (hapart : Apart p q a b)
    (hne : decide (p.y < a.y) ≠ decide (p.y < b.y))
    (hlt : p.x < (atHeight p a b).x) : q.x < (atHeight q a b).x := by
  have hpos := onSegment_atHeight_of_ne hne
  by_contra hge
  have hle : (atHeight p a b).x ≤ q.x := by
    simpa only [atHeight, hpq, not_lt] using hge
  have hpq' : 0 < q.x - p.x := sub_pos.2 (hlt.trans_le hle)
  refine hapart _ ⟨((atHeight p a b).x - p.x) / (q.x - p.x), ?_, ?_, ?_⟩ hpos
  · exact div_nonneg (sub_nonneg.2 hlt.le) hpq'.le
  · exact (div_le_one hpq').2 (sub_le_sub_right hle p.x)
  · ext
    · simp only [along]
      rw [mul_div_cancel₀ _ hpq'.ne', add_sub_cancel]
    · simp only [along, hpq, sub_self, zero_mul, add_zero, atHeight]

theorem side_atHeight_first (hpq : p.y < q.y) :
    side p q (atHeight p a b) < 0 ↔ p.x < (atHeight p a b).x := by
  have hside : side p q (atHeight p a b)
      = -((q.y - p.y) * ((atHeight p a b).x - p.x)) := by
    simp only [side, atHeight]
    ring
  rw [hside, neg_lt_zero, mul_pos_iff_of_pos_left (sub_pos.2 hpq), sub_pos]

theorem side_atHeight_second (hpq : p.y < q.y) :
    side p q (atHeight q a b) < 0 ↔ q.x < (atHeight q a b).x := by
  have hside : side p q (atHeight q a b)
      = -((q.y - p.y) * ((atHeight q a b).x - q.x)) := by
    simp only [side, atHeight]
    ring
  rw [hside, neg_lt_zero, mul_pos_iff_of_pos_left (sub_pos.2 hpq), sub_pos]

/-! ## Two rays -/

/-- The part of the strip to the right of the segment from `p` to `q`. As for
edges, its lower end does not belong to it. -/
def rightOf (p q v : Position α) : Bool :=
  decide (p.y < v.y) && !decide (q.y < v.y) && decide (side p q v < 0)

omit [IsStrictOrderedRing α] in
theorem rightOf_eq {v : Position α} {r : Bool} (hpq : p.y ≤ q.y)
    (h : p.y < v.y → v.y ≤ q.y → decide (side p q v < 0) = r) :
    rightOf p q v = ((decide (p.y < v.y) ^^ decide (q.y < v.y)) && r) := by
  rw [rightOf]
  by_cases hp : p.y < v.y
  · by_cases hq : q.y < v.y
    · simp [hp, hq]
    · simp [hp, hq, h hp (not_lt.1 hq)]
  · have hq : ¬ q.y < v.y := fun hq => hp (hpq.trans_lt hq)
    simp [hp, hq]

omit [IsStrictOrderedRing α] in
theorem rayCrosses_eq {r : Bool}
    (h : decide (p.y < a.y) ≠ decide (p.y < b.y) →
      decide (p.x < (atHeight p a b).x) = r) :
    rayCrosses p a b = ((decide (p.y < a.y) ^^ decide (p.y < b.y)) && r) := by
  rw [rayCrosses, Bool.bne_eq_xor]
  by_cases hne : decide (p.y < a.y) = decide (p.y < b.y)
  · rw [hne, Bool.xor_self, Bool.false_and, Bool.false_and]
  · rw [← h hne]
    rfl

/-- What the crossings of both rays and the ends of the edge in the area between
them have in common: the side on which the edge passes the segment. -/
theorem exists_common_side (hpq : p.y ≤ q.y) (hapart : Apart p q a b) :
    ∃ r,
      (decide (p.y < a.y) ≠ decide (p.y < b.y) →
        decide (p.x < (atHeight p a b).x) = r) ∧
      (decide (q.y < a.y) ≠ decide (q.y < b.y) →
        decide (q.x < (atHeight q a b).x) = r) ∧
      ∀ v, OnSegment a b v → p.y < v.y → v.y ≤ q.y →
        decide (side p q v < 0) = r := by
  rcases hpq.lt_or_eq with hlt | heq
  · obtain ⟨r, hr⟩ := exists_side_of_apart hlt hapart
    refine ⟨r, fun hne => ?_, fun hne => ?_,
      fun v hv hlo hhi => hr v hv hlo.le hhi⟩
    · rw [← hr _ (onSegment_atHeight_of_ne hne) le_rfl hpq,
        decide_eq_decide, side_atHeight_first hlt]
    · rw [← hr _ (onSegment_atHeight_of_ne hne) hpq le_rfl,
        decide_eq_decide, side_atHeight_second hlt]
  · refine ⟨_, fun _ => rfl, fun hne => ?_, fun v _ hlo hhi => ?_⟩
    · have hne' : decide (p.y < a.y) ≠ decide (p.y < b.y) := heq ▸ hne
      exact decide_eq_decide.2 ⟨lt_atHeight_of_apart heq.symm hapart.symm hne,
        lt_atHeight_of_apart heq hapart hne'⟩
    · exact absurd hlo (hhi.trans_eq heq.symm).not_gt

/-- An edge that does not meet the segment between two points is crossed by the
ray from one of them, but not by the other ray, just if it leads into the area
between the rays or out of it. -/
theorem rayCrosses_xor (hpq : p.y ≤ q.y) (hapart : Apart p q a b) :
    (rayCrosses p a b ^^ rayCrosses q a b)
      = (rightOf p q a ^^ rightOf p q b) := by
  obtain ⟨r, hp, hq, hside⟩ := exists_common_side hpq hapart
  rw [rayCrosses_eq hp, rayCrosses_eq hq,
    rightOf_eq hpq (hside a (onSegment_first a b)),
    rightOf_eq hpq (hside b (onSegment_second a b)),
    ← Bool.and_xor_distrib_right, ← Bool.and_xor_distrib_right, Bool.xor_assoc,
    Bool.xor_assoc, Bool.xor_left_comm (decide (p.y < b.y))]

/-! ## The whole polygon -/

/-- Between two points that no edge separates the number of crossings stays odd
or even. -/
theorem oddMany_rayCrosses_congr {polygon : Polygon α}
    (hclosed : ∀ ring ∈ polygon, Closed ring)
    (hapart : ∀ e ∈ polygon.flatMap edges, Apart p q e.1 e.2) :
    oddMany (fun e => rayCrosses p e.1 e.2) (polygon.flatMap edges)
      = oddMany (fun e => rayCrosses q e.1 e.2) (polygon.flatMap edges) := by
  wlog hpq : p.y ≤ q.y generalizing p q
  · exact (this (fun e he => (hapart e he).symm) (le_of_not_ge hpq)).symm
  rw [← bne_eq_false_iff_eq, Bool.bne_eq_xor, ← oddMany_xor,
    oddMany_congr fun e he => rayCrosses_xor hpq (hapart e he)]
  exact oddMany_flatMap _ fun ring hring =>
    oddMany_closed (rightOf p q) (hclosed ring hring)

end Strip

end MapStyle.Geometry
