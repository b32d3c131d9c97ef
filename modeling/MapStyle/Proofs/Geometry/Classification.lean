import MapStyle.Geometry.Rings
import Mathlib.Data.List.Basic
import Mathlib.Data.List.Induction
import Mathlib.Data.List.ModifyLast

/-!
# Rings and the polygons they belong to

The polygons of a list of rings, one after the other, are its rings with an
area in their order, and each of them is a ring that runs like the first of
these, followed by rings that run the other way (`Classified`). A list can be
cut like that in one way only (`Classified.classify_eq`), so this says all there
is to say about `classify`. It is also what one gets by going through the rings
with nothing in hand but the winding of the first one and the polygons begun so
far (`Gathered`): a ring is skipped, starts a polygon or is a hole of the last
one, and each of the three makes a classification of one ring more.

Nothing is assumed about the numbers, so all of this holds of doubles, however
their areas are rounded. A ring whose area is not a number is among those that
have one, and runs clockwise.
-/

namespace MapStyle.Geometry

/-! ## Groups that are opened by an element -/

section Groups

variable {β : Type} {opens : β → Bool}

theorem openGroups_append {followers rest : List β}
    (h : ∀ b ∈ followers, opens b = false) :
    openGroups opens (followers ++ rest) =
      (followers ++ (openGroups opens rest).1, (openGroups opens rest).2) := by
  induction followers with
  | nil => rfl
  | cons b followers ih =>
      obtain ⟨hb, hfollowers⟩ := List.forall_mem_cons.1 h
      rw [List.cons_append, openGroups, ih hfollowers]
      simp only [hb, Bool.false_eq_true, if_false, List.cons_append]

/-- Groups that are put together are found again if each is opened by its first
element and by no other. -/
theorem openGroups_flatten {groups : List (List β)}
    (h : ∀ group ∈ groups, ∃ first followers, group = first :: followers ∧
      opens first = true ∧ ∀ b ∈ followers, opens b = false) :
    openGroups opens groups.flatten = ([], groups) := by
  induction groups with
  | nil => rfl
  | cons group groups ih =>
      obtain ⟨⟨first, followers, rfl, hfirst, hfollowers⟩, hgroups⟩ :=
        List.forall_mem_cons.1 h
      rw [List.flatten_cons, List.cons_append, openGroups,
        openGroups_append hfollowers, ih hgroups]
      simp only [hfirst, if_true, List.append_nil]

end Groups

variable {α : Type} [Add α] [Sub α] [Mul α] [Zero α] [LT α] [DecidableLT α]
  [BEq α]

/-! ## What a classification is -/

def hasArea (ring : Ring α) : Bool :=
  !(signedArea ring == 0)

/-- Whether a ring runs counterclockwise when `y` points down. -/
def counterclockwise (ring : Ring α) : Bool :=
  decide (signedArea ring < 0)

/-- A polygon with an exterior that runs like `first` and holes that run the
other way. -/
def WoundLike (first : Ring α) (polygon : Polygon α) : Prop :=
  ∃ exterior holes, polygon = exterior :: holes ∧
    counterclockwise exterior = counterclockwise first ∧
    ∀ hole ∈ holes, counterclockwise hole = !counterclockwise first

/-- The rings that have an area, cut into polygons that are all wound like the
first of them. -/
structure Classified (rings : List (Ring α)) (polygons : List (Polygon α)) :
    Prop where
  flatten_eq : polygons.flatten = rings.filter hasArea
  wound : ∀ polygon ∈ polygons, ∃ first,
    rings.find? hasArea = some first ∧ WoundLike first polygon

variable {rings : List (Ring α)} {polygons : List (Polygon α)}
  {ring first : Ring α}

theorem classify_of_none (h : rings.find? hasArea = none) :
    classify rings = [] := by
  have hnone : rings.filter (fun ring => !(signedArea ring == 0)) = [] :=
    List.filter_eq_nil_iff.2 (List.find?_eq_none.1 h)
  rw [classify, classifyBy, hnone]

theorem classify_of_some (h : rings.find? hasArea = some first) :
    classify rings =
      (openGroups (fun ring => counterclockwise ring == counterclockwise first)
        (rings.filter hasArea)).2 := by
  obtain ⟨rest, hrest⟩ :=
    List.head?_eq_some_iff.1 (List.head?_filter.trans h)
  have hsome : rings.filter (fun ring => !(signedArea ring == 0)) =
      first :: rest := hrest
  rw [classify, classifyBy, hsome, hrest]
  rfl

namespace Classified

theorem eq_nil (h : Classified rings polygons)
    (hnone : rings.find? hasArea = none) : polygons = [] :=
  List.eq_nil_iff_forall_not_mem.2 fun polygon hpolygon => by
    obtain ⟨first, hfirst, -⟩ := h.wound polygon hpolygon
    exact Option.some_ne_none first (hfirst.symm.trans hnone)

theorem ne_nil (h : Classified rings polygons)
    (hfirst : rings.find? hasArea = some first) : polygons ≠ [] := by
  rintro rfl
  have hmem : first ∈ rings.filter hasArea :=
    List.mem_of_mem_head? (List.head?_filter.trans hfirst)
  rw [← h.flatten_eq] at hmem
  cases hmem

theorem woundLike (h : Classified rings polygons)
    (hfirst : rings.find? hasArea = some first) :
    ∀ polygon ∈ polygons, WoundLike first polygon := fun polygon hpolygon => by
  obtain ⟨first', hfirst', hwound⟩ := h.wound polygon hpolygon
  obtain rfl := Option.some.inj (hfirst.symm.trans hfirst')
  exact hwound

/-- A list can be classified in one way only. -/
theorem classify_eq (h : Classified rings polygons) :
    classify rings = polygons := by
  cases hfirst : rings.find? hasArea with
  | none => rw [classify_of_none hfirst, h.eq_nil hfirst]
  | some first =>
      rw [classify_of_some hfirst, ← h.flatten_eq, openGroups_flatten]
      intro polygon hpolygon
      obtain ⟨exterior, holes, rfl, hexterior, hholes⟩ :=
        h.woundLike hfirst polygon hpolygon
      refine ⟨exterior, holes, rfl, beq_iff_eq.2 hexterior, fun hole hhole => ?_⟩
      rw [hholes hole hhole, Bool.not_beq_self]

/-! ## One more ring -/

theorem skip (h : Classified rings polygons) (harea : hasArea ring = false) :
    Classified (rings ++ [ring]) polygons where
  flatten_eq := by
    rw [h.flatten_eq, List.filter_append, List.filter_singleton, harea,
      cond_false, List.append_nil]
  wound polygon hpolygon := by
    obtain ⟨first, hfirst, hwound⟩ := h.wound polygon hpolygon
    exact ⟨first, by rw [List.find?_append, hfirst, Option.some_or], hwound⟩

/-- A ring that runs like the first one, or is the first one itself, starts a
polygon. -/
theorem start (h : Classified rings polygons) (harea : hasArea ring = true)
    (hwinding : ∀ first ∈ rings.find? hasArea,
      counterclockwise ring = counterclockwise first) :
    Classified (rings ++ [ring]) (polygons ++ [[ring]]) where
  flatten_eq := by
    rw [List.flatten_append, h.flatten_eq, List.filter_append,
      List.filter_singleton, harea]
    rfl
  wound := by
    rw [List.find?_append, List.find?_singleton, if_pos harea, Option.or_some]
    refine List.forall_mem_append.2 ⟨fun polygon hpolygon => ?_,
      List.forall_mem_singleton.2 ?_⟩
    · obtain ⟨first, hfirst, hwound⟩ := h.wound polygon hpolygon
      exact ⟨first, by rw [hfirst, Option.getD_some], hwound⟩
    · refine ⟨_, rfl, ring, [], rfl, ?_, List.forall_mem_nil _⟩
      cases hfirst : rings.find? hasArea with
      | none => rfl
      | some first => exact hwinding first hfirst

/-- A ring that runs the other way is a hole of the last polygon. -/
theorem hole {polygon : Polygon α}
    (h : Classified rings (polygons ++ [polygon])) (harea : hasArea ring = true)
    (hfirst : rings.find? hasArea = some first)
    (hwinding : counterclockwise ring = !counterclockwise first) :
    Classified (rings ++ [ring]) (polygons ++ [polygon ++ [ring]]) where
  flatten_eq := by
    rw [List.flatten_concat, ← List.append_assoc, ← List.flatten_concat,
      h.flatten_eq, List.filter_append, List.filter_singleton, harea, cond_true]
  wound := by
    obtain ⟨hbefore, hlast⟩ :=
      List.forall_mem_append.1 (h.woundLike hfirst)
    rw [List.find?_append, hfirst, Option.some_or]
    refine List.forall_mem_append.2
      ⟨fun before hmem => ⟨first, rfl, hbefore before hmem⟩,
        List.forall_mem_singleton.2 ⟨first, rfl, ?_⟩⟩
    obtain ⟨exterior, holes, rfl, hexterior, hholes⟩ :=
      List.forall_mem_singleton.1 hlast
    exact ⟨exterior, holes ++ [ring], rfl, hexterior,
      List.forall_mem_append.2 ⟨hholes, List.forall_mem_singleton.2 hwinding⟩⟩

end Classified

/-! ## One ring after the other -/

/-- The polygons begun so far, and the winding that starts another one once a
ring that has an area was seen. -/
structure Gathered (α : Type) where
  winding : Option Bool
  polygons : List (Polygon α)

namespace Gathered

def add (gathered : Gathered α) (ring : Ring α) : Gathered α :=
  if hasArea ring then
    let starts := gathered.winding.getD (counterclockwise ring)
    if counterclockwise ring == starts || gathered.polygons.isEmpty then
      ⟨some starts, gathered.polygons ++ [[ring]]⟩
    else ⟨some starts, gathered.polygons.modifyLast (· ++ [ring])⟩
  else gathered

def ofRings (rings : List (Ring α)) : Gathered α :=
  rings.foldl add ⟨none, []⟩

/-- What is gathered from some rings: their classification, and how the first
one with an area runs. -/
structure Holds (gathered : Gathered α) (rings : List (Ring α)) : Prop where
  winding_eq : gathered.winding = (rings.find? hasArea).map counterclockwise
  classified : Classified rings gathered.polygons

theorem Holds.add {gathered : Gathered α} (h : gathered.Holds rings)
    (ring : Ring α) : (gathered.add ring).Holds (rings ++ [ring]) := by
  obtain ⟨winding, polygons⟩ := gathered
  obtain ⟨hwinding, hclassified⟩ := h
  dsimp only at hwinding hclassified
  subst hwinding
  cases harea : hasArea ring with
  | false =>
      rw [Gathered.add, if_neg (Bool.eq_false_iff.1 harea)]
      refine ⟨?_, hclassified.skip harea⟩
      rw [List.find?_append, List.find?_singleton, harea,
        if_neg Bool.false_ne_true, Option.or_none]
  | true =>
      have hstarts : some (((rings.find? hasArea).map counterclockwise).getD
          (counterclockwise ring)) =
            ((rings ++ [ring]).find? hasArea).map counterclockwise := by
        rw [List.find?_append, List.find?_singleton, if_pos harea,
          Option.or_some, Option.map_some, Option.getD_map]
      rw [Gathered.add, if_pos harea]
      dsimp only
      split
      · next hstart =>
        refine ⟨hstarts, hclassified.start harea fun first hfirst => ?_⟩
        -- Once a ring with an area was seen there is a polygon, so it is the
        -- winding that decides.
        have hbegun : polygons.isEmpty = false :=
          List.isEmpty_eq_false_iff.2 (hclassified.ne_nil hfirst)
        rw [hbegun, Bool.or_false, beq_iff_eq, hfirst] at hstart
        exact hstart
      · next hhole =>
        rw [Bool.or_eq_true, not_or, beq_iff_eq, List.isEmpty_iff] at hhole
        obtain ⟨hother, hbegun⟩ := hhole
        obtain ⟨before, polygon, rfl⟩ :=
          (List.eq_nil_or_concat' polygons).resolve_left hbegun
        rw [List.modifyLast_concat]
        cases hfirst : rings.find? hasArea with
        | none => exact absurd (hclassified.eq_nil hfirst) hbegun
        | some first =>
            rw [hfirst] at hother hstarts
            exact ⟨hstarts, hclassified.hole harea hfirst
              (Bool.eq_not_of_ne hother)⟩

theorem holds_ofRings (rings : List (Ring α)) :
    (ofRings rings).Holds rings := by
  induction rings using List.reverseRecOn with
  | nil => exact ⟨rfl, rfl, List.forall_mem_nil _⟩
  | append_singleton rings ring ih =>
      rw [ofRings, List.foldl_append]
      exact ih.add ring

end Gathered

theorem classified_classify (rings : List (Ring α)) :
    Classified rings (classify rings) := by
  have hclassified := (Gathered.holds_ofRings rings).classified
  rwa [← hclassified.classify_eq] at hclassified

/-- Classifying rings loses none that has an area and duplicates none: the
polygons are the one way to cut these rings, in their order, so that each
polygon has an exterior wound like the first of them and holes wound the other
way. Going through the rings one after the other leads there as well. -/
theorem classify_eq_iff (rings : List (Ring α)) (polygons : List (Polygon α)) :
    (classify rings = polygons ↔ Classified rings polygons) ∧
      (Gathered.ofRings rings).polygons = classify rings := by
  refine ⟨⟨?_, Classified.classify_eq⟩,
    (Gathered.holds_ofRings rings).classified.classify_eq.symm⟩
  rintro rfl
  exact classified_classify rings

/-- The first ring with an area may run either way, and what has none belongs
to no polygon. -/
example :
    let triangle : Ring Float := [⟨0, 0⟩, ⟨0, 4⟩, ⟨4, 0⟩, ⟨0, 0⟩]
    let line : Ring Float := [⟨0, 0⟩, ⟨4, 0⟩, ⟨0, 0⟩]
    classify [line, triangle, triangle.reverse, line, triangle.reverse,
      triangle] =
        [[triangle, triangle.reverse, triangle.reverse], [triangle]] := by
  decide +kernel

end MapStyle.Geometry
