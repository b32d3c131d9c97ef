import MapStyle.Proofs.Geometry.Wrap
import MapStyle.Semantics.Region

/-!
# Distances as the loops leave them

`Ruler.wrap` is a function, so it has a value for every angle, also for those
whose loops never end. The definitions here measure with `Ruler.wrap?` instead,
in the order and with the shortcuts of an evaluation that goes from left to
right: they have no value as soon as one angle on the way is not wrapped.
`Computes P x? x` is what is proved of each of them, that such a run comes to
nothing but `x` and that it comes to an end if `P` holds, with `P` a bound on the
longitudes it reads.

Longitudes of up to `2 ^ 60` are safe: their differences are at most `2 ^ 61`,
and the point of a segment that is nearest to another point is at most a turn
away from the start of the segment, since a segment is not scaled beyond its end
(`bounded_scaled`).
-/

namespace MapStyle

variable {β γ : Type}

/-- A run that comes to `x` where it ends, and that ends if `P` holds. -/
structure Computes (P : Prop) (x? : Option β) (x : β) : Prop where
  agrees : ∀ y, x? = some y → y = x
  ends : P → x?.isSome = true

namespace Computes

variable {P Q : Prop} {x? : Option β} {x : β}

theorem eq_some (h : Computes P x? x) (hP : P) : x? = some x := by
  obtain ⟨y, hy⟩ := Option.isSome_iff_exists.1 (h.ends hP)
  rw [hy, h.agrees y hy]

theorem pure (x : β) : Computes P (some x) x :=
  ⟨fun _ h => (Option.some_inj.1 h).symm, fun _ => rfl⟩

theorem mono (h : Computes P x? x) (hPQ : Q → P) : Computes Q x? x :=
  ⟨h.agrees, fun hQ => h.ends (hPQ hQ)⟩

theorem bind {f? : β → Option γ} {y : γ} (hx : Computes P x? x)
    (hf : Computes P (f? x) y) : Computes P (x? >>= f?) y where
  agrees z h := by
    obtain ⟨x', hx', hz⟩ := Option.bind_eq_some_iff.1 h
    rw [hx.agrees x' hx'] at hz
    exact hf.agrees z hz
  ends hP := by
    rw [hx.eq_some hP]
    exact hf.ends hP

theorem ite {c : Prop} [Decidable c] {y? : Option β} {y : β}
    (hx : c → Computes P x? x) (hy : ¬ c → Computes P y? y) :
    Computes P (if c then x? else y?) (if c then x else y) := by
  by_cases hc : c
  · rw [if_pos hc, if_pos hc]
    exact hx hc
  · rw [if_neg hc, if_neg hc]
    exact hy hc

theorem mapM {f? : β → Option γ} {f : β → γ} {xs : List β}
    (h : ∀ x ∈ xs, Computes P (f? x) (f x)) :
    Computes P (xs.mapM f?) (xs.map f) := by
  induction xs with
  | nil => exact pure []
  | cons x xs ih =>
      obtain ⟨hx, hxs⟩ := List.forall_mem_cons.1 h
      rw [List.mapM_cons]
      exact hx.bind ((ih hxs).bind (pure _))

/-- Items are looked at up to the first that is found. -/
theorem anyM {f? : β → Option Bool} {f : β → Bool} {xs : List β}
    (h : ∀ x ∈ xs, Computes P (f? x) (f x)) :
    Computes P (xs.anyM f?) (xs.any f) := by
  induction xs with
  | nil => exact pure false
  | cons x xs ih =>
      obtain ⟨hx, hxs⟩ := List.forall_mem_cons.1 h
      refine hx.bind ?_
      rw [List.any_cons]
      cases f x with
      | true => exact pure true
      | false => exact ih hxs

/-- The second question is asked if the answer to the first one is no. -/
theorem or {x? y? : Option Bool} {x y : Bool} (hx : Computes P x? x)
    (hy : Computes P y? y) : Computes P (x? <||> y?) (x || y) := by
  refine hx.bind ?_
  cases x with
  | true => exact pure true
  | false => exact hy

end Computes

open Number

noncomputable section

namespace Geometry

namespace Ruler

variable (ruler : Ruler Float)

def distance? (a b : Position Float) : Option Float := do
  let dx := (← wrap? (a.x - b.x)) * ruler.kx
  let dy := (a.y - b.y) * ruler.ky
  return Measurable.sqrt (dx * dx + dy * dy)

def toSegment? (p a b : Position Float) : Option Float := do
  let dx := (← wrap? (b.x - a.x)) * ruler.kx
  let dy := (b.y - a.y) * ruler.ky
  if dx == 0 && dy == 0 then ruler.distance? p a
  else
    let t := ((← wrap? (p.x - a.x)) * ruler.kx * dx +
      (p.y - a.y) * ruler.ky * dy) / (dx * dx + dy * dy)
    if 1 < t then ruler.distance? p b
    else if 0 < t then
      ruler.distance? p ⟨a.x + dx / ruler.kx * t, a.y + dy / ruler.ky * t⟩
    else ruler.distance? p a

theorem wrap?_computes (x : Float) :
    Computes (Bounded 62 x) (wrap? x) (wrap x) where
  agrees _ := eq_wrap
  ends h := by
    rw [wrap?_eq_wrap h]
    rfl

variable {p a b : Position Float}

theorem distance?_computes :
    Computes (Bounded 62 (a.x - b.x)) (ruler.distance? a b)
      (ruler.distance a b) :=
  (wrap?_computes _).bind (.pure _)

/-- What is positive and not above one. -/
theorem bounded_unit {t : Float} (hpos : 0 < t) (hone : ¬ 1 < t) :
    Bounded 0 t := by
  have hone' := value_ofNat_of_le (n := 1) (by decide)
  have hzero' := value_ofNat_of_le (n := 0) (by decide)
  rw [show (1 : Float) = Float.ofNat 1 from rfl, gt_iff_value hone'.1,
    hone'.2] at hone
  rw [show (0 : Float) = Float.ofNat 0 from rfl, gt_iff_value hzero'.1,
    hzero'.2] at hpos
  obtain hinf | ⟨hfinite, hpos⟩ := hpos
  · exact absurd (.inl hinf) hone
  · have hle : value t ≤ 1 := not_lt.1 fun hlt =>
      hone (.inr ⟨hfinite, by exact_mod_cast hlt⟩)
    push_cast at hpos
    exact .inr ⟨hfinite, by rw [abs_of_pos hpos, pow_zero]; exact hle⟩

/-- How far along the longitude a point of a segment is from its start. -/
theorem bounded_scaled {w t rest num : Float} (hw : Bounded 8 w)
    (ht : t = num / (w * ruler.kx * (w * ruler.kx) + rest))
    (hpos : 0 < t) (hone : ¬ 1 < t) :
    Bounded 8 (w * ruler.kx / ruler.kx * t) := by
  have hfinite : (w * ruler.kx).isFinite = true := by
    by_contra h
    have h := Bool.eq_false_iff.2 h
    rw [ht] at hpos
    exact not_pos_div (isFinite_add (isFinite_mul (.inl h))) hpos
  exact (hw.mul_div (by decide) hfinite).mul (bounded_unit hpos hone)
    (by decide)

theorem toSegment?_computes :
    Computes (Bounded 60 p.x ∧ Bounded 60 a.x ∧ Bounded 60 b.x)
      (ruler.toSegment? p a b) (ruler.toSegment p a b) := by
  have hstart : Computes (Bounded 60 p.x ∧ Bounded 60 a.x ∧ Bounded 60 b.x)
      (ruler.distance? p a) (ruler.distance p a) :=
    (distance?_computes ruler).mono fun ⟨hp, ha, _⟩ =>
      (hp.sub ha (by decide)).mono (by decide)
  have hend : Computes (Bounded 60 p.x ∧ Bounded 60 a.x ∧ Bounded 60 b.x)
      (ruler.distance? p b) (ruler.distance p b) :=
    (distance?_computes ruler).mono fun ⟨hp, _, hb⟩ =>
      (hp.sub hb (by decide)).mono (by decide)
  refine ((wrap?_computes _).mono fun ⟨_, ha, hb⟩ =>
    (hb.sub ha (by decide)).mono (by decide)).bind ?_
  refine .ite (fun _ => hstart) fun _ => ?_
  refine ((wrap?_computes _).mono fun ⟨hp, ha, _⟩ =>
    (hp.sub ha (by decide)).mono (by decide)).bind ?_
  refine .ite (fun _ => hend) fun hone => ?_
  refine .ite (fun hpos => ?_) fun _ => hstart
  refine (distance?_computes ruler).mono fun ⟨hp, ha, hb⟩ => ?_
  have hw : Bounded 8 (wrap (b.x - a.x)) :=
    bounded_wrap ((hb.sub ha (by decide)).mono (by decide))
  have hscaled := bounded_scaled ruler hw rfl hpos hone
  exact (hp.mono (by decide)).sub
    (ha.add (hscaled.mono (by decide)) (by decide)) (by decide)

end Ruler

namespace Shape

variable (ruler : Ruler Float)

def pointToLine? (p : Position Float) (line : List (Position Float)) :
    Option (Option Float) :=
  match line with
  | [only] => do
    return some (← ruler.distance? p only)
  | line => do
    return nearest (← (edges line).mapM fun (a, b) => do
      return some (← ruler.toSegment? p a b))

def fromPoint? (p : Position Float) : Shape Float → Option (Option Float)
  | .points ps => do
    return nearest (← ps.mapM fun q => do return some (← ruler.distance? p q))
  | .line ps => pointToLine? ruler p ps
  | .polygon rings =>
    if polygonContains rings true p then some (some 0)
    else do
      return nearest (← rings.mapM (pointToLine? ruler p))

def fromPoints? (ps : List (Position Float)) (shape : Shape Float) :
    Option (Option Float) := do
  return nearest (← ps.mapM fun p => shape.fromPoint? ruler p)

def overlaps? (a b : Shape Float) : Option Bool :=
  let touches (d : Option Float) : Bool := d.any (· == 0)
  (return a.allEdges.any fun (p, q) =>
      b.allEdges.any fun (r, s) => segmentsMeet p q r s) <||>
    (a.vertices.anyM fun p => return touches (← b.fromPoint? ruler p)) <||>
    (b.vertices.anyM fun p => return touches (← a.fromPoint? ruler p))

def distance? : Shape Float → Shape Float → Option (Option Float)
  | .points ps, other => fromPoints? ruler ps other
  | other, .points ps => fromPoints? ruler ps other
  | a, b => do
    if ← overlaps? ruler a b then return some 0
    else
      let fromA ← fromPoints? ruler a.vertices b
      let fromB ← fromPoints? ruler b.vertices a
      return nearer fromA fromB

def nearestPair? (best : Option Float) :
    List (Shape Float × Shape Float) → Option (Option Float)
  | [] => some best
  | (a, b) :: rest => do
    let best := nearer best (← a.distance? ruler b)
    if best.any (· == 0) then return some 0 else nearestPair? best rest

def distanceBetween? (as bs : List (Shape Float)) : Option (Option Float) :=
  nearestPair? ruler none (as.flatMap fun a => bs.map fun b => (a, b))

/-- Whether the longitudes of a shape are at most `2 ^ 60` in size. -/
def Bounded (shape : Shape Float) : Prop :=
  ∀ p ∈ shape.vertices, Number.Bounded 60 p.x

variable {ruler} {p : Position Float} {line : List (Position Float)}
  {a b shape : Shape Float}

theorem mem_of_mem_edges {e : Position Float × Position Float}
    (h : e ∈ edges line) : e.1 ∈ line ∧ e.2 ∈ line :=
  have h := List.of_mem_zip h
  ⟨h.1, List.mem_of_mem_tail h.2⟩

theorem pointToLine?_computes :
    Computes (Number.Bounded 60 p.x ∧ ∀ q ∈ line, Number.Bounded 60 q.x)
      (pointToLine? ruler p line) (pointToLine ruler p line) := by
  match line with
  | [] => exact .pure none
  | [only] =>
      refine ((Ruler.distance?_computes ruler).mono fun ⟨hp, hline⟩ => ?_).bind
        (.pure _)
      exact (hp.sub (hline only (List.mem_singleton_self _)) (by decide)).mono
        (by decide)
  | first :: second :: rest =>
      rw [pointToLine?, pointToLine]
      · refine (Computes.mapM fun e he => ?_).bind (.pure _)
        obtain ⟨ha, hb⟩ := mem_of_mem_edges he
        exact ((Ruler.toSegment?_computes ruler).mono fun ⟨hp, hline⟩ =>
          ⟨hp, hline _ ha, hline _ hb⟩).bind (.pure _)
      all_goals nofun

theorem fromPoint?_computes :
    Computes (Number.Bounded 60 p.x ∧ shape.Bounded)
      (shape.fromPoint? ruler p) (shape.fromPoint ruler p) := by
  cases shape with
  | points ps =>
      refine (Computes.mapM fun q hq => ?_).bind (.pure _)
      exact ((Ruler.distance?_computes ruler).mono fun ⟨hp, hshape⟩ =>
        (hp.sub (hshape q hq) (by decide)).mono (by decide)).bind (.pure _)
  | line ps => exact pointToLine?_computes
  | polygon rings =>
      refine .ite (fun _ => .pure _) fun _ => ?_
      refine (Computes.mapM fun ring hring => ?_).bind (.pure _)
      exact pointToLine?_computes.mono fun ⟨hp, hshape⟩ =>
        ⟨hp, fun q hq => hshape q (List.mem_flatten_of_mem hring hq)⟩

theorem fromPoints?_computes {ps : List (Position Float)} :
    Computes ((∀ p ∈ ps, Number.Bounded 60 p.x) ∧ shape.Bounded)
      (fromPoints? ruler ps shape) (fromPoints ruler ps shape) := by
  refine (Computes.mapM fun p hp => ?_).bind (.pure _)
  exact fromPoint?_computes.mono fun ⟨hps, hshape⟩ => ⟨hps p hp, hshape⟩

theorem overlaps?_computes : Computes (a.Bounded ∧ b.Bounded)
    (overlaps? ruler a b) (overlaps ruler a b) := by
  have hvertices (a b : Shape Float) : Computes (a.Bounded ∧ b.Bounded)
      (a.vertices.anyM fun p => do
        return (← b.fromPoint? ruler p).any (· == 0))
      (a.vertices.any fun p => (b.fromPoint ruler p).any (· == 0)) :=
    .anyM fun p hp => (fromPoint?_computes.mono fun ⟨ha, hb⟩ =>
      ⟨ha p hp, hb⟩).bind (.pure _)
  rw [overlaps, Bool.or_assoc]
  exact .or (.pure _) (.or (hvertices a b) ((hvertices b a).mono And.symm))

theorem distance?_computes : Computes (a.Bounded ∧ b.Bounded)
    (a.distance? ruler b) (a.distance ruler b) := by
  have hpoints {ps : List (Position Float)} {shape : Shape Float} :
      Computes ((Shape.points ps).Bounded ∧ shape.Bounded)
        (fromPoints? ruler ps shape) (fromPoints ruler ps shape) :=
    fromPoints?_computes
  have hedged (a b : Shape Float) : Computes (a.Bounded ∧ b.Bounded)
      (do
        if ← overlaps? ruler a b then return some 0
        else
          let fromA ← fromPoints? ruler a.vertices b
          let fromB ← fromPoints? ruler b.vertices a
          return nearer fromA fromB)
      (if overlaps ruler a b then some 0
        else nearer (fromPoints ruler a.vertices b)
          (fromPoints ruler b.vertices a)) := by
    refine overlaps?_computes.bind (.ite (fun _ => .pure _) fun _ => ?_)
    exact fromPoints?_computes.bind
      ((fromPoints?_computes.mono And.symm).bind (.pure _))
  cases a with
  | points ps => exact hpoints
  | line ps =>
      cases b with
      | points qs => exact hpoints.mono And.symm
      | line | polygon => exact hedged ..
  | polygon rings =>
      cases b with
      | points qs => exact hpoints.mono And.symm
      | line | polygon => exact hedged ..

theorem nearestPair?_computes {best : Option Float}
    {pairs : List (Shape Float × Shape Float)} :
    Computes (∀ pair ∈ pairs, pair.1.Bounded ∧ pair.2.Bounded)
      (nearestPair? ruler best pairs) (nearestPair ruler best pairs) := by
  induction pairs generalizing best with
  | nil => exact .pure best
  | cons pair rest ih =>
      obtain ⟨a, b⟩ := pair
      refine (distance?_computes.mono fun hpairs =>
        hpairs (a, b) List.mem_cons_self).bind ?_
      exact .ite (fun _ => .pure _) fun _ =>
        ih.mono fun hpairs pair hpair => hpairs pair (.tail _ hpair)

theorem distanceBetween?_computes {as bs : List (Shape Float)} :
    Computes ((∀ a ∈ as, a.Bounded) ∧ ∀ b ∈ bs, b.Bounded)
      (distanceBetween? ruler as bs) (distanceBetween ruler as bs) := by
  refine nearestPair?_computes.mono fun ⟨has, hbs⟩ pair hpair => ?_
  obtain ⟨a, ha, hpair⟩ := List.mem_flatMap.1 hpair
  obtain ⟨b, hb, rfl⟩ := List.mem_map.1 hpair
  exact ⟨has a ha, hbs b hb⟩

end Shape

end Geometry

end

end MapStyle
