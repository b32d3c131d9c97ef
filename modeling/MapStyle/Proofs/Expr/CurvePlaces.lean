import MapStyle.Proofs.Expr.ZoomCurve

/-!
# Which curve the search finds

A tree may hold several curves over zoom, and one node may stand in several
places, so the search is described by places: paths of child positions from the
root. `HasCurve` says that there is a curve at a place and `IsTopLevel` that the
place is reached through bodies of bindings and operands of coalesce alone.
Neither mentions the search.

`zoomCurve_accounts` is the induction. Each of the four answers of the search
says something about the places of the curves below a node, the two failures
included, and a node only has to see that what its children say and what it
adds amount to the same. The answers exclude each other, so that each of them
is given exactly when what it says is true (`zoomCurve_iff`).
-/

namespace MapStyle.Expr

variable {e c : Expr} {l l' : Located} {i : Nat}

/-! ## Places -/

/-- The node at the end of a path of child positions. -/
def at? : Expr → List Nat → Option Expr
  | e, [] => some e
  | e, i :: path => e.children[i]?.bind fun c => at? c path

/-- Whether there is a curve over zoom at a place. -/
def HasCurve (e : Expr) (l : Located) : Prop :=
  e.at? l.path = some l.node ∧ l.node.isZoomCurve = true

/-- Whether a place is reached from the root through bodies of bindings and
operands of coalesce alone. -/
inductive IsTopLevel : Expr → Located → Prop where
  | root (e : Expr) : IsTopLevel e ⟨[], e⟩
  | body {names : List (String × Expr)} {body : Expr} {l : Located}
      (h : IsTopLevel body l) :
      IsTopLevel (.binding names body) (l.under names.length)
  | operand {ty : Ty} {args : List Expr} {i : Nat} {arg : Expr} {l : Located}
      (harg : args[i]? = some arg) (h : IsTopLevel arg l) :
      IsTopLevel (.coalesce ty args) (l.under i)

theorem under_injective (i : Nat) : Function.Injective (Located.under i) := by
  rintro ⟨path, node⟩ ⟨path', node'⟩ h
  cases h
  rfl

/-- A curve of a tree is its root or a curve of one of the children. -/
theorem hasCurve_iff : e.HasCurve l ↔
    (l = ⟨[], e⟩ ∧ e.isZoomCurve = true) ∨
      ∃ (i : Nat) (c : Expr) (l' : Located), e.children[i]? = some c ∧
        c.HasCurve l' ∧ l = l'.under i := by
  obtain ⟨path, node⟩ := l
  cases path with
  | nil =>
      refine ⟨fun ⟨hat, hcurve⟩ => ?_, ?_⟩
      · obtain rfl := Option.some.inj hat
        exact .inl ⟨rfl, hcurve⟩
      · rintro (⟨heq, hcurve⟩ | ⟨i, c, l', -, -, heq⟩)
        · cases heq
          exact ⟨rfl, hcurve⟩
        · cases heq
  | cons i path =>
      refine ⟨fun ⟨hat, hcurve⟩ => ?_, ?_⟩
      · obtain ⟨c, hc, hat⟩ := Option.bind_eq_some_iff.1 hat
        exact .inr ⟨i, c, ⟨path, node⟩, hc, ⟨hat, hcurve⟩, rfl⟩
      · rintro (⟨heq, -⟩ | ⟨j, c, l', hc, ⟨hat, hcurve⟩, heq⟩)
        · cases heq
        · cases heq
          exact ⟨Option.bind_eq_some_iff.2 ⟨c, hc, hat⟩, hcurve⟩

theorem HasCurve.under (hc : e.children[i]? = some c) (h : c.HasCurve l) :
    e.HasCurve (l.under i) :=
  hasCurve_iff.2 (.inr ⟨i, c, l, hc, h, rfl⟩)

/-- There is one node at the end of a path. -/
theorem HasCurve.eq_of_path (h : e.HasCurve l) (h' : e.HasCurve l')
    (hpath : l.path = l'.path) : l = l' := by
  obtain ⟨path, node⟩ := l
  obtain ⟨path', node'⟩ := l'
  obtain rfl : path = path' := hpath
  obtain rfl := Option.some.inj (h.1.symm.trans h'.1)
  rfl

/-- The body of a binding stands behind the values that are bound. -/
theorem getElem?_body (names : List (String × Expr)) (body : Expr) :
    (binding names body).children[names.length]? = some body := by
  rw [children, List.getElem?_append_right (by simp)]
  simp

/-- Whether the place of a child is top-level if its node is. -/
def passesOn : Expr → Nat → Bool
  | .binding names _, i => i == names.length
  | .coalesce _ _, _ => true
  | _, _ => false

theorem isTopLevel_under_iff (hc : e.children[i]? = some c) :
    e.IsTopLevel (l.under i) ↔ e.passesOn i = true ∧ c.IsTopLevel l := by
  refine ⟨fun h => ?_, fun ⟨hpass, h⟩ => ?_⟩
  · generalize hl : l.under i = l' at h
    cases h with
    | root => cases hl
    | @body names body l' h =>
        obtain rfl : i = names.length := (List.cons.inj (congrArg Located.path hl)).1
        obtain rfl := under_injective _ hl
        obtain rfl := Option.some.inj ((getElem?_body names body).symm.trans hc)
        exact ⟨beq_self_eq_true _, h⟩
    | @operand ty args j arg l' harg h =>
        obtain rfl : i = j := (List.cons.inj (congrArg Located.path hl)).1
        obtain rfl := under_injective _ hl
        obtain rfl := Option.some.inj (harg.symm.trans hc)
        exact ⟨rfl, h⟩
  · cases e with
    | binding names body =>
        obtain rfl : i = names.length := eq_of_beq hpass
        obtain rfl := Option.some.inj ((getElem?_body names body).symm.trans hc)
        exact .body h
    | coalesce ty args => exact .operand hc h
    | _ => cases hpass

/-! ## The searches of the children -/

/-- What the children of a node have found, as seen from the node. -/
def childSearches (e : Expr) : List CurveSearch :=
  (e.children.map zoomCurve).zipIdx.map fun (s, i) =>
    s.map fun found => found.map (Located.under i)

theorem getElem?_childSearches (e : Expr) (i : Nat) :
    e.childSearches[i]? = e.children[i]?.map fun c =>
      c.zoomCurve.map fun found => found.map (Located.under i) := by
  rw [childSearches, List.getElem?_map, List.getElem?_zipIdx, List.getElem?_map]
  cases e.children[i]? <;> simp

theorem exists_of_mem_childSearches {s : CurveSearch}
    (h : s ∈ e.childSearches) :
    ∃ (i : Nat) (c : Expr), e.children[i]? = some c ∧
      s = c.zoomCurve.map fun found => found.map (Located.under i) := by
  obtain ⟨i, hi⟩ := List.getElem?_of_mem h
  rw [getElem?_childSearches, Option.map_eq_some_iff] at hi
  obtain ⟨c, hc, rfl⟩ := hi
  exact ⟨i, c, hc, rfl⟩

/-- The last search of a binding is that of its body. -/
theorem getLast?_childSearches (names : List (String × Expr)) (body : Expr) :
    (binding names body).childSearches.getLast? =
      (binding names body).childSearches[names.length]? := by
  have hlast : (binding names body).childSearches.length - 1 =
      names.length := by
    simp [childSearches, children]
  rw [List.getLast?_eq_getElem?, hlast]

/-- What a child has failed with. -/
theorem exists_error {err : ZoomCurveError}
    (h : .error err ∈ e.childSearches) :
    ∃ (i : Nat) (c : Expr), e.children[i]? = some c ∧
      c.zoomCurve = .error err := by
  obtain ⟨i, c, hc, heq⟩ := exists_of_mem_childSearches h
  refine ⟨i, c, hc, ?_⟩
  cases hs : c.zoomCurve with
  | ok => rw [hs] at heq; cases heq
  | error err' => rw [hs] at heq; cases heq; rfl

theorem found_under {s : CurveSearch}
    (h : (.ok (some l) : CurveSearch) =
      s.map fun found => found.map (Located.under i)) :
    ∃ l', s = .ok (some l') ∧ l = l'.under i := by
  match s with
  | .error _ | .ok none => cases h
  | .ok (some l') => cases h; exact ⟨l', rfl, rfl⟩

/-! ## The parts of the search -/

theorem firstCurve_none {ss : List CurveSearch}
    (h : firstCurve ss = .ok none) : ∀ s ∈ ss, s = .ok none := by
  induction ss with
  | nil => exact nofun
  | cons s rest ih =>
      obtain ⟨found, rfl, h⟩ := ok_of_bind h
      cases found with
      | none => exact List.forall_mem_cons.2 ⟨rfl, ih h⟩
      | some l => cases h

theorem firstCurve_error {ss : List CurveSearch} {err : ZoomCurveError}
    (h : firstCurve ss = .error err) : .error err ∈ ss := by
  induction ss with
  | nil => cases h
  | cons s rest ih =>
      match s with
      | .error _ => cases h; exact List.mem_cons_self
      | .ok none => exact List.mem_cons_of_mem _ (ih h)
      | .ok (some l) => cases h

theorem checkCurves_ok {admitted : Option Located} {ss : List CurveSearch}
    (h : checkCurves admitted ss = .ok ()) : ∀ s ∈ ss, s = .ok none ∨
      ∃ own l, admitted = some own ∧ s = .ok (some l) ∧ l.path = own.path := by
  induction ss with
  | nil => exact nofun
  | cons s rest ih =>
      cases s with
      | error err => cases h
      | ok found =>
          cases found with
          | none => exact List.forall_mem_cons.2 ⟨.inl rfl, ih h⟩
          | some l =>
              cases admitted with
              | none => cases h
              | some own =>
                  have h : (if own.path == l.path then
                    checkCurves (some own) rest else throw .several) =
                      .ok () := h
                  split at h
                  · next hpath =>
                      have hpath := (eq_of_beq hpath).symm
                      exact List.forall_mem_cons.2
                        ⟨.inr ⟨own, l, rfl, rfl, hpath⟩, ih h⟩
                  · cases h

/-- A check fails because a search did, because something was found where
nothing is admitted, or because something else was found. -/
theorem checkCurves_error {admitted : Option Located} {ss : List CurveSearch}
    {err : ZoomCurveError} (h : checkCurves admitted ss = .error err) :
    .error err ∈ ss ∨ ∃ l, .ok (some l) ∈ ss ∧
      ((admitted = none ∧ err = .notTopLevel) ∨
        ∃ own, admitted = some own ∧ l.path ≠ own.path ∧ err = .several) := by
  induction ss with
  | nil => cases h
  | cons s rest ih =>
      have later (h : checkCurves admitted rest = .error err) :
          .error err ∈ s :: rest ∨ ∃ l, .ok (some l) ∈ s :: rest ∧
            ((admitted = none ∧ err = .notTopLevel) ∨
              ∃ own, admitted = some own ∧ l.path ≠ own.path ∧
                err = .several) :=
        (ih h).imp (List.mem_cons_of_mem s) fun ⟨l, hl, hcause⟩ =>
          ⟨l, List.mem_cons_of_mem s hl, hcause⟩
      cases s with
      | error err =>
          cases h
          exact .inl List.mem_cons_self
      | ok found =>
          cases found with
          | none => exact later h
          | some l =>
              cases admitted with
              | none =>
                  cases h
                  exact .inr ⟨l, List.mem_cons_self, .inl ⟨rfl, rfl⟩⟩
              | some own =>
                  have h : (if own.path == l.path then
                    checkCurves (some own) rest else throw .several) =
                      .error err := h
                  split at h
                  · exact later h
                  · next hpath =>
                      cases h
                      have hpath : l.path ≠ own.path := fun heq =>
                        hpath (beq_iff_eq.2 heq.symm)
                      exact .inr ⟨l, List.mem_cons_self,
                        .inr ⟨own, rfl, hpath, rfl⟩⟩

/-- Where nothing is admitted, the node is no curve and nothing was found in a
child that it passes on. -/
theorem admittedCurve_none (h : e.admittedCurve e.childSearches = .ok none) :
    e.isZoomCurve = false ∧ ∀ i, e.passesOn i = true →
      ∀ s, e.childSearches[i]? = some s → s = .ok none := by
  have own {e : Expr} (h : (return if e.isZoomCurve then some ⟨[], e⟩ else none
      : CurveSearch) = .ok none) : e.isZoomCurve = false := by
    have h := ok_of_pure h
    split at h
    · cases h
    · next hcurve => simpa using hcurve
  cases e with
  | binding names body =>
      refine ⟨rfl, fun i hi s hs => ?_⟩
      obtain rfl : i = names.length := eq_of_beq hi
      refine firstCurve_none h s ?_
      rw [Option.mem_toList, getLast?_childSearches]
      exact hs
  | coalesce ty args =>
      exact ⟨rfl, fun i _ s hs =>
        firstCurve_none h s (List.mem_of_getElem? hs)⟩
  | _ => exact ⟨own h, nofun⟩

/-- What is admitted is the node, if it is a curve, or was found in a child that
the node passes on. -/
theorem admittedCurve_some (h : e.admittedCurve e.childSearches = .ok (some l)) :
    (l = ⟨[], e⟩ ∧ e.isZoomCurve = true) ∨
      ∃ i, e.passesOn i = true ∧ e.childSearches[i]? = some (.ok (some l)) := by
  have own {e : Expr} (h : (return if e.isZoomCurve then some ⟨[], e⟩ else none
      : CurveSearch) = .ok (some l)) : l = ⟨[], e⟩ ∧ e.isZoomCurve = true := by
    have h := ok_of_pure h
    split at h
    · next hcurve => exact ⟨(Option.some.inj h).symm, hcurve⟩
    · cases h
  cases e with
  | binding names body =>
      have hmem := mem_of_firstCurve h
      rw [Option.mem_toList, getLast?_childSearches] at hmem
      exact .inr ⟨names.length, beq_self_eq_true _, hmem⟩
  | coalesce ty args =>
      obtain ⟨i, hi⟩ := List.getElem?_of_mem (mem_of_firstCurve h)
      exact .inr ⟨i, rfl, hi⟩
  | _ => exact .inl (own h)

theorem admittedCurve_error {err : ZoomCurveError}
    (h : e.admittedCurve e.childSearches = .error err) :
    .error err ∈ e.childSearches := by
  cases e with
  | binding names body =>
      have hmem := firstCurve_error h
      rw [Option.mem_toList] at hmem
      exact List.mem_of_getLast? hmem
  | coalesce ty args => exact firstCurve_error h
  | _ => cases h

/-! ## The whole search -/

/-- What an answer of the search says about the curves of a tree. -/
def Accounts (e : Expr) : CurveSearch → Prop
  | .ok none => ∀ l, ¬ e.HasCurve l
  | .ok (some l) =>
    e.HasCurve l ∧ (∀ l', e.HasCurve l' → l' = l) ∧ e.IsTopLevel l
  | .error .notTopLevel => ∃ l, e.HasCurve l ∧ ¬ e.IsTopLevel l
  | .error .several => ∃ l l', e.HasCurve l ∧ e.HasCurve l' ∧ l ≠ l'

/-- The failure of a child is one of the node. -/
theorem Accounts.error_of_child {err : ZoomCurveError}
    (hc : e.children[i]? = some c) (h : c.Accounts (.error err)) :
    e.Accounts (.error err) := by
  cases err with
  | notTopLevel =>
      obtain ⟨l, hl, htop⟩ := h
      exact ⟨l.under i, hl.under hc, fun h =>
        htop ((isTopLevel_under_iff hc).1 h).2⟩
  | several =>
      obtain ⟨l, l', hl, hl', hne⟩ := h
      exact ⟨l.under i, l'.under i, hl.under hc, hl'.under hc,
        fun heq => hne (under_injective i heq)⟩

section Step

variable (ih : ∀ {i : Nat} {c : Expr}, e.children[i]? = some c →
  c.Accounts c.zoomCurve)
include ih

/-- What has been found in a child is one of its curves. -/
theorem accounts_of_found (hi : e.childSearches[i]? = some (.ok (some l))) :
    ∃ (c : Expr) (l' : Located), e.children[i]? = some c ∧ l = l'.under i ∧
      c.Accounts (.ok (some l')) := by
  rw [getElem?_childSearches, Option.map_eq_some_iff] at hi
  obtain ⟨c, hc, heq⟩ := hi
  obtain ⟨l', hs, rfl⟩ := found_under heq.symm
  exact ⟨c, l', hc, rfl, hs ▸ ih hc⟩

theorem hasCurve_of_found (h : .ok (some l) ∈ e.childSearches) :
    e.HasCurve l := by
  obtain ⟨i, hi⟩ := List.getElem?_of_mem h
  obtain ⟨c, l', hc, rfl, hl, -⟩ := accounts_of_found ih hi
  exact hl.under hc

/-- An admitted curve is a top-level curve of the node. -/
theorem hasCurve_of_admittedCurve
    (h : e.admittedCurve e.childSearches = .ok (some l)) :
    e.HasCurve l ∧ e.IsTopLevel l := by
  rcases admittedCurve_some h with ⟨rfl, hcurve⟩ | ⟨i, hpass, hi⟩
  · exact ⟨⟨rfl, hcurve⟩, .root e⟩
  · obtain ⟨c, l', hc, rfl, hl, -, htop⟩ := accounts_of_found ih hi
    exact ⟨hl.under hc, (isTopLevel_under_iff hc).2 ⟨hpass, htop⟩⟩

/-- Where something is found and nothing admitted, it is not top-level. -/
theorem not_isTopLevel_of_found
    (h : e.admittedCurve e.childSearches = .ok none)
    (hl : .ok (some l) ∈ e.childSearches) : ¬ e.IsTopLevel l := by
  obtain ⟨i, hi⟩ := List.getElem?_of_mem hl
  obtain ⟨c, l', hc, rfl, -⟩ := accounts_of_found ih hi
  intro htop
  have hpass := ((isTopLevel_under_iff hc).1 htop).1
  cases (admittedCurve_none h).2 i hpass _ hi

/-- If all that is found is the admitted curve, no other curve is there. -/
theorem eq_of_hasCurve {admitted : Option Located}
    (h : e.admittedCurve e.childSearches = .ok admitted)
    (hcheck : checkCurves admitted e.childSearches = .ok ())
    (hl : e.HasCurve l) : admitted = some l := by
  have hpath : ∃ own, admitted = some own ∧ l.path = own.path := by
    rcases hasCurve_iff.1 hl with ⟨rfl, hcurve⟩ | ⟨i, c, l', hc, hl', rfl⟩
    · cases admitted with
      | none => exact absurd hcurve (by simp [(admittedCurve_none h).1])
      | some own =>
          rcases admittedCurve_some h with ⟨rfl, -⟩ | ⟨i, hpass, -⟩
          · exact ⟨_, rfl, rfl⟩
          · cases e with
            | binding | coalesce => cases hcurve
            | _ => cases hpass
    · have hs := getElem?_childSearches e i
      rw [hc, Option.map_some] at hs
      have hchild := ih hc
      rcases checkCurves_ok hcheck _ (List.mem_of_getElem? hs) with
        hnone | ⟨own, found, rfl, hfound, hpath⟩
      · cases hsearch : c.zoomCurve with
        | error err =>
            rw [hsearch] at hnone
            cases hnone
        | ok found =>
            rw [hsearch] at hnone hchild
            cases found with
            | none => exact absurd hl' (hchild l')
            | some found => cases hnone
      · obtain ⟨l₁, hsearch, rfl⟩ := found_under hfound.symm
        rw [hsearch] at hchild
        rw [hchild.2.1 l' hl']
        exact ⟨own, rfl, hpath⟩
  obtain ⟨own, rfl, hpath⟩ := hpath
  have hown := (hasCurve_of_admittedCurve ih h).1
  rw [Option.some_inj]
  exact (hl.eq_of_path hown hpath).symm

end Step

theorem zoomCurve_accounts (e : Expr) : e.Accounts e.zoomCurve := by
  induction e using Expr.induction with
  | step e ih =>
      have ih {i : Nat} {c : Expr} (hc : e.children[i]? = some c) :
          c.Accounts c.zoomCurve :=
        ih c (mem_operands_of_mem_children (List.mem_of_getElem? hc))
      have failed {err : ZoomCurveError} (h : .error err ∈ e.childSearches) :
          e.Accounts (.error err) := by
        obtain ⟨i, c, hc, hs⟩ := exists_error h
        exact .error_of_child hc (hs ▸ ih hc)
      have hsearch : e.zoomCurve = (do
          let admitted ← e.admittedCurve e.childSearches
          checkCurves admitted e.childSearches
          return admitted) := zoomCurve_eq e
      rw [hsearch]
      cases hadmitted : e.admittedCurve e.childSearches with
      | error err => exact failed (admittedCurve_error hadmitted)
      | ok admitted =>
          show e.Accounts (checkCurves admitted e.childSearches >>= fun _ =>
            .ok admitted)
          cases hcheck : checkCurves admitted e.childSearches with
          | error err =>
              rcases checkCurves_error hcheck with h | ⟨l, hl, hcause⟩
              · exact failed h
              · have hcurve := hasCurve_of_found ih hl
                rcases hcause with ⟨rfl, rfl⟩ | ⟨own, rfl, hpath, rfl⟩
                · exact ⟨l, hcurve, not_isTopLevel_of_found ih hadmitted hl⟩
                · have hown := (hasCurve_of_admittedCurve ih hadmitted).1
                  exact ⟨l, own, hcurve, hown,
                    fun heq => hpath (congrArg Located.path heq)⟩
          | ok u =>
              have honly {l : Located} (hl : e.HasCurve l) :=
                eq_of_hasCurve ih hadmitted hcheck hl
              cases admitted with
              | none => exact fun l hl => nomatch honly hl
              | some own =>
                  obtain ⟨hown, htop⟩ := hasCurve_of_admittedCurve ih hadmitted
                  exact ⟨hown, fun l hl =>
                    (Option.some_inj.1 (honly hl)).symm, htop⟩

/-- At most one answer without a failure is right, and no failure then is. -/
theorem Accounts.eq_ok {s : CurveSearch} {found : Option Located}
    (h : e.Accounts s) (h' : e.Accounts (.ok found)) : s = .ok found := by
  match s, found with
  | .ok none, none => rfl
  | .ok (some l), none => exact absurd h.1 (h' l)
  | .error .notTopLevel, none =>
      obtain ⟨l, hl, -⟩ := h
      exact absurd hl (h' l)
  | .error .several, none =>
      obtain ⟨l, -, hl, -⟩ := h
      exact absurd hl (h' l)
  | .ok none, some l => exact absurd h'.1 (h l)
  | .ok (some l'), some l => rw [h.2.1 l h'.1]
  | .error .notTopLevel, some l =>
      obtain ⟨l', hl', htop⟩ := h
      exact absurd h'.2.2 (h'.2.1 l' hl' ▸ htop)
  | .error .several, some l =>
      obtain ⟨l₁, l₂, h₁, h₂, hne⟩ := h
      exact absurd ((h'.2.1 l₁ h₁).trans (h'.2.1 l₂ h₂).symm) hne

/-- The search finds exactly the one admissible curve. It finds nothing if no
place of the tree has a curve over zoom, it finds the curve of a place if no
other has one and the place is top-level, and it fails in every other case. -/
theorem zoomCurve_iff (e : Expr) :
    (e.zoomCurve = .ok none ↔ ∀ l, ¬ e.HasCurve l) ∧
    (∀ l, e.zoomCurve = .ok (some l) ↔
      e.HasCurve l ∧ (∀ l', e.HasCurve l' → l' = l) ∧ e.IsTopLevel l) ∧
    ((∃ err, e.zoomCurve = .error err) ↔ (∃ l, e.HasCurve l) ∧
      ∀ l, e.HasCurve l → e.IsTopLevel l → ∃ l', e.HasCurve l' ∧ l' ≠ l) := by
  have haccounts := zoomCurve_accounts e
  have hnone : e.zoomCurve = .ok none ↔ ∀ l, ¬ e.HasCurve l :=
    ⟨fun h => by rwa [h] at haccounts, fun h => haccounts.eq_ok h⟩
  have hsome (l : Located) : e.zoomCurve = .ok (some l) ↔
      e.HasCurve l ∧ (∀ l', e.HasCurve l' → l' = l) ∧ e.IsTopLevel l :=
    ⟨fun h => by rwa [h] at haccounts, fun h => haccounts.eq_ok h⟩
  refine ⟨hnone, hsome, fun ⟨err, herr⟩ => ⟨?_, fun l hl htop => ?_⟩, ?_⟩
  · by_contra hno
    rw [hnone.2 (not_exists.1 hno)] at herr
    cases herr
  · by_contra honly
    have honly (l' : Located) (hl' : e.HasCurve l') : l' = l := by
      by_contra hne
      exact honly ⟨l', hl', hne⟩
    rw [(hsome l).2 ⟨hl, honly, htop⟩] at herr
    cases herr
  · rintro ⟨⟨l, hl⟩, hother⟩
    match hs : e.zoomCurve with
    | .error err => exact ⟨err, rfl⟩
    | .ok none => exact absurd hl (hnone.1 hs l)
    | .ok (some l') =>
        obtain ⟨hl', honly, htop⟩ := (hsome l').1 hs
        obtain ⟨l'', hl'', hne⟩ := hother l' hl' htop
        exact absurd (honly l'' hl'') hne

end MapStyle.Expr
