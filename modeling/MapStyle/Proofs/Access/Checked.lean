import MapStyle.Proofs.Outcome

/-!
# Computations that access by number

An index can be out of bounds, a range can start behind its end, and there is
no natural number below zero. The definitions of this library avoid the
question: they take lists apart by pattern, and where they cut or subtract they
use operations that stop at the end. The modules beside this one write the same
program with indices, ranges and differences, each of them an option, and show
that the option is never empty.

A `Checked` computation is one that may miss an access besides failing with an
error of its own. `Returns` says of it that it does not, by what it comes to;
`Agrees` does so where the results are related and not the same.
-/

namespace MapStyle

variable {ε α β : Type}

/-! ## Accesses -/

/-- The difference of two numbers, if it is a natural number. -/
def sub? (m n : Nat) : Option Nat :=
  if n ≤ m then some (m - n) else none

/-- The items from a place on. The place after the last item is in bounds. -/
def from? (xs : List α) (start : Nat) : Option (List α) :=
  if start ≤ xs.length then some (xs.drop start) else none

/-- The items between two places. -/
def range? (xs : List α) (start stop : Nat) : Option (List α) :=
  if start ≤ stop ∧ stop ≤ xs.length then some ((xs.take stop).drop start)
  else none

/-- The characters after so many bytes. There are none if the place is behind
the end, or within a character. -/
def fromByte? : List Char → Nat → Option (List Char)
  | cs, 0 => some cs
  | [], _ + 1 => none
  | c :: cs, n + 1 =>
    if c.utf8Size ≤ n + 1 then fromByte? cs (n + 1 - c.utf8Size) else none

/-- The characters of the first so many bytes. -/
def untilByte? : List Char → Nat → Option (List Char)
  | _, 0 => some []
  | [], _ + 1 => none
  | c :: cs, n + 1 =>
    if c.utf8Size ≤ n + 1 then
      (untilByte? cs (n + 1 - c.utf8Size)).map (c :: ·)
    else none

def byteSize : List Char → Nat
  | [] => 0
  | c :: cs => c.utf8Size + byteSize cs

/-- The characters between two places of a text that are given in bytes. -/
def byteRange? (cs : List Char) (start stop : Nat) : Option (List Char) := do
  untilByte? (← fromByte? cs start) (← sub? stop start)

theorem sub?_eq {m n : Nat} (h : n ≤ m) : sub? m n = some (m - n) := if_pos h

theorem from?_eq {xs : List α} {start : Nat} (h : start ≤ xs.length) :
    from? xs start = some (xs.drop start) := if_pos h

theorem range?_eq {xs : List α} {start stop : Nat} (h : start ≤ stop)
    (hstop : stop ≤ xs.length) :
    range? xs start stop = some ((xs.drop start).take (stop - start)) := by
  rw [range?, if_pos ⟨h, hstop⟩, List.drop_take]

/-- Indexing a list whose tail from that place on is known. -/
theorem getElem?_of_drop {xs rest : List α} {x : α} {i : Nat}
    (h : xs.drop i = x :: rest) : xs[i]? = some x := by
  rw [← List.head?_drop, h]
  rfl

theorem drop_succ_of_drop {xs rest : List α} {x : α} {i : Nat}
    (h : xs.drop i = x :: rest) : xs.drop (i + 1) = rest := by
  rw [← List.tail_drop, h]
  rfl

section Bytes

variable {cs : List Char}

theorem fromByte?_eq (h : ∀ c ∈ cs, c.utf8Size = 1) {n : Nat}
    (hn : n ≤ cs.length) : fromByte? cs n = some (cs.drop n) := by
  induction cs generalizing n with
  | nil =>
      obtain rfl := Nat.le_zero.1 hn
      rfl
  | cons c cs ih =>
      cases n with
      | zero => rfl
      | succ n =>
          obtain ⟨hc, hcs⟩ := List.forall_mem_cons.1 h
          rw [fromByte?, hc, if_pos (Nat.le_add_left 1 n)]
          exact ih hcs (Nat.le_of_succ_le_succ hn)

theorem untilByte?_eq (h : ∀ c ∈ cs, c.utf8Size = 1) {n : Nat}
    (hn : n ≤ cs.length) : untilByte? cs n = some (cs.take n) := by
  induction cs generalizing n with
  | nil =>
      obtain rfl := Nat.le_zero.1 hn
      rfl
  | cons c cs ih =>
      cases n with
      | zero => rfl
      | succ n =>
          obtain ⟨hc, hcs⟩ := List.forall_mem_cons.1 h
          rw [untilByte?, hc, if_pos (Nat.le_add_left 1 n), Nat.add_sub_cancel,
            ih hcs (Nat.le_of_succ_le_succ hn)]
          rfl

/-- Where every character is a single byte, bytes are places. -/
theorem byteRange?_eq (h : ∀ c ∈ cs, c.utf8Size = 1) {start stop : Nat}
    (hle : start ≤ stop) (hstop : stop ≤ cs.length) :
    byteRange? cs start stop = some ((cs.drop start).take (stop - start)) := by
  have hdrop : ∀ c ∈ cs.drop start, c.utf8Size = 1 :=
    fun c hc => h c (List.mem_of_mem_drop hc)
  have hlength : stop - start ≤ (cs.drop start).length := by
    rw [List.length_drop]
    omega
  rw [byteRange?, fromByte?_eq h (Nat.le_trans hle hstop), sub?_eq hle]
  exact untilByte?_eq hdrop hlength

end Bytes

/-- A traversal whose every step is in bounds. -/
theorem mapM_eq_some {f? : α → Option β} {f : α → β} {xs : List α}
    (h : ∀ x ∈ xs, f? x = some (f x)) : xs.mapM f? = some (xs.map f) := by
  induction xs with
  | nil => rfl
  | cons x xs ih =>
      obtain ⟨hx, hxs⟩ := List.forall_mem_cons.1 h
      rw [List.mapM_cons, hx, ih hxs]
      rfl

/-! ## Computations -/

/-- A result, an error, or nothing if an access was missing. -/
structure Checked (ε β : Type) where
  run : Option (Except ε β)

namespace Checked

instance : Monad (Checked ε) where
  pure b := ⟨some (.ok b)⟩
  bind x f :=
    match x.run with
    | none => ⟨none⟩
    | some (.error err) => ⟨some (.error err)⟩
    | some (.ok a) => f a

instance : MonadExcept ε (Checked ε) where
  throw err := ⟨some (.error err)⟩
  tryCatch x handle :=
    match x.run with
    | some (.error err) => handle err
    | _ => x

/-- An access. -/
instance : MonadLift Option (Checked ε) where
  monadLift o := ⟨o.map .ok⟩

/-- A part of the program that accesses nothing. -/
instance : MonadLift (Except ε) (Checked ε) where
  monadLift x := ⟨some x⟩

end Checked

/-- No access is missing, and this is the result or the error. -/
def Returns (x? : Checked ε β) (x : Except ε β) : Prop :=
  x?.run = some x

namespace Returns

variable {x? : Checked ε α} {x : Except ε α} {y? : Checked ε β}
  {y : Except ε β}

theorem pure {b : β} : Returns (Pure.pure b : Checked ε β) (Pure.pure b) :=
  rfl

theorem throw {err : ε} :
    Returns (MonadExcept.throw err : Checked ε β) (MonadExcept.throw err) :=
  rfl

theorem lift : Returns (liftM y : Checked ε β) y :=
  rfl

theorem bind {f? : α → Checked ε β} {f : α → Except ε β} (hx : Returns x? x)
    (hf : ∀ a, x = .ok a → Returns (f? a) (f a)) :
    Returns (x? >>= f?) (x >>= f) := by
  obtain ⟨_⟩ := x?
  obtain rfl := hx
  cases x with
  | error err => rfl
  | ok a => exact hf a rfl

theorem map {f : α → β} (hx : Returns x? x) : Returns (f <$> x?) (f <$> x) := by
  obtain ⟨_⟩ := x?
  obtain rfl := hx
  cases x <;> rfl

theorem access {o : Option α} {a : α} {f? : α → Checked ε β} (h : o = some a)
    (hf : Returns (f? a) y) : Returns (liftM o >>= f?) y := by
  subst h
  exact hf

/-- A step that the library does not make. -/
theorem step {a : α} {f? : α → Checked ε β} (hx : Returns x? (.ok a))
    (hf : Returns (f? a) y) : Returns (x? >>= f?) y :=
  bind (f := fun _ => y) hx fun _ h => Except.ok.inj h ▸ hf

theorem ite {c : Prop} [Decidable c] {z? : Checked ε β} {z : Except ε β}
    (hy : c → Returns y? y) (hz : ¬ c → Returns z? z) :
    Returns (if c then y? else z?) (if c then y else z) := by
  split
  · next hc => exact hy hc
  · next hc => exact hz hc

/-- A condition on the items for one on the operands. -/
theorem ite_congr {c c' : Prop} [Decidable c] [Decidable c']
    {z? : Checked ε β} {z : Except ε β} (hc : c ↔ c')
    (hy : c' → Returns y? y) (hz : ¬ c' → Returns z? z) :
    Returns (if c then y? else z?) (if c' then y else z) := by
  by_cases h : c'
  · rw [if_pos (hc.2 h), if_pos h]
    exact hy h
  · rw [if_neg (mt hc.1 h), if_neg h]
    exact hz h

/-- The error of the first computation is dropped. -/
theorem orElse {z? : Checked ε (Option α)} {z : Option α}
    (hx : Returns x? x) (hz : Returns z? (.ok z)) :
    Returns (tryCatch (some <$> x?) fun _ => z?) (.ok (x.toOption.or z)) := by
  obtain ⟨_⟩ := x?
  obtain rfl := hx
  cases x with
  | error err => exact hz
  | ok a => rfl

end Returns

/-- No access is missing, and the results are related or the errors the same. -/
inductive Agrees (R : α → β → Prop) (x? : Checked ε α) : Except ε β → Prop where
  | ok {a : α} {b : β} (h : x?.run = some (.ok a)) (hR : R a b) :
      Agrees R x? (.ok b)
  | error {err : ε} (h : x?.run = some (.error err)) : Agrees R x? (.error err)

namespace Agrees

variable {γ δ : Type} {R : α → β → Prop} {S : γ → δ → Prop}
  {x? : Checked ε α} {x : Except ε β} {f? : α → Checked ε γ}
  {f : β → Except ε δ}

theorem pure {a : α} {b : β} (h : R a b) :
    Agrees R (Pure.pure a : Checked ε α) (Pure.pure b) :=
  .ok rfl h

theorem bind (h : Agrees R x? x)
    (hf : ∀ a b, R a b → Agrees S (f? a) (f b)) :
    Agrees S (x? >>= f?) (x >>= f) := by
  obtain ⟨_⟩ := x?
  cases h with
  | ok h hR =>
      obtain rfl := h
      exact hf _ _ hR
  | error h =>
      obtain rfl := h
      exact .error rfl

theorem access {o : Option γ} {c : γ} {g? : γ → Checked ε α} (h : o = some c)
    (hg : Agrees R (g? c) x) : Agrees R (liftM o >>= g?) x := by
  subst h
  exact hg

/-- What comes of related results is the same result. -/
theorem returns {g : β → Except ε γ} (h : Agrees R x? x)
    (hf : ∀ a b, R a b → Returns (f? a) (g b)) :
    Returns (x? >>= f?) (x >>= g) := by
  obtain ⟨_⟩ := x?
  cases h with
  | ok h hR =>
      obtain rfl := h
      exact hf _ _ hR
  | error h =>
      obtain rfl := h
      rfl

end Agrees

theorem Returns.agrees {x? : Checked ε α} {x : Except ε α}
    (h : Returns x? x) : Agrees (fun a b => x = .ok a ∧ a = b) x? x := by
  cases x with
  | error err => exact .error h
  | ok a => exact .ok h ⟨rfl, rfl⟩

/-- The outcome at a place in a list. -/
def Checked.outcome (os : List Outcome) (i : Nat) :
    Checked EvalError Value := do
  let o : Outcome ← os[i]?
  o

theorem Checked.outcome_returns {os : List Outcome} {i : Nat} {o : Outcome}
    (h : os[i]? = some o) : Returns (outcome os i) o :=
  .access h .lift

end MapStyle
