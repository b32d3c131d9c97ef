import MapStyle.Proofs.Access.Checked
import MapStyle.Semantics.Narrowing

/-!
# Ranges within the text of a color

Hexadecimal digits are cut out of a text by bytes, which is safe only because
all of its characters have been found to be digits before: a digit is a single
byte. The operands of a color function are counted before they are looked up.

A text that is no color is no failure here, so there are two options: whether
an access was missing, and whether the text is a color.
-/

namespace MapStyle.Checked

open MapStyle.Color (hexDigit? ofBytes)

variable {cs : List Char}

/-! ## Hexadecimal digits -/

def isHex (c : Char) : Bool := (hexDigit? c).isSome

theorem utf8Size_of_isHex {c : Char} (h : isHex c = true) :
    c.utf8Size = 1 := by
  have hval : c.val ≤ 'f'.val := by
    unfold isHex hexDigit? at h
    split at h
    · next hdigit =>
        have hnine := of_decide_eq_true (Bool.and_eq_true_iff.1 hdigit).2
        exact UInt32.le_trans hnine (by decide)
    · split at h
      · next hletter =>
          exact of_decide_eq_true (Bool.and_eq_true_iff.1 hletter).2
      · cases h
  exact if_pos (UInt32.le_trans hval (by decide))

/-- The number that a text of hexadecimal digits stands for. -/
def hexNumber? (cs : List Char) : Option Nat :=
  (cs.mapM hexDigit?).map fun ds => ds.foldl (fun n d => n * 16 + d) 0

/-- The byte that is written as a digit, which stands for its repetition. -/
def digit (hex : List Char) (i : Nat) : Option (Option Float) := do
  let cs ← byteRange? hex i (i + 1)
  return (hexNumber? cs).map fun n => Float.ofNat (n * 17)

/-- The byte that is written as two digits. -/
def pair (hex : List Char) (i : Nat) : Option (Option Float) := do
  let cs ← byteRange? hex i (i + 2)
  return (hexNumber? cs).map Float.ofNat

def ofHex (hex : List Char) : Option (Option Color) := do
  if !hex.all isHex then return none
  match byteSize hex with
  | 3 =>
    let r ← digit hex 0
    let g ← digit hex 1
    let b ← digit hex 2
    return do some (ofBytes (← r) (← g) (← b) 1)
  | 4 =>
    let r ← digit hex 0
    let g ← digit hex 1
    let b ← digit hex 2
    let a ← digit hex 3
    return do some (ofBytes (← r) (← g) (← b) ((← a) / 255))
  | 6 =>
    let r ← pair hex 0
    let g ← pair hex 2
    let b ← pair hex 4
    return do some (ofBytes (← r) (← g) (← b) 1)
  | 8 =>
    let r ← pair hex 0
    let g ← pair hex 2
    let b ← pair hex 4
    let a ← pair hex 6
    return do some (ofBytes (← r) (← g) (← b) ((← a) / 255))
  | _ => return none

section Digits

variable {hex : List Char}

/-- The value of a digit. -/
def digitValue (c : Char) : Nat := (hexDigit? c).getD 0

theorem mapM_hexDigit (h : ∀ c ∈ hex, isHex c = true) :
    hex.mapM hexDigit? = some (hex.map digitValue) := by
  refine mapM_eq_some fun c hc => ?_
  obtain ⟨d, hd⟩ := Option.isSome_iff_exists.1 (h c hc)
  rw [digitValue, hd]
  rfl

theorem mapM_hexDigit_none (h : hex.all isHex = false) :
    hex.mapM hexDigit? = none := by
  induction hex with
  | nil => cases h
  | cons c cs ih =>
      rw [List.mapM_cons]
      cases hd : hexDigit? c with
      | none => rfl
      | some d =>
          rw [List.all_cons, isHex, hd] at h
          rw [ih h]
          rfl

theorem byteSize_eq (h : ∀ c ∈ hex, isHex c = true) :
    byteSize hex = hex.length := by
  induction hex with
  | nil => rfl
  | cons c cs ih =>
      obtain ⟨hc, hcs⟩ := List.forall_mem_cons.1 h
      rw [byteSize, utf8Size_of_isHex hc, ih hcs, List.length_cons,
        Nat.add_comm]

theorem byteRange_hex (h : ∀ c ∈ hex, isHex c = true) {i n : Nat}
    (hi : i + n ≤ hex.length) :
    byteRange? hex i (i + n) = some ((hex.drop i).take n) := by
  rw [byteRange?_eq (fun c hc => utf8Size_of_isHex (h c hc)) (by omega) hi,
    Nat.add_sub_cancel_left]

theorem hexNumber_of_range (h : ∀ c ∈ hex, isHex c = true) (i n : Nat) :
    hexNumber? ((hex.drop i).take n) = some ((((hex.map digitValue).drop
      i).take n).foldl (fun n d => n * 16 + d) 0) := by
  have hrange : ∀ c ∈ (hex.drop i).take n, isHex c = true :=
    fun c hc => h c (List.mem_of_mem_drop (List.mem_of_mem_take hc))
  rw [hexNumber?, mapM_hexDigit hrange, List.map_take, List.map_drop]
  rfl

theorem digit_eq (h : ∀ c ∈ hex, isHex c = true) {i : Nat}
    (hi : i + 1 ≤ hex.length) : digit hex i = some (some (Float.ofNat
      ((((hex.map digitValue).drop i).take 1).foldl
        (fun n d => n * 16 + d) 0 * 17))) := by
  rw [digit, byteRange_hex h hi]
  simp only [Option.bind_eq_bind, Option.bind_some, hexNumber_of_range h]
  rfl

theorem pair_eq (h : ∀ c ∈ hex, isHex c = true) {i : Nat}
    (hi : i + 2 ≤ hex.length) : pair hex i = some (some (Float.ofNat
      ((((hex.map digitValue).drop i).take 2).foldl
        (fun n d => n * 16 + d) 0))) := by
  rw [pair, byteRange_hex h hi]
  simp only [Option.bind_eq_bind, Option.bind_some, hexNumber_of_range h]
  rfl

end Digits

theorem ofHex_eq (hex : List Char) :
    ofHex hex = some (Color.ofHex? hex) := by
  cases hall : hex.all isHex with
  | false =>
      rw [ofHex, hall, Color.ofHex?, mapM_hexDigit_none hall]
      rfl
  | true =>
      have h : ∀ c ∈ hex, isHex c = true := List.all_eq_true.1 hall
      rw [ofHex, hall, byteSize_eq h, Color.ofHex?, mapM_hexDigit h]
      match hex with
      | [] | [_] | [_, _] | [_, _, _, _, _] | [_, _, _, _, _, _, _] => rfl
      | [_, _, _] | [_, _, _, _] => simp [digit_eq h]
      | [_, _, _, _, _, _] | [_, _, _, _, _, _, _, _] => simp [pair_eq h]
      | _ :: _ :: _ :: _ :: _ :: _ :: _ :: _ :: _ :: rest => rfl

/-! ## Functions and names -/

def ofCall (cs : List Char) : Option (Option Color) :=
  match Color.call? cs with
  | none => some none
  | some (name, body) => do
    let args := Color.operands body
    if args.length != 3 && args.length != 4 then return none
    let alpha? := match args[3]? with
      | some a => Color.alpha? a
      | none => some 1.0
    let x ← args[0]?
    let y ← args[1]?
    let z ← args[2]?
    return do
      let a ← alpha?
      if name == "rgb" || name == "rgba" then
        return ⟨← Color.channel? x, ← Color.channel? y, ← Color.channel? z, a⟩
      else if name == "hsl" || name == "hsla" then
        return Color.ofHsl (← Color.hue? x) (← Color.percentage? y)
          (← Color.percentage? z) a
      else none

theorem ofCall_eq (cs : List Char) :
    ofCall cs = some (Color.ofCall? cs) := by
  unfold ofCall Color.ofCall?
  cases Color.call? cs with
  | none => rfl
  | some call =>
      obtain ⟨name, body⟩ := call
      simp only [Option.bind_eq_bind, Option.bind_some]
      match Color.operands body with
      | [] | [_] | [_, _] => rfl
      | [x, y, z] => rfl
      | [x, y, z, a] =>
          cases ha : Color.alpha? a <;> simp [ha]
      | _ :: _ :: _ :: _ :: _ :: rest =>
          have hlength :
              (rest.length + 5 != 3 && rest.length + 5 != 4) = true := by
            simp
          simp only [List.length_cons, hlength, if_true]
          rfl

/-- The color at the place of a name in a table. -/
def ofEntry (entries : List (String × Nat)) (name : String) :
    Option (Option Color) :=
  match entries.findIdx? (·.1 == name) with
  | none => some none
  | some i => do
    let (_, rgb) ← entries[i]?
    return some (ofBytes (.ofNat (rgb / 0x10000 % 0x100))
      (.ofNat (rgb / 0x100 % 0x100)) (.ofNat (rgb % 0x100)) 1)

theorem lookup_eq_findIdx {β : Type} (name : String)
    (entries : List (String × β)) : entries.lookup name =
      (entries.findIdx? (·.1 == name)).bind fun i =>
        entries[i]?.map Prod.snd := by
  induction entries with
  | nil => rfl
  | cons entry rest ih =>
      obtain ⟨key, value⟩ := entry
      rw [List.lookup_cons, List.findIdx?_cons, ih, Bool.beq_comm]
      cases key == name with
      | true => rfl
      | false =>
          simp only [Bool.false_eq_true, if_false]
          cases rest.findIdx? (·.1 == name) <;> rfl

theorem ofEntry_eq (entries : List (String × Nat)) (name : String) :
    ofEntry entries name = some ((entries.lookup name).map fun rgb =>
      ofBytes (.ofNat (rgb / 0x10000 % 0x100)) (.ofNat (rgb / 0x100 % 0x100))
        (.ofNat (rgb % 0x100)) 1) := by
  rw [ofEntry, lookup_eq_findIdx]
  cases h : entries.findIdx? (·.1 == name) with
  | none => rfl
  | some i =>
      obtain ⟨hi, -⟩ := List.findIdx?_eq_some_iff_getElem.1 h
      simp [List.getElem?_eq_getElem hi]

def ofName (name : String) : Option (Option Color) :=
  if name == "transparent" then some (some Rgba.transparent)
  else ofEntry Color.namedColors name

theorem ofName_eq (name : String) :
    ofName name = some (Color.ofName? name) := by
  unfold ofName Color.ofName?
  split
  · rfl
  · rw [ofEntry_eq, Color.named?, Option.map_map, Function.comp_def]

def parse (s : String) : Option (Option Color) :=
  let cs := (Text.trimChars s.toList).map Char.toLower
  match cs with
  | '#' :: hex => ofHex hex
  | _ => do
    match ← ofCall cs with
    | some c => return some c
    | none => ofName (String.ofList cs)

theorem parse_eq (s : String) : parse s = some (Color.parse? s) := by
  unfold parse Color.parse?
  simp only [ofCall_eq, ofName_eq, ofHex_eq, Option.bind_eq_bind,
    Option.bind_some]
  generalize (Text.trimChars s.toList).map Char.toLower = cs
  split
  · rfl
  · next hhex =>
      cases Color.ofCall? cs <;> simp

/-! ## Conversions -/

def colorOf (v : Value) : Option (Except ColorFailure Color) :=
  match v with
  | .string s => do
    match ← parse s with
    | some c => return .ok c
    | none => return .error (.unreadable v)
  | v => some (Semantics.colorOf v)

theorem colorOf_eq (v : Value) :
    colorOf v = some (Semantics.colorOf v) := by
  cases v with
  | string s =>
      show (parse s >>= _) = some (match Color.parse? s with
        | some c => Except.ok c
        | none => _)
      rw [parse_eq]
      cases Color.parse? s <;> rfl
  | _ => rfl

def toColor (failure : ColorFailure) : List Outcome → Checked EvalError Color
  | [] => throw (.invalidColor failure)
  | o :: rest => do
    match ← colorOf (← o) with
    | .ok c => return c
    | .error failure => toColor failure rest

theorem toColor_returns (failure : ColorFailure) (os : List Outcome) :
    Returns (toColor failure os) (Semantics.toColor failure os) := by
  induction os generalizing failure with
  | nil => exact .throw
  | cons o rest ih =>
      refine .bind .lift fun v _ => .access (colorOf_eq v) ?_
      cases Semantics.colorOf v with
      | ok c => exact .pure
      | error failure => exact ih failure

def convert (ty : Ty) (args : List Outcome) : Checked EvalError Value :=
  match ty with
  | .color => do return .color (← toColor (.unreadable .null) args)
  | ty => Semantics.convert ty args

theorem convert_returns (ty : Ty) (args : List Outcome) :
    Returns (convert ty args) (Semantics.convert ty args) := by
  cases ty with
  | color => exact .bind (toColor_returns _ args) fun c _ => .pure
  | _ => exact .lift

end MapStyle.Checked
