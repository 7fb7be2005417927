import VrpcSidecar.ByteStrings

/-! # The JSON grammar over bytes

The grammar of RFC 8259 on byte strings, as a scanner that only skips values reads
it: a string is any bytes but the quote, the backslash and control characters,
with the standard escapes, `\u` taking any four hexadecimal digits; neither
surrogates nor UTF-8 are checked.  `Json` is the grammar, with the number of
elements of an array in its index.

The first byte of a value never is whitespace, a comma, a colon or a closing
bracket (`value_head`), which is what makes the elements of an array countable
one after the other.
-/
namespace VrpcSidecar.JsonText

/-! ## The grammar -/

/-- The four whitespace bytes. -/
def isSpace (b : UInt8) : Bool := b = 0x20 || b = 0x09 || b = 0x0a || b = 0x0d

/-- A possibly empty run of whitespace. -/
def Spaces (w : Bytes) : Prop := ∀ b ∈ w, isSpace b = true

/-- A decimal digit. -/
def isDigit (b : UInt8) : Bool := 0x30 ≤ b && b ≤ 0x39

/-- A hexadecimal digit of either case. -/
def isHex (b : UInt8) : Bool := (hexValue b).isSome

/-- The byte after a backslash in a two-byte escape. -/
def isEscape (b : UInt8) : Bool :=
  b = 0x22 || b = 0x5c || b = 0x2f || b = 0x62 || b = 0x66 || b = 0x6e || b = 0x72 || b = 0x74

/-- A string after its opening quote, closing quote included. -/
inductive StringTail : Bytes → Prop where
  | close : StringTail [0x22]
  | plain {b : UInt8} {s : Bytes} (hq : b ≠ 0x22) (hb : b ≠ 0x5c) (hc : 0x20 ≤ b)
      (t : StringTail s) : StringTail (b :: s)
  | escape {b : UInt8} {s : Bytes} (hb : isEscape b = true) (t : StringTail s) :
      StringTail (0x5c :: b :: s)
  | unicode {x y z u : UInt8} {s : Bytes} (hx : isHex x = true) (hy : isHex y = true)
      (hz : isHex z = true) (hu : isHex u = true) (t : StringTail s) :
      StringTail (0x5c :: 0x75 :: x :: y :: z :: u :: s)

/-- One or more digits. -/
def Digits (ds : Bytes) : Prop := ds ≠ [] ∧ ∀ b ∈ ds, isDigit b = true

/-- The integer part: a single zero, or digits that do not start with one. -/
def IntPart (t : Bytes) : Prop :=
  t = [0x30] ∨ ∃ d ds, t = d :: ds ∧ isDigit d = true ∧ d ≠ 0x30 ∧ ∀ b ∈ ds, isDigit b = true

/-- The optional fraction. -/
def FracPart (t : Bytes) : Prop := t = [] ∨ ∃ ds, t = 0x2e :: ds ∧ Digits ds

/-- The optional exponent. -/
def ExpPart (t : Bytes) : Prop :=
  t = [] ∨ ∃ e sign ds, t = e :: (sign ++ ds) ∧ (e = 0x65 ∨ e = 0x45) ∧
    (sign = [] ∨ sign = [0x2b] ∨ sign = [0x2d]) ∧ Digits ds

/-- A number. -/
def Number (t : Bytes) : Prop :=
  ∃ sign i f e, t = sign ++ (i ++ (f ++ e)) ∧ (sign = [] ∨ sign = [0x2d]) ∧
    IntPart i ∧ FracPart f ∧ ExpPart e

/-- `null`, `true` or `false`. -/
def Literal (t : Bytes) : Prop :=
  t = [0x6e, 0x75, 0x6c, 0x6c] ∨ t = [0x74, 0x72, 0x75, 0x65] ∨ t = [0x66, 0x61, 0x6c, 0x73, 0x65]

/-- What a text can be: a value, the elements of an array up to its closing
bracket, or the members of an object up to its closing brace. -/
inductive Shape where
  | value
  | items (k : Nat)
  | members

/-- **The JSON grammar.**  `Json .value v` says that `v` is a value;
`Json (.items k) s` that `s` is `k ≥ 1` values separated by commas and closed by
`]`, with any whitespace around each. -/
inductive Json : Shape → Bytes → Prop where
  | literal {t : Bytes} (h : Literal t) : Json .value t
  | number {t : Bytes} (h : Number t) : Json .value t
  | string {s : Bytes} (h : StringTail s) : Json .value (0x22 :: s)
  | emptyArray {w : Bytes} (h : Spaces w) : Json .value (0x5b :: (w ++ [0x5d]))
  | array {k : Nat} {s : Bytes} (h : Json (.items k) s) : Json .value (0x5b :: s)
  | emptyObject {w : Bytes} (h : Spaces w) : Json .value (0x7b :: (w ++ [0x7d]))
  | object {s : Bytes} (h : Json .members s) : Json .value (0x7b :: s)
  | lastItem {w v w' : Bytes} (hw : Spaces w) (hv : Json .value v) (hw' : Spaces w') :
      Json (.items 1) (w ++ (v ++ (w' ++ [0x5d])))
  | item {k : Nat} {w v w' s : Bytes} (hw : Spaces w) (hv : Json .value v) (hw' : Spaces w')
      (hs : Json (.items k) s) : Json (.items (k + 1)) (w ++ (v ++ (w' ++ 0x2c :: s)))
  | lastMember {w key w₁ w₂ v w₃ : Bytes} (hw : Spaces w) (hkey : StringTail key)
      (hw₁ : Spaces w₁) (hw₂ : Spaces w₂) (hv : Json .value v) (hw₃ : Spaces w₃) :
      Json .members (w ++ 0x22 :: (key ++ (w₁ ++ 0x3a :: (w₂ ++ (v ++ (w₃ ++ [0x7d]))))))
  | member {w key w₁ w₂ v w₃ s : Bytes} (hw : Spaces w) (hkey : StringTail key)
      (hw₁ : Spaces w₁) (hw₂ : Spaces w₂) (hv : Json .value v) (hw₃ : Spaces w₃)
      (hs : Json .members s) :
      Json .members (w ++ 0x22 :: (key ++ (w₁ ++ 0x3a :: (w₂ ++ (v ++ (w₃ ++ 0x2c :: s))))))

/-- `s` is the rest of an array of `k` elements after its opening bracket. -/
def ArrayTail (k : Nat) (s : Bytes) : Prop :=
  (k = 0 ∧ ∃ w, Spaces w ∧ s = w ++ [0x5d]) ∨ Json (.items k) s

/-- The input can end a value here: it is over, or goes on with whitespace, a
comma or a closing bracket or brace. -/
def Delimited (r : Bytes) : Prop :=
  ∀ b t, r = b :: t → isSpace b = true ∨ b = 0x2c ∨ b = 0x5d ∨ b = 0x7d

/-! ## Facts about the grammar -/

theorem StringTail.ne_nil {s : Bytes} (h : StringTail s) : s ≠ [] := by
  cases h <;> simp

theorem IntPart.ne_nil {t : Bytes} (h : IntPart t) : t ≠ [] := by
  rcases h with rfl | ⟨d, ds, rfl, -⟩ <;> simp

/-- A value is not empty. -/
theorem value_ne_nil {v : Bytes} (h : Json .value v) : v ≠ [] := by
  cases h with
  | literal h => rcases h with rfl | rfl | rfl <;> simp
  | number h =>
    obtain ⟨sign, i, f, e, rfl, -, hi, -, -⟩ := h
    have := hi.ne_nil
    simp [this]
  | string h => simp
  | emptyArray h => simp
  | array h => simp
  | emptyObject h => simp
  | object h => simp

/-- The byte a value starts with: not whitespace, and none of `,`, `:`, `]`, `}`. -/
theorem value_head {v : Bytes} (h : Json .value v) :
    ∃ b t, v = b :: t ∧ isSpace b = false ∧ b ≠ 0x2c ∧ b ≠ 0x3a ∧ b ≠ 0x5d ∧ b ≠ 0x7d := by
  have hdigit : ∀ b, isDigit b = true →
      isSpace b = false ∧ b ≠ 0x2c ∧ b ≠ 0x3a ∧ b ≠ 0x5d ∧ b ≠ 0x7d := by
    intro b hb
    simp only [isDigit, isSpace, Bool.and_eq_true, decide_eq_true_eq, Bool.or_eq_false_iff,
      decide_eq_false_iff_not, UInt8.le_iff_toNat_le, ← UInt8.toNat_inj, ne_eq,
      UInt8.reduceToNat] at hb ⊢
    omega
  cases h with
  | literal h =>
    rcases h with rfl | rfl | rfl
    · exact ⟨0x6e, _, rfl, by decide⟩
    · exact ⟨0x74, _, rfl, by decide⟩
    · exact ⟨0x66, _, rfl, by decide⟩
  | number h =>
    obtain ⟨sign, i, f, e, rfl, hsign, hi, -, -⟩ := h
    rcases hsign with rfl | rfl
    · rcases hi with rfl | ⟨d, ds, rfl, hd, -⟩
      · exact ⟨0x30, _, rfl, by decide⟩
      · exact ⟨d, _, rfl, hdigit d hd⟩
    · exact ⟨0x2d, _, rfl, by decide⟩
  | string h => exact ⟨0x22, _, rfl, by decide⟩
  | emptyArray h => exact ⟨0x5b, _, rfl, by decide⟩
  | array h => exact ⟨0x5b, _, rfl, by decide⟩
  | emptyObject h => exact ⟨0x7b, _, rfl, by decide⟩
  | object h => exact ⟨0x7b, _, rfl, by decide⟩

end VrpcSidecar.JsonText
