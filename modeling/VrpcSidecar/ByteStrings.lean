import Mathlib

/-! # Byte strings and their textual forms

Everything the sidecar handles is a sequence of octets: bodies, field names,
keys, the texts of its own header values.  This module fixes the few operations
on them that the rest of the development is written in: ASCII case folding,
fixed-size blocks (the arrays of the source), big- and little-endian integers,
lowercase hexadecimal with its `0x` prefix, and decimal numerals, each with the
law that reading back what was written gives the original value.
-/
namespace VrpcSidecar

/-- A byte string. -/
abbrev Bytes := List UInt8

/-- The bytes of a literal, ASCII throughout this project. -/
def ascii (s : String) : Bytes := s.toUTF8.data.toList

/-! ## ASCII case -/

/-- ASCII lowercase of one byte; bytes outside `A`–`Z` are unchanged. -/
def lowerByte (b : UInt8) : UInt8 := if 0x41 ≤ b ∧ b ≤ 0x5a then b + 0x20 else b

/-- ASCII lowercase of a byte string. -/
def lower (bs : Bytes) : Bytes := bs.map lowerByte

/-- Equality of byte strings up to ASCII case. -/
def eqIgnoreCase (a b : Bytes) : Bool := lower a == lower b

theorem lowerByte_lowerByte (b : UInt8) : lowerByte (lowerByte b) = lowerByte b := by
  by_cases h : 0x41 ≤ b ∧ b ≤ 0x5a
  · have hup : lowerByte b = b + 0x20 := by simp [lowerByte, h]
    have hno : ¬ (0x41 ≤ b + 0x20 ∧ b + 0x20 ≤ 0x5a) := by
      simp only [UInt8.le_iff_toNat_le, UInt8.toNat_add, UInt8.reduceToNat] at h ⊢
      omega
    rw [hup, lowerByte, if_neg hno]
  · have hid : lowerByte b = b := by simp [lowerByte, h]
    rw [hid, hid]

@[simp] theorem lower_lower (bs : Bytes) : lower (lower bs) = lower bs := by
  simp [lower, Function.comp_def, lowerByte_lowerByte]

theorem eqIgnoreCase_iff (a b : Bytes) : eqIgnoreCase a b = true ↔ lower a = lower b := by
  simp [eqIgnoreCase]

/-! ## Fixed-size blocks -/

/-- A byte string of exactly `n` bytes: the source's `[u8; n]`. -/
structure Block (n : Nat) where
  /-- The bytes of the block. -/
  bytes : Bytes
  /-- There are exactly `n` of them. -/
  size : bytes.length = n
  deriving DecidableEq

namespace Block
variable {n : Nat}

@[ext] theorem ext {a b : Block n} (h : a.bytes = b.bytes) : a = b := by
  cases a
  cases b
  simpa using h

@[simp] theorem length_bytes (a : Block n) : a.bytes.length = n := a.size

/-- The block of `n` zero bytes. -/
def zero (n : Nat) : Block n := ⟨List.replicate n 0, by simp⟩

/-- The bytes, cut or filled with zeros to `n` of them. -/
def padded (n : Nat) (bs : Bytes) : Block n :=
  ⟨(bs ++ List.replicate n 0).take n, by simp⟩

theorem padded_bytes {n : Nat} {bs : Bytes} (h : bs.length = n) :
    (padded n bs).bytes = bs := List.take_left' h

theorem take_padded {n : Nat} {bs : Bytes} (h : bs.length ≤ n) :
    (padded n bs).bytes.take bs.length = bs := by
  rw [padded, List.take_take, Nat.min_eq_left h, List.take_left]

end Block

/-! ## Integers as bytes -/

/-- The value of a big-endian byte string, after the digits already read. -/
def ofBE (acc : Nat) (bs : Bytes) : Nat := bs.foldl (fun a b => a * 256 + b.toNat) acc

/-- The big-endian encoding of `v` in `k` bytes. -/
def toBE : Nat → Nat → Bytes
  | 0, _ => []
  | k + 1, v => UInt8.ofNat (v / 256 ^ k) :: toBE k (v % 256 ^ k)

@[simp] theorem ofBE_nil (acc : Nat) : ofBE acc [] = acc := rfl

@[simp] theorem ofBE_cons (acc : Nat) (b : UInt8) (bs : Bytes) :
    ofBE acc (b :: bs) = ofBE (acc * 256 + b.toNat) bs := rfl

@[simp] theorem length_toBE (k v : Nat) : (toBE k v).length = k := by
  induction k generalizing v with
  | zero => rfl
  | succ k ih => simp [toBE, ih]

/-- Digits already read contribute their value times the weight of what follows. -/
theorem ofBE_eq (acc : Nat) (bs : Bytes) : ofBE acc bs = acc * 256 ^ bs.length + ofBE 0 bs := by
  induction bs generalizing acc with
  | nil => simp
  | cons b bs ih =>
    rw [ofBE_cons, ofBE_cons, ih (acc * 256 + b.toNat), ih (0 * 256 + b.toNat), List.length_cons,
      Nat.pow_succ]
    ring

theorem ofBE_lt (bs : Bytes) : ofBE 0 bs < 256 ^ bs.length := by
  induction bs with
  | nil => simp
  | cons b bs ih =>
    have hb : b.toNat + 1 ≤ 256 := b.toNat_lt
    rw [ofBE_cons, ofBE_eq, List.length_cons, Nat.pow_succ]
    calc (0 * 256 + b.toNat) * 256 ^ bs.length + ofBE 0 bs
        < (0 * 256 + b.toNat) * 256 ^ bs.length + 256 ^ bs.length := by omega
      _ = (b.toNat + 1) * 256 ^ bs.length := by ring
      _ ≤ 256 * 256 ^ bs.length := Nat.mul_le_mul_right _ hb
      _ = 256 ^ bs.length * 256 := Nat.mul_comm _ _

/-- Reading a big-endian encoding gives the value, when it fits. -/
theorem ofBE_toBE {k v : Nat} (h : v < 256 ^ k) : ofBE 0 (toBE k v) = v := by
  induction k generalizing v with
  | zero =>
    have : v = 0 := by simpa using h
    simp [toBE, this]
  | succ k ih =>
    have hpos : 0 < 256 ^ k := Nat.pow_pos (by decide)
    have hq : v / 256 ^ k < 256 := by
      rw [Nat.div_lt_iff_lt_mul hpos, Nat.mul_comm, ← Nat.pow_succ]
      exact h
    rw [toBE, ofBE_cons, ofBE_eq, ih (Nat.mod_lt v hpos), length_toBE, UInt8.toNat_ofNat',
      Nat.mod_eq_of_lt hq, Nat.zero_mul, Nat.zero_add, Nat.mul_comm]
    exact Nat.div_add_mod v (256 ^ k)

/-- Encoding the value of a byte string in as many bytes gives the string back. -/
theorem toBE_ofBE (bs : Bytes) : toBE bs.length (ofBE 0 bs) = bs := by
  induction bs with
  | nil => rfl
  | cons b bs ih =>
    have hpos : 0 < 256 ^ bs.length := Nat.pow_pos (by decide)
    have hlt := ofBE_lt bs
    have hdiv : (b.toNat * 256 ^ bs.length + ofBE 0 bs) / 256 ^ bs.length = b.toNat := by
      rw [Nat.add_comm, Nat.add_mul_div_right _ _ hpos, Nat.div_eq_of_lt hlt, Nat.zero_add]
    have hmod : (b.toNat * 256 ^ bs.length + ofBE 0 bs) % 256 ^ bs.length = ofBE 0 bs := by
      rw [Nat.add_comm, Nat.add_mul_mod_self_right, Nat.mod_eq_of_lt hlt]
    rw [ofBE_cons, ofBE_eq, Nat.zero_mul, Nat.zero_add, List.length_cons, toBE, hdiv, hmod, ih,
      UInt8.ofNat_toNat]

/-- `u64::to_le_bytes`. -/
def toLE (t : UInt64) : Bytes := (toBE 8 t.toNat).reverse

@[simp] theorem length_toLE (t : UInt64) : (toLE t).length = 8 := by simp [toLE]

/-! ## Hexadecimal text -/

/-- One lowercase hexadecimal digit. -/
def hexDigit (n : Nat) : UInt8 := if n < 10 then UInt8.ofNat (0x30 + n) else UInt8.ofNat (0x57 + n)

/-- The value of a hexadecimal digit of either case. -/
def hexValue (b : UInt8) : Option Nat :=
  if 0x30 ≤ b ∧ b ≤ 0x39 then some (b.toNat - 0x30)
  else if 0x61 ≤ b ∧ b ≤ 0x66 then some (b.toNat - 0x57)
  else if 0x41 ≤ b ∧ b ≤ 0x46 then some (b.toNat - 0x37)
  else none

/-- `hex::encode`: two lowercase digits a byte. -/
def hexEncode : Bytes → Bytes
  | [] => []
  | b :: bs => hexDigit (b.toNat / 16) :: hexDigit (b.toNat % 16) :: hexEncode bs

/-- `hex::decode`: pairs of digits of either case, and nothing else. -/
def hexDecode : Bytes → Option Bytes
  | [] => some []
  | [_] => none
  | hi :: lo :: rest => do
    let h ← hexValue hi
    let l ← hexValue lo
    let bs ← hexDecode rest
    return UInt8.ofNat (16 * h + l) :: bs

/-- `util::prefixed_hex`. -/
def prefixedHex (bs : Bytes) : Bytes := ascii "0x" ++ hexEncode bs

/-- Reading `0x`-prefixed hexadecimal text. -/
def readPrefixedHex : Bytes → Option Bytes
  | 0x30 :: 0x78 :: digits => hexDecode digits
  | _ => none

theorem hexValue_hexDigit : ∀ n : Fin 16, hexValue (hexDigit n.val) = some n.val := by
  decide

theorem hexValue_hexDigit_of_lt {n : Nat} (h : n < 16) : hexValue (hexDigit n) = some n :=
  hexValue_hexDigit ⟨n, h⟩

/-- Decoding inverts encoding, for every byte string. -/
theorem hexDecode_hexEncode (bs : Bytes) : hexDecode (hexEncode bs) = some bs := by
  induction bs with
  | nil => rfl
  | cons b bs ih =>
    have hlt := b.toNat_lt
    have hhi : hexValue (hexDigit (b.toNat / 16)) = some (b.toNat / 16) :=
      hexValue_hexDigit_of_lt (by omega)
    have hlo : hexValue (hexDigit (b.toNat % 16)) = some (b.toNat % 16) :=
      hexValue_hexDigit_of_lt (by omega)
    have hb : UInt8.ofNat (16 * (b.toNat / 16) + b.toNat % 16) = b := by
      rw [Nat.div_add_mod, UInt8.ofNat_toNat]
    rw [hexEncode, hexDecode, hhi, hlo, ih]
    exact congrArg (fun c => some (c :: bs)) hb

/-- A text that decodes has two digits a byte. -/
theorem length_of_hexDecode {data bytes : Bytes} (h : hexDecode data = some bytes) :
    data.length = 2 * bytes.length := by
  induction data using hexDecode.induct generalizing bytes with
  | case1 =>
    cases h
    rfl
  | case2 b => cases h
  | case3 hi lo rest ih =>
    simp only [hexDecode, Option.bind_eq_bind, Option.bind_eq_some_iff, Option.pure_def,
      Option.some.injEq] at h
    obtain ⟨_, -, _, -, tail, htail, rfl⟩ := h
    have hlen := ih htail
    simp only [List.length_cons]
    omega

theorem ascii_zero_x : ascii "0x" = [0x30, 0x78] := by decide

theorem readPrefixedHex_prefixedHex (bs : Bytes) : readPrefixedHex (prefixedHex bs) = some bs := by
  rw [prefixedHex, ascii_zero_x]
  exact hexDecode_hexEncode bs

/-! ## Decimal text -/

/-- The decimal numeral of `n`, as `to_string` writes it. -/
def decimal (n : Nat) : Bytes := (Nat.toDigits 10 n).map (fun c => UInt8.ofNat c.toNat)

/-- The value of a decimal digit. -/
def digitValue (b : UInt8) : Option Nat :=
  if 0x30 ≤ b ∧ b ≤ 0x39 then some (b.toNat - 0x30) else none

/-- Reading decimal digits after the value `acc` already read. -/
def readDigits (acc : Nat) : Bytes → Option Nat
  | [] => some acc
  | b :: bs => (digitValue b).bind (fun d => readDigits (acc * 10 + d) bs)

/-- Reading a non-empty decimal numeral. -/
def readDecimal (bs : Bytes) : Option Nat := if bs = [] then none else readDigits 0 bs

/-- Reading a decimal numeral that fits a `u64`. -/
def readU64 (bs : Bytes) : Option UInt64 :=
  (readDecimal bs).bind (fun n => if n < 2 ^ 64 then some (UInt64.ofNat n) else none)

theorem readDigits_append (acc : Nat) (xs ys : Bytes) :
    readDigits acc (xs ++ ys) = (readDigits acc xs).bind (fun a => readDigits a ys) := by
  induction xs generalizing acc with
  | nil => rfl
  | cons b xs ih =>
    rw [List.cons_append, readDigits, readDigits, Option.bind_assoc]
    congr 1
    funext d
    exact ih _

theorem digitValue_digitChar : ∀ d : Fin 10,
    digitValue (UInt8.ofNat (Nat.digitChar d.val).toNat) = some d.val := by
  decide

theorem decimal_of_lt {n : Nat} (h : n < 10) :
    decimal n = [UInt8.ofNat (Nat.digitChar n).toNat] := by
  rw [decimal, Nat.toDigits_of_lt_base h]
  rfl

theorem decimal_of_ge {n : Nat} (h : 10 ≤ n) :
    decimal n = decimal (n / 10) ++ [UInt8.ofNat (Nat.digitChar (n % 10)).toNat] := by
  rw [decimal, Nat.toDigits_of_base_le (by decide) h, List.map_append]
  rfl

/-- The digits of a numeral read back to its value. -/
theorem readDigits_decimal (n : Nat) : readDigits 0 (decimal n) = some n := by
  induction n using Nat.strongRecOn with
  | ind n ih =>
    rcases Nat.lt_or_ge n 10 with h | h
    · rw [decimal_of_lt h, readDigits, digitValue_digitChar ⟨n, h⟩]
      simp [readDigits]
    · have hd := digitValue_digitChar ⟨n % 10, Nat.mod_lt n (by decide)⟩
      rw [decimal_of_ge h, readDigits_append, ih (n / 10) (by omega), Option.bind_some, readDigits,
        hd]
      simp only [Option.bind_some, readDigits, Option.some.injEq]
      omega

theorem decimal_ne_nil (n : Nat) : decimal n ≠ [] := by
  rcases Nat.lt_or_ge n 10 with h | h
  · simp [decimal_of_lt h]
  · simp [decimal_of_ge h]

/-- The decimal text of a timestamp reads back to it. -/
theorem readU64_decimal (t : UInt64) : readU64 (decimal t.toNat) = some t := by
  have hlt : t.toNat < 2 ^ 64 := t.toNat_lt
  rw [readU64, readDecimal, if_neg (decimal_ne_nil _), readDigits_decimal, Option.bind_some,
    if_pos hlt, UInt64.ofNat_toNat]

/-- `str::parse::<u64>`: a sign may stand before the digits. -/
def parseU64 : Bytes → Option UInt64
  | 0x2b :: digits => readU64 digits
  | s => readU64 s

/-- A numeral is read without a sign as with one. -/
theorem parseU64_of_readU64 {s : Bytes} {t : UInt64} (h : readU64 s = some t) :
    parseU64 s = some t := by
  rw [parseU64.eq_def]
  split
  · -- a sign is no digit
    cases h
  · exact h

/-! ## Visible text -/

/-- Every byte is printable ASCII, spaces included. -/
def Visible (bs : Bytes) : Prop := ∀ b ∈ bs, 0x20 ≤ b ∧ b ≤ 0x7e

instance (bs : Bytes) : Decidable (Visible bs) :=
  inferInstanceAs (Decidable (∀ b ∈ bs, 0x20 ≤ b ∧ b ≤ 0x7e))

theorem Visible.append {xs ys : Bytes} (hx : Visible xs) (hy : Visible ys) : Visible (xs ++ ys) :=
  fun b hb => (List.mem_append.mp hb).elim (hx b) (hy b)

theorem visible_hexDigit : ∀ n : Fin 16, 0x20 ≤ hexDigit n.val ∧ hexDigit n.val ≤ 0x7e := by
  decide

theorem visible_hexEncode (bs : Bytes) : Visible (hexEncode bs) := by
  induction bs with
  | nil => exact fun b hb => absurd hb List.not_mem_nil
  | cons c bs ih =>
    have hlt := c.toNat_lt
    intro b hb
    rw [hexEncode, List.mem_cons, List.mem_cons] at hb
    rcases hb with rfl | rfl | hb
    · exact visible_hexDigit ⟨c.toNat / 16, by omega⟩
    · exact visible_hexDigit ⟨c.toNat % 16, by omega⟩
    · exact ih b hb

theorem visible_prefixedHex (bs : Bytes) : Visible (prefixedHex bs) :=
  Visible.append (by decide +kernel) (visible_hexEncode bs)

theorem visible_digitChar : ∀ d : Fin 10,
    0x20 ≤ UInt8.ofNat (Nat.digitChar d.val).toNat ∧
      UInt8.ofNat (Nat.digitChar d.val).toNat ≤ 0x7e := by
  decide

theorem visible_decimal (n : Nat) : Visible (decimal n) := by
  induction n using Nat.strongRecOn with
  | ind n ih =>
    rcases Nat.lt_or_ge n 10 with h | h
    · rw [decimal_of_lt h]
      intro b hb
      rw [List.mem_singleton.mp hb]
      exact visible_digitChar ⟨n, h⟩
    · rw [decimal_of_ge h]
      refine Visible.append (ih (n / 10) (by omega)) ?_
      intro b hb
      rw [List.mem_singleton.mp hb]
      exact visible_digitChar ⟨n % 10, Nat.mod_lt n (by decide)⟩

end VrpcSidecar
