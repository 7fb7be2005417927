import VrpcSidecar.ByteStrings

/-! # Clamped scalars

A secret of 32 bytes is multiplied with a base point after *clamping*: the low three
bits and the top bit of the number are cleared, and the bit below the top is set.
`clampedScalar` says so on the number and `clampBytes` on its little-endian bytes.
They agree (`littleEndian_clampBytes`), and clamping twice is clamping once, so a
secret and its clamped bytes have the same public point on every curve.
-/
namespace VrpcSidecar

/-- The number with the given bytes, the lowest first. -/
def littleEndian (bs : Bytes) : Nat := Nat.ofDigits 256 (bs.map UInt8.toNat)

/-- Bits 3 to 253 of a number, with bit 254 set. -/
def clampedScalar (n : Nat) : Nat := 2 ^ 254 + 8 * (n / 8 % 2 ^ 251)

/-- The same on the bytes, by three masks. -/
def clampBytes (bs : Bytes) : Bytes :=
  ((bs.modify 0 (· &&& 248)).modify 31 (· &&& 127)).modify 31 (· ||| 64)

/-- A clamped number is not changed by clamping it. -/
theorem clampedScalar_clampedScalar (n : Nat) :
    clampedScalar (clampedScalar n) = clampedScalar n := by
  unfold clampedScalar
  omega

theorem toNat_and_248 : ∀ b : UInt8, (b &&& 248).toNat = 8 * (b.toNat / 8) := by decide +kernel

theorem toNat_and_127_or_64 : ∀ b : UInt8, (b &&& 127 ||| 64).toNat = 64 + b.toNat % 64 := by
  decide +kernel

/-- The first byte, the 30 in the middle and the last. -/
theorem eq_first_middle_last {bs : Bytes} (h : bs.length = 32) :
    ∃ first middle last, bs = first :: (middle ++ [last]) ∧ middle.length = 30 := by
  obtain ⟨first, rest, rfl⟩ := List.exists_cons_of_length_pos (by omega : 0 < bs.length)
  have hrest : rest.length = 31 := by simpa using h
  have hne : rest ≠ [] := List.ne_nil_of_length_pos (by omega)
  refine ⟨first, rest.dropLast, rest.getLast hne, ?_, by simp [hrest]⟩
  rw [List.dropLast_append_getLast]

/-- The value of 32 bytes, by their parts. -/
theorem littleEndian_parts {middle : Bytes} (h : middle.length = 30) (first last : UInt8) :
    littleEndian (first :: (middle ++ [last])) =
      first.toNat + 256 * (littleEndian middle + 256 ^ 30 * last.toNat) := by
  simp only [littleEndian, List.map_cons, List.map_append, List.map_nil]
  rw [Nat.ofDigits_cons, Nat.ofDigits_append, Nat.ofDigits_singleton, List.length_map, h]

theorem littleEndian_lt (bs : Bytes) : littleEndian bs < 256 ^ bs.length := by
  have hlt := Nat.ofDigits_lt_base_pow_length (b := 256) (l := bs.map UInt8.toNat) (by decide)
    (by
      intro d hd
      obtain ⟨b, -, rfl⟩ := List.mem_map.mp hd
      exact b.toNat_lt)
  rwa [List.length_map] at hlt

theorem clampBytes_parts {middle : Bytes} (h : middle.length = 30) (first last : UInt8) :
    clampBytes (first :: (middle ++ [last])) =
      (first &&& 248) :: (middle ++ [last &&& 127 ||| 64]) := by
  have hmodify : ∀ (f : UInt8 → UInt8) (a b : UInt8),
      (a :: (middle ++ [b])).modify 31 f = a :: (middle ++ [f b]) := by
    intro f a b
    rw [List.modify_succ_cons, List.modify_eq_take_cons_drop (by simp [h])]
    simp [h, List.take_left' h]
  rw [clampBytes, List.modify_zero_cons, hmodify, hmodify]

/-- **Clamping the bytes clamps the number.** -/
theorem littleEndian_clampBytes {bs : Bytes} (h : bs.length = 32) :
    littleEndian (clampBytes bs) = clampedScalar (littleEndian bs) := by
  obtain ⟨first, middle, last, rfl, hmiddle⟩ := eq_first_middle_last h
  have hlt := littleEndian_lt middle
  have hfirst := first.toNat_lt
  have hlast := last.toNat_lt
  rw [clampBytes_parts hmiddle, littleEndian_parts hmiddle, littleEndian_parts hmiddle,
    toNat_and_248, toNat_and_127_or_64]
  rw [hmiddle] at hlt
  generalize littleEndian middle = m at hlt ⊢
  generalize first.toNat = a at hfirst ⊢
  generalize last.toNat = b at hlast ⊢
  unfold clampedScalar
  omega

/-! ## Public points -/

/-- A group with a base point and the two encodings of its points: compressed, and the
first coordinate of another form of the same curve. -/
structure KeyCurve where
  Point : Type
  [group : AddCommGroup Point]
  base : Point
  compress : Point → Block 32
  uCoord : Point → Block 32

namespace KeyCurve
variable (curve : KeyCurve)

instance : AddCommGroup curve.Point := curve.group

/-- The public point of a secret. -/
def publicPoint (secret : Bytes) : curve.Point := clampedScalar (littleEndian secret) • curve.base

/-- **A secret and its clamped bytes have one public point.** -/
theorem publicPoint_clampBytes {secret : Bytes} (h : secret.length = 32) :
    curve.publicPoint (clampBytes secret) = curve.publicPoint secret := by
  rw [publicPoint, publicPoint, littleEndian_clampBytes h, clampedScalar_clampedScalar]

end KeyCurve
end VrpcSidecar
