import VrpcSidecar.ByteStrings

/-! # Variable-length integers and length-prefixed strings

The framing that Binary HTTP is written in: the variable-length integers of
RFC 9000 §16, whose first two bits say how many bytes they take, and strings
prefixed by such an integer.  A value may be written in any width that holds it,
so a string has several prefixed forms (`Prefixed` allows all of them); reading
is deterministic and inverts every one of them, in both directions
(`readVarint_encode`, `encode_of_readVarint`, and likewise for strings).
-/
namespace VrpcSidecar

/-- What one read from the front of a byte string can give: a value with the bytes
after it, the end of the input, or an input that stops in the middle. -/
inductive Read (α : Type) where
  | got (a : α) (rest : Bytes)
  | eof
  | truncated
  deriving DecidableEq

/-! ## Variable-length integers -/

/-- The four widths of RFC 9000 §16. -/
inductive VarintWidth where
  | one
  | two
  | four
  | eight
  deriving DecidableEq

namespace VarintWidth

/-- The value of the first two bits. -/
def tag : VarintWidth → Nat
  | one => 0
  | two => 1
  | four => 2
  | eight => 3

/-- The number of bytes after the first. -/
def tail : VarintWidth → Nat
  | one => 0
  | two => 1
  | four => 3
  | eight => 7

/-- The number of bits that carry the value. -/
def bits (w : VarintWidth) : Nat := 8 * w.tail + 6

/-- The width announced by a first byte. -/
def ofFirst (first : UInt8) : VarintWidth :=
  if first < 0x40 then one else if first < 0x80 then two else if first < 0xc0 then four else eight

/-- The narrowest width that holds a value below `2 ^ 62`. -/
def shortest (v : Nat) : VarintWidth :=
  if v < 2 ^ 6 then one else if v < 2 ^ 14 then two else if v < 2 ^ 30 then four else eight

theorem two_pow_tag (w : VarintWidth) : 2 ^ w.tag = w.tail + 1 := by cases w <;> rfl

theorem two_pow_bits (w : VarintWidth) : 2 ^ w.bits = 64 * 256 ^ w.tail := by cases w <;> rfl

theorem tag_lt (w : VarintWidth) : w.tag < 4 := by cases w <;> decide

theorem tail_le (w : VarintWidth) : w.tail ≤ 7 := by cases w <;> decide

theorem bits_le (w : VarintWidth) : w.bits ≤ 62 := by cases w <;> decide

theorem tag_ofFirst (first : UInt8) : (ofFirst first).tag = first.toNat / 64 := by
  have hlt := first.toNat_lt
  unfold ofFirst
  simp only [UInt8.lt_iff_toNat_lt, UInt8.reduceToNat]
  split
  · simp only [tag]
    omega
  · split
    · simp only [tag]
      omega
    · split <;> (simp only [tag]; omega)

theorem lt_shortest {v : Nat} (h : v < 2 ^ 62) : v < 2 ^ (shortest v).bits := by
  unfold shortest
  split
  · assumption
  · split
    · assumption
    · split
      · assumption
      · exact h

end VarintWidth

/-- **RFC 9000 §16**: `v` in width `w`, big-endian, the width in the first two
bits. -/
def encodeVarint (w : VarintWidth) (v : Nat) : Bytes :=
  toBE (w.tail + 1) (w.tag * 2 ^ w.bits + v)

/-- Read one variable-length integer from the front. -/
def readVarint : Bytes → Read Nat
  | [] => .eof
  | first :: rest =>
    let n := 2 ^ (first.toNat / 64) - 1
    if n ≤ rest.length then .got (ofBE (first.toNat % 64) (rest.take n)) (rest.drop n)
    else .truncated

@[simp] theorem length_encodeVarint (w : VarintWidth) (v : Nat) :
    (encodeVarint w v).length = w.tail + 1 := by simp [encodeVarint]

/-- The first byte of an encoding, and the bytes after it. -/
theorem encodeVarint_eq {w : VarintWidth} {v : Nat} (h : v < 2 ^ w.bits) :
    ∃ first : UInt8, encodeVarint w v = first :: toBE w.tail (v % 256 ^ w.tail) ∧
      first.toNat / 64 = w.tag ∧ first.toNat % 64 = v / 256 ^ w.tail := by
  have hpos : 0 < 256 ^ w.tail := Nat.pow_pos (by decide)
  have htag := w.tag_lt
  rw [w.two_pow_bits] at h
  have hdiv : (w.tag * (64 * 256 ^ w.tail) + v) / 256 ^ w.tail = w.tag * 64 + v / 256 ^ w.tail := by
    rw [← Nat.mul_assoc, Nat.add_comm, Nat.add_mul_div_right _ _ hpos, Nat.add_comm]
  have hmod : (w.tag * (64 * 256 ^ w.tail) + v) % 256 ^ w.tail = v % 256 ^ w.tail := by
    rw [← Nat.mul_assoc, Nat.add_comm, Nat.add_mul_mod_self_right]
  have hv : v / 256 ^ w.tail < 64 := by
    rw [Nat.div_lt_iff_lt_mul hpos]
    exact h
  refine ⟨UInt8.ofNat (w.tag * 64 + v / 256 ^ w.tail), ?_, ?_, ?_⟩
  · rw [encodeVarint, w.two_pow_bits, toBE, hdiv, hmod]
  all_goals generalize v / 256 ^ w.tail = q at hv
  · rw [UInt8.toNat_ofNat']
    omega
  · rw [UInt8.toNat_ofNat']
    omega

/-- **Reading inverts encoding**, whatever the width and whatever follows. -/
theorem readVarint_encode {w : VarintWidth} {v : Nat} (h : v < 2 ^ w.bits) (rest : Bytes) :
    readVarint (encodeVarint w v ++ rest) = .got v rest := by
  have hpos : 0 < 256 ^ w.tail := Nat.pow_pos (by decide)
  obtain ⟨first, henc, htag, hlow⟩ := encodeVarint_eq h
  have hn : 2 ^ (first.toNat / 64) - 1 = w.tail := by rw [htag, w.two_pow_tag, Nat.add_sub_cancel]
  have hval : ofBE (first.toNat % 64) (toBE w.tail (v % 256 ^ w.tail)) = v := by
    rw [ofBE_eq, ofBE_toBE (Nat.mod_lt v hpos), length_toBE, hlow, Nat.mul_comm]
    exact Nat.div_add_mod v _
  rw [henc, List.cons_append, readVarint, hn, if_pos (by simp),
    List.take_left' (length_toBE _ _), List.drop_left' (length_toBE _ _), hval]

/-- **Encoding inverts reading**: what was read is an encoding of the value, in the
width its first byte announces. -/
theorem encode_of_readVarint {s rest : Bytes} {v : Nat} (h : readVarint s = .got v rest) :
    ∃ w : VarintWidth, s.head?.map VarintWidth.ofFirst = some w ∧ v < 2 ^ w.bits ∧
      s = encodeVarint w v ++ rest := by
  cases s with
  | nil => cases h
  | cons first tail =>
    set w := VarintWidth.ofFirst first with hw
    have htag : w.tag = first.toNat / 64 := VarintWidth.tag_ofFirst first
    have hn : 2 ^ (first.toNat / 64) - 1 = w.tail := by
      rw [← htag, w.two_pow_tag, Nat.add_sub_cancel]
    rw [readVarint, hn] at h
    split at h
    · rename_i hle
      injection h with hv hrest
      have hlen : (tail.take w.tail).length = w.tail := by simp [hle]
      have hlt := ofBE_lt (tail.take w.tail)
      rw [ofBE_eq, hlen] at hv
      rw [hlen] at hlt
      refine ⟨w, rfl, ?_, ?_⟩
      · rw [w.two_pow_bits, ← hv]
        have hm : first.toNat % 64 + 1 ≤ 64 := Nat.mod_lt _ (by decide)
        calc first.toNat % 64 * 256 ^ w.tail + ofBE 0 (tail.take w.tail)
            < first.toNat % 64 * 256 ^ w.tail + 256 ^ w.tail := by omega
          _ = (first.toNat % 64 + 1) * 256 ^ w.tail := by ring
          _ ≤ 64 * 256 ^ w.tail := Nat.mul_le_mul_right _ hm
      · have hsum : w.tag * 2 ^ w.bits + v = ofBE 0 (first :: tail.take w.tail) := by
          rw [ofBE_cons, ofBE_eq, hlen, ← hv, w.two_pow_bits, htag]
          have hd : first.toNat = 64 * (first.toNat / 64) + first.toNat % 64 :=
            (Nat.div_add_mod _ _).symm
          calc first.toNat / 64 * (64 * 256 ^ w.tail) +
                (first.toNat % 64 * 256 ^ w.tail + ofBE 0 (tail.take w.tail))
              = (64 * (first.toNat / 64) + first.toNat % 64) * 256 ^ w.tail +
                  ofBE 0 (tail.take w.tail) := by ring
            _ = (0 * 256 + first.toNat) * 256 ^ w.tail + ofBE 0 (tail.take w.tail) := by
              rw [← hd]; ring
        have hback := toBE_ofBE (first :: tail.take w.tail)
        rw [List.length_cons, hlen] at hback
        rw [encodeVarint, hsum, hback, List.cons_append, ← hrest, List.take_append_drop]
    · cases h

/-- An encoding that is cut after its first byte is seen to be cut. -/
theorem readVarint_of_cut {w : VarintWidth} {v : Nat} (h : v < 2 ^ w.bits) {cut : Bytes}
    (hcut : cut <+: encodeVarint w v) (hproper : cut ≠ encodeVarint w v) (hne : cut ≠ []) :
    readVarint cut = .truncated := by
  obtain ⟨first, henc, htag, -⟩ := encodeVarint_eq h
  have hn : 2 ^ (first.toNat / 64) - 1 = w.tail := by rw [htag, w.two_pow_tag, Nat.add_sub_cancel]
  have hlen : cut.length < w.tail + 1 := by
    rw [← length_encodeVarint w v]
    refine lt_of_le_of_ne hcut.length_le ?_
    intro heq
    exact hproper (hcut.eq_of_length heq)
  cases cut with
  | nil => exact absurd rfl hne
  | cons b rest =>
    rw [henc, List.cons_prefix_cons] at hcut
    obtain ⟨rfl, -⟩ := hcut
    rw [List.length_cons] at hlen
    rw [readVarint, hn]
    exact if_neg (by omega)

theorem readVarint_eof {s : Bytes} (h : readVarint s = .eof) : s = [] := by
  cases s with
  | nil => rfl
  | cons first tail =>
    rw [readVarint] at h
    split at h <;> cases h

/-! ## Length-prefixed strings -/

/-- `enc` is the string `str` prefixed by its length, in some width. -/
def Prefixed (str enc : Bytes) : Prop :=
  ∃ w : VarintWidth, str.length < 2 ^ w.bits ∧ enc = encodeVarint w str.length ++ str

/-- Read one length-prefixed string from the front. -/
def readPrefixed (s : Bytes) : Read Bytes :=
  match readVarint s with
  | .eof => .eof
  | .truncated => .truncated
  | .got n rest => if n ≤ rest.length then .got (rest.take n) (rest.drop n) else .truncated

/-- The prefixed form a writer chooses: the narrowest width. -/
def writePrefixed (str : Bytes) : Bytes :=
  encodeVarint (VarintWidth.shortest str.length) str.length ++ str

theorem prefixed_writePrefixed {str : Bytes} (h : str.length < 2 ^ 62) :
    Prefixed str (writePrefixed str) :=
  ⟨VarintWidth.shortest str.length, VarintWidth.lt_shortest h, rfl⟩

theorem readPrefixed_eof {s : Bytes} (h : readPrefixed s = .eof) : s = [] := by
  unfold readPrefixed at h
  split at h
  · exact readVarint_eof ‹_›
  · cases h
  · split at h <;> cases h

/-- Every prefixed form of a string reads as that string. -/
theorem Prefixed.read {str enc : Bytes} (h : Prefixed str enc) (rest : Bytes) :
    readPrefixed (enc ++ rest) = .got str rest := by
  obtain ⟨w, hlt, rfl⟩ := h
  rw [readPrefixed, List.append_assoc, readVarint_encode hlt]
  dsimp only
  rw [if_pos (by simp), List.take_left' rfl, List.drop_left' rfl]

/-- What reads as a string is a prefixed form of it. -/
theorem prefixed_of_read {s str rest : Bytes} (h : readPrefixed s = .got str rest) :
    ∃ enc, Prefixed str enc ∧ s = enc ++ rest := by
  unfold readPrefixed at h
  split at h
  · cases h
  · cases h
  · rename_i n tail hr
    split at h
    · rename_i hle
      injection h with hstr hrest
      obtain ⟨w, -, hlt, hs⟩ := encode_of_readVarint hr
      have hlen : str.length = n := by simp [← hstr, hle]
      refine ⟨encodeVarint w n ++ str, ⟨w, hlen ▸ hlt, by rw [hlen]⟩, ?_⟩
      rw [hs, ← hstr, ← hrest, List.append_assoc, List.take_append_drop]
    · cases h

theorem Prefixed.ne_nil {str enc : Bytes} (h : Prefixed str enc) : enc ≠ [] := by
  obtain ⟨w, -, rfl⟩ := h
  have := length_encodeVarint w str.length
  intro hnil
  rw [List.append_eq_nil_iff] at hnil
  rw [hnil.1] at this
  simp at this

/-- A prefixed string is longer than the string. -/
theorem Prefixed.length_lt {str enc : Bytes} (h : Prefixed str enc) : str.length < enc.length := by
  obtain ⟨w, -, rfl⟩ := h
  simp

end VrpcSidecar
