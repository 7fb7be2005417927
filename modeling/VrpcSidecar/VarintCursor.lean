import VrpcSidecar.InnerLanguage

/-! # The cursor of the section walk

`take_varint` and `skip` move a `&mut &[u8]`.  The model of `inner.rs` passes the slice
on only where they succeed, which is all that the walk looks at; here they are written
with the slice they leave in every case, so that what a failure does to it can be said
too.  Erasing that gives the model of `inner.rs` back (`takeVarint_erase`).
-/
namespace VrpcSidecar

namespace Cursor

/-- The closure that `take_varint` folds with. -/
def shiftOr (v : UInt64) (b : UInt8) : UInt64 := (v <<< 8) ||| b.toUInt64

/-- `slice::split_at_checked`. -/
def splitAtChecked (rest : Bytes) (mid : Nat) : Option (Bytes × Bytes) :=
  if mid ≤ rest.length then some (rest.take mid, rest.drop mid) else none

/-- `take_varint`: its result, and the slice it leaves. -/
def takeVarint (rest : Bytes) : Except InnerError (Option UInt64) × Bytes :=
  match rest.head? with
  | none => (.ok none, rest)
  | some first =>
    match splitAtChecked rest (1 <<< (first >>> 6).toNat) with
    | none => (.error .badRequest, rest)
    | some (bytes, tail) =>
      (.ok (some ((bytes.drop 1).foldl shiftOr (first &&& 0x3f).toUInt64)), tail)

/-- `usize::try_from`. -/
def usizeTryFrom (n : UInt64) : Option Nat := if n.toNat ≤ usizeMax then some n.toNat else none

/-- `rest.get(len..)`. -/
def getFrom (rest : Bytes) (len : Nat) : Option Bytes :=
  if len ≤ rest.length then some (rest.drop len) else none

/-- `skip`: its result, and the slice it leaves. -/
def skip (rest : Bytes) (len : UInt64) : Except InnerError Unit × Bytes :=
  match usizeTryFrom len with
  | none => (.error .badRequest, rest)
  | some len =>
    match getFrom rest len with
    | none => (.error .badRequest, rest)
    | some tail => (.ok (), tail)

/-! ## What each of them does -/

/-- The model of `inner.rs` is this one with the slice forgotten on errors. -/
theorem takeVarint_erase (rest : Bytes) :
    VrpcSidecar.takeVarint rest =
      (takeVarint rest).1.map fun value => (value, (takeVarint rest).2) := by
  cases rest with
  | nil => rfl
  | cons first tail =>
    unfold VrpcSidecar.takeVarint takeVarint splitAtChecked
    dsimp only [List.head?_cons]
    by_cases hle : 1 <<< (first >>> 6).toNat ≤ (first :: tail).length
    · rw [if_pos hle, if_pos hle]
      rfl
    · rw [if_neg hle, if_neg hle]
      rfl

/-- A failed `take_varint` leaves the slice as it was. -/
theorem takeVarint_error {rest : Bytes} {e : InnerError} (h : (takeVarint rest).1 = .error e) :
    takeVarint rest = (.error .badRequest, rest) := by
  unfold takeVarint at h ⊢
  split
  · rename_i hhead
    rw [hhead] at h
    cases h
  · rename_i first hhead
    rw [hhead] at h
    dsimp only at h
    split
    · rfl
    · rename_i bytes tail hsplit
      rw [hsplit] at h
      cases h

/-- What a move leaves is determined where it succeeds. -/
theorem eq_of_erase_ok {α : Type} {moved : Except InnerError α × Bytes} {value : α} {tail : Bytes}
    (h : (moved.1.map fun value => (value, moved.2)) = .ok (value, tail)) :
    moved = (.ok value, tail) := by
  obtain ⟨result, left⟩ := moved
  cases result with
  | error e => cases h
  | ok _ =>
    cases h
    rfl

theorem error_of_erase {α β : Type} {result : Except InnerError α} {f : α → β} {e : InnerError}
    (h : result.map f = .error e) : result = .error e := by
  cases result with
  | error _ =>
    cases h
    rfl
  | ok _ => cases h

/-- **What `take_varint` does**, in terms of the reader of RFC 9000. -/
theorem takeVarint_eq_read (rest : Bytes) :
    takeVarint rest =
      match readVarint rest with
      | .eof => (.ok none, [])
      | .truncated => (.error .badRequest, rest)
      | .got v tail => (.ok (some (UInt64.ofNat v)), tail) := by
  have herase := (takeVarint_erase rest).symm.trans (takeVarint_eq rest)
  cases hread : readVarint rest with
  | eof =>
    rw [hread] at herase
    exact eq_of_erase_ok herase
  | truncated =>
    rw [hread] at herase
    exact takeVarint_error (error_of_erase herase)
  | got v tail =>
    rw [hread] at herase
    exact eq_of_erase_ok herase

/-- **What `skip` does**: the conversion to `usize` never fails on its own. -/
theorem skip_eq (rest : Bytes) (len : UInt64) :
    skip rest len =
      if len.toNat ≤ rest.length then (.ok (), rest.drop len.toNat)
      else (.error .badRequest, rest) := by
  have husize : usizeTryFrom len = some len.toNat := by
    have := len.toNat_lt
    exact if_pos (by rw [usizeMax]; omega)
  rw [skip, husize]
  dsimp only
  by_cases hle : len.toNat ≤ rest.length
  · rw [getFrom, if_pos hle, if_pos hle]
  · rw [getFrom, if_neg hle, if_neg hle]

theorem skip_fails_iff {rest : Bytes} {len : UInt64} :
    (∃ e, (skip rest len).1 = .error e) ↔ rest.length < len.toNat := by
  rw [skip_eq]
  by_cases hle : len.toNat ≤ rest.length
  · rw [if_pos hle]
    constructor
    · rintro ⟨e, he⟩
      cases he
    · omega
  · rw [if_neg hle]
    constructor
    · omega
    · intro _
      exact ⟨_, rfl⟩

/-! ## The integers -/

/-- No step of the fold over `bytes` loses a bit: what was read so far is below `2 ^ 56`, so
shifting it by eight bits drops none, and the step gives that number times 256 plus the
byte. -/
def LosslessFold (first : UInt8) (bytes : Bytes) : Prop :=
  ∀ front b back, bytes = front ++ b :: back →
    (front.foldl shiftOr (first &&& 0x3f).toUInt64).toNat < 2 ^ 56 ∧
      (shiftOr (front.foldl shiftOr (first &&& 0x3f).toUInt64) b).toNat =
        (front.foldl shiftOr (first &&& 0x3f).toUInt64).toNat * 256 + b.toNat

theorem toNat_and_lt (first : UInt8) : (first &&& 0x3f).toUInt64.toNat < 64 := by
  rw [UInt8.toNat_toUInt64, UInt8.toNat_and]
  exact Nat.lt_of_le_of_lt Nat.and_le_right (by decide)

/-- Seven bytes after the first are few enough. -/
theorem losslessFold_of_length_le (first : UInt8) {bytes : Bytes} (h : bytes.length ≤ 7) :
    LosslessFold first bytes := by
  rintro front b back rfl
  rw [List.length_append, List.length_cons] at h
  have hstart := toNat_and_lt first
  have hpos : 0 < 256 ^ (7 - front.length) := Nat.pow_pos (by decide)
  have hread : (front.foldl shiftOr (first &&& 0x3f).toUInt64).toNat =
      ofBE (first &&& 0x3f).toUInt64.toNat front :=
    toNat_foldl_varint front (by omega) (by omega)
  have hbound : (front.foldl shiftOr (first &&& 0x3f).toUInt64).toNat < 2 ^ 56 := by
    have hlt := ofBE_lt front
    have hweight : 256 ^ front.length ≤ 256 ^ 6 := Nat.pow_le_pow_right (by decide) (by omega)
    rw [hread, ofBE_eq]
    calc (first &&& 0x3f).toUInt64.toNat * 256 ^ front.length + ofBE 0 front
        < (first &&& 0x3f).toUInt64.toNat * 256 ^ front.length + 256 ^ front.length := by omega
      _ = ((first &&& 0x3f).toUInt64.toNat + 1) * 256 ^ front.length := by ring
      _ ≤ 64 * 256 ^ 6 := Nat.mul_le_mul hstart hweight
      _ < 2 ^ 56 := by decide
  exact ⟨hbound, toNat_shift_or b hbound⟩

/-- An encoding is taken off the front, whatever follows it. -/
theorem takeVarint_encode {w : VarintWidth} {v : UInt64} (h : v.toNat < 2 ^ w.bits)
    (tail : Bytes) : takeVarint (encodeVarint w v.toNat ++ tail) = (.ok (some v), tail) := by
  rw [takeVarint_eq_read, readVarint_encode h]
  dsimp only
  rw [UInt64.ofNat_toNat]

/-- **The three ways `take_varint` ends**: at the end of the input, in an error that takes
nothing, or with an integer, which it takes off the front. -/
theorem takeVarint_cases (rest : Bytes) :
    (rest = [] ∧ takeVarint rest = (.ok none, [])) ∨
    takeVarint rest = (.error .badRequest, rest) ∨
    ∃ first v tail, rest.head? = some first ∧
      v.toNat < 2 ^ (VarintWidth.ofFirst first).bits ∧
      rest = encodeVarint (VarintWidth.ofFirst first) v.toNat ++ tail ∧
      takeVarint rest = (.ok (some v), tail) := by
  rw [takeVarint_eq_read]
  cases hread : readVarint rest with
  | eof => exact .inl ⟨readVarint_eof hread, rfl⟩
  | truncated => exact .inr (.inl rfl)
  | got n tail =>
    have hv := toNat_readVarint hread
    obtain ⟨w, hw, hlt, hrest⟩ := encode_of_readVarint hread
    obtain ⟨first, hfirst, rfl⟩ := Option.map_eq_some_iff.mp hw
    refine .inr (.inr ⟨first, UInt64.ofNat n, tail, hfirst, ?_, ?_, rfl⟩)
    · rwa [hv]
    · rwa [hv]

/-- What is taken off the front is an encoding, in the width of its first byte. -/
theorem encode_of_takeVarint {rest tail : Bytes} {v : UInt64}
    (h : takeVarint rest = (.ok (some v), tail)) :
    ∃ first, rest.head? = some first ∧ v.toNat < 2 ^ (VarintWidth.ofFirst first).bits ∧
      rest = encodeVarint (VarintWidth.ofFirst first) v.toNat ++ tail := by
  obtain ⟨-, hend⟩ | herr | ⟨first, v', tail', hfirst, hlt, hrest, hgot⟩ := takeVarint_cases rest
  · cases hend.symm.trans h
  · cases herr.symm.trans h
  · cases hgot.symm.trans h
    exact ⟨first, hfirst, hlt, hrest⟩

theorem takeVarint_none_iff {rest tail : Bytes} :
    takeVarint rest = (.ok none, tail) ↔ rest = [] ∧ tail = [] := by
  constructor
  · intro h
    obtain ⟨hnil, hend⟩ | herr | ⟨first, v, tail', -, -, -, hgot⟩ := takeVarint_cases rest
    · cases hend.symm.trans h
      exact ⟨hnil, rfl⟩
    · cases herr.symm.trans h
    · cases hgot.symm.trans h
  · rintro ⟨rfl, rfl⟩
    rfl

/-- An encoding that is cut after its first byte is an error, and nothing is taken. -/
theorem takeVarint_of_cut {w : VarintWidth} {v : Nat} (h : v < 2 ^ w.bits) {cut : Bytes}
    (hcut : cut <+: encodeVarint w v) (hproper : cut ≠ encodeVarint w v) (hne : cut ≠ []) :
    takeVarint cut = (.error .badRequest, cut) := by
  rw [takeVarint_eq_read, readVarint_of_cut h hcut hproper hne]

/-! ## Walks -/

/-- One use of the cursor. -/
inductive Move where
  | takeVarint
  | skip (len : UInt64)

/-- The slice after a move. -/
def Move.after : Move → Bytes → Bytes
  | .takeVarint, rest => (Cursor.takeVarint rest).2
  | .skip len, rest => (Cursor.skip rest len).2

/-- The bytes a move consumes, by what it returns: those of an integer, in the width of its
first byte, or those skipped; none at the end of the input, and none on an error. -/
def Move.consumed : Move → Bytes → Nat
  | .takeVarint, rest =>
    match (Cursor.takeVarint rest).1, rest.head? with
    | .ok (some _), some first => (VarintWidth.ofFirst first).tail + 1
    | _, _ => 0
  | .skip len, rest =>
    match (Cursor.skip rest len).1 with
    | .ok () => len.toNat
    | .error _ => 0

/-- The bytes consumed by the moves, one after the other, and the slice after them. -/
def walk : List Move → Bytes → Nat × Bytes
  | [], rest => (0, rest)
  | move :: moves, rest =>
    (move.consumed rest + (walk moves (move.after rest)).1, (walk moves (move.after rest)).2)

/-- One move takes what it consumes off the front. -/
theorem Move.after_eq (move : Move) (rest : Bytes) :
    move.after rest = rest.drop (move.consumed rest) ∧ move.consumed rest ≤ rest.length := by
  cases move with
  | takeVarint =>
    simp only [Move.after, Move.consumed]
    obtain ⟨rfl, hend⟩ | herr | ⟨first, v, tail, hfirst, -, hrest, hgot⟩ := takeVarint_cases rest
    · rw [hend]
      exact ⟨rfl, Nat.zero_le _⟩
    · rw [herr]
      exact ⟨rfl, Nat.zero_le _⟩
    · rw [hgot, hfirst]
      dsimp only
      rw [← length_encodeVarint _ v.toNat, hrest]
      simp
  | skip len =>
    simp only [Move.after, Move.consumed, skip_eq]
    by_cases hle : len.toNat ≤ rest.length
    · rw [if_pos hle]
      exact ⟨rfl, hle⟩
    · rw [if_neg hle]
      exact ⟨rfl, Nat.zero_le _⟩

/-- **Over any walk** what was consumed and what is left make up the input. -/
theorem walk_eq (moves : List Move) (rest : Bytes) :
    (walk moves rest).2 = rest.drop (walk moves rest).1 ∧
      (walk moves rest).1 + (walk moves rest).2.length = rest.length := by
  induction moves generalizing rest with
  | nil => exact ⟨rfl, Nat.zero_add _⟩
  | cons move moves ih =>
    obtain ⟨hafter, hle⟩ := move.after_eq rest
    obtain ⟨hdrop, hlen⟩ := ih (move.after rest)
    have hstep : (move.after rest).length = rest.length - move.consumed rest := by
      rw [hafter, List.length_drop]
    rw [walk]
    dsimp only
    constructor
    · rw [hdrop, hafter, List.drop_drop]
    · omega

/-- **`take_varint` and RFC 9000.**  Every encoding of every value, in every width that
holds it, is taken off the front of any input; and what is taken is such an encoding, in
the width of its first byte, read without losing a bit.  The end of the input is told
apart from an encoding that is cut after its first byte, of which nothing is taken.
`skip` fails exactly when less is left than it is to skip, and over any uses of the two
the bytes consumed and the bytes left add up to the input. -/
theorem take_varint_inverts_encoding :
    (∀ (w : VarintWidth) (v : UInt64) (tail : Bytes), v.toNat < 2 ^ w.bits →
      takeVarint (encodeVarint w v.toNat ++ tail) = (.ok (some v), tail)) ∧
    (∀ (rest tail : Bytes) (v : UInt64), takeVarint rest = (.ok (some v), tail) →
      ∃ first, rest.head? = some first ∧
        rest = encodeVarint (VarintWidth.ofFirst first) v.toNat ++ tail ∧
        v.toNat < 2 ^ (VarintWidth.ofFirst first).bits ∧ v.toNat < 2 ^ 62 ∧
        LosslessFold first (encodeVarint (VarintWidth.ofFirst first) v.toNat).tail) ∧
    (∀ rest tail : Bytes, takeVarint rest = (.ok none, tail) ↔ rest = [] ∧ tail = []) ∧
    (∀ (w : VarintWidth) (v : Nat) (cut : Bytes), v < 2 ^ w.bits → cut <+: encodeVarint w v →
      cut ≠ encodeVarint w v → cut ≠ [] → takeVarint cut = (.error .badRequest, cut)) ∧
    (∀ (rest : Bytes) (len : UInt64),
      ((∃ e, (skip rest len).1 = .error e) ↔ rest.length < len.toNat) ∧
      (rest.length < len.toNat → (skip rest len).2 = rest) ∧
      (¬ rest.length < len.toNat → skip rest len = (.ok (), rest.drop len.toNat))) ∧
    ∀ (moves : List Move) (rest : Bytes),
      (walk moves rest).2 = rest.drop (walk moves rest).1 ∧
        (walk moves rest).1 + (walk moves rest).2.length = rest.length := by
  refine ⟨?_, ?_, ?_, ?_, ?_, walk_eq⟩
  · intro w v tail hv
    exact takeVarint_encode hv tail
  · intro rest tail v h
    obtain ⟨first, hfirst, hlt, hrest⟩ := encode_of_takeVarint h
    refine ⟨first, hfirst, hrest, hlt, ?_, losslessFold_of_length_le first ?_⟩
    · exact hlt.trans_le (Nat.pow_le_pow_right (by decide) (VarintWidth.bits_le _))
    · rw [List.length_tail, length_encodeVarint, Nat.add_sub_cancel]
      exact VarintWidth.tail_le _
  · intro rest tail
    exact takeVarint_none_iff
  · intro w v cut hv hcut hproper hne
    exact takeVarint_of_cut hv hcut hproper hne
  · intro rest len
    refine ⟨skip_fails_iff, ?_, ?_⟩
    · intro hlt
      rw [skip_eq, if_neg (by omega)]
    · intro hge
      rw [skip_eq, if_pos (by omega)]

/-- The empty input is cut off from every encoding, and it is the end of the input, not an
error. -/
theorem not_error_of_empty_cut :
    [] <+: encodeVarint .one 7 ∧ [] ≠ encodeVarint .one 7 ∧ takeVarint [] = (.ok none, []) ∧
      ¬ ∀ (w : VarintWidth) (v : Nat) (cut : Bytes), v < 2 ^ w.bits → cut <+: encodeVarint w v →
        cut ≠ encodeVarint w v → ∃ e, takeVarint cut = (.error e, cut) := by
  have hne : [] ≠ encodeVarint .one 7 := by decide
  refine ⟨List.nil_prefix, hne, rfl, ?_⟩
  intro hall
  obtain ⟨e, he⟩ := hall .one 7 [] (by decide) List.nil_prefix hne
  cases he

/-- Four bytes of RFC 9000's example, the value they stand for, and that value skipped. -/
theorem take_varint_inverts_encoding_four :
    takeVarint [0x9d, 0x7f, 0x3e, 0x7d, 0x25] = (.ok (some 494878333), [0x25]) ∧
      takeVarint [0x9d, 0x7f, 0x3e] = (.error .badRequest, [0x9d, 0x7f, 0x3e]) ∧
      skip [0x25] 494878333 = (.error .badRequest, [0x25]) := by
  obtain ⟨hencode, -, -, hcut, -, -⟩ := take_varint_inverts_encoding
  have hbytes : encodeVarint .four 494878333 = [0x9d, 0x7f, 0x3e, 0x7d] := by decide
  refine ⟨?_, ?_, by decide⟩
  · have hgot := hencode .four 494878333 [0x25] (by decide)
    have hvalue : (494878333 : UInt64).toNat = 494878333 := rfl
    rwa [hvalue, hbytes] at hgot
  · exact hcut .four 494878333 _ (by decide) (by rw [hbytes]; decide) (by decide) (by decide)

end Cursor

end VrpcSidecar
