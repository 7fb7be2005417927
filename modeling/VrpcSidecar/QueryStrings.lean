import VrpcSidecar.Texts

/-! # Query strings

`application/x-www-form-urlencoded`, as a receiver reads it: the parts between `&` that are
not empty, each split at its first `=`, with `+` for a blank and `%` and two digits for a
byte.  What it decodes to is read as UTF-8, and what is no UTF-8 is marked
(`Lossy`), so a text without the mark is in a query string exactly as its bytes.
-/
namespace VrpcSidecar
namespace QueryStrings

/-! ## Decoding -/

/-- A `%` and two digits stand for a byte; every other byte stands for itself. -/
def percentDecode : Bytes → Bytes
  | 0x25 :: hi :: lo :: rest =>
    match hexValue hi, hexValue lo with
    | some h, some l => UInt8.ofNat (16 * h + l) :: percentDecode rest
    | _, _ => 0x25 :: percentDecode (hi :: lo :: rest)
  | b :: rest => b :: percentDecode rest
  | [] => []

/-- A `+` stands for a blank. -/
def plusToSpace (b : UInt8) : UInt8 := if b = 0x2b then 0x20 else b

/-- The bytes a name or a value stands for. -/
def decodeBytes (s : Bytes) : Bytes := percentDecode (s.map plusToSpace)

theorem percentDecode_eq_self {s : Bytes} (h : 0x25 ∉ s) : percentDecode s = s := by
  induction s with
  | nil => rfl
  | cons b rest ih =>
    rw [List.mem_cons, not_or] at h
    rw [percentDecode.eq_def]
    split
    · rename_i heq
      exact absurd (List.cons.inj heq).1.symm h.1
    · rename_i heq
      cases heq
      rw [ih h.2]
    · rename_i heq
      cases heq

/-- What has neither a `%` nor a `+` stands for itself. -/
theorem decodeBytes_eq_self {s : Bytes} (hpercent : 0x25 ∉ s) (hplus : 0x2b ∉ s) :
    decodeBytes s = s := by
  have hsame : ∀ b ∈ s, plusToSpace b = id b := by
    intro b hb
    apply if_neg
    rintro rfl
    exact hplus hb
  rw [decodeBytes, List.map_congr_left hsame, List.map_id, percentDecode_eq_self hpercent]

/-! ## Pairs -/

/-- A part, split at its first `=`; without one it is a name. -/
def splitPair (part : Bytes) : Bytes × Bytes :=
  (part.takeWhile (fun b => b ≠ 0x3d), (part.dropWhile (fun b => b ≠ 0x3d)).tail)

/-- The pairs of a query string. -/
def pairs (s : Bytes) : List (Bytes × Bytes) :=
  ((s.splitOnP (fun b => b = 0x26)).filter (fun part => part ≠ [])).map
    (fun part => (decodeBytes (splitPair part).1, decodeBytes (splitPair part).2))

theorem splitPair_joined {name : Bytes} (h : 0x3d ∉ name) (value : Bytes) :
    splitPair (name ++ 0x3d :: value) = (name, value) := by
  have hname : ∀ b ∈ name, decide (b ≠ 0x3d) = true := by
    intro b hb
    apply decide_eq_true
    rintro rfl
    exact h hb
  rw [splitPair, List.takeWhile_append_of_pos hname, List.dropWhile_append_of_pos hname]
  simp

/-- **A pair that is written plainly is read back.** -/
theorem pairs_joined {name value : Bytes}
    (hname : ∀ b ∈ name, b ≠ 0x3d ∧ b ≠ 0x26 ∧ b ≠ 0x25 ∧ b ≠ 0x2b)
    (hvalue : ∀ b ∈ value, b ≠ 0x26 ∧ b ≠ 0x25 ∧ b ≠ 0x2b) :
    pairs (name ++ 0x3d :: value) = [(name, value)] := by
  have hone : (name ++ 0x3d :: value).splitOnP (fun b => b = 0x26) = [name ++ 0x3d :: value] := by
    apply List.splitOnP_eq_singleton
    intro b hb
    apply decide_eq_false
    rcases List.mem_append.mp hb with hb | hb
    · exact (hname b hb).2.1
    · rcases List.mem_cons.mp hb with rfl | hb
      · decide
      · exact (hvalue b hb).1
  have hne : name ++ 0x3d :: value ≠ [] := by simp
  have hequals : 0x3d ∉ name := fun hb => (hname _ hb).1 rfl
  have hdecoded : decodeBytes name = name :=
    decodeBytes_eq_self (fun hb => (hname _ hb).2.2.1 rfl) (fun hb => (hname _ hb).2.2.2 rfl)
  have hdecoded' : decodeBytes value = value :=
    decodeBytes_eq_self (fun hb => (hvalue _ hb).2.1 rfl) (fun hb => (hvalue _ hb).2.2 rfl)
  rw [pairs, hone, List.filter_singleton, decide_eq_true hne, cond_true, List.map_singleton,
    splitPair_joined hequals, hdecoded, hdecoded']

/-- The values of a name. -/
def valuesOf (name : Bytes) (s : Bytes) : List Bytes :=
  ((pairs s).filter (fun p => p.1 = name)).map Prod.snd

/-- The value of the one pair there is. -/
theorem valuesOf_joined {name value : Bytes}
    (hname : ∀ b ∈ name, b ≠ 0x3d ∧ b ≠ 0x26 ∧ b ≠ 0x25 ∧ b ≠ 0x2b)
    (hvalue : ∀ b ∈ value, b ≠ 0x26 ∧ b ≠ 0x25 ∧ b ≠ 0x2b) :
    valuesOf name (name ++ 0x3d :: value) = [value] := by
  rw [valuesOf, pairs_joined hname hvalue, List.filter_singleton, decide_eq_true rfl]
  rfl

/-! ## Texts -/

/-- `char::REPLACEMENT_CHARACTER`. -/
def replacementCharacter : Char := Char.ofNat 0xfffd

/-- `String::from_utf8_lossy`: the bytes of a text are read as that text, and other bytes
leave a mark. -/
structure Lossy where
  decode : Bytes → Text
  valid : ∀ t, decode (utf8 t) = t
  invalid : ∀ bs, (∀ t, utf8 t ≠ bs) → replacementCharacter ∈ decode bs

/-- **A text without the mark is read only from its own bytes.** -/
theorem Lossy.decode_eq_iff (lossy : Lossy) {bs : Bytes} {t : Text}
    (h : replacementCharacter ∉ t) : lossy.decode bs = t ↔ bs = utf8 t := by
  constructor
  · intro heq
    by_contra hne
    by_cases hvalid : ∃ t', utf8 t' = bs
    · obtain ⟨t', rfl⟩ := hvalid
      rw [lossy.valid] at heq
      exact hne (congrArg utf8 heq)
    · have hmark := lossy.invalid bs (fun t' ht' => hvalid ⟨t', ht'⟩)
      rw [heq] at hmark
      exact h hmark
  · rintro rfl
    exact lossy.valid t

/-- The pairs of a query string, as texts. -/
def textPairs (lossy : Lossy) (s : Bytes) : List (Text × Text) :=
  (pairs s).map (fun p => (lossy.decode p.1, lossy.decode p.2))

/-- The values of a name, as texts. -/
theorem textPairs_values (lossy : Lossy) {name : Text} (h : replacementCharacter ∉ name)
    (s : Bytes) :
    ((textPairs lossy s).filter (fun p => p.1 = name)).map Prod.snd =
      (valuesOf (utf8 name) s).map lossy.decode := by
  unfold textPairs valuesOf
  induction pairs s with
  | nil => rfl
  | cons p ps ih =>
    have hiff : (lossy.decode p.1 = name) ↔ p.1 = utf8 name := lossy.decode_eq_iff h
    rw [List.map_cons, List.filter_cons, List.filter_cons]
    by_cases hp : p.1 = utf8 name
    · rw [if_pos (decide_eq_true (hiff.mpr hp)), if_pos (decide_eq_true hp), List.map_cons,
        List.map_cons, List.map_cons, ih]
    · have hp' : ¬ lossy.decode p.1 = name := fun hc => hp (hiff.mp hc)
      rw [if_neg (by simpa using hp'), if_neg (by simpa using hp), ih]

end QueryStrings
end VrpcSidecar
