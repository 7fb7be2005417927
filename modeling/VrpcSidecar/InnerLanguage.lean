import VrpcSidecar.KnownAnswers

/-! # The language of inner requests

What `decode_inner` accepts, as a language: the known-length requests of RFC 9292
with bounded field sections (`IsInnerRequest`) that satisfy the rules of the route
(`Acceptable`).  The hand-written walk over the lengths reads exactly what the grammar
describes (`checkFieldSections_eq`), the loop over the fields keeps the values of
two of them (`innerFields_eq`), and the decoder accepts the language and returns
the projection of its messages (`decodeInner_language`).
-/
namespace VrpcSidecar
open BinaryHttp

/-! ## The walk over the lengths -/

/-- One step of the fold of `take_varint`: nothing is lost below 56 bits. -/
theorem toNat_shift_or {v : UInt64} (b : UInt8) (h : v.toNat < 2 ^ 56) :
    ((v <<< 8) ||| b.toUInt64).toNat = v.toNat * 256 + b.toNat := by
  have hb : b.toNat < 2 ^ 8 := b.toNat_lt
  have hshift : (v <<< 8).toNat = v.toNat <<< 8 := by
    have height : (8 : UInt64).toNat % 64 = 8 := rfl
    rw [UInt64.toNat_shiftLeft, height, Nat.shiftLeft_eq]
    exact Nat.mod_eq_of_lt (by omega)
  rw [UInt64.toNat_or, hshift, UInt8.toNat_toUInt64, ← Nat.shiftLeft_add_eq_or_of_lt hb,
    Nat.shiftLeft_eq]

/-- The fold of `take_varint` is the big-endian value, for up to seven more bytes. -/
theorem toNat_foldl_varint (bs : Bytes) {v : UInt64} (h : v.toNat < 64 * 256 ^ (7 - bs.length))
    (hlen : bs.length ≤ 7) :
    (bs.foldl (fun (v : UInt64) b => (v <<< 8) ||| b.toUInt64) v).toNat = ofBE v.toNat bs := by
  induction bs generalizing v with
  | nil => rfl
  | cons b bs ih =>
    have hlen' : bs.length + 1 ≤ 7 := hlen
    have hv : v.toNat < 2 ^ 56 := by
      have hle : 64 * 256 ^ (7 - (b :: bs).length) ≤ 64 * 256 ^ 6 :=
        Nat.mul_le_mul_left _ (Nat.pow_le_pow_right (by decide) (by simp))
      omega
    have hstep := toNat_shift_or b hv
    have hbound : ((v <<< 8) ||| b.toUInt64).toNat < 64 * 256 ^ (7 - bs.length) := by
      have hpow : 256 ^ (7 - bs.length) = 256 ^ (7 - (b :: bs).length) * 256 := by
        rw [← Nat.pow_succ]
        congr 1
        simp only [List.length_cons]
        omega
      have hb := b.toNat_lt
      rw [hstep, hpow]
      omega
    rw [List.foldl_cons, ih hbound (by omega), hstep, ofBE_cons]

/-- **`take_varint` reads the integers of RFC 9000**, at every width. -/
theorem takeVarint_eq (rest : Bytes) :
    takeVarint rest =
      match readVarint rest with
      | .eof => .ok (none, [])
      | .truncated => .error .badRequest
      | .got v tail => .ok (some (UInt64.ofNat v), tail) := by
  cases rest with
  | nil => rfl
  | cons first rest =>
    have hwidth : 1 <<< (first >>> 6).toNat = 2 ^ (first.toNat / 64) := by
      rw [UInt8.toNat_shiftRight, Nat.one_shiftLeft, Nat.shiftRight_eq_div_pow]
      rfl
    have hlow : (first &&& 0x3f).toUInt64.toNat = first.toNat % 64 := by
      rw [UInt8.toNat_toUInt64, UInt8.toNat_and]
      exact Nat.and_two_pow_sub_one_eq_mod first.toNat 6
    have htail : 2 ^ (first.toNat / 64) - 1 ≤ 7 := by
      have hlt := first.toNat_lt
      have hexp : first.toNat / 64 ≤ 3 := by omega
      have := Nat.pow_le_pow_right (by decide : 0 < 2) hexp
      omega
    have hpos : 0 < 2 ^ (first.toNat / 64) := Nat.two_pow_pos _
    obtain ⟨n, hn⟩ : ∃ n, 2 ^ (first.toNat / 64) = n + 1 := ⟨2 ^ (first.toNat / 64) - 1, by omega⟩
    -- Both readers now look at the same `n` bytes after the first.
    simp only [takeVarint, readVarint, hwidth, hn, Nat.add_sub_cancel, List.length_cons,
      Nat.add_le_add_iff_right, List.take_succ_cons, List.drop_succ_cons, List.drop_zero]
    by_cases hle : n ≤ rest.length
    · rw [if_pos hle, if_pos hle]
      dsimp only
      have hlen : (rest.take n).length = n := by simp [hle]
      have hfold := toNat_foldl_varint (rest.take n) (v := (first &&& 0x3f).toUInt64)
        (by
          rw [hlow]
          have h1 : 0 < 256 ^ (7 - (rest.take n).length) := Nat.pow_pos (by decide)
          omega) (by omega)
      rw [hlow] at hfold
      rw [← hfold, UInt64.ofNat_toNat]
    · rw [if_neg hle, if_neg hle]

theorem readVarint_lt {s tail : Bytes} {v : Nat} (h : readVarint s = .got v tail) : v < 2 ^ 62 := by
  obtain ⟨w, -, hlt, -⟩ := encode_of_readVarint h
  exact hlt.trans_le (Nat.pow_le_pow_right (by decide) w.bits_le)

theorem toNat_readVarint {s tail : Bytes} {v : Nat} (h : readVarint s = .got v tail) :
    (UInt64.ofNat v).toNat = v := by
  have := readVarint_lt h
  exact UInt64.toNat_ofNat_of_lt' (by simp only [UInt64.size]; omega)

/-- The first loop skips exactly the strings the grammar reads. -/
theorem skipStrings_eq (n : Nat) (s : Bytes) :
    skipStrings n s =
      match readStrings n s with
      | some (_, rest) => .ok rest
      | none => .error .badRequest := by
  induction n generalizing s with
  | zero => rfl
  | succ n ih =>
    rw [skipStrings, takeVarint_eq, readStrings, readPrefixed]
    cases hr : readVarint s with
    | eof => rfl
    | truncated => rfl
    | got v tail =>
      show (skip tail (UInt64.ofNat v) >>= fun rest => skipStrings n rest) = _
      rw [skip, toNat_readVarint hr]
      by_cases hle : v ≤ tail.length
      · simp only [if_pos hle]
        show skipStrings n (tail.drop v) = _
        rw [ih]
        cases readStrings n (tail.drop v) <;> rfl
      · simp only [if_neg hle]
        rfl

/-- Every section is at most as long as its limit. -/
def withinLimits : List Bytes → List UInt64 → Bool
  | sec :: secs, limit :: limits => sec.length ≤ limit.toNat && withinLimits secs limits
  | _, _ => true

theorem withinLimits_absent (n : Nat) (limits : List UInt64) :
    withinLimits (List.replicate n []) limits = true := by
  induction n generalizing limits with
  | zero => rfl
  | succ n ih => cases limits <;> simp [List.replicate_succ, withinLimits, ih]

/-- The second loop accepts exactly the sections the grammar reads that are within
their limits. -/
theorem skipSections_eq (limits : List UInt64) (s : Bytes) :
    skipSections limits s =
      match readSections limits.length s with
      | some (secs, _) => if withinLimits secs limits then .ok () else .error .badRequest
      | none => .error .badRequest := by
  induction limits generalizing s with
  | nil => rfl
  | cons limit limits ih =>
    rw [skipSections, takeVarint_eq, List.length_cons, readSections, readPrefixed]
    cases hr : readVarint s with
    | eof =>
      show Except.ok () = if withinLimits (List.replicate (limits.length + 1) []) _ then _ else _
      rw [withinLimits_absent]
      rfl
    | truncated => rfl
    | got v tail =>
      have hv := toNat_readVarint hr
      have hgt : UInt64.ofNat v > limit ↔ limit.toNat < v := by
        rw [gt_iff_lt, UInt64.lt_iff_toNat_lt, hv]
      show (if UInt64.ofNat v > limit then .error .badRequest
        else skip tail (UInt64.ofNat v) >>= fun rest => skipSections limits rest) = _
      rw [skip, hv]
      by_cases hle : v ≤ tail.length
      · have hlen : (tail.take v).length = v := by simp [hle]
        simp only [if_pos hle]
        show (if UInt64.ofNat v > limit then .error .badRequest
          else skipSections limits (tail.drop v)) = _
        rw [ih]
        cases readSections limits.length (tail.drop v) with
        | none => exact ite_self _
        | some r =>
          simp only [Option.map_some, withinLimits, hlen, Bool.and_eq_true, decide_eq_true_eq]
          by_cases hlim : v ≤ limit.toNat
          · rw [if_neg (fun h => absurd (hgt.mp h) (Nat.not_lt.mpr hlim))]
            simp only [hlim, true_and]
          · rw [if_pos (hgt.mpr (Nat.lt_of_not_le hlim)), if_neg (fun h => hlim h.1)]
      · simp only [if_neg hle]
        exact ite_self _

/-- **The walk over the lengths reads the grammar**: it accepts exactly the slices the
reader takes, with field sections of at most 65536 bytes. -/
theorem checkFieldSections_eq (s : Bytes) :
    checkFieldSections s =
      match readSlices s with
      | some (_, [hsec, _, tsec], _) =>
        if hsec.length ≤ 65536 ∧ tsec.length ≤ 65536 then .ok () else .error .badRequest
      | _ => .error .badRequest := by
  rw [checkFieldSections, skipStrings_eq, readSlices]
  cases readStrings 4 s with
  | none => rfl
  | some r =>
    obtain ⟨strs, tail⟩ := r
    show skipSections _ tail = _
    rw [skipSections_eq]
    simp only [List.length_cons, List.length_nil, Option.bind_eq_bind, Option.bind_some,
      Option.pure_def]
    cases hsec : readSections 3 tail with
    | none => rfl
    | some r =>
      obtain ⟨secs, padding⟩ := r
      obtain ⟨hlen, hsecs⟩ := readSections_iff.mp hsec
      obtain ⟨header, content, trailer, rfl⟩ := List.length_eq_three.mp hlen
      -- No section is longer than a length that was read, so the content is not limited.
      have hcontent : content.length ≤ (0xffffffffffffffff : UInt64).toNat := by
        have hlt := hsecs.length_lt content (by simp)
        have hmax : (0xffffffffffffffff : UInt64).toNat = 2 ^ 64 - 1 := rfl
        omega
      have hlimit : maxFieldSectionBytes.toNat = 65536 := rfl
      simp only [withinLimits, hlimit, hcontent, decide_true, Bool.true_and, Bool.and_true,
        Bool.and_eq_true, decide_eq_true_eq]
      rfl

/-! ## The loop over the fields -/

/-- The values of the fields with a name, whatever its case, in order. -/
def valuesOf (name : Bytes) (fs : List Field) : List Bytes :=
  (fs.filter (fun f => eqIgnoreCase f.name name)).map Field.value

/-- The content types among the fields. -/
def contentTypes (fs : List Field) : List Bytes := valuesOf (ascii "content-type") fs

/-- The accept values among the fields. -/
def accepts (fs : List Field) : List Bytes := valuesOf (ascii "accept") fs

/-- **The header fields an inner request may have**: no pseudo-fields, one content type
at most, and well-formed values for the two fields that are kept. -/
structure AllowedFields (fs : List Field) : Prop where
  names : ∀ f ∈ fs, f.name.head? ≠ some 0x3a
  single : (contentTypes fs).length ≤ 1
  contentType : ∀ v ∈ contentTypes fs, IsHeaderValue v
  accept : ∀ v ∈ accepts fs, IsHeaderValue v

theorem allowedFields_iff (fs : List Field) :
    AllowedFields fs ↔ (∀ f ∈ fs, f.name.head? ≠ some 0x3a) ∧ (contentTypes fs).length ≤ 1 ∧
      (∀ v ∈ contentTypes fs, IsHeaderValue v) ∧ ∀ v ∈ accepts fs, IsHeaderValue v :=
  ⟨fun h => ⟨h.names, h.single, h.contentType, h.accept⟩, fun ⟨h₁, h₂, h₃, h₄⟩ => ⟨h₁, h₂, h₃, h₄⟩⟩

instance (fs : List Field) : Decidable (AllowedFields fs) :=
  decidable_of_iff _ (allowedFields_iff fs).symm

theorem valuesOf_cons (name : Bytes) (f : Field) (fs : List Field) :
    valuesOf name (f :: fs) =
      (if eqIgnoreCase f.name name then [f.value] else []) ++ valuesOf name fs := by
  by_cases h : eqIgnoreCase f.name name = true <;> simp [valuesOf, h]

theorem not_accept_of_contentType {name : Bytes} (h : eqIgnoreCase name (ascii "content-type")) :
    eqIgnoreCase name (ascii "accept") = false := by
  have hne : lower (ascii "content-type") ≠ lower (ascii "accept") := by decide
  rw [eqIgnoreCase_iff] at h
  rw [← Bool.not_eq_true, eqIgnoreCase_iff, h]
  exact hne

section Fields
variable {lib : Crates}

theorem fieldValue_eq (hv : lib.http.ValueRule) (f : Field) :
    fieldValue lib f = if IsHeaderValue f.value then .ok f.value else .error .badRequest := by
  rw [fieldValue]
  by_cases h : IsHeaderValue f.value
  · rw [(hv f.value f.value).mpr ⟨rfl, h⟩, if_pos h]
  · cases hnone : lib.http.headerValueFromBytes f.value with
    | none => rw [if_neg h]
    | some v => exact absurd ((hv f.value v).mp hnone).2 h

/-- What the loop over the fields gives, from any fields already kept. -/
theorem innerFieldsLoop_eq (hv : lib.http.ValueRule) (acc : InnerFields) (fs : List Field) :
    innerFieldsLoop lib acc fs =
      if (∀ f ∈ fs, f.name.head? ≠ some 0x3a) ∧
          (acc.contentType.toList ++ contentTypes fs).length ≤ 1 ∧
          (∀ v ∈ contentTypes fs, IsHeaderValue v) ∧ ∀ v ∈ accepts fs, IsHeaderValue v then
        .ok ⟨(acc.contentType.toList ++ contentTypes fs).head?, acc.accept ++ accepts fs⟩
      else .error .badRequest := by
  -- The content type already kept counts towards the single one that is allowed.
  induction fs generalizing acc with
  | nil =>
    obtain ⟨contentType, accept⟩ := acc
    have hc : contentTypes [] = [] := rfl
    have ha : accepts [] = [] := rfl
    cases contentType <;> simp [innerFieldsLoop, hc, ha]
  | cons f fs ih =>
    rw [innerFieldsLoop, fieldValue_eq hv]
    simp only [contentTypes, accepts, valuesOf_cons] at ih ⊢
    by_cases hp : f.name.head? = some 0x3a
    · rw [if_pos hp, if_neg (fun h => h.1 f List.mem_cons_self hp)]
    rw [if_neg hp]
    by_cases hct : eqIgnoreCase f.name (ascii "content-type") = true
    · -- A second content type is refused; the first is kept and none may follow.
      have hna := not_accept_of_contentType hct
      rw [if_pos hct]
      obtain ⟨contentType, accept⟩ := acc
      cases contentType with
      | some v =>
        dsimp only
        rw [if_pos Option.isSome_some, if_neg]
        rintro ⟨-, h, -⟩
        simp [hct] at h
      | none =>
        rw [if_neg (by simp)]
        by_cases hval : IsHeaderValue f.value
        · rw [if_pos hval, ok_bind, ih]
          simp [hct, hna, hp, hval]
        · rw [if_neg hval, if_neg]
          · rfl
          · rintro ⟨-, -, h, -⟩
            exact hval (h f.value (by simp [hct]))
    · rw [if_neg hct]
      by_cases ha : eqIgnoreCase f.name (ascii "accept") = true
      · rw [if_pos ha]
        by_cases hval : IsHeaderValue f.value
        · rw [if_pos hval, ok_bind, ih]
          simp [hct, ha, hp, hval]
        · rw [if_neg hval, if_neg]
          · rfl
          · rintro ⟨-, -, -, h⟩
            exact hval (h f.value (by simp [ha]))
      · rw [if_neg ha, ih]
        simp [hct, ha, hp]

/-- **The loop over the fields** accepts the allowed ones, and keeps the content type
and the accept values. -/
theorem innerFields_eq (hv : lib.http.ValueRule) (fs : List Field) :
    innerFields lib fs =
      if AllowedFields fs then .ok ⟨(contentTypes fs).head?, accepts fs⟩
      else .error .badRequest := by
  rw [innerFields, innerFieldsLoop_eq hv]
  exact if_congr (allowedFields_iff fs).symm rfl rfl

end Fields

/-! ## Cookies -/

theorem valuesOf_withoutCookies {name : Bytes} (h : lower name ≠ ascii "cookie")
    (fs : List Field) : valuesOf name (withoutCookies fs) = valuesOf name fs := by
  rw [valuesOf, withoutCookies, List.filter_filter, valuesOf]
  congr 1
  refine List.filter_congr (fun f _ => ?_)
  by_cases hn : eqIgnoreCase f.name name = true
  · have hne : lower f.name ≠ ascii "cookie" := by
      rw [(eqIgnoreCase_iff _ _).mp hn]
      exact h
    simp [hn, hne]
  · simp [Bool.eq_false_iff.mpr hn]

theorem contentTypes_withoutCookies (fs : List Field) :
    contentTypes (withoutCookies fs) = contentTypes fs :=
  valuesOf_withoutCookies (by decide) fs

theorem accepts_withoutCookies (fs : List Field) : accepts (withoutCookies fs) = accepts fs :=
  valuesOf_withoutCookies (by decide) fs

/-- A cookie is not a pseudo-field. -/
theorem head_ne_of_cookie {name : Bytes} (h : lower name = ascii "cookie") :
    name.head? ≠ some 0x3a := by
  intro hhead
  have hlower : (lower name).head? = some 0x3a := by
    rw [lower, List.head?_map, hhead]
    rfl
  rw [h] at hlower
  exact absurd hlower (by decide)

theorem allowedFields_withoutCookies (fs : List Field) :
    AllowedFields (withoutCookies fs) ↔ AllowedFields fs := by
  have hnames : (∀ f ∈ withoutCookies fs, f.name.head? ≠ some 0x3a) ↔
      ∀ f ∈ fs, f.name.head? ≠ some 0x3a := by
    constructor
    · intro h f hf
      by_cases hc : lower f.name = ascii "cookie"
      · exact head_ne_of_cookie hc
      · exact h f (List.mem_filter.mpr ⟨hf, by simpa using hc⟩)
    · exact fun h f hf => h f (List.mem_filter.mp hf).1
  rw [allowedFields_iff, allowedFields_iff, hnames, contentTypes_withoutCookies,
    accepts_withoutCookies]

/-- **Joining cookies does not change what is kept of the fields.** -/
theorem innerFields_congr {lib : Crates} (hv : lib.http.ValueRule) {fs fs' : List Field}
    (h : withoutCookies fs = withoutCookies fs') : innerFields lib fs = innerFields lib fs' := by
  have hallowed : AllowedFields fs ↔ AllowedFields fs' := by
    rw [← allowedFields_withoutCookies fs, h, allowedFields_withoutCookies]
  rw [innerFields_eq hv, innerFields_eq hv, ← contentTypes_withoutCookies fs,
    ← accepts_withoutCookies fs, h, contentTypes_withoutCookies, accepts_withoutCookies]
  exact if_congr hallowed rfl rfl

/-! ## The language -/

/-- The parts of an inner request. -/
structure InnerMessage where
  method : Bytes
  scheme : Bytes
  authority : Bytes
  path : Bytes
  header : List Field
  content : Bytes
  trailer : List Field

/-- The message `bhttp` returns for these parts. -/
def InnerMessage.toMessage (m : InnerMessage) : Message :=
  ⟨.request m.method m.scheme m.authority m.path, m.header, m.content, m.trailer⟩

/-- **The encodings of an inner request**: the framing indicator 0, four strings, three
sections that may be missing at the end, and padding; every length in any width, the
field sections of at most 65536 bytes. -/
def IsInnerRequest (p : Bytes) (m : InnerMessage) : Prop :=
  ∃ s tail padding hsec tsec, p = 0x00 :: s ∧
    Strings [m.method, m.scheme, m.authority, m.path] s tail ∧
    Sections [hsec, m.content, tsec] tail padding ∧
    hsec.length ≤ 65536 ∧ tsec.length ≤ 65536 ∧ Fields m.header hsec ∧ Fields m.trailer tsec

/-- **The inner requests that are served.** -/
structure Acceptable (m : InnerMessage) : Prop where
  token : IsToken m.method
  notConnect : m.method ≠ ascii "CONNECT"
  slash : [0x2f] <+: m.path
  notDouble : ¬ [0x2f, 0x2f] <+: m.path
  noFragment : 0x23 ∉ m.path
  pathLength : m.path.length ≤ 65534
  fields : AllowedFields m.header

/-- **What is kept of an inner request**: the method, the path, the content type, the
accept values in order, and the content. -/
def InnerMessage.projection (m : InnerMessage) : InnerRequest :=
  ⟨m.method, m.path, (contentTypes m.header).head?, accepts m.header, m.content⟩

/-- The walk over the lengths and the reader together accept the encodings. -/
theorem isInnerRequest_iff {s : Bytes} {m : InnerMessage} :
    IsInnerRequest (0x00 :: s) m ↔
      checkFieldSections s = .ok () ∧ readRequest s = some m.toMessage := by
  constructor
  · rintro ⟨s', tail, padding, hsec, tsec, hs, hstr, hsecs, hh, ht, hheader, htrailer⟩
    obtain rfl : s = s' := (List.cons.inj hs).2
    have hslices : readSlices s =
        some ([m.method, m.scheme, m.authority, m.path], [hsec, m.content, tsec], padding) :=
      readSlices_iff.mpr ⟨tail, readStrings_iff.mpr ⟨rfl, hstr⟩, readSections_iff.mpr ⟨rfl, hsecs⟩⟩
    constructor
    · rw [checkFieldSections_eq, hslices]
      exact if_pos ⟨hh, ht⟩
    · exact readRequest_iff.mpr ⟨padding, m.method, m.scheme, m.authority, m.path, hsec, tsec, tail,
        rfl, hstr, hsecs, hheader, htrailer⟩
  · rintro ⟨hcheck, hread⟩
    obtain ⟨padding, method, scheme, authority, path, hsec, tsec, tail, hc, hstr, hsecs, hheader,
      htrailer⟩ := readRequest_iff.mp hread
    cases hc
    -- Reading is deterministic, so the bounds are about the sections of this reading.
    have hslices : readSlices s =
        some ([m.method, m.scheme, m.authority, m.path], [hsec, m.content, tsec], padding) :=
      readSlices_iff.mpr ⟨tail, readStrings_iff.mpr ⟨rfl, hstr⟩, readSections_iff.mpr ⟨rfl, hsecs⟩⟩
    rw [checkFieldSections_eq, hslices] at hcheck
    dsimp only at hcheck
    split at hcheck
    · rename_i hbound
      exact ⟨s, tail, padding, hsec, tsec, rfl, hstr, hsecs, hbound.1, hbound.2, hheader, htrailer⟩
    · cases hcheck

theorem InnerMessage.toMessage_inj {m m' : InnerMessage} (h : m.toMessage = m'.toMessage) :
    m = m' := by
  cases m
  cases m'
  simp only [toMessage, Message.mk.injEq, Control.request.injEq] at h
  obtain ⟨⟨rfl, rfl, rfl, rfl⟩, rfl, rfl, rfl⟩ := h
  rfl

/-- A plaintext encodes one request at most. -/
theorem IsInnerRequest.unique {p : Bytes} {m m' : InnerMessage} (h : IsInnerRequest p m)
    (h' : IsInnerRequest p m') : m = m' := by
  obtain ⟨s, -, -, -, -, rfl, -⟩ := id h
  have hread := (isInnerRequest_iff.mp h).2
  rw [(isInnerRequest_iff.mp h').2, Option.some.injEq] at hread
  exact InnerMessage.toMessage_inj hread.symm

/-- The reader returns requests. -/
theorem exists_toMessage {s : Bytes} {msg : Message} (h : readRequest s = some msg) :
    ∃ m : InnerMessage, msg = m.toMessage := by
  obtain ⟨-, method, scheme, authority, path, -, -, -, hc, -⟩ := readRequest_iff.mp h
  obtain ⟨control, header, content, trailer⟩ := msg
  dsimp only at hc
  subst hc
  exact ⟨⟨method, scheme, authority, path, header, content, trailer⟩, rfl⟩

section Decoder
variable {lib : Crates}

theorem innerMethod_eq (hm : lib.http.MethodRule) (method scheme authority path : Bytes) :
    innerMethod lib (.request method scheme authority path) =
      if IsToken method ∧ method ≠ ascii "CONNECT" then .ok method else .error .badRequest := by
  rw [innerMethod]
  by_cases htoken : IsToken method
  · rw [(hm method method).mpr ⟨rfl, htoken⟩]
    by_cases hconnect : method = ascii "CONNECT"
    · rw [if_neg (fun h => h.2 hconnect)]
      exact if_pos hconnect
    · rw [if_pos ⟨htoken, hconnect⟩]
      exact if_neg hconnect
  · rw [if_neg (fun h => htoken h.1)]
    cases hnone : lib.http.methodFromBytes method with
    | none => rfl
    | some m => exact absurd ((hm method m).mp hnone).2 htoken

/-- The message of an acceptable request decodes to its projection, unless it has
content of no type. -/
theorem decodeMessage_of_acceptable (hm : lib.http.MethodRule) (hv : lib.http.ValueRule)
    {m : InnerMessage} (h : Acceptable m) :
    decodeMessage lib m.toMessage =
      if m.content ≠ [] ∧ contentTypes m.header = [] then .error .unsupportedMediaType
      else .ok m.projection := by
  have hpath : innerPath (.request m.method m.scheme m.authority m.path) = .ok m.path := by
    refine if_neg ?_
    rintro (h' | h' | h' | h')
    · exact h' h.slash
    · exact h.notDouble h'
    · exact h.noFragment h'
    · exact absurd h.pathLength (Nat.not_le.mpr h')
  rw [decodeMessage, InnerMessage.toMessage, innerMethod_eq hm, if_pos ⟨h.token, h.notConnect⟩,
    ok_bind, hpath, ok_bind, innerFields_eq hv, if_pos h.fields, ok_bind]
  exact if_congr (and_congr_right (fun _ => List.head?_eq_none_iff)) rfl rfl

/-- The message of any other request is a bad request. -/
theorem decodeMessage_of_not_acceptable (hm : lib.http.MethodRule) (hv : lib.http.ValueRule)
    {m : InnerMessage} (h : ¬ Acceptable m) :
    decodeMessage lib m.toMessage = .error .badRequest := by
  rw [decodeMessage, InnerMessage.toMessage, innerMethod_eq hm]
  by_cases hmethod : IsToken m.method ∧ m.method ≠ ascii "CONNECT"
  swap
  · rw [if_neg hmethod]
    rfl
  rw [if_pos hmethod, ok_bind, innerPath]
  by_cases hpath : ¬ [0x2f] <+: m.path ∨ [0x2f, 0x2f] <+: m.path ∨ 0x23 ∈ m.path ∨
      m.path.length > maxPathAndQuery
  · rw [if_pos hpath]
    rfl
  rw [if_neg hpath, ok_bind, innerFields_eq hv]
  by_cases hfields : AllowedFields m.header
  swap
  · rw [if_neg hfields]
    rfl
  -- Every check passed, so the request was acceptable.
  simp only [not_or, not_not] at hpath
  obtain ⟨hslash, hdouble, hfragment, hlen⟩ := hpath
  exact absurd ⟨hmethod.1, hmethod.2, hslash, hdouble, hfragment, Nat.le_of_not_lt hlen, hfields⟩ h

/-- Joining cookies does not change what a message decodes to. -/
theorem decodeMessage_congr (hv : lib.http.ValueRule) {msg msg' : Message}
    (h : SameUpToCookies msg msg') : decodeMessage lib msg = decodeMessage lib msg' := by
  rw [decodeMessage, decodeMessage, h.control, innerFields_congr hv h.header, h.content]

/-- **Decoding a plaintext**: what encodes a request is decided by its message, and
anything else is a bad request. -/
theorem decodeInner_cases (hv : lib.http.ValueRule) (hr : lib.bhttp.ReadRule) (p : Bytes) :
    (∃ m, IsInnerRequest p m ∧ decodeInner lib p = decodeMessage lib m.toMessage) ∨
    ((¬ ∃ m, IsInnerRequest p m) ∧ decodeInner lib p = .error .badRequest) := by
  unfold decodeInner
  split
  · rename_i s
    cases hcheck : checkFieldSections s with
    | error e =>
      obtain rfl : e = .badRequest := by
        rw [checkFieldSections_eq] at hcheck
        split at hcheck
        · split at hcheck <;> cases hcheck
          rfl
        · cases hcheck
          rfl
      refine Or.inr ⟨?_, rfl⟩
      rintro ⟨m, hm⟩
      rw [(isInnerRequest_iff.mp hm).1] at hcheck
      cases hcheck
    | ok u =>
      rw [ok_bind]
      cases hread : readRequest s with
      | none =>
        refine Or.inr ⟨?_, ?_⟩
        · rintro ⟨m, hm⟩
          rw [(isInnerRequest_iff.mp hm).2] at hread
          cases hread
        · rw [hr.refuses s hread]
      | some msg =>
        obtain ⟨m, rfl⟩ := exists_toMessage hread
        obtain ⟨msg', hmsg', hsame⟩ := hr.reads s _ hread
        refine Or.inl ⟨m, isInnerRequest_iff.mpr ⟨hcheck, hread⟩, ?_⟩
        rw [hmsg']
        exact decodeMessage_congr hv hsame
  · rename_i hno
    refine Or.inr ⟨?_, rfl⟩
    rintro ⟨m, s, -, -, -, -, rfl, -⟩
    exact hno s rfl

/-- What decodes is an encoding of an acceptable request, and is its projection. -/
theorem decodeInner_ok (hm : lib.http.MethodRule) (hv : lib.http.ValueRule)
    (hr : lib.bhttp.ReadRule) {p : Bytes} {r : InnerRequest} (h : decodeInner lib p = .ok r) :
    ∃ m, IsInnerRequest p m ∧ Acceptable m ∧
      (m.content = [] ∨ contentTypes m.header ≠ []) ∧ r = m.projection := by
  rcases decodeInner_cases hv hr p with ⟨m, hp, hd⟩ | ⟨-, hd⟩
  · rw [hd] at h
    by_cases ha : Acceptable m
    · rw [decodeMessage_of_acceptable hm hv ha] at h
      split at h
      · cases h
      · rename_i hc
        cases h
        refine ⟨m, hp, ha, ?_, rfl⟩
        rwa [not_and_or, not_not] at hc
    · rw [decodeMessage_of_not_acceptable hm hv ha] at h
      cases h
  · rw [hd] at h
    cases h

/-- What does not decode is a bad request, or an acceptable request with content of no
type. -/
theorem decodeInner_error (hm : lib.http.MethodRule) (hv : lib.http.ValueRule)
    (hr : lib.bhttp.ReadRule) {p : Bytes} {e : InnerError} (h : decodeInner lib p = .error e) :
    e = .badRequest ∨ (e = .unsupportedMediaType ∧
      ∃ m, IsInnerRequest p m ∧ Acceptable m ∧ m.content ≠ [] ∧ contentTypes m.header = []) := by
  rcases decodeInner_cases hv hr p with ⟨m, hp, hd⟩ | ⟨-, hd⟩
  · rw [hd] at h
    by_cases ha : Acceptable m
    · rw [decodeMessage_of_acceptable hm hv ha] at h
      split at h
      · rename_i hc
        cases h
        exact Or.inr ⟨rfl, m, hp, ha, hc⟩
      · cases h
    · rw [decodeMessage_of_not_acceptable hm hv ha] at h
      cases h
      exact Or.inl rfl
  · rw [hd] at h
    cases h
    exact Or.inl rfl

/-- The encoding of an acceptable request decodes as its message does. -/
theorem IsInnerRequest.decode (hm : lib.http.MethodRule) (hv : lib.http.ValueRule)
    (hr : lib.bhttp.ReadRule) {p : Bytes} {m : InnerMessage} (hp : IsInnerRequest p m)
    (ha : Acceptable m) :
    decodeInner lib p =
      if m.content ≠ [] ∧ contentTypes m.header = [] then .error .unsupportedMediaType
      else .ok m.projection := by
  rcases decodeInner_cases hv hr p with ⟨m', hp', hd⟩ | ⟨hno, -⟩
  · rw [hd, hp'.unique hp, decodeMessage_of_acceptable hm hv ha]
  · exact absurd ⟨m, hp⟩ hno

/-- **The language of inner requests.**  A plaintext decodes exactly when it encodes an
acceptable request that has no content or a content type, and then to the projection of
that request.  Content without a type is the one thing answered with 415; whatever else
is wrong is a bad request. -/
theorem decodeInner_language (hm : lib.http.MethodRule) (hv : lib.http.ValueRule)
    (hr : lib.bhttp.ReadRule) (p : Bytes) :
    (∀ r, decodeInner lib p = .ok r ↔
      ∃ m, IsInnerRequest p m ∧ Acceptable m ∧
        (m.content = [] ∨ contentTypes m.header ≠ []) ∧ r = m.projection) ∧
    (decodeInner lib p = .error .unsupportedMediaType ↔
      ∃ m, IsInnerRequest p m ∧ Acceptable m ∧ m.content ≠ [] ∧ contentTypes m.header = []) ∧
    (∀ e, decodeInner lib p = .error e → e = .unsupportedMediaType ∨ e = .badRequest) := by
  refine ⟨fun r => ⟨decodeInner_ok hm hv hr, ?_⟩, ⟨?_, ?_⟩, ?_⟩
  · rintro ⟨m, hp, ha, hc, rfl⟩
    rw [hp.decode hm hv hr ha, if_neg]
    rintro ⟨hne, hnone⟩
    exact hc.elim hne (fun h => h hnone)
  · intro h
    rcases decodeInner_error hm hv hr h with he | ⟨-, hex⟩
    · cases he
    · exact hex
  · rintro ⟨m, hp, ha, hc⟩
    rw [hp.decode hm hv hr ha, if_pos hc]
  · intro e h
    rcases decodeInner_error hm hv hr h with he | ⟨he, -⟩
    · exact Or.inr he
    · exact Or.inl he

end Decoder

open KnownAnswers in
/-- The plaintext of the vector is in the language; with its content type cut out of the
header section it is content of no type. -/
theorem decodeInner_language_vector :
    (∃ m, IsInnerRequest bhttpRequest m ∧ Acceptable m ∧
      m.projection = innerRequest) ∧
    ∃ m, IsInnerRequest (bhttpRequest.take 24 ++ 0 :: bhttpRequest.drop 55) m ∧
      Acceptable m ∧ m.content ≠ [] ∧ contentTypes m.header = [] := by
  have herr : decodeInner crates (bhttpRequest.take 24 ++ 0 :: bhttpRequest.drop 55) =
      .error .unsupportedMediaType := by
    decide +kernel
  have hlang := @decodeInner_language crates http_methods http_values bhttp_reads
  constructor
  · obtain ⟨m, hp, ha, -, hproj⟩ := ((hlang bhttpRequest).1 _).mp decoded
    exact ⟨m, hp, ha, hproj.symm⟩
  · exact (hlang _).2.1.mp herr

end VrpcSidecar
