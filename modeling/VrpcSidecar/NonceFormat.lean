import VrpcSidecar.Attestation

/-! # The format of a nonce

The README gives it: 32 bytes in hexadecimal, with or without the prefix `0x`, and 400
for anything else.  `parse_user_nonce` removes the prefixes with `trim_start_matches`,
which removes a pattern as often as it is there, so the texts it accepts are exactly
those with any number of prefixes `0x` and then any number of prefixes `0X`.
-/
namespace VrpcSidecar

/-- The format of a nonce: within white space, at most one prefix and 64 digits, which are
the text of the bytes. -/
def IsNonce (s : Text) (nonce : Block 32) : Prop :=
  ∃ pre digits : Text, (pre = [] ∨ pre = ['0', 'x'] ∨ pre = ['0', 'X']) ∧
    trim s = pre ++ digits ∧ digits.length = 64 ∧ HexText digits nonce.bytes

/-- The parser keeps the format on `s`: it reads `s` as a nonce exactly when it is that
nonce, and a request whose text is no nonce is answered with 400 without asking dstack. -/
def KeepsNonceFormat (s : Text) : Prop :=
  (∀ nonce, parseUserNonce s = .ok nonce ↔ IsNonce s nonce) ∧
    ∀ att dstack, (∀ nonce, ¬ IsNonce s nonce) →
      (attestationHandler att dstack ⟨some s⟩).log = [] ∧
        ∃ e, (attestationHandler att dstack ⟨some s⟩).result = some (.error (.badRequest, e))

/-- Two prefixes or more, all of `0x` before all of `0X`, and then 64 digits. -/
def RepeatedPrefix (s : Text) : Prop :=
  ∃ (i j : Nat) (digits : Text), 2 ≤ i + j ∧
    trim s = repeated i '0' 'x' ++ repeated j '0' 'X' ++ digits ∧
      digits.length = 64 ∧ ∀ c ∈ digits, ∃ v, HexDigit c v

/-! ## What is accepted -/

theorem HexDigit.toNat_ne {c : Char} {v : Nat} (h : HexDigit c v) :
    c.toNat ≠ 'x'.toNat ∧ c.toNat ≠ 'X'.toNat := by
  rw [hexDigit_codes] at h
  show c.toNat ≠ 120 ∧ c.toNat ≠ 88
  omega

/-- Between digits there is no prefix. -/
theorem not_mem_of_hexDigits {digits : Text} (h : ∀ c ∈ digits, ∃ v, HexDigit c v) :
    'x' ∉ digits ∧ 'X' ∉ digits := by
  constructor
  · intro hmem
    obtain ⟨v, hv⟩ := h 'x' hmem
    exact hv.toNat_ne.1 rfl
  · intro hmem
    obtain ⟨v, hv⟩ := h 'X' hmem
    exact hv.toNat_ne.2 rfl

/-- Both kinds of prefix are removed, however many there are. -/
theorem trimStartMatches_prefixes (i j : Nat) {digits : Text}
    (h : ∀ c ∈ digits, ∃ v, HexDigit c v) :
    trimStartMatches '0' 'X' (trimStartMatches '0' 'x'
      (repeated i '0' 'x' ++ repeated j '0' 'X' ++ digits)) = digits := by
  obtain ⟨hx, hX⟩ := not_mem_of_hexDigits h
  have hrest : 'x' ∉ repeated j '0' 'X' ++ digits := by
    intro hmem
    rcases List.mem_append.mp hmem with hmem | hmem
    · rcases eq_or_eq_of_mem_repeated hmem with h0 | hX
      · exact absurd h0 (by decide)
      · exact absurd hX (by decide)
    · exact hx hmem
  rw [List.append_assoc, trimStartMatches_repeated_append, trimStartMatches_eq_self hrest,
    trimStartMatches_repeated_append, trimStartMatches_eq_self hX]

/-- **What is accepted**: prefixes `0x`, then prefixes `0X`, in any number, and then the
text of 32 bytes. -/
theorem parseUserNonce_ok_iff {s : Text} {nonce : Block 32} :
    parseUserNonce s = .ok nonce ↔ ∃ (i j : Nat) (digits : Text),
      trim s = repeated i '0' 'x' ++ repeated j '0' 'X' ++ digits ∧
        HexText digits nonce.bytes := by
  rw [parseUserNonce_eq_ok, hexDecode_utf8_iff]
  constructor
  · intro h
    obtain ⟨i, hi⟩ := exists_repeated_append '0' 'x' (trim s)
    obtain ⟨j, hj⟩ := exists_repeated_append '0' 'X' (trimStartMatches '0' 'x' (trim s))
    refine ⟨i, j, _, ?_, h⟩
    rw [List.append_assoc, ← hj]
    exact hi
  · rintro ⟨i, j, digits, htrim, hdigits⟩
    rwa [htrim, trimStartMatches_prefixes i j fun _ => hdigits.hexDigit_of_mem]

theorem HexText.length_of_block {digits : Text} {nonce : Block 32}
    (h : HexText digits nonce.bytes) : digits.length = 64 := by
  rw [h.length_eq, nonce.size]

/-- A nonce in the format has at most one prefix. -/
theorem isNonce_iff {s : Text} {nonce : Block 32} :
    IsNonce s nonce ↔ ∃ (i j : Nat) (digits : Text), i + j ≤ 1 ∧
      trim s = repeated i '0' 'x' ++ repeated j '0' 'X' ++ digits ∧
        HexText digits nonce.bytes := by
  constructor
  · rintro ⟨pre, digits, rfl | rfl | rfl, htrim, -, hdigits⟩
    · exact ⟨0, 0, digits, by decide, htrim, hdigits⟩
    · exact ⟨1, 0, digits, by decide, htrim, hdigits⟩
    · exact ⟨0, 1, digits, by decide, htrim, hdigits⟩
  · rintro ⟨i, j, digits, hle, htrim, hdigits⟩
    refine ⟨repeated i '0' 'x' ++ repeated j '0' 'X', digits, ?_, htrim, hdigits.length_of_block,
      hdigits⟩
    obtain ⟨rfl, rfl⟩ | ⟨rfl, rfl⟩ | ⟨rfl, rfl⟩ :
        (i = 0 ∧ j = 0) ∨ (i = 1 ∧ j = 0) ∨ (i = 0 ∧ j = 1) := by omega
    · exact .inl rfl
    · exact .inr (.inl rfl)
    · exact .inr (.inr rfl)

/-- A text in the format is accepted, as the nonce it is. -/
theorem IsNonce.parses {s : Text} {nonce : Block 32} (h : IsNonce s nonce) :
    parseUserNonce s = .ok nonce := by
  obtain ⟨i, j, digits, -, htrim, hdigits⟩ := isNonce_iff.mp h
  exact parseUserNonce_ok_iff.mpr ⟨i, j, digits, htrim, hdigits⟩

/-! ## Repeated prefixes -/

/-- A text with a repeated prefix is accepted. -/
theorem RepeatedPrefix.parses {s : Text} (h : RepeatedPrefix s) :
    ∃ nonce, parseUserNonce s = .ok nonce := by
  obtain ⟨i, j, digits, -, htrim, hlen, hdigits⟩ := h
  obtain ⟨bytes, hbytes⟩ := exists_hexText hdigits (by omega)
  have hsize : bytes.length = 32 := by
    have := hbytes.length_eq
    omega
  exact ⟨⟨bytes, hsize⟩, parseUserNonce_ok_iff.mpr ⟨i, j, digits, htrim, hbytes⟩⟩

/-- And it is not in the format: there is more before its last 64 digits than a prefix. -/
theorem RepeatedPrefix.not_isNonce {s : Text} (h : RepeatedPrefix s) (nonce : Block 32) :
    ¬ IsNonce s nonce := by
  obtain ⟨i, j, digits, hmany, htrim, hlen, -⟩ := h
  intro hnonce
  obtain ⟨i', j', digits', hfew, htrim', hdigits'⟩ := isNonce_iff.mp hnonce
  have hlen' := hdigits'.length_of_block
  have hlengths := congrArg List.length (htrim.symm.trans htrim')
  simp only [List.length_append, length_repeated] at hlengths
  omega

/-- What is accepted is in the format, or has a repeated prefix. -/
theorem isNonce_or_repeatedPrefix {s : Text} {nonce : Block 32}
    (h : parseUserNonce s = .ok nonce) : IsNonce s nonce ∨ RepeatedPrefix s := by
  obtain ⟨i, j, digits, htrim, hdigits⟩ := parseUserNonce_ok_iff.mp h
  by_cases hfew : i + j ≤ 1
  · exact .inl (isNonce_iff.mpr ⟨i, j, digits, hfew, htrim, hdigits⟩)
  · refine .inr ⟨i, j, digits, by omega, htrim, hdigits.length_of_block, ?_⟩
    intro c hc
    exact hdigits.hexDigit_of_mem hc

/-- A text that is not accepted is answered with 400, and dstack is not asked. -/
theorem attestationHandler_of_not_parsed (att : AttestationState) (dstack : DstackClient)
    {s : Text} (h : ∀ nonce, parseUserNonce s ≠ .ok nonce) :
    (attestationHandler att dstack ⟨some s⟩).log = [] ∧
      ∃ e, (attestationHandler att dstack ⟨some s⟩).result = some (.error (.badRequest, e)) := by
  cases hparse : parseUserNonce s with
  | ok nonce => exact absurd hparse (h nonce)
  | error e =>
    have hextract : extractNonce ⟨some s⟩ = .error e := hparse
    rw [attestationHandler_refused att dstack hextract]
    exact ⟨rfl, e, rfl⟩

/-- **When the parser keeps its format**: on every text but those with a repeated prefix,
which it always accepts. -/
theorem keepsNonceFormat_iff (s : Text) : KeepsNonceFormat s ↔ ¬ RepeatedPrefix s := by
  constructor
  · rintro ⟨hparse, -⟩ hrepeated
    obtain ⟨nonce, hnonce⟩ := hrepeated.parses
    exact hrepeated.not_isNonce nonce ((hparse nonce).mp hnonce)
  · intro hrepeated
    have hparse : ∀ nonce, parseUserNonce s = .ok nonce ↔ IsNonce s nonce := by
      intro nonce
      refine ⟨?_, IsNonce.parses⟩
      intro h
      exact (isNonce_or_repeatedPrefix h).resolve_right hrepeated
    refine ⟨hparse, ?_⟩
    intro att dstack hnone
    apply attestationHandler_of_not_parsed
    intro nonce h
    exact hnone nonce ((hparse nonce).mp h)

/-- The prefix `0x`, twice, before the digits of 32 bytes. -/
def twicePrefixed : Text := repeated 2 '0' 'x' ++ repeated 32 'a' 'b'

/-- It is accepted, and a quote is asked for, though it is no nonce. -/
theorem not_keepsNonceFormat_twicePrefixed :
    ¬ KeepsNonceFormat twicePrefixed ∧ (∀ nonce, ¬ IsNonce twicePrefixed nonce) ∧
      parseUserNonce twicePrefixed = .ok ⟨List.replicate 32 0xab, by simp⟩ ∧
        ∀ att dstack, (attestationHandler att dstack ⟨some twicePrefixed⟩).log =
          [.getQuote (att.signingPubkey.bytes ++ List.replicate 32 0xab)] := by
  have hparse : parseUserNonce twicePrefixed = .ok ⟨List.replicate 32 0xab, by simp⟩ := by decide
  have hno : ∀ nonce, ¬ IsNonce twicePrefixed nonce := by
    rintro nonce ⟨pre, digits, hpre, htrim, hlen, -⟩
    have htrimmed : (trim twicePrefixed).length = 68 := by decide
    rw [htrim, List.length_append, hlen] at htrimmed
    rcases hpre with rfl | rfl | rfl <;> simp at htrimmed
  refine ⟨?_, hno, hparse, ?_⟩
  · rintro ⟨hkeeps, -⟩
    exact hno _ ((hkeeps _).mp hparse)
  · intro att dstack
    exact (attestationHandler_nonce att dstack hparse).1

end VrpcSidecar
