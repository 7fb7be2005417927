import VrpcSidecar.Envelope
import VrpcSidecar.Texts

/-! # Signing responses

`signing.rs`: the identity of the sidecar and the pre-image it signs.  A
`SigningState` is built from a seed once; what its constructor establishes (the
cached chain-id hash and key text, the KEM secret that belongs to the signing key)
are fields of the structure, so that every state the server can hold has them.
-/
namespace VrpcSidecar

/-! ## The chain id -/

/-- `CHAIN_ID_MAX_LEN`. -/
def chainIdMaxLen : Nat := 64

/-- The errors of `validate_chain_id`, with what their texts name. -/
inductive ChainIdError where
  /-- `chain_id must not be empty`. -/
  | empty
  /-- `chain_id {s:?} is {len} bytes, exceeds the 64-byte limit`. -/
  | tooLong (s : Text) (len : Nat)
  /-- `chain_id {s:?} contains non-printable-ASCII or whitespace character {c:?}`. -/
  | notGraphic (s : Text) (c : Char)
  deriving DecidableEq

/-- `validate_chain_id`. -/
def validateChainId (s : Text) : Except ChainIdError Text :=
  let s := trim s
  if s = [] then .error .empty
  else if (utf8 s).length > chainIdMaxLen then .error (.tooLong s (utf8 s).length)
  else
    match s.find? (fun c => !isAsciiGraphic c) with
    | some c => .error (.notGraphic s c)
    | none => .ok s

/-! ## The clock -/

/-- `now_ms`: the reading of the system clock, in nanoseconds relative to the epoch,
as milliseconds in a `u64`; a clock before the epoch or past the `u64` range is
unusable. -/
def nowMs (clock : Int) : Option UInt64 :=
  if clock < 0 then none
  else
    let ms := clock.toNat / 1000000
    if ms < 2 ^ 64 then some (UInt64.ofNat ms) else none

/-! ## The state -/

section
variable (lib : Crates)

/-- `derive_kem_secret`: the clamped scalar of the signing key. -/
def deriveKemSecret (seed : Block 32) : Block 32 :=
  let sk := (lib.ed25519.toScalarBytes seed).bytes
  ⟨((sk.modify 0 (· &&& 248)).modify 31 (· &&& 127)).modify 31 (· ||| 64), by simp [sk]⟩

/-- `check_kem_key`. -/
def checkKemKey (kemSecret expectedPk : Block 32) : Bool :=
  publicKey lib kemSecret = some expectedPk

/-- `SigningState`, with what `from_seed_ref` establishes of its fields. -/
structure SigningState where
  signingKey : Block 32
  kemSecret : Block 32
  chainId : Bytes
  chainIdHash : Block 32
  pubkeyHex : Bytes
  /-- The KEM secret belongs to the signing key. -/
  kemSecret_eq : kemSecret = deriveKemSecret lib signingKey
  /-- It passed the check against the key's Montgomery form. -/
  kem_checked : checkKemKey lib kemSecret
    (lib.ed25519.toMontgomery (lib.ed25519.verifyingKey signingKey)) = true
  /-- The hash is that of the chain id. -/
  chainIdHash_eq : chainIdHash = lib.sha256 chainId
  /-- The text is that of the verifying key. -/
  pubkeyHex_eq : pubkeyHex = prefixedHex (lib.ed25519.verifyingKey signingKey).bytes

/-- `SigningState::from_seed_ref`. -/
def SigningState.fromSeedRef (seed : Block 32) (chainId : Bytes) : Option (SigningState lib) :=
  let kemSecret := deriveKemSecret lib seed
  if h : checkKemKey lib kemSecret (lib.ed25519.toMontgomery (lib.ed25519.verifyingKey seed)) = true
  then some
    { signingKey := seed
      kemSecret := kemSecret
      chainId := chainId
      chainIdHash := lib.sha256 chainId
      pubkeyHex := prefixedHex (lib.ed25519.verifyingKey seed).bytes
      kemSecret_eq := rfl
      kem_checked := h
      chainIdHash_eq := rfl
      pubkeyHex_eq := rfl }
  else none

theorem SigningState.fromSeedRef_eq_some {seed : Block 32} {chainId : Bytes}
    {signer : SigningState lib} (h : SigningState.fromSeedRef lib seed chainId = some signer) :
    signer.signingKey = seed ∧ signer.chainId = chainId := by
  dsimp only [SigningState.fromSeedRef] at h
  split at h
  · cases h
    exact ⟨rfl, rfl⟩
  · cases h

/-- `SECRET_KEY_LENGTH`. -/
def secretKeyLength : Nat := 32

/-- `SigningState::from_dstack_bytes`; an error is its text. -/
def SigningState.fromDstackBytes (bytes chainId : Bytes) : Except Bytes (SigningState lib) :=
  if h : bytes.length = secretKeyLength then
    match SigningState.fromSeedRef lib ⟨bytes, h⟩ chainId with
    | some signer => .ok signer
    | none => .error (ascii "X25519 key does not match the signing key's Montgomery form")
  else
    .error (ascii "dstack key was " ++
      (decimal bytes.length ++ ascii " bytes, expected exactly 32"))

theorem SigningState.fromDstackBytes_eq_ok {bytes chainId : Bytes} {signer : SigningState lib} :
    SigningState.fromDstackBytes lib bytes chainId = .ok signer ↔
      ∃ h, SigningState.fromSeedRef lib ⟨bytes, h⟩ chainId = some signer := by
  unfold SigningState.fromDstackBytes
  split
  · rename_i h
    have hlen : bytes.length = 32 := h
    cases hseed : SigningState.fromSeedRef lib ⟨bytes, h⟩ chainId with
    | some signer' => simp [hlen, hseed]
    | none => simp [hlen, hseed]
  · rename_i h
    constructor
    · intro herr
      cases herr
    · rintro ⟨hlen, -⟩
      exact absurd hlen h

end

/-- `SignedResponse`. -/
structure SignedResponse where
  signature : Block 64
  timestampMs : UInt64
  pubkey : Block 32
  pubkeyHex : Bytes

/-- `signature_hex`. -/
def SignedResponse.signatureHex (s : SignedResponse) : Bytes := prefixedHex s.signature.bytes

/-- `timestamp_ms.to_string()`. -/
def SignedResponse.timestampText (s : SignedResponse) : Bytes := decimal s.timestampMs.toNat

/-- `PRE_IMAGE_LEN`. -/
abbrev preImageLen : Nat := 104

/-- `REQ_HASH_OFFSET`. -/
def reqHashOffset : Nat := 32

/-- `RESP_HASH_OFFSET`. -/
def respHashOffset : Nat := 64

/-- `TIMESTAMP_OFFSET`. -/
def timestampOffset : Nat := 96

/-- `build_pre_image`: three hashes and the timestamp in little-endian order. -/
def buildPreImage (chainIdHash requestHash responseHash : Block 32) (timestampMs : UInt64) :
    Block preImageLen :=
  let buf := (Block.zero preImageLen).copied 0 reqHashOffset chainIdHash.bytes
    ⟨by decide, by decide, chainIdHash.size⟩
  let buf := buf.copied reqHashOffset respHashOffset requestHash.bytes
    ⟨by decide, by decide, requestHash.size⟩
  let buf := buf.copied respHashOffset timestampOffset responseHash.bytes
    ⟨by decide, by decide, responseHash.size⟩
  buf.copied timestampOffset preImageLen (toLE timestampMs)
    ⟨by decide, by decide, length_toLE timestampMs⟩

/-- The four copies fill the array, one after the other. -/
theorem bytes_buildPreImage (chainIdHash requestHash responseHash : Block 32) (t : UInt64) :
    (buildPreImage chainIdHash requestHash responseHash t).bytes =
      chainIdHash.bytes ++ (requestHash.bytes ++ (responseHash.bytes ++ toLE t)) := by
  have hall := List.take_of_length_le
    (Nat.le_of_eq (buildPreImage chainIdHash requestHash responseHash t).size)
  rw [← hall]
  unfold buildPreImage
  rw [Block.take_copied _ _ (Block.take_copied _ _ (Block.take_copied _ _
    (Block.take_copied _ _ (List.take_zero ..) rfl) ?_) ?_) ?_]
  · simp
  · simp [reqHashOffset]
  · simp [respHashOffset]
  · simp [timestampOffset]

namespace SigningState
variable {lib : Crates} (signer : SigningState lib)

/-- `open_request`. -/
def openRequest (body : Bytes) : Fallible (Bytes × ResponseContext) :=
  VrpcSidecar.openRequest lib signer.kemSecret body

/-- `pubkey_bytes`. -/
def pubkeyBytes : Block 32 := lib.ed25519.verifyingKey signer.signingKey

/-- `sign_with_timestamp`. -/
def signWithTimestamp (requestBody responseBody : Bytes) (timestampMs : UInt64) : SignedResponse :=
  let preImage := buildPreImage signer.chainIdHash (lib.sha256 requestBody)
    (lib.sha256 responseBody) timestampMs
  { signature := lib.ed25519.sign signer.signingKey preImage.bytes
    timestampMs := timestampMs
    pubkey := signer.pubkeyBytes
    pubkeyHex := signer.pubkeyHex }

/-- `sign`, at a reading of the clock. -/
def sign (clock : Int) (requestBody responseBody : Bytes) : Option SignedResponse :=
  (nowMs clock).map (signer.signWithTimestamp requestBody responseBody)

/-- The message a verifier rebuilds from what it sees: the chain id, the two bodies
and the timestamp. -/
def signedMessage (lib : Crates) (chainId requestBody responseBody : Bytes)
    (timestampMs : UInt64) : Bytes :=
  (lib.sha256 chainId).bytes ++ ((lib.sha256 requestBody).bytes ++
    ((lib.sha256 responseBody).bytes ++ toLE timestampMs))

/-- **What a signature of the sidecar is**: made by the signing key over the message
a verifier rebuilds, with the texts that decode to signature, key and timestamp. -/
structure SignatureOver (requestBody responseBody : Bytes) (s : SignedResponse) : Prop where
  signature : s.signature = lib.ed25519.sign signer.signingKey
    (signedMessage lib signer.chainId requestBody responseBody s.timestampMs)
  pubkey : s.pubkey = signer.pubkeyBytes
  signatureText : readPrefixedHex s.signatureHex = some s.signature.bytes
  pubkeyText : readPrefixedHex s.pubkeyHex = some s.pubkey.bytes
  timestampText : readU64 s.timestampText = some s.timestampMs

/-- Every signed response carries a signature over the bodies it was made from. -/
theorem signatureOver_signWithTimestamp (requestBody responseBody : Bytes) (timestampMs : UInt64) :
    signer.SignatureOver requestBody responseBody
      (signer.signWithTimestamp requestBody responseBody timestampMs) where
  signature := by
    show lib.ed25519.sign _ (buildPreImage _ _ _ _).bytes = _
    rw [bytes_buildPreImage, signer.chainIdHash_eq]
    rfl
  pubkey := rfl
  signatureText := readPrefixedHex_prefixedHex _
  pubkeyText := by
    show readPrefixedHex signer.pubkeyHex = _
    rw [signer.pubkeyHex_eq]
    exact readPrefixedHex_prefixedHex _
  timestampText := readU64_decimal _

/-- Signing succeeds exactly when the clock is usable, and then signs the bodies. -/
theorem sign_eq_some {clock : Int} {requestBody responseBody : Bytes} {s : SignedResponse} :
    signer.sign clock requestBody responseBody = some s ↔
      ∃ t, nowMs clock = some t ∧ s = signer.signWithTimestamp requestBody responseBody t := by
  rw [sign, Option.map_eq_some_iff]
  exact exists_congr (fun t => and_congr_right (fun _ => eq_comm))

theorem sign_eq_none {clock : Int} {requestBody responseBody : Bytes} :
    signer.sign clock requestBody responseBody = none ↔ nowMs clock = none := by
  simp [sign]

/-- Under the rule of the signature scheme, the signature verifies under the key the
response names. -/
theorem SignatureOver.verifies {signer : SigningState lib} {requestBody responseBody : Bytes}
    {s : SignedResponse} (h : signer.SignatureOver requestBody responseBody s)
    (hed : lib.ed25519.SignRule) :
    lib.ed25519.verify s.pubkey
      (signedMessage lib signer.chainId requestBody responseBody s.timestampMs) s.signature = true := by
  rw [h.signature, h.pubkey]
  exact hed _ _

/-- The three texts are visible ASCII, whatever the key and the time. -/
theorem visible_texts (requestBody responseBody : Bytes) (timestampMs : UInt64) :
    let s := signer.signWithTimestamp requestBody responseBody timestampMs
    Visible s.signatureHex ∧ Visible s.timestampText ∧ Visible s.pubkeyHex := by
  refine ⟨visible_prefixedHex _, visible_decimal _, ?_⟩
  show Visible signer.pubkeyHex
  rw [signer.pubkeyHex_eq]
  exact visible_prefixedHex _

end SigningState
end VrpcSidecar
