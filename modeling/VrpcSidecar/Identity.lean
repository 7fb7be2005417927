import VrpcSidecar.Attestation
import VrpcSidecar.EnvelopeRoundTrip
import VrpcSidecar.ExchangePlanes
import VrpcSidecar.Passthrough

/-! # One attested identity

The sidecar has one key, of 32 bytes.  It is published five times: by what verifies its
signatures, in `SignedResponse`, in the text of `vRPC-Pubkey`, in the answer of
`/attestation` and in the report data a quote is made for; and clients seal to its
Montgomery form.  `PublishedAs` collects what has to agree, and `one_attested_identity`
says that it does for every key dstack can return.

That sealed requests open rests on the clamping of `derive_kem_secret`: the KEM clamps
its secret itself, so the secret's public key is the Montgomery form of the verifying
key exactly because clamping a clamped scalar changes nothing.
-/
namespace VrpcSidecar

/-! ## The KEM key of a seed -/

section Kem
variable {lib : Crates} {curve : KeyCurve} {sha512 : Bytes → Block 64}

/-- The masks of `derive_kem_secret` are clamping. -/
theorem deriveKemSecret_bytes (lib : Crates) (seed : Block 32) :
    (deriveKemSecret lib seed).bytes = clampBytes (lib.ed25519.toScalarBytes seed).bytes := rfl

/-- **The KEM secret of a seed has the Montgomery form of its verifying key.** -/
theorem publicKey_deriveKemSecret (hcurve : CurveRule lib curve sha512) (seed : Block 32) :
    publicKey lib (deriveKemSecret lib seed) =
      some (lib.ed25519.toMontgomery (lib.ed25519.verifyingKey seed)) := by
  obtain ⟨sk, hsk, hpk⟩ := hcurve.privateKey (deriveKemSecret lib seed)
  have hpoint : curve.publicPoint (deriveKemSecret lib seed).bytes =
      curve.publicPoint ((sha512 seed.bytes).bytes.take 32) := by
    rw [deriveKemSecret_bytes, curve.publicPoint_clampBytes (Block.size _), hcurve.scalarBytes]
  rw [publicKey, hsk, Option.map_some, hpk, hpoint, hcurve.verifyingKey, hcurve.toMontgomery]

/-- `check_kem_key` rejects no seed. -/
theorem checkKemKey_deriveKemSecret (hcurve : CurveRule lib curve sha512) (seed : Block 32) :
    checkKemKey lib (deriveKemSecret lib seed)
      (lib.ed25519.toMontgomery (lib.ed25519.verifyingKey seed)) = true :=
  decide_eq_true (publicKey_deriveKemSecret hcurve seed)

/-- **Exactly the keys of 32 bytes are accepted.** -/
theorem fromDstackBytes_ok_iff (hcurve : CurveRule lib curve sha512) (bytes chainId : Bytes) :
    (∃ signer, SigningState.fromDstackBytes lib bytes chainId = .ok signer) ↔
      bytes.length = 32 := by
  constructor
  · rintro ⟨signer, h⟩
    exact ((SigningState.fromDstackBytes_eq_ok lib).mp h).1
  · intro hlen
    have hseed : SigningState.fromSeedRef lib ⟨bytes, hlen⟩ chainId = some _ :=
      dif_pos (checkKemKey_deriveKemSecret hcurve ⟨bytes, hlen⟩)
    exact ⟨_, (SigningState.fromDstackBytes_eq_ok lib).mpr ⟨hlen, hseed⟩⟩

/-- **What is sealed to the Montgomery form of the key is opened.**  The state's check
suffices: its secret is one of the KEM, with this public key. -/
theorem openRequest_encapsulate (hmatch : lib.hpkeAesGcm256.MatchRule)
    (hinj : Function.Injective lib.kem.publicKeyToBytes) (signer : SigningState lib)
    {pk : lib.kem.PublicKey}
    (hpk : lib.kem.publicKeyToBytes pk = lib.ed25519.toMontgomery signer.pubkeyBytes)
    {rng plaintext body : Bytes} {enc : lib.kem.EncappedKey} {snd : SenderContext}
    (h : encapsulate lib (confidentialSuite lib) pk rng plaintext = some (body, enc, snd)) :
    ∃ ctx, signer.openRequest body = .ok (plaintext, ctx) := by
  have hchecked : publicKey lib signer.kemSecret =
      some (lib.ed25519.toMontgomery signer.pubkeyBytes) := of_decide_eq_true signer.kem_checked
  obtain ⟨sk, hsk, hbytes⟩ := Option.map_eq_some_iff.mp hchecked
  obtain rfl : pk = lib.kem.skToPk sk := hinj (hpk.trans hbytes.symm)
  obtain ⟨secret, -, hopen⟩ := openEnvelope_encapsulate hmatch (Nat.le_refl 32) hsk h
  exact ⟨_, hopen⟩

end Kem

/-! ## The header text -/

section Headers
variable {lib : Crates} {signer : SigningState lib}

/-- Every time has a reading of the clock. -/
theorem nowMs_mul (t : UInt64) : nowMs (t.toNat * 1000000) = some t := by
  have hlt : t.toNat < 2 ^ 64 := t.toNat_lt
  have hms : ((t.toNat : Int) * 1000000).toNat / 1000000 = t.toNat := by omega
  rw [nowMs, if_neg (by omega)]
  dsimp only
  rw [hms, if_pos hlt, UInt64.ofNat_toNat]

theorem sign_at (requestBody responseBody : Bytes) (t : UInt64) :
    signer.sign (t.toNat * 1000000) requestBody responseBody =
      some (signer.signWithTimestamp requestBody responseBody t) := by
  rw [SigningState.sign, nowMs_mul, Option.map_some]

/-- A response of the passthrough route has the key's text under `vRPC-Pubkey`. -/
theorem pubkeyHex_mem_buildSignedResponse (hv : lib.http.ValueRule)
    (requestBody responseBody : Bytes) (t : UInt64) (upResp : Incoming) (body : Bytes) :
    signer.pubkeyHex ∈ (buildSignedResponse lib upResp body
      (signer.signWithTimestamp requestBody responseBody t)).headers.getAll .vrpcPubkey := by
  have hown : (.vrpcPubkey, signer.pubkeyHex) ∈
      signingFields (signer.signWithTimestamp requestBody responseBody t) := by
    simp [signingFields, SigningState.signWithTimestamp]
  rw [getAll_signedResponse hv (sign_at requestBody responseBody t)]
  apply List.mem_append_right
  rw [ownValues_of_mem_signingFields hown]
  exact List.mem_singleton_self _

/-- A sealed response has exactly that text under it. -/
theorem pubkeyHex_buildConfidentialResponse (hv : lib.http.ValueRule)
    (requestBody responseBody : Bytes) (t : UInt64) {status : Nat}
    (hstatus : 200 ≤ status ∧ status ≤ 599) (batchSize : Nat) (body : Bytes) :
    (buildConfidentialResponse lib status batchSize body
      (signer.signWithTimestamp requestBody responseBody t)).headers.getAll .vrpcPubkey =
      [signer.pubkeyHex] := by
  have hown : (.vrpcPubkey, signer.pubkeyHex) ∈
      sealedFields batchSize (signer.signWithTimestamp requestBody responseBody t) := by
    simp [sealedFields, SigningState.signWithTimestamp]
  rw [buildConfidentialResponse_eq hv (sign_at requestBody responseBody t) hstatus]
  exact getAll_sealedFields hown

end Headers

/-! ## Boot -/

/-- **What a boot that succeeds has done**: the signing state is that of the key dstack
returned, and the attestation state was made for its public key. -/
theorem bootstrapTdxIdentity_ok_iff {lib : Crates} {config : IdentityConfig}
    {dstack : DstackClient} {signer : SigningState lib} {att : AttestationState} :
    (bootstrapTdxIdentity lib config dstack).result = some (.ok (signer, att)) ↔
      ∃ keyHex bytes, (dstack.getKey (some config.keyPath) config.keyPurpose).2 = some keyHex ∧
        hexDecode keyHex = some bytes ∧
        SigningState.fromDstackBytes lib bytes config.chainId = .ok signer ∧
        (AttestationState.bootstrap dstack signer.pubkeyBytes
          config.allowEmptyComposeHash).result = some (.ok att) := by
  rw [bootstrapTdxIdentity, Run.bind_eq, Run.result_andThen, result_ask, Option.bind_some]
  generalize (dstack.getKey (some config.keyPath) config.keyPurpose).2 = answer
  cases answer with
  | none => simp
  | some keyHex =>
    dsimp only
    rw [decodeToSlice_half]
    cases hdec : hexDecode keyHex with
    | none => simp [hdec]
    | some bytes =>
      dsimp only
      cases hkey : SigningState.fromDstackBytes lib bytes config.chainId with
      | error e => simp [hdec, hkey]
      | ok signing =>
        dsimp only
        rw [Run.bind_eq, Run.result_andThen_eq_some]
        constructor
        · rintro ⟨r, hr, h⟩
          cases r with
          | error e => cases h
          | ok attestation =>
            cases h
            exact ⟨keyHex, bytes, rfl, hdec, hkey, hr⟩
        · rintro ⟨keyHex', bytes', hkeyHex, hbytes, hsigner, hatt⟩
          cases hkeyHex
          rw [hdec] at hbytes
          cases hbytes
          rw [hkey] at hsigner
          cases hsigner
          exact ⟨_, hatt, rfl⟩

/-! ## The identity -/

/-- **What the sidecar publishes under a key**: its signatures verify under it, every
signed response names it and carries its text, quotes are asked for over it and the
caller's nonce, `/attestation` answers with it, and what is sealed to its Montgomery form
is opened. -/
structure PublishedAs {lib : Crates} (signer : SigningState lib) (att : AttestationState)
    (key : Block 32) : Prop where
  verifies : ∀ requestBody responseBody t, lib.ed25519.verify key
    (SigningState.signedMessage lib signer.chainId requestBody responseBody t)
    (signer.signWithTimestamp requestBody responseBody t).signature = true
  named : ∀ requestBody responseBody t,
    (signer.signWithTimestamp requestBody responseBody t).pubkey = key
  text : ∀ requestBody responseBody t,
    readPrefixedHex (signer.signWithTimestamp requestBody responseBody t).pubkeyHex =
      some key.bytes
  passthrough : ∀ requestBody responseBody t upResp body,
    ∃ value ∈ (buildSignedResponse lib upResp body
      (signer.signWithTimestamp requestBody responseBody t)).headers.getAll .vrpcPubkey,
      readPrefixedHex value = some key.bytes
  confidential : ∀ requestBody responseBody t status batchSize body, 200 ≤ status ∧ status ≤ 599 →
    ∃ value, (buildConfidentialResponse lib status batchSize body
      (signer.signWithTimestamp requestBody responseBody t)).headers.getAll .vrpcPubkey = [value] ∧
      readPrefixedHex value = some key.bytes
  quoted : ∀ dstack text nonce, parseUserNonce text = .ok nonce → ∃ reportData : Block 64,
    (attestationHandler att dstack ⟨some text⟩).log = [.getQuote reportData.bytes] ∧
      reportData.bytes.take 32 = key.bytes ∧ reportData.bytes.drop 32 = nonce.bytes
  fresh : ∀ dstack text nonce dstack' text' nonce', parseUserNonce text = .ok nonce →
    parseUserNonce text' = .ok nonce' →
    ((attestationHandler att dstack ⟨some text⟩).log =
      (attestationHandler att dstack' ⟨some text'⟩).log ↔ nonce = nonce')
  answered : ∀ dstack text nonce, parseUserNonce text = .ok nonce → ∃ r,
    (attestationHandler att dstack ⟨some text⟩).result = some r ∧
      ∀ resp, r = .ok resp → readPrefixedHex resp.pubkey = some key.bytes
  opened : ∀ pk, lib.kem.publicKeyToBytes pk = lib.ed25519.toMontgomery key →
    ∀ rng plaintext body enc snd,
      encapsulate lib (confidentialSuite lib) pk rng plaintext = some (body, enc, snd) →
      ∃ ctx, signer.openRequest body = .ok (plaintext, ctx)

/-- A state and the attestation made for its key publish one key. -/
theorem publishedAs_pubkeyBytes {lib : Crates} (hsign : lib.ed25519.SignRule)
    (hmatch : lib.hpkeAesGcm256.MatchRule) (hv : lib.http.ValueRule)
    (hinj : Function.Injective lib.kem.publicKeyToBytes) {signer : SigningState lib}
    {att : AttestationState} (hatt : att.signingPubkey = signer.pubkeyBytes) :
    PublishedAs signer att signer.pubkeyBytes where
  verifies requestBody responseBody t :=
    (signer.signatureOver_signWithTimestamp requestBody responseBody t).verifies hsign
  named _ _ _ := rfl
  text requestBody responseBody t :=
    (signer.signatureOver_signWithTimestamp requestBody responseBody t).pubkeyText
  passthrough requestBody responseBody t upResp body :=
    ⟨signer.pubkeyHex, pubkeyHex_mem_buildSignedResponse hv requestBody responseBody t upResp body,
      (signer.signatureOver_signWithTimestamp requestBody responseBody t).pubkeyText⟩
  confidential requestBody responseBody t status batchSize body hstatus :=
    ⟨signer.pubkeyHex,
      pubkeyHex_buildConfidentialResponse hv requestBody responseBody t hstatus batchSize body,
      (signer.signatureOver_signWithTimestamp requestBody responseBody t).pubkeyText⟩
  quoted dstack text nonce h := by
    refine ⟨⟨signer.pubkeyBytes.bytes ++ nonce.bytes, by simp⟩, ?_,
      List.take_left' (Block.size _), List.drop_left' (Block.size _)⟩
    rw [← hatt]
    exact (attestationHandler_nonce att dstack h).1
  fresh dstack text nonce dstack' text' nonce' h h' := by
    rw [(attestationHandler_nonce att dstack h).1, (attestationHandler_nonce att dstack' h').1]
    constructor
    · intro hlogs
      have hdata := DstackCall.getQuote.inj (List.cons.inj hlogs).1
      exact Block.ext (List.append_cancel_left hdata)
    · rintro rfl
      rfl
  answered dstack text nonce h := by
    refine ⟨_, (attestationHandler_nonce att dstack h).2, ?_⟩
    intro resp hresp
    split at hresp
    · cases hresp
    · cases hresp
      rw [← hatt]
      exact readPrefixedHex_prefixedHex _
  opened pk hpk rng plaintext body enc snd h :=
    openRequest_encapsulate hmatch hinj signer hpk h

/-- **One attested identity.**  A key dstack returns is accepted exactly when it has 32
bytes, so the check of the KEM key rejects none of that length.  A nonce is accepted
exactly when its text, trimmed and without the prefixes `0x` and then `0X`, decodes to 32
bytes.  A boot that succeeds pairs the state of that key with an attestation state for
its public key, and every such pair publishes one key: that of the signing state. -/
theorem one_attested_identity (lib : Crates) (curve : KeyCurve) (sha512 : Bytes → Block 64)
    (hcurve : CurveRule lib curve sha512) (hsign : lib.ed25519.SignRule)
    (hmatch : lib.hpkeAesGcm256.MatchRule) (hv : lib.http.ValueRule) :
    (∀ bytes chainId : Bytes,
      (∃ signer, SigningState.fromDstackBytes lib bytes chainId = .ok signer) ↔
        bytes.length = 32) ∧
    (∀ seed : Block 32, checkKemKey lib (deriveKemSecret lib seed)
      (lib.ed25519.toMontgomery (lib.ed25519.verifyingKey seed)) = true) ∧
    (∀ text nonce, parseUserNonce text = .ok nonce ↔
      hexDecode (utf8 (trimStartMatches '0' 'X' (trimStartMatches '0' 'x' (trim text)))) =
        some nonce.bytes) ∧
    (∀ config dstack signer att,
      (bootstrapTdxIdentity lib config dstack).result = some (.ok (signer, att)) ↔
        ∃ keyHex bytes, (dstack.getKey (some config.keyPath) config.keyPurpose).2 = some keyHex ∧
          hexDecode keyHex = some bytes ∧
          SigningState.fromDstackBytes lib bytes config.chainId = .ok signer ∧
          (AttestationState.bootstrap dstack signer.pubkeyBytes
            config.allowEmptyComposeHash).result = some (.ok att)) ∧
    ∀ (bytes chainId : Bytes) (signer : SigningState lib) (dstack : DstackClient)
      (allowEmpty : Bool) (att : AttestationState),
      SigningState.fromDstackBytes lib bytes chainId = .ok signer →
      (AttestationState.bootstrap dstack signer.pubkeyBytes allowEmpty).result = some (.ok att) →
      signer.signingKey.bytes = bytes ∧ signer.chainId = chainId ∧
        PublishedAs signer att signer.pubkeyBytes := by
  refine ⟨fromDstackBytes_ok_iff hcurve, checkKemKey_deriveKemSecret hcurve,
    fun _ _ => parseUserNonce_eq_ok, fun _ _ _ _ => bootstrapTdxIdentity_ok_iff, ?_⟩
  intro bytes chainId signer dstack allowEmpty att hkey hboot
  obtain ⟨hlen, hseed⟩ := (SigningState.fromDstackBytes_eq_ok lib).mp hkey
  obtain ⟨hsigning, hchain⟩ := SigningState.fromSeedRef_eq_some lib hseed
  refine ⟨congrArg Block.bytes hsigning, hchain, ?_⟩
  exact publishedAs_pubkeyBytes hsign hmatch hv hcurve.publicKey
    (AttestationState.signingPubkey_of_bootstrap hboot)

namespace KnownAnswers

/-- A dstack that returns the test seed. -/
def dstack : DstackClient where
  getKey _ _ := (3, some (hexEncode testSeed.bytes))
  info := (2, some ⟨ascii "abcd", ascii "\x7b\x7d", some (ascii "\x7b\x7d")⟩)
  getQuote reportData := (40, some ⟨ascii "dead", ascii "beef", hexEncode reportData, []⟩)

def identityConfig : IdentityConfig := ⟨ascii "rpc-sign/v1", none, chainId, false⟩

/-- A nonce as a client may write it. -/
def nonceText : Text := ' ' :: '0' :: 'x' :: (List.replicate 32 ['a', 'B']).flatten

def nonce : Block 32 := ⟨List.replicate 32 0xab, by simp⟩

theorem bootstrapped (pubkey : Block 32) :
    (AttestationState.bootstrap dstack pubkey false).result =
      some (.ok ⟨pubkey, ascii "abcd", ascii "\x7b\x7d", ascii "\x7b\x7d"⟩) := by
  have hhash : resolveComposeHash (ascii "abcd") false = .ok (ascii "abcd") := by decide
  rw [AttestationState.bootstrap, Run.bind_eq, Run.result_andThen, result_ask, Option.bind_some]
  dsimp only [dstack]
  rw [hhash]
  rfl

end KnownAnswers

open KnownAnswers in
/-- A boot with the test seed: the key of the vector is the one quoted, and the vector's
request opens. -/
theorem one_attested_identity_vector :
    ∃ signer att, (bootstrapTdxIdentity crates identityConfig dstack).result =
        some (.ok (signer, att)) ∧
      signer.pubkeyBytes = testPublicKey ∧
      parseUserNonce nonceText = .ok nonce ∧
      (∃ reportData : Block 64,
        (attestationHandler att dstack ⟨some nonceText⟩).log = [.getQuote reportData.bytes] ∧
          reportData.bytes.take 32 = testPublicKey.bytes ∧
          reportData.bytes.drop 32 = nonce.bytes) ∧
      ∃ ctx, signer.openRequest encapsulatedRequest = .ok (bhttpRequest, ctx) := by
  obtain ⟨haccept, -, -, hboot, hpublished⟩ := one_attested_identity crates curve sha512 curve_keys
    ed25519_signs hpke_matches http_values
  obtain ⟨signer, hsigner⟩ := (haccept testSeed.bytes chainId).mpr testSeed.size
  obtain ⟨att, hatt⟩ : ∃ att, (AttestationState.bootstrap dstack signer.pubkeyBytes false).result =
      some (.ok att) := ⟨_, bootstrapped signer.pubkeyBytes⟩
  obtain ⟨hseed, -, hidentity⟩ := hpublished _ _ _ dstack false _ hsigner hatt
  have hkey : signer.pubkeyBytes = testPublicKey := by
    have htest : ed25519.verifyingKey testSeed = testPublicKey := by decide
    rw [SigningState.pubkeyBytes, Block.ext hseed]
    exact htest
  have hnonce : parseUserNonce nonceText = .ok nonce := by decide
  have hsealed : toMontgomery (compress (clampedScalar (littleEndian skR.bytes))) =
      toMontgomery testPublicKey := by decide
  rw [hkey] at hidentity
  refine ⟨signer, att, (hboot _ _ _ _).mpr ⟨_, testSeed.bytes, rfl, hexDecode_hexEncode _, hsigner,
    hatt⟩, hkey, hnonce, hidentity.quoted dstack nonceText nonce hnonce, ?_⟩
  exact hidentity.opened (kem.skToPk skR) hsealed _ _ _ _ _ encapsulated

end VrpcSidecar
