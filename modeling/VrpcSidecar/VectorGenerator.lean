import VrpcSidecar.ClientCalls
import VrpcSidecar.Identity

/-! # The generator of the known-answer vectors

`generate_test.go` makes the vectors with the standard library of Go: it converts the seed to
a key of the KEM, seals a request and opens it again, and encrypts a response.  Its own are
the conversion of the seed, the messages, and the order in which the parts are put together.

`GoCrypto` is what it uses of Go.  These packages and the crates of the sidecar implement the
same standards, each in its own way; `StandardRule` says what that comes to: a receiver of
the crates opens what a sender of Go sealed, and the key schedules and the ciphers agree.

The sidecar is tested on the two vectors that were made.  `generated_vector_holds` is the
same for every vector that the generator makes, of any key, request, response and
randomness.
-/
namespace VrpcSidecar
open BinaryHttp

namespace Generator

/-! ## The packages of Go -/

/-- The packages of Go's standard library that the generator calls. -/
structure GoCrypto where
  PrivateKey : Type
  PublicKey : Type
  Sender : Type
  Recipient : Type
  Gcm : Type
  /-- `sha512.Sum512`. -/
  sum512 : Bytes → Block 64
  /-- `ecdh.X25519().NewPrivateKey`. -/
  newPrivateKey : Bytes → Option PrivateKey
  /-- `PrivateKey.Bytes`. -/
  privateKeyBytes : PrivateKey → Bytes
  /-- `PrivateKey.PublicKey`. -/
  publicKey : PrivateKey → PublicKey
  /-- `PublicKey.Bytes`. -/
  publicKeyBytes : PublicKey → Bytes
  /-- `hpke.NewSender` with HKDF-SHA256 and AES-256-GCM, for the key and the `info`, the
  randomness explicit: the encapsulated key, and the sender.  `NewDHKEMPublicKey` is part of it. -/
  newSender : PublicKey → Bytes → Bytes → Option (Bytes × Sender)
  /-- `Sender.Seal(aad, plaintext)`, the first. -/
  sealFirst : Sender → Bytes → Bytes → Option Bytes
  /-- `Sender.Export`. -/
  exportSecret : Sender → Bytes → Nat → Option Bytes
  /-- `hpke.NewRecipient`, of the encapsulated key, the key and the `info`; `NewDHKEMPrivateKey`
  is part of it. -/
  newRecipient : Bytes → PrivateKey → Bytes → Option Recipient
  /-- `Recipient.Open(aad, ciphertext)`, the first. -/
  openFirst : Recipient → Bytes → Bytes → Option Bytes
  /-- `hkdf.Extract(sha256.New, secret, salt)`. -/
  hkdfExtract : Bytes → Bytes → Option Bytes
  /-- `hkdf.Expand(sha256.New, prk, info, n)`. -/
  hkdfExpand : Bytes → Bytes → Nat → Option Bytes
  /-- `cipher.NewGCM` over `aes.NewCipher`, of the key. -/
  newGCM : Bytes → Option Gcm
  /-- `gcm.Seal(nil, nonce, plaintext, nil)`; `none` for its panic. -/
  gcmSeal : Gcm → Bytes → Bytes → Option Bytes

/-- **Go and the crates implement the same standards.**  A private key of Go is one of the
crate with the same public key (RFC 7748).  A receiver of the crate opens what a sender of Go
sealed to its key, 16 bytes longer, and exports what that exports (RFC 9180).  HKDF and
AES-256-GCM compute the same bytes. -/
structure GoCrypto.StandardRule (go : GoCrypto) (lib : Crates) : Prop where
  key : ∀ bs x, go.newPrivateKey bs = some x → go.privateKeyBytes x = bs ∧
    ∃ sk, lib.kem.privateKeyFromBytes bs = some sk ∧
      (lib.kem.publicKeyToBytes (lib.kem.skToPk sk)).bytes = go.publicKeyBytes (go.publicKey x)
  sender : ∀ bs x sk info rng enc snd, go.newPrivateKey bs = some x →
    lib.kem.privateKeyFromBytes bs = some sk → go.newSender (go.publicKey x) info rng = some (enc, snd) →
    ∃ (b : Block 32) (e : lib.kem.EncappedKey) (rcv : ReceiverContext), b.bytes = enc ∧
      lib.kem.encappedKeyFromBytes enc = some e ∧
      lib.hpkeAesGcm256.setupReceiver sk e info = some rcv ∧
      (∀ pt aad ct, go.sealFirst snd aad pt = some ct →
        rcv.openFirst ct aad = some pt ∧ ct.length = pt.length + 16) ∧
      (∀ label n secret, go.exportSecret snd label n = some secret →
        ∃ s, rcv.exportSecret label n = some s ∧ s.bytes = secret)
  hkdf : ∀ secret salt prk info n okm, go.hkdfExtract secret salt = some prk →
    go.hkdfExpand prk info n = some okm →
    ∃ b, lib.hkdf.expand (lib.hkdf.extract salt secret) info n = some b ∧ b.bytes = okm
  gcm : ∀ (key : Block 32) g, go.newGCM key.bytes = some g →
    ∃ c, lib.aes256Gcm.newFromSlice key.bytes = some c ∧
      ∀ nonce pt ct, go.gcmSeal g nonce pt = some ct →
        ∃ n tag, lib.aes256Gcm.nonceTryFrom nonce = some n ∧
          (lib.aes256Gcm.encryptInOut c n [] pt).2 = some tag ∧
          ct = (lib.aes256Gcm.encryptInOut c n [] pt).1.bytes ++ tag.bytes

/-! ## The generator -/

section Functions
variable (go : GoCrypto)

/-- `clampedScalar`. -/
def clampedScalar (seed : Bytes) : Block 32 :=
  let s := (go.sum512 seed).bytes.take 32
  ⟨((s.modify 0 (· &&& 248)).modify 31 (· &&& 127)).modify 31 (· ||| 64), by simp [s]⟩

/-- `hdr`. -/
def hdr : Bytes := [0x00, 0x00, 0x20, 0x00, 0x01, 0x00, 0x02]

/-- `envelope`, the strings before they are written as hex. -/
structure Envelope where
  skR : Bytes
  pkR : Bytes
  bhttpRequest : Bytes
  hdr : Bytes
  info : Bytes
  enc : Bytes
  encapsulatedRequest : Bytes
  exportSecret : Bytes
  bhttpResponse : Bytes
  responseNonce : Bytes
  aeadKey : Bytes
  aeadNonce : Bytes
  encapsulatedResponse : Bytes
  deriving DecidableEq

/-- `sealEnvelope`, with the randomness of the sender and the response nonce. -/
def sealEnvelope (xPriv : go.PrivateKey) (rng : Bytes) (responseNonce : Block 32)
    (req : InnerRequest) (res : InnerResponse) : Fallible Envelope := do
  let skR := go.privateKeyBytes xPriv
  let pkR := go.publicKeyBytes (go.publicKey xPriv)
  let bhttpReq ← encodeRequest req
  let bhttpRes ← encodeResponse res
  let info := ascii "message/bhttp request" ++ 0x00 :: hdr
  let (enc, sender) ← orRefused (go.newSender (go.publicKey xPriv) info rng)
  let ct ← orRefused (go.sealFirst sender [] bhttpReq)
  let encapsulatedReq := hdr ++ enc ++ ct
  let secret ← orRefused (go.exportSecret sender (ascii "message/bhttp response") 32)
  let recipient ← orRefused (go.newRecipient enc xPriv info)
  let pt ← orRefused (go.openFirst recipient [] ct)
  if pt ≠ bhttpReq then .error .refused
  else
    let salt := enc ++ responseNonce.bytes
    let prk ← orRefused (go.hkdfExtract secret salt)
    let aeadKey ← orRefused (go.hkdfExpand prk (ascii "key") 32)
    let aeadNonce ← orRefused (go.hkdfExpand prk (ascii "nonce") 12)
    let gcm ← orRefused (go.newGCM aeadKey)
    let sealedRes ← orPanicked (go.gcmSeal gcm aeadNonce bhttpRes)
    return ⟨skR, pkR, bhttpReq, hdr, info, enc, encapsulatedReq, secret, bhttpRes,
      responseNonce.bytes, aeadKey, aeadNonce, responseNonce.bytes ++ sealedRes⟩

end Functions

end Generator

section Vectors
variable {lib : Crates} {go : Generator.GoCrypto} {curve : KeyCurve}

/-- The generator clamps the seed as the sidecar does. -/
theorem clampedScalar_eq_deriveKemSecret (hcurve : CurveRule lib curve go.sum512) (seed : Block 32) :
    Generator.clampedScalar go seed.bytes = deriveKemSecret lib seed := by
  apply Block.ext
  rw [deriveKemSecret_bytes, hcurve.scalarBytes]
  rfl

/-- **What a vector is made of.** -/
theorem sealEnvelope_ok {x : go.PrivateKey} {rng : Bytes} {nonce : Block 32}
    {req : Generator.InnerRequest} {res : Generator.InnerResponse} {v : Generator.Envelope}
    (h : Generator.sealEnvelope go x rng nonce req res = .ok v) :
    v.skR = go.privateKeyBytes x ∧ v.pkR = go.publicKeyBytes (go.publicKey x) ∧
    Generator.encodeRequest req = .ok v.bhttpRequest ∧
    (∃ snd ct, go.newSender (go.publicKey x)
        (ascii "message/bhttp request" ++ 0x00 :: Generator.hdr) rng = some (v.enc, snd) ∧
      go.sealFirst snd [] v.bhttpRequest = some ct ∧
      v.encapsulatedRequest = Generator.hdr ++ (v.enc ++ ct) ∧
      go.exportSecret snd (ascii "message/bhttp response") 32 = some v.exportSecret) ∧
    ∃ prk gcm ct, go.hkdfExtract v.exportSecret (v.enc ++ nonce.bytes) = some prk ∧
      go.hkdfExpand prk (ascii "key") 32 = some v.aeadKey ∧
      go.hkdfExpand prk (ascii "nonce") 12 = some v.aeadNonce ∧
      go.newGCM v.aeadKey = some gcm ∧ go.gcmSeal gcm v.aeadNonce v.bhttpResponse = some ct ∧
      v.encapsulatedResponse = nonce.bytes ++ ct := by
  obtain ⟨bhttpReq, hreq, h⟩ := bind_eq_ok.mp h
  obtain ⟨bhttpRes, -, h⟩ := bind_eq_ok.mp h
  obtain ⟨⟨enc, snd⟩, hsender, h⟩ := bind_eq_ok.mp h
  obtain ⟨ct, hct, h⟩ := bind_eq_ok.mp h
  obtain ⟨secret, hsecret, h⟩ := bind_eq_ok.mp h
  obtain ⟨recipient, -, h⟩ := bind_eq_ok.mp h
  obtain ⟨pt, -, h⟩ := bind_eq_ok.mp h
  split at h
  · cases h
  obtain ⟨prk, hprk, h⟩ := bind_eq_ok.mp h
  obtain ⟨aeadKey, hkey, h⟩ := bind_eq_ok.mp h
  obtain ⟨aeadNonce, hnonce, h⟩ := bind_eq_ok.mp h
  obtain ⟨gcm, hgcm, h⟩ := bind_eq_ok.mp h
  obtain ⟨sealedRes, hsealed, h⟩ := bind_eq_ok.mp h
  rw [orRefused_eq_ok] at hsender hct hsecret hprk hkey hnonce hgcm
  rw [orPanicked_eq_ok] at hsealed
  cases h
  exact ⟨rfl, rfl, hreq, ⟨snd, ct, hsender, hct, List.append_assoc .., hsecret⟩,
    prk, gcm, sealedRes, hprk, hkey, hnonce, hgcm, hsealed, rfl⟩

/-- What Go encrypts under the keys of a response, the sidecar's suite seals to the same
bytes. -/
theorem sealedBytes_of_go (hgo : go.StandardRule lib) {secret salt prk key nonce pt ct : Bytes}
    {gcm : go.Gcm} (hprk : go.hkdfExtract secret salt = some prk)
    (hkey : go.hkdfExpand prk (ascii "key") 32 = some key)
    (hnonce : go.hkdfExpand prk (ascii "nonce") 12 = some nonce)
    (hgcm : go.newGCM key = some gcm) (hct : go.gcmSeal gcm nonce pt = some ct) :
    sealedBytes lib (confidentialSuite lib) salt secret pt = some ct := by
  obtain ⟨k, hk, rfl⟩ := hgo.hkdf _ _ _ _ _ _ hprk hkey
  obtain ⟨n, hn, rfl⟩ := hgo.hkdf _ _ _ _ _ _ hprk hnonce
  obtain ⟨c, hc, hseals⟩ := hgo.gcm k gcm hgcm
  obtain ⟨n', tag, hn', htag, rfl⟩ := hseals _ _ _ hct
  -- the suite asks for a key of the size of its cipher
  have hsize := expand_keySize lib (lib.hkdf.extract salt secret)
  rw [hk] at hsize
  obtain ⟨k', hk', hbytes⟩ := Option.map_eq_some_iff.mp hsize
  have hschedule : responseKey lib (confidentialSuite lib) salt secret = some (c, n') := by
    refine Option.bind_eq_some_iff.mpr ⟨k', hk', ?_⟩
    refine Option.bind_eq_some_iff.mpr ⟨n, hn, ?_⟩
    refine Option.bind_eq_some_iff.mpr ⟨c, hbytes ▸ hc, ?_⟩
    exact Option.bind_eq_some_iff.mpr ⟨n', hn', rfl⟩
  refine Option.bind_eq_some_iff.mpr ⟨(c, n'), hschedule, ?_⟩
  exact Option.bind_eq_some_iff.mpr ⟨tag, htag, rfl⟩

end Vectors

/-- **Every vector the generator makes holds of the sidecar.**  Take the key of any signing
state, any request and response, and any randomness.  The vector has the secret of the state
and the Montgomery form of its key.  The sidecar opens its encapsulated request to its
request, with its secret, and sealing its response under its nonce gives its encapsulated
response, byte for byte.  The request decodes to its parts, when it is admitted and its
content has a type, and is refused otherwise: the second of the vectors that were made is one
that is not admitted. -/
theorem generated_vector_holds (lib : Crates) (go : Generator.GoCrypto) (hgo : go.StandardRule lib)
    (curve : KeyCurve) (hcurve : CurveRule lib curve go.sum512) (hm : lib.http.MethodRule)
    (hv : lib.http.ValueRule) (hr : lib.bhttp.ReadRule) (signer : SigningState lib)
    (xPriv : go.PrivateKey)
    (hx : go.newPrivateKey (Generator.clampedScalar go signer.signingKey.bytes).bytes = some xPriv)
    (rng : Bytes) (nonce : Block 32) (req : Generator.InnerRequest) (res : Generator.InnerResponse)
    (v : Generator.Envelope) (h : Generator.sealEnvelope go xPriv rng nonce req res = .ok v) :
    v.skR = signer.kemSecret.bytes ∧
    v.pkR = (lib.ed25519.toMontgomery signer.pubkeyBytes).bytes ∧
    (∃ ctx, signer.openRequest v.encapsulatedRequest = .ok (v.bhttpRequest, ctx) ∧
      ctx.secret.bytes = v.exportSecret ∧
      ctx.sealPlaintext nonce v.bhttpResponse = .ok v.encapsulatedResponse) ∧
    (Admitted ⟨req.method, req.scheme, req.authority, req.path, req.fields, req.body, []⟩ →
      decodeInner lib v.bhttpRequest =
        if req.body ≠ [] ∧ contentTypes req.fields = [] then .error .unsupportedMediaType
        else .ok (Client.innerRequest req.method req.path req.fields req.body)) ∧
    (¬ Admitted ⟨req.method, req.scheme, req.authority, req.path, req.fields, req.body, []⟩ →
      decodeInner lib v.bhttpRequest = .error .badRequest) := by
  rw [clampedScalar_eq_deriveKemSecret hcurve, ← signer.kemSecret_eq] at hx
  obtain ⟨hskR, hpkR, hreq, ⟨snd, ct, hsender, hct, hencapsulated, hsecret⟩,
    prk, gcm, ct', hprk, hkey, haeadNonce, hgcm, hct', hres⟩ := sealEnvelope_ok h
  obtain ⟨hbytes, sk, hsk, hpk⟩ := hgo.key _ _ hx
  have hchecked : publicKey lib signer.kemSecret =
      some (lib.ed25519.toMontgomery signer.pubkeyBytes) := of_decide_eq_true signer.kem_checked
  rw [publicKey, hsk, Option.map_some, Option.some.injEq] at hchecked
  -- the request
  obtain ⟨enc, e, rcv, henc, hencapped, hrcv, hopens, hexports⟩ :=
    hgo.sender _ _ _ _ _ _ _ hx hsk hsender
  obtain ⟨hopen, hlen⟩ := hopens _ _ _ hct
  obtain ⟨secret, hexport, hsecret'⟩ := hexports _ _ _ hsecret
  rw [← henc] at hencapped hencapsulated hprk
  have hopened : signer.openRequest v.encapsulatedRequest = .ok (v.bhttpRequest,
      ⟨enc, Block.padded 32 secret.bytes, 32, sealResponse lib (confidentialSuite lib)⟩) := by
    rw [hencapsulated]
    exact openEnvelope_of_receiver (S := confidentialSuite lib) (Nat.le_refl 32) hsk hencapped hrcv
      hexport hopen hlen
  have hpadded : (Block.padded 32 secret.bytes).bytes = secret.bytes :=
    Block.padded_bytes secret.size
  refine ⟨hskR.trans hbytes, ?_, ⟨_, hopened, hpadded.trans hsecret', ?_⟩, ?_⟩
  · rw [hpkR, ← hpk, hchecked]
  · -- the response
    have hof := ofSuite_of_openRequest hopened
    have htake : secret.bytes.take 32 = secret.bytes :=
      List.take_of_length_le (Nat.le_of_eq secret.size)
    rw [ResponseContext.sealPlaintext, hof.sealWithNonce nonce.size, ResponseContext.ciphertext]
    dsimp only
    rw [hpadded, htake, hsecret', sealedBytes_of_go hgo hprk hkey haeadNonce hgcm hct', hres]
    rfl
  · rw [Generator.encodeRequest_eq] at hreq
    split at hreq
    · rename_i hencodable
      rw [← Except.ok.inj hreq]
      exact decodeInner_writeRequest hm hv hr (hencodable.mono (by decide))
    · cases hreq

namespace KnownAnswers

/-- Go's packages on the vector. -/
def goCrypto : Generator.GoCrypto where
  PrivateKey := Block 32
  PublicKey := Block 32
  Sender := SenderContext
  Recipient := ReceiverContext
  Gcm := Block 32
  sum512 := sha512
  newPrivateKey := keyFromBytes
  privateKeyBytes := Block.bytes
  publicKey x := kem.skToPk x
  publicKeyBytes := Block.bytes
  newSender _ _ rng := some ((Block.padded 32 rng).bytes, sender)
  sealFirst snd aad pt := snd.sealFirst pt aad
  exportSecret snd label n := (snd.exportSecret label n).map Block.bytes
  newRecipient _ _ _ := some receiver
  openFirst rcv aad ct := rcv.openFirst ct aad
  hkdfExtract _ _ := some prk
  hkdfExpand _ info n := (hkdf.expand prk info n).map Block.bytes
  newGCM := keyFromBytes
  gcmSeal _ nonce pt := if nonce.length = 12 then some (responseAead.wrap pt) else none

theorem keyFromBytes_eq_some {bs : Bytes} {k : Block 32} (h : keyFromBytes bs = some k) :
    k.bytes = bs := by
  unfold keyFromBytes at h
  split at h
  · cases h
    rfl
  · cases h

theorem goCrypto_standard : goCrypto.StandardRule crates where
  key bs x h := ⟨keyFromBytes_eq_some h, x, h, rfl⟩
  sender bs x sk info rng enc snd _ _ h := by
    obtain ⟨rfl, rfl⟩ := Prod.mk.inj (Option.some.inj h)
    refine ⟨Block.padded 32 rng, _, receiver, rfl, keyFromBytes_bytes _, rfl, ?_, ?_⟩
    · intro pt aad ct hct
      obtain rfl := Option.some.inj hct
      exact ⟨requestAead.unwrap_wrap pt, requestAead.length_wrap pt⟩
    · intro label n secret hsecret
      obtain rfl := Option.some.inj hsecret
      exact ⟨_, rfl, rfl⟩
  hkdf secret salt prk' info n okm hprk hexpand := by
    obtain rfl := Option.some.inj hprk
    exact Option.map_eq_some_iff.mp hexpand
  gcm key g h := by
    refine ⟨g, h, ?_⟩
    intro nonce pt ct hct
    simp only [goCrypto] at hct
    split at hct
    · rename_i hlen
      obtain rfl := Option.some.inj hct
      exact ⟨⟨nonce, hlen⟩, _, dif_pos hlen, rfl, (List.take_append_drop ..).symm⟩
    · cases hct

end KnownAnswers

open KnownAnswers in
/-- The generator makes the vector, and the sidecar reproduces it.  It makes a second one, of a
request whose path is not one, and the sidecar refuses its message. -/
theorem generated_vector_holds_vector :
    (∃ v, Generator.sealEnvelope goCrypto skR enc.bytes responseNonce
        ⟨ascii "POST", ascii "https", ascii "localhost", ascii "/", jsonFields, rpcRequest⟩
        ⟨200, jsonFields, rpcResponse⟩ = .ok v ∧
      v.encapsulatedRequest = encapsulatedRequest ∧ v.encapsulatedResponse = encapsulatedResponse ∧
      v.skR = signer.kemSecret.bytes ∧
      ∃ ctx, signer.openRequest encapsulatedRequest = .ok (KnownAnswers.bhttpRequest, ctx) ∧
        ctx.sealPlaintext responseNonce bhttpResponse = .ok encapsulatedResponse) ∧
    ∃ v, Generator.sealEnvelope goCrypto skR enc.bytes responseNonce
        ⟨ascii "POST", ascii "https", ascii "localhost", ascii "@evil.example/x", jsonFields,
          rpcRequest⟩
        ⟨400, [⟨ascii "content-type", ascii "application/problem+json"⟩],
          InnerError.badRequest.body⟩ = .ok v ∧
      decodeInner crates v.bhttpRequest = .error .badRequest := by
  have hkey : keyFromBytes (Generator.clampedScalar goCrypto testSeed.bytes).bytes = some skR := by
    decide +kernel
  constructor
  · have hmade : Generator.sealEnvelope goCrypto skR enc.bytes responseNonce
        ⟨ascii "POST", ascii "https", ascii "localhost", ascii "/", jsonFields, rpcRequest⟩
        ⟨200, jsonFields, rpcResponse⟩ =
        .ok ⟨skR.bytes, pkR.bytes, KnownAnswers.bhttpRequest, Generator.hdr,
          ascii "message/bhttp request" ++ 0x00 :: Generator.hdr, enc.bytes, encapsulatedRequest,
          (Block.padded 32 exportSecret).bytes, bhttpResponse, responseNonce.bytes, aeadKey,
          aeadNonce, encapsulatedResponse⟩ := by
      decide +kernel
    obtain ⟨hskR, -, ⟨ctx, hopen, -, hseal⟩, -⟩ := generated_vector_holds crates goCrypto
      goCrypto_standard curve curve_keys http_methods http_values bhttp_reads signer skR hkey
      _ _ _ _ _ hmade
    exact ⟨_, hmade, rfl, rfl, hskR, ctx, hopen, hseal⟩
  · have hmade : (Generator.sealEnvelope goCrypto skR enc.bytes responseNonce
        ⟨ascii "POST", ascii "https", ascii "localhost", ascii "@evil.example/x", jsonFields,
          rpcRequest⟩
        ⟨400, [⟨ascii "content-type", ascii "application/problem+json"⟩],
          InnerError.badRequest.body⟩).toOption.isSome = true := by
      decide +kernel
    obtain ⟨v, hv⟩ := exists_ok hmade
    obtain ⟨-, -, -, -, hrefused⟩ := generated_vector_holds crates goCrypto goCrypto_standard curve
      curve_keys http_methods http_values bhttp_reads signer skR hkey _ _ _ _ v hv
    refine ⟨v, hv, hrefused (fun hadmitted => ?_)⟩
    exact absurd hadmitted.acceptable.slash (by decide)

end VrpcSidecar
