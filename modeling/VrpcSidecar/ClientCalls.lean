import VrpcSidecar.ClientMessages
import VrpcSidecar.OutcomeRecords

/-! # A client's call

The client of the integration tests.  It maps the attested key to the KEM, writes its request
and seals it; it opens the body of a response and reads a message.  Each step panics where it
fails.

Its envelope is that of the protocol (`Client.outerRequest_ok`, `Client.readAnswer_ok`), and
what it reads in a sealed answer is what the node answered to the very request it wrote, or a
problem document (`SealedAnswer.reads`).
-/
namespace VrpcSidecar
open BinaryHttp

/-! ## The client -/

/-- What the client uses beside the crates it shares with the sidecar. -/
structure ClientCrates (lib : Crates) where
  /-- `VerifyingKey::from_bytes`. -/
  verifyingKeyFromBytes : Bytes → Option (Block 32)
  /-- `PublicKey::from_bytes` of the KEM. -/
  publicKeyFromBytes : Bytes → Option lib.kem.PublicKey
  /-- `Message::read_bhttp`. -/
  readBhttp : Bytes → Option Message

/-- Keys read back, and so does a final response without cookies, which `bhttp` would
join. -/
structure ClientCrates.Rules {lib : Crates} (client : ClientCrates lib) : Prop where
  verifyingKey : ∀ seed, client.verifyingKeyFromBytes (lib.ed25519.verifyingKey seed).bytes =
    some (lib.ed25519.verifyingKey seed)
  publicKey : ∀ pk, client.publicKeyFromBytes (lib.kem.publicKeyToBytes pk).bytes = some pk
  response : ∀ s m, readResponse s = some m → withoutCookies m.header = m.header →
    m.trailer = [] → client.readBhttp s = some m

namespace Client

/-- `ConfidentialClient`: what the client keeps of its request. -/
structure ConfidentialClient where
  enc : Bytes
  secret : Block 32

/-- `InnerResponseParts`: the status, the fields and the content. -/
abbrev InnerResponseParts := Nat × List Field × Bytes

/-- `CONFIDENTIAL_HDR`. -/
def confidentialHdr : Bytes := [0x00, 0x00, 0x20, 0x00, 0x01, 0x00, 0x02]

/-- `confidential_info`. -/
def confidentialInfo : Bytes := ascii "message/bhttp request" ++ 0x00 :: confidentialHdr

section Steps
variable (lib : Crates) (client : ClientCrates lib)

/-- `confidential_pk_r`. -/
def confidentialPkR (signingPubkey : Block 32) : Fallible (Block 32) := do
  let key ← orPanicked (client.verifyingKeyFromBytes signingPubkey.bytes)
  return lib.ed25519.toMontgomery key

/-- `seal_confidential`, the randomness explicit. -/
def sealConfidential (pkR : Block 32) (rng bhttp : Bytes) :
    Fallible (Bytes × ConfidentialClient) := do
  let pk ← orPanicked (client.publicKeyFromBytes pkR.bytes)
  let (enc, ctx) ← orPanicked (lib.hpkeAesGcm256.setupSender pk confidentialInfo rng)
  let ct ← orPanicked (ctx.sealFirst bhttp [])
  let secret ← orPanicked (ctx.exportSecret (ascii "message/bhttp response") 32)
  let enc := (lib.kem.encappedKeyToBytes enc).bytes
  return (confidentialHdr ++ enc ++ ct, ⟨enc, secret⟩)

/-- `open_confidential`. -/
def openConfidential (c : ConfidentialClient) (body : Bytes) : Fallible Bytes := do
  -- the assertion on the length is the check of `split_at`
  let (nonce, ct) ← splitAt body 32
  let salt := c.enc ++ nonce
  let prk := lib.hkdf.extract salt c.secret.bytes
  let key ← orPanicked ((lib.hkdf.expand prk (ascii "key") 32).map Block.bytes)
  let aeadNonce ← orPanicked ((lib.hkdf.expand prk (ascii "nonce") 12).map Block.bytes)
  let cipher ← orPanicked (lib.aes256Gcm.newFromSlice key)
  let aeadNonce ← orPanicked (lib.aes256Gcm.nonceTryFrom aeadNonce)
  orPanicked (lib.aes256Gcm.decrypt cipher aeadNonce [] ct)

variable {lib}

/-- `inner_response`. -/
def innerResponse (plaintext : Bytes) : Fallible InnerResponseParts := do
  let msg ← orPanicked (client.readBhttp plaintext)
  match msg.control with
  | .response status => .ok (status, msg.header, msg.content)
  | .request _ _ _ _ => .error .panicked

/-- What the client posts: its request, sealed to the attested key. -/
def outerRequest (signingPubkey : Block 32) (rng method path : Bytes) (fields : List Field)
    (body : Bytes) : Fallible (Bytes × ConfidentialClient) := do
  let plaintext ← bhttpRequest method path fields body
  let pkR ← confidentialPkR lib client signingPubkey
  sealConfidential lib client pkR rng plaintext

/-- What the client reads in the body of a response. -/
def readAnswer (c : ConfidentialClient) (body : Bytes) : Fallible InnerResponseParts := do
  let plaintext ← openConfidential lib c body
  innerResponse client plaintext

end Steps

end Client

/-! ## Its envelope is that of the protocol -/

section Envelope
variable {lib : Crates} {client : ClientCrates lib} {signer : SigningState lib}
  {c : Client.ConfidentialClient}

/-- **What the client keeps of its request** is its encapsulated key and its secret. -/
structure Client.ConfidentialClient.Keeps (c : Client.ConfidentialClient)
    (enc : lib.kem.EncappedKey) (snd : SenderContext) : Prop where
  enc : c.enc = (lib.kem.encappedKeyToBytes enc).bytes
  secret : snd.exportSecret (ascii "message/bhttp response") 32 = some c.secret

/-- Setting up a sender and sealing encapsulates. -/
theorem encapsulate_eq_some {pk : lib.kem.PublicKey} {rng plaintext ct : Bytes}
    {enc : lib.kem.EncappedKey} {snd : SenderContext}
    (hsetup : lib.hpkeAesGcm256.setupSender pk
      (ascii "message/bhttp request" ++ 0x00 :: (confidentialSuite lib).hdr.bytes) rng =
        some (enc, snd)) (hct : snd.sealFirst plaintext [] = some ct) :
    encapsulate lib (confidentialSuite lib) pk rng plaintext =
      some ((confidentialSuite lib).hdr.bytes ++ (lib.kem.encappedKeyToBytes enc).bytes ++ ct, enc,
        snd) := by
  have hsetup' : (confidentialSuite lib).hpke.setupSender pk
      (ascii "message/bhttp request" ++ 0x00 :: (confidentialSuite lib).hdr.bytes) rng =
        some (enc, snd) := hsetup
  rw [encapsulate]
  dsimp only
  rw [hsetup', Option.bind_eq_bind, Option.bind_some]
  dsimp only
  rw [hct, List.append_assoc]
  rfl

/-- The key size of the cipher, which the clients write out. -/
theorem expand_keySize (lib : Crates) (prk : Bytes) :
    (lib.hkdf.expand prk (ascii "key") lib.aes256Gcm.keySize).map Block.bytes =
      (lib.hkdf.expand prk (ascii "key") 32).map Block.bytes := by
  rw [lib.aes256Gcm_keySize]

/-- The attested key leads to the key of the KEM. -/
theorem confidentialPkR_eq (hrules : client.Rules) (signer : SigningState lib) :
    ∃ sk, lib.kem.privateKeyFromBytes signer.kemSecret.bytes = some sk ∧
      Client.confidentialPkR lib client signer.pubkeyBytes =
        .ok (lib.kem.publicKeyToBytes (lib.kem.skToPk sk)) := by
  have hchecked : publicKey lib signer.kemSecret =
      some (lib.ed25519.toMontgomery signer.pubkeyBytes) := of_decide_eq_true signer.kem_checked
  obtain ⟨sk, hsk, hbytes⟩ := Option.map_eq_some_iff.mp hchecked
  refine ⟨sk, hsk, ?_⟩
  have hkey : client.verifyingKeyFromBytes signer.pubkeyBytes.bytes = some signer.pubkeyBytes :=
    hrules.verifyingKey signer.signingKey
  rw [Client.confidentialPkR, hkey, hbytes]
  rfl

/-- **The client encapsulates its request to the key of the sidecar.** -/
theorem Client.outerRequest_ok (hrules : client.Rules) {rng method path body outer : Bytes}
    {fields : List Field}
    (h : Client.outerRequest client signer.pubkeyBytes rng method path fields body =
      .ok (outer, c)) :
    ∃ plaintext enc snd, Client.bhttpRequest method path fields body = .ok plaintext ∧
      Encapsulated signer plaintext outer enc snd ∧ c.Keeps enc snd := by
  obtain ⟨plaintext, hwritten, h⟩ := bind_eq_ok.mp h
  obtain ⟨sk, hsk, hpkR⟩ := confidentialPkR_eq hrules signer
  rw [hpkR, ok_bind, Client.sealConfidential] at h
  obtain ⟨pk, hpk, h⟩ := bind_eq_ok.mp h
  rw [orPanicked_eq_ok, hrules.publicKey] at hpk
  cases hpk
  obtain ⟨⟨enc, snd⟩, hsetup, h⟩ := bind_eq_ok.mp h
  obtain ⟨ct, hct, h⟩ := bind_eq_ok.mp h
  obtain ⟨secret, hsecret, h⟩ := bind_eq_ok.mp h
  rw [orPanicked_eq_ok] at hsetup hct hsecret
  cases h
  exact ⟨plaintext, enc, snd, hwritten, ⟨sk, rng, hsk, encapsulate_eq_some hsetup hct⟩, rfl, hsecret⟩

/-- **The client opens a response as the protocol says.** -/
theorem Client.openConfidential_ok (hn : lib.aes256Gcm.nonceSize = 12)
    {enc : lib.kem.EncappedKey} {snd : SenderContext} (hkeeps : c.Keeps enc snd)
    {response plaintext : Bytes} (hlen : 32 ≤ response.length)
    (h : clientOpen lib (confidentialSuite lib) enc snd response = some plaintext) :
    Client.openConfidential lib c response = .ok plaintext := by
  have hnonce : ∀ prk, (lib.hkdf.expand prk (ascii "nonce") lib.aes256Gcm.nonceSize).map
      Block.bytes = (lib.hkdf.expand prk (ascii "nonce") 12).map Block.bytes := by
    intro prk
    rw [hn]
  have hsecret : snd.exportSecret (ascii "message/bhttp response")
      (confidentialSuite lib).secretLen = some c.secret := hkeeps.secret
  simp only [clientOpen, hsecret, ← hkeeps.enc, Option.bind_eq_bind] at h
  obtain ⟨secret, hsecret', h⟩ := Option.bind_eq_some_iff.mp h
  obtain rfl : c.secret = secret := Option.some.inj hsecret'
  obtain ⟨key, hk, h⟩ := Option.bind_eq_some_iff.mp h
  obtain ⟨n, hn', h⟩ := Option.bind_eq_some_iff.mp h
  obtain ⟨cipher, hc, h⟩ := Option.bind_eq_some_iff.mp h
  obtain ⟨aeadNonce, ha, hopen⟩ := Option.bind_eq_some_iff.mp h
  have hk' := (expand_keySize lib _).symm.trans hk
  have hn'' := (hnonce _).symm.trans hn'
  have hsplit : splitAt response 32 = .ok (response.take 32, response.drop 32) := if_pos hlen
  rw [Client.openConfidential, hsplit, ok_bind]
  refine bind_eq_ok.mpr ⟨key, orPanicked_eq_ok.mpr hk', ?_⟩
  refine bind_eq_ok.mpr ⟨n, orPanicked_eq_ok.mpr hn'', ?_⟩
  refine bind_eq_ok.mpr ⟨cipher, orPanicked_eq_ok.mpr hc, ?_⟩
  refine bind_eq_ok.mpr ⟨aeadNonce, orPanicked_eq_ok.mpr ha, ?_⟩
  exact orPanicked_eq_ok.mpr hopen

/-- A final response without cookies is read as its parts. -/
theorem Client.innerResponse_ok (hrules : client.Rules) {plaintext content : Bytes} {status : Nat}
    {contentType : List HeaderValue}
    (h : readResponse plaintext = some (responseMessage status contentType content)) :
    Client.innerResponse client plaintext =
      .ok (status, contentTypeFields contentType, content) := by
  have hcookies : withoutCookies (responseMessage status contentType content).header =
      (responseMessage status contentType content).header := by
    apply List.filter_eq_self.mpr
    intro f hf
    obtain ⟨v, -, rfl⟩ := List.mem_map.mp hf
    rfl
  rw [Client.innerResponse, hrules.response _ _ h hcookies rfl]
  rfl

/-- **The client reads what the protocol says** in a body that was sealed for it. -/
theorem Client.readAnswer_ok (hrules : client.Rules) (hn : lib.aes256Gcm.nonceSize = 12)
    {enc : lib.kem.EncappedKey} {snd : SenderContext} (hkeeps : c.Keeps enc snd)
    {response content : Bytes} {status : Nat} {contentType : List HeaderValue}
    (hlen : 32 ≤ response.length)
    (h : clientReads lib enc snd response = some (responseMessage status contentType content)) :
    Client.readAnswer client c response =
      .ok (status, contentTypeFields contentType, content) := by
  obtain ⟨plaintext, hopen, hread⟩ := Option.bind_eq_some_iff.mp h
  rw [Client.readAnswer, Client.openConfidential_ok hn hkeeps hlen hopen, ok_bind]
  exact Client.innerResponse_ok hrules hread

end Envelope

/-! ## What it reads -/

/-- The request the sidecar serves for what the client writes. -/
def Client.innerRequest (method path : Bytes) (fields : List Field) (body : Bytes) : InnerRequest :=
  ⟨method, path, (contentTypes fields).head?, accepts fields, body⟩

/-- What is admitted and typed is decoded. -/
theorem Client.decode_innerRequest {lib : Crates} (hm : lib.http.MethodRule)
    (hv : lib.http.ValueRule) (hr : lib.bhttp.ReadRule) {method path body p : Bytes}
    {fields : List Field} (hp : Client.bhttpRequest method path fields body = .ok p)
    (hadmitted : Admitted ⟨method, ascii "https", ascii "localhost", path, fields, body, []⟩)
    (htyped : body = [] ∨ contentTypes fields ≠ []) :
    decodeInner lib p = .ok (Client.innerRequest method path fields body) := by
  rw [Client.bhttpRequest_eq] at hp
  split at hp
  · rename_i hencodable
    cases hp
    rw [(decodeInner_writeRequest hm hv hr (hencodable.mono (by decide))).1 hadmitted,
      if_neg]
    · rfl
    · rintro ⟨hbody, hnone⟩
      exact htyped.elim hbody (fun hsome => hsome hnone)
  · cases hp

section Answers
variable {lib : Crates} {up : UpstreamClient} {signer : SigningState lib}
  {cfg : ConfidentialConfig} {env : Env} {req : Request} {client : ClientCrates lib}
  {c : Client.ConfidentialClient} {plaintext : Bytes} {enc : lib.kem.EncappedKey}
  {snd : SenderContext}

/-- **What is read in an answer to an inner request**: what the node answered to it, or a
problem document; a refusal is one without a request to the node. -/
inductive AnswerTo (lib : Crates) (up : UpstreamClient) (signer : SigningState lib)
    (cfg : ConfidentialConfig) (env : Env) (req : Request) (inner : InnerRequest) :
    Client.InnerResponseParts → Prop where
  | node {uri : Uri} {upResp : Incoming} (hguards : Guards lib up signer cfg env req inner uri)
      (hanswered : (env.upstream (guardedRequest inner uri)).2 = some upResp) :
      AnswerTo lib up signer cfg env req inner (upResp.status.code,
        contentTypeFields (upResp.headers.getAll .contentType), upResp.body.content)
  | problem (e : InnerError)
      (hrefusal : e.IsRefusal → sends (exchange lib up signer cfg env req).log = []) :
      AnswerTo lib up signer cfg env req inner
        (e.status, contentTypeFields [ascii "application/problem+json"], e.body)

/-- A sealed answer holds a nonce. -/
theorem SealedAnswer.le_length {resp : Response} (h : SealedAnswer lib up signer cfg env req resp) :
    32 ≤ resp.body.length := by
  obtain ⟨_, _, nonce, _, _, _, -, -, -, -, _, ct, -, -, hbody⟩ := h
  rw [hbody, List.length_append, nonce.size]
  omega

/-- **The client reads every sealed answer to its request.** -/
theorem SealedAnswer.reads (hv : lib.http.ValueRule) (hstatus : lib.bhttp.StatusRule)
    (hwrite : lib.bhttp.WriteRule) (hsuite : SuiteRules lib) (hrules : client.Rules)
    {resp : Response} (h : SealedAnswer lib up signer cfg env req resp)
    (henc : Encapsulated signer plaintext req.body.content enc snd) (hkeeps : c.Keeps enc snd)
    {inner : InnerRequest} (hinner : ∀ inner', decodeInner lib plaintext = .ok inner' → inner' = inner) :
    ∃ parts, Client.readAnswer client c resp.body = .ok parts ∧
      AnswerTo lib up signer cfg env req inner parts := by
  have hlen := h.le_length
  obtain ⟨plaintext', ctx, nonce, call, answer, signed, ha, -, -, -, encoded, ct, hin, hct, hbody⟩ := h
  have hreads : clientReads lib enc snd resp.body = readResponse encoded := by
    rw [hbody]
    exact henc.clientReads_eq hsuite ha.reached.opened hct
  obtain ⟨-, msg, hok, hencoding⟩ | ⟨e, hclass, -, hproblem⟩ := innerAnswer_cases hin
  · -- the answer of the node, encoded
    obtain ⟨hfinal, -⟩ := runInner_status ha.called hok
    obtain ⟨upReq, upResp, hsent, hanswer, hcode, rfl⟩ := ha.reached.relays hstatus ha.called hok
    obtain ⟨hvec, -⟩ := Option.filter_eq_some_iff.mp hencoding
    rw [hcode] at hfinal
    have hmem : upReq ∈ sends (exchange lib up signer cfg env req).log := by
      rw [hsent]
      exact List.mem_singleton_self _
    obtain ⟨inner', uri, hg, rfl⟩ := (sends_exchange hv).mp hmem
    obtain ⟨opened, ctx', hopened, hdecode⟩ := hg.opened
    obtain ⟨ctx'', hopen, -⟩ := henc.opens hsuite
    cases Except.ok.inj (hopen.symm.trans hopened)
    obtain rfl := hinner inner' hdecode
    refine ⟨_, Client.readAnswer_ok hrules hsuite.nonceSize hkeeps hlen ?_, .node hg hanswer⟩
    rw [hreads]
    exact readResponse_writeToVec hwrite hfinal hvec
  · have hanswer : problemAnswer lib e = some (e.outcome, e.status, encoded) := by
      rw [problemAnswer, hproblem.2]
      rfl
    refine ⟨_, Client.readAnswer_ok hrules hsuite.nonceSize hkeeps hlen
      (hreads.trans (problemAnswer_reads hstatus hwrite hanswer)), .problem e fun he => ?_⟩
    exact ha.sends_nil he hclass

end Answers

end VrpcSidecar
