import VrpcSidecar.EnvelopeRoundTrip
import VrpcSidecar.UpstreamGuard

/-! # The relayed answer as the client reads it

The node's answer passes through the frame loop, the message builder, the encoder and
the sealing, and then through another program: a client that opens the sealed body
with the keys of its request and reads a known-length Binary HTTP response.  Over the
whole way the client gets the node's status, its content types and its data, however
the data was framed, and nothing else (`faithful_relay`).  Problem documents of the
sidecar take a second, separately written way through an encoder and a sealing, with
the same bytes as a result (`sealInPlace_iff`).
-/
namespace VrpcSidecar
open BinaryHttp

/-! ## The client -/

/-- The documented behaviour of the cryptography of the route. -/
structure SuiteRules (lib : Crates) : Prop where
  hpke : lib.hpkeAesGcm256.MatchRule
  hkdf : lib.hkdf.ExpandRule
  aead : lib.aes256Gcm.AeadRule
  nonceSize : lib.aes256Gcm.nonceSize = 12
  tagSize : lib.aes256Gcm.tagSize = 16

/-- **The client encapsulated `plaintext` to the key of the sidecar**: it sent `body`, and
keeps the encapsulated key and its context. -/
def Encapsulated {lib : Crates} (signer : SigningState lib) (plaintext body : Bytes)
    (enc : lib.kem.EncappedKey) (snd : SenderContext) : Prop :=
  ∃ sk rng, lib.kem.privateKeyFromBytes signer.kemSecret.bytes = some sk ∧
    encapsulate lib (confidentialSuite lib) (lib.kem.skToPk sk) rng plaintext =
      some (body, enc, snd)

/-- **What the client gets from a sealed body**: it opens it and reads a response. -/
def clientReads (lib : Crates) (enc : lib.kem.EncappedKey) (snd : SenderContext)
    (response : Bytes) : Option Message :=
  (clientOpen lib (confidentialSuite lib) enc snd response).bind readResponse

section Client
variable {lib : Crates} {signer : SigningState lib} {plaintext body : Bytes}
  {enc : lib.kem.EncappedKey} {snd : SenderContext}

theorem clientReads_of_open {response q : Bytes}
    (h : clientOpen lib (confidentialSuite lib) enc snd response = some q) :
    clientReads lib enc snd response = readResponse q := by
  rw [clientReads, h, Option.bind_some]

/-- The sidecar opens what the client encapsulated, the client opens what is encrypted
under the context the sidecar gets, and encrypting succeeds up to the limit. -/
theorem Encapsulated.opens (hsuite : SuiteRules lib)
    (h : Encapsulated signer plaintext body enc snd) :
    ∃ ctx, signer.openRequest body = .ok (plaintext, ctx) ∧
      ctx.OfSuite lib (confidentialSuite lib) ∧
      (∀ (nonce : Block 32) (q ct : Bytes),
        ctx.ciphertext lib (confidentialSuite lib) nonce.bytes q = some ct →
        clientOpen lib (confidentialSuite lib) enc snd (nonce.bytes ++ ct) = some q ∧
          ct.length = q.length + 16) ∧
      ∀ (nonce : Block 32) (q : Bytes), q.length ≤ lib.aes256Gcm.limit →
        ∃ ct, ctx.ciphertext lib (confidentialSuite lib) nonce.bytes q = some ct := by
  obtain ⟨sk, rng, hsk, henc⟩ := h
  have hs : (confidentialSuite lib).secretLen ≤ 32 := Nat.le_refl 32
  have hk : (confidentialSuite lib).gcm.keySize ≤ 32 := Nat.le_of_eq lib.aes256Gcm_keySize
  obtain ⟨secret, hsec, hopen⟩ := openEnvelope_encapsulate (S := confidentialSuite lib) hsuite.hpke
    hs hsk henc
  have hof := ofSuite_of_openRequest hopen
  refine ⟨_, hopen, hof, fun nonce q ct hct => ?_, fun nonce q hq => ?_⟩
  · have hn : nonce.bytes.length = (confidentialSuite lib).secretLen := nonce.size
    have hseal := hof.sealWithNonce hn q
    rw [hct] at hseal
    obtain ⟨hclient, hlen⟩ := clientOpen_sealWithNonce (S := confidentialSuite lib) hsuite.aead hs hk
      hsuite.nonceSize hsuite.tagSize hsec hn hseal
    refine ⟨hclient, ?_⟩
    rw [List.length_append, hn] at hlen
    omega
  · exact sealedBytes_some (S := confidentialSuite lib) hsuite.hkdf hsuite.aead hk hsuite.nonceSize
      _ _ hq

end Client

/-! ## The response of the node -/

/-- The size hint of a body is a lower bound of what it delivers, in a `u64`. -/
def BodyStream.HintRule (b : BodyStream) : Prop :=
  b.sizeHintLower ≤ b.content.length ∧ b.sizeHintLower < 2 ^ 64

/-- **An answer of the node that is relayed**: a final status, no coding but
`identity`, and a body received without an error and within the cap. -/
structure Relayable (cap : Nat) (resp : Incoming) : Prop where
  status : 200 ≤ resp.status.code ∧ resp.status.code ≤ 599
  codings : ∀ v ∈ resp.headers.getAll .contentEncoding, eqIgnoreCase v (ascii "identity") = true
  body : resp.body.Within cap

/-- The header fields of a response with these content types. -/
def contentTypeFields (values : List HeaderValue) : List Field :=
  values.map (fun v => ⟨ascii "content-type", v⟩)

/-- The answer of the node as a client reads it. -/
def nodeAnswer (resp : Incoming) : Message :=
  ⟨.response resp.status.code, contentTypeFields (resp.headers.getAll .contentType),
    resp.body.content, []⟩

section Node
variable {lib : Crates} {env : Env} {cap : Nat} {upReq : OutRequest} {resp : Incoming}

theorem Relayable.head (h : Relayable cap resp) (hint : resp.body.HintRule) :
    refusesHead cap resp = false := by
  apply refusesHead_eq_false h.status h.codings
  have hle := h.body.1
  obtain ⟨hlower, hlt⟩ := hint
  unfold capAsU64
  split <;> omega

/-- **Reading a relayable answer** gives its status, its content types and its data,
whatever the frames. -/
theorem readUpstream_relayable (hstatus : lib.bhttp.StatusRule)
    (hresp : (env.upstream upReq).2 = some resp) (h : Relayable cap resp)
    (hint : resp.body.HintRule) :
    (readUpstream lib env cap upReq).result = some (.ok (resp.status.code, nodeAnswer resp)) := by
  have hcode := hstatus resp.status.code h.status.1 h.status.2
  have hframes : (readFrames cap resp.body).result = some (.ok resp.body.content) := by
    rw [result_readFrames, if_pos ⟨Or.inl h.body.1, h.body.2⟩]
  refine Run.result_andThen_eq_some.mpr ⟨_, result_send env upReq, ?_⟩
  rw [hresp]
  dsimp only
  rw [h.head hint, if_neg Bool.false_ne_true, hcode]
  exact Run.result_andThen_eq_some.mpr ⟨_, hframes, rfl⟩

/-- What the encoder writes for a response reads back as that response. -/
theorem readResponse_writeToVec (hwrite : lib.bhttp.WriteRule) {status : Nat}
    {contentType : List HeaderValue} {content encoded : Bytes} (hfinal : 200 ≤ status)
    (h : writeToVec lib (responseMessage status contentType content) = some encoded) :
    readResponse encoded = some (responseMessage status contentType content) := by
  unfold writeToVec at h
  rcases hw : lib.bhttp.writeBhttp (responseMessage status contentType content) with ⟨chunks, ok⟩
  rw [hw] at h
  cases ok with
  | false => cases h
  | true =>
    cases h
    have hnames : ∀ f ∈ contentTypeFields contentType, f.name ≠ [] := by
      intro f hf
      obtain ⟨v, -, rfl⟩ := List.mem_map.mp hf
      show ascii "content-type" ≠ []
      decide
    exact (hwrite.sound status (contentTypeFields contentType) content chunks hw hnames).read
      (by omega)

/-- The problem document of an error reads back as its status and its body. -/
theorem problemAnswer_reads (hstatus : lib.bhttp.StatusRule) (hwrite : lib.bhttp.WriteRule)
    {e : InnerError} {a : OutcomeClass × Nat × Bytes} (h : problemAnswer lib e = some a) :
    readResponse a.2.2 = some (responseMessage e.status [ascii "application/problem+json"] e.body) := by
  obtain ⟨encoded, henc, rfl⟩ := Option.map_eq_some_iff.mp h
  obtain ⟨status, hs, hvec⟩ := Option.bind_eq_some_iff.mp henc
  have hcode : lib.bhttp.statusTryFrom e.status = some e.status :=
    hstatus e.status e.status_mem.1 e.status_mem.2
  cases Option.some.inj (hcode.symm.trans hs)
  exact readResponse_writeToVec hwrite e.status_mem.1 hvec

end Node

/-! ## Encoding and sealing -/

/-- The lengths of an encoded answer are such that a varint, and a buffer with a nonce
and a tag around the answer, hold them. -/
structure InMemory (lib : Crates) (resp : Incoming) : Prop where
  representable : Representable (contentTypeFields (resp.headers.getAll .contentType))
    resp.body.content
  capacity : ∀ encoded, writeToVec lib (nodeAnswer resp) = some encoded →
    32 + encoded.length + 16 ≤ usizeMax

section Encoders
variable {lib : Crates} {ctx : ResponseContext}

/-- An answer in memory is encoded. -/
theorem InMemory.encoding (hwrite : lib.bhttp.WriteRule) {resp : Incoming}
    (h : InMemory lib resp) :
    ∃ encoded, writeToVec lib (nodeAnswer resp) = some encoded ∧
      VrpcSidecar.encoding lib (nodeAnswer resp) = some encoded := by
  have hok : (lib.bhttp.writeBhttp (nodeAnswer resp)).2 = true :=
    hwrite.complete resp.status.code _ _ (resp.status.le.trans_lt (by norm_num)) h.representable
  obtain ⟨encoded, hvec⟩ : ∃ encoded, writeToVec lib (nodeAnswer resp) = some encoded :=
    ⟨_, if_pos hok⟩
  refine ⟨encoded, hvec, ?_⟩
  rw [VrpcSidecar.encoding, hvec, Option.filter_some]
  exact if_pos (decide_eq_true (h.capacity encoded hvec))

/-- What is sealed for a relayed answer that could be encoded, and when it is classed
as one. -/
theorem innerAnswer_ok_iff {status : Nat} {msg : Message} {encoded : Bytes} {innerStatus : Nat} :
    innerAnswer lib (.ok (status, msg)) = some (.ok, innerStatus, encoded) ↔
      VrpcSidecar.encoding lib msg = some encoded ∧ innerStatus = status := by
  rw [innerAnswer]
  cases VrpcSidecar.encoding lib msg with
  | none =>
    simp only [reduceCtorEq, false_and, iff_false]
    intro h
    obtain ⟨_, -, he⟩ := Option.map_eq_some_iff.mp h
    cases he
  | some e =>
    simp only [Option.some.injEq, Prod.mk.injEq, true_and]
    constructor
    · rintro ⟨hstatus, hencoded⟩
      exact ⟨hencoded, hstatus.symm⟩
    · rintro ⟨hencoded, hstatus⟩
      exact ⟨hstatus.symm, hencoded⟩

/-- Encoding after the nonce and sealing in place, against encoding and then sealing. -/
theorem sealInPlace_iff (hof : ctx.OfSuite lib (confidentialSuite lib)) {status code : Nat}
    (hcode : lib.bhttp.statusTryFrom status = some code) (contentType : List HeaderValue)
    (content : Bytes) (nonce : Block 32) (out : Bytes) :
    (∃ buf, encodeWithNonce lib (responseMessage code contentType content) nonce = some buf ∧
      ctx.sealInPlace buf = (.ok (), out)) ↔
    ∃ encoded, encodeResponse lib ⟨status, contentType, content⟩ = some encoded ∧
      32 + encoded.length + 16 ≤ usizeMax ∧ ctx.sealPlaintext nonce encoded = .ok out := by
  have hn : nonce.bytes.length = (confidentialSuite lib).secretLen := nonce.size
  have hresponse : encodeResponse lib ⟨status, contentType, content⟩ =
      writeToVec lib (responseMessage code contentType content) := by
    rw [encodeResponse, hcode]
    rfl
  -- Both sides put the nonce before one ciphertext of the encoding.
  have hseal : ∀ encoded, ctx.sealInPlace (nonce.bytes ++ encoded) = (.ok (), out) ↔
      ctx.sealPlaintext nonce encoded = .ok out := by
    intro encoded
    rw [hof.sealInPlace hn, ResponseContext.sealPlaintext, hof.sealWithNonce hn]
    cases ctx.ciphertext lib (confidentialSuite lib) nonce.bytes encoded with
    | none => simp
    | some ct => simp
  rw [encodeWithNonce_eq, encoding, hresponse]
  constructor
  · rintro ⟨buf, hbuf, hout⟩
    obtain ⟨encoded, henc, rfl⟩ := Option.map_eq_some_iff.mp hbuf
    obtain ⟨hvec, hfits⟩ := Option.filter_eq_some_iff.mp henc
    exact ⟨encoded, hvec, of_decide_eq_true hfits, (hseal encoded).mp hout⟩
  · rintro ⟨encoded, hvec, hfits, hout⟩
    refine ⟨nonce.bytes ++ encoded, ?_, (hseal encoded).mpr hout⟩
    rw [hvec, Option.filter_some, if_pos (decide_eq_true hfits)]
    rfl

end Encoders

section Exchange
variable {lib : Crates} {up : UpstreamClient} {signer : SigningState lib}
  {cfg : ConfidentialConfig} {env : Env} {req : Request}

/-- **Where a relayed answer comes from**: it is the answer of the node to the one request
that was sent. -/
theorem Reached.relays (hstatus : lib.bhttp.StatusRule) {plaintext : Bytes}
    {ctx : ResponseContext} {nonce : Block 32} {call : InnerCall} {status : Nat} {msg : Message}
    (hr : Reached lib signer cfg env req plaintext ctx nonce)
    (hc : (runInner lib up cfg env plaintext).result = some call)
    (hresult : call.result = .ok (status, msg)) :
    ∃ upReq upResp, VrpcSidecar.sends (exchange lib up signer cfg env req).log = [upReq] ∧
      (env.upstream upReq).2 = some upResp ∧ status = upResp.status.code ∧
      msg = nodeAnswer upResp := by
  have hmem := runInner_status hc hresult
  rcases runInner_eq_some lib up cfg env hc with
    ⟨e, -, rfl⟩ | ⟨inner, -, -, rfl⟩ | ⟨inner, r, ms, hdecode, hbatch, hcall, rfl⟩
  · cases hresult
  · cases hresult
  · subst hresult
    obtain ⟨upReq, hreq, hread⟩ := callUpstream_ok hcall
    obtain ⟨resp, code, hans, -, hcode, -, -, hcodeEq, rfl⟩ := readUpstream_ok hread
    rw [hcodeEq] at hmem
    rw [hstatus _ hmem.1 hmem.2, Option.some.injEq] at hcode
    subst hcode
    refine ⟨upReq, resp, ?_, hans, hcodeEq, rfl⟩
    rw [hr.sends, guarded_eq_some.mpr ⟨hdecode, hbatch⟩, Option.bind_some, hreq]
    rfl

/-- **An answer that arrives in time is relayed**: when the guards held, the node's
answer is relayable and was read before the deadline, and the clock can be read for the
signature, the exchange ends with a sealed answer that the client reads as the node's. -/
theorem Guards.relayed (hv : lib.http.ValueRule) (hsuite : SuiteRules lib)
    (hstatus : lib.bhttp.StatusRule) (hwrite : lib.bhttp.WriteRule) {plaintext : Bytes}
    {inner : InnerRequest} {uri : Uri} {resp : Incoming} {enc : lib.kem.EncappedKey}
    {snd : SenderContext} (hg : Guards lib up signer cfg env req inner uri)
    (henc : Encapsulated signer plaintext req.body.content enc snd)
    (hresp : (env.upstream (guardedRequest inner uri)).2 = some resp)
    (hrel : Relayable cfg.maxResponseBytes resp) (hint : resp.body.HintRule)
    (htime : (readUpstream lib env cfg.maxResponseBytes (guardedRequest inner uri)).elapsed ≤
      cfg.upstreamTimeout)
    (hmem : InMemory lib resp)
    (hlimit : ∀ encoded, writeToVec lib (nodeAnswer resp) = some encoded →
      encoded.length ≤ lib.aes256Gcm.limit)
    (hclock : ∃ t, nowMs env.signClock = some t) :
    ∃ ctx nonce call answer signed,
      Answered lib up signer cfg env req plaintext ctx nonce call answer signed ∧
      answer.outcomeClass = .ok ∧
      clientReads lib enc snd answer.body = some (nodeAnswer resp) := by
  obtain ⟨ctx, hopen, hof, hclient, hseals⟩ := henc.opens hsuite
  obtain ⟨plaintext', ctx', hopen', hdecode⟩ := hg.opened
  cases Except.ok.inj (hopen.symm.trans hopen')
  obtain ⟨nonce, hnonce⟩ := hg.drawn
  obtain ⟨t, ht⟩ := hclock
  -- The upstream leg: its one request is the guarded one, and the reading beats the deadline.
  obtain ⟨pathAndQuery, hpq, huri⟩ := hg.target
  have hreq : innerUpstreamRequest lib up inner = some (guardedRequest inner uri) :=
    (innerUpstreamRequest_eq_some hv).mpr ⟨pathAndQuery, uri, hpq, huri, rfl⟩
  have hread := readUpstream_relayable hstatus hresp hrel hint
  have hleg : (callUpstream lib up cfg env inner).result =
      some (.ok (resp.status.code, nodeAnswer resp)) := by
    rcases callUpstream_cases lib up cfg env inner with ⟨e, hnone, -⟩ | ⟨upReq, hsome, hc⟩
    · rw [hreq] at hnone
      cases hnone
    · obtain rfl := Option.some.inj (hreq.symm.trans hsome)
      rw [hc, Run.result_andThen, Run.timeout_of_elapsed_le hread htime]
      rfl
  -- So the inner call answers with the node's message, which is encoded and sealed.
  obtain ⟨call, hcall⟩ := runInner_returns lib up cfg env plaintext
  have hresult : call.result = .ok (resp.status.code, nodeAnswer resp) := by
    rcases runInner_eq_some lib up cfg env hcall with
      ⟨e, hd, -⟩ | ⟨inner', hd, hlt, -⟩ | ⟨inner', r, ms, hd, -, hr, rfl⟩
    · rw [hdecode] at hd
      cases hd
    · cases Except.ok.inj (hdecode.symm.trans hd)
      exact absurd hg.batch (Nat.not_le.mpr hlt)
    · cases Except.ok.inj (hdecode.symm.trans hd)
      exact Option.some.inj (hr.symm.trans hleg)
  obtain ⟨encoded, hvec, hencoding⟩ := hmem.encoding hwrite
  obtain ⟨ct, hct⟩ := hseals nonce encoded (hlimit encoded hvec)
  have hseal : sealInner lib ctx nonce call.result =
      .ok ⟨.ok, resp.status.code, nonce.bytes ++ ct⟩ := by
    rw [sealInner_eq hof, hresult, innerAnswer_ok_iff.mpr ⟨hencoding, rfl⟩, Option.bind_some, hct]
    rfl
  refine ⟨ctx, nonce, call, _, _, ⟨⟨hg.received, hopen, hnonce, hg.clock⟩, hcall, hseal,
    signer.sign_eq_some.mpr ⟨t, ht, rfl⟩⟩, rfl, ?_⟩
  rw [clientReads_of_open (hclient nonce encoded ct hct).1]
  exact readResponse_writeToVec hwrite hrel.status.1 hvec

end Exchange

/-- **The relay is faithful.**  Take a client that encapsulated a request to the key of
the sidecar.  For every relayable answer of the node and every response nonce, what is
sealed for the answer is read by the client as the node's status, one content type per
value of the node and no other field, and the data of the node, however it was framed;
the answer is sealed whenever it is in memory and within the limit of the AEAD.  The
encoder used for relayed answers and the one used for problem documents give the same
sealed bytes, and problem documents are read back in the same way. -/
theorem faithful_relay (lib : Crates) (hsuite : SuiteRules lib) (hstatus : lib.bhttp.StatusRule)
    (hwrite : lib.bhttp.WriteRule) (signer : SigningState lib) (plaintext body : Bytes)
    (enc : lib.kem.EncappedKey) (snd : SenderContext)
    (henc : Encapsulated signer plaintext body enc snd) :
    ∃ ctx, signer.openRequest body = .ok (plaintext, ctx) ∧
      (∀ (env : Env) (cap : Nat) (upReq : OutRequest) (resp : Incoming),
        (env.upstream upReq).2 = some resp → Relayable cap resp → resp.body.HintRule →
        ∃ result, (readUpstream lib env cap upReq).result = some result ∧
          ∀ nonce : Block 32,
            (∀ answer, sealInner lib ctx nonce result = .ok answer → answer.outcomeClass = .ok →
              answer.innerStatus = resp.status.code ∧
                clientReads lib enc snd answer.body = some (nodeAnswer resp)) ∧
            (InMemory lib resp →
              (∀ answer, sealInner lib ctx nonce result = .ok answer → answer.outcomeClass = .ok) ∧
              ((∀ encoded, writeToVec lib (nodeAnswer resp) = some encoded →
                encoded.length ≤ lib.aes256Gcm.limit) →
                ∃ answer, sealInner lib ctx nonce result = .ok answer))) ∧
      (∀ (nonce : Block 32) (status code : Nat) (contentType : List HeaderValue)
        (content out : Bytes), lib.bhttp.statusTryFrom status = some code → out.length ≤ usizeMax →
        ((∃ buf, encodeWithNonce lib (responseMessage code contentType content) nonce = some buf ∧
            ctx.sealInPlace buf = (.ok (), out)) ↔
          ∃ encoded, encodeResponse lib ⟨status, contentType, content⟩ = some encoded ∧
            ctx.sealPlaintext nonce encoded = .ok out)) ∧
      ∀ (nonce : Block 32) (e : InnerError) (answer : Sealed),
        sealInner lib ctx nonce (.error e) = .ok answer →
        clientReads lib enc snd answer.body =
          some (responseMessage e.status [ascii "application/problem+json"] e.body) := by
  obtain ⟨ctx, hopen, hof, hclient, hseals⟩ := henc.opens hsuite
  refine ⟨ctx, hopen, ?_, ?_, ?_⟩
  · intro env cap upReq resp hresp hrel hint
    refine ⟨_, readUpstream_relayable hstatus hresp hrel hint, fun nonce => ⟨?_, fun hmem => ?_⟩⟩
    · intro answer hanswer hclass
      obtain ⟨encoded, ct, hinner, hct, hbody⟩ := sealInner_ok hof hanswer
      rw [hclass] at hinner
      obtain ⟨hencoding, hinnerStatus⟩ := innerAnswer_ok_iff.mp hinner
      obtain ⟨hvec, -⟩ := Option.filter_eq_some_iff.mp hencoding
      refine ⟨hinnerStatus, ?_⟩
      rw [hbody, clientReads_of_open (hclient nonce encoded ct hct).1]
      exact readResponse_writeToVec hwrite hrel.status.1 hvec
    · obtain ⟨encoded, hvec, hencoding⟩ := hmem.encoding hwrite
      have hinner : innerAnswer lib (.ok (resp.status.code, nodeAnswer resp)) =
          some (.ok, resp.status.code, encoded) := innerAnswer_ok_iff.mpr ⟨hencoding, rfl⟩
      refine ⟨fun answer hanswer => ?_, fun hlimit => ?_⟩
      · obtain ⟨encoded', ct, hinner', -, -⟩ := sealInner_ok hof hanswer
        exact congrArg Prod.fst (Option.some.inj (hinner'.symm.trans hinner))
      · obtain ⟨ct, hct⟩ := hseals nonce encoded (hlimit encoded hvec)
        refine ⟨⟨.ok, resp.status.code, nonce.bytes ++ ct⟩, ?_⟩
        rw [sealInner_eq hof, hinner, Option.bind_some, hct]
        rfl
  · intro nonce status code contentType content out hcode hout
    rw [sealInPlace_iff hof hcode]
    refine exists_congr (fun encoded => and_congr_right (fun _ => and_iff_right_of_imp ?_))
    intro hseal
    rw [ResponseContext.sealPlaintext, hof.sealWithNonce nonce.size, orRefused_eq_ok] at hseal
    obtain ⟨ct, hct, rfl⟩ := Option.map_eq_some_iff.mp hseal
    rw [List.length_append, nonce.size, (hclient nonce encoded ct hct).2] at hout
    omega
  · intro nonce e answer hanswer
    obtain ⟨encoded, ct, hinner, hct, hbody⟩ := sealInner_ok hof hanswer
    rw [hbody, clientReads_of_open (hclient nonce encoded ct hct).1]
    exact problemAnswer_reads hstatus hwrite hinner

namespace KnownAnswers

theorem suite_rules : SuiteRules crates :=
  ⟨hpke_matches, hkdf_expands, aes256Gcm_aead, rfl, rfl⟩

/-- The node's answer to the vector's request can be relayed: it has no coding. -/
theorem relayable {cap : Nat} (h : rpcResponse.length ≤ cap) :
    Relayable cap (answerWith [(.contentType, ascii "application/json")] rpcResponse) :=
  ⟨by decide, by decide, within_bodyOf h⟩

end KnownAnswers

open KnownAnswers in
/-- The client of the vector reads the encapsulated response of the vector as the answer
of the node. -/
theorem faithful_relay_vector :
    clientReads crates enc sender encapsulatedResponse =
      some ⟨.response 200, [⟨ascii "content-type", ascii "application/json"⟩], rpcResponse, []⟩ := by
  have hcap : @Encapsulated crates signer bhttpRequest encapsulatedRequest enc sender :=
    ⟨skR, enc.bytes, keyFromBytes_bytes skR, encapsulated⟩
  obtain ⟨ctx, hopen, hrelay, -⟩ := faithful_relay crates suite_rules bhttp_statuses bhttp_writes
    signer bhttpRequest encapsulatedRequest enc sender hcap
  obtain ⟨ctx', hreached, hseal⟩ := opensAndSeals "/confidential"
  have hopen' := hreached.opened
  rw [content_post] at hopen'
  cases Except.ok.inj (hopen.symm.trans hopen')
  obtain ⟨result, hresult, hsealed⟩ := hrelay env usizeMax
    (guardedRequest innerRequest upstream.upstreamUrl) _ rfl (relayable (by decide))
    ⟨Nat.zero_le _, by decide⟩
  have hrelayed : (readUpstream crates env usizeMax
      (guardedRequest innerRequest upstream.upstreamUrl)).result = some (.ok (200, relayed)) := by
    decide
  cases Option.some.inj (hresult.symm.trans hrelayed)
  obtain ⟨-, hreads⟩ := (hsealed responseNonce).1 _ hseal rfl
  rw [hreads, nodeAnswer, content_answerWith]
  rfl

end VrpcSidecar
