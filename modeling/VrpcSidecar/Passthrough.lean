import VrpcSidecar.KnownAnswers

/-! # What a passthrough response proves to its client

A signed response of the passthrough route carries the upstream's status, its
end-to-end fields and its body, and three signing headers.  The signature covers the
bytes that were collected, forwarded and served (`passthrough_signature_verifies`).
Two things depend on the upstream's own fields: whether the signing headers are
single (`signing_headers_single_iff`), since they are appended to whatever the
upstream sent under the same names, and whether the signed bytes are the content the
upstream declared (`signed_content_iff`), since `Content-Encoding` is dropped without
decoding.
-/
namespace VrpcSidecar

/-! ## The values of a served response -/

/-- The names whose fields a response is passed on with. -/
def passesResponse (n : HeaderName) : Bool := !isHopByHop n && n ≠ .contentEncoding

/-- The three signing headers, with their values. -/
def signingFields (signed : SignedResponse) : List (HeaderName × HeaderValue) :=
  [(.vrpcSignature, signed.signatureHex), (.vrpcTimestamp, signed.timestampText),
    (.vrpcPubkey, signed.pubkeyHex)]

/-- The values of a name among a list of fields. -/
def ownValues (fields : List (HeaderName × HeaderValue)) (n : HeaderName) : List HeaderValue :=
  (fields.filter (fun p => p.1 = n)).map Prod.snd

section Own
variable {signed : SignedResponse} {f : HeaderName × HeaderValue}

theorem name_of_mem_signingFields (h : f ∈ signingFields signed) :
    f.1 ∈ [HeaderName.vrpcSignature, .vrpcTimestamp, .vrpcPubkey] := by
  simp only [signingFields, List.mem_cons, List.not_mem_nil, or_false] at h
  rcases h with rfl | rfl | rfl <;> simp

theorem isVrpc_of_mem_signingFields (h : f ∈ signingFields signed) : f.1.IsVrpc := by
  have hnames : ∀ n ∈ [HeaderName.vrpcSignature, .vrpcTimestamp, .vrpcPubkey], n.IsVrpc := by
    decide
  exact hnames f.1 (name_of_mem_signingFields h)

/-- The signing headers have no value under any other name. -/
theorem ownValues_signingFields {n : HeaderName} (h : ¬ n.IsVrpc) (signed : SignedResponse) :
    ownValues (signingFields signed) n = [] := by
  rw [ownValues, List.map_eq_nil_iff, List.filter_eq_nil_iff]
  intro f hf hn
  exact h (of_decide_eq_true hn ▸ isVrpc_of_mem_signingFields hf)

/-- Under each of their names they have one value. -/
theorem ownValues_of_mem_signingFields (h : f ∈ signingFields signed) :
    ownValues (signingFields signed) f.1 = [f.2] := by
  have hdistinct : ((signingFields signed).map Prod.fst).Nodup := by
    show [HeaderName.vrpcSignature, .vrpcTimestamp, .vrpcPubkey].Nodup
    decide
  exact MultiMap.values_of_distinct hdistinct h

end Own

section Served
variable {lib : Crates} {up : UpstreamClient} {signer : SigningState lib} {env : Env}
  {req : Request} {cap : Nat} {upReq : OutRequest} {upResp : Incoming} {signed : SignedResponse}

/-- **The values of a field in a served response**: those the upstream sent, when the
field is passed on, and then the sidecar's. -/
theorem getAll_signedResponse (hv : lib.http.ValueRule) {clock : Int}
    {requestBody responseBody : Bytes}
    (h : signer.sign clock requestBody responseBody = some signed) (upResp : Incoming)
    (bytes : Bytes) (n : HeaderName) :
    (buildSignedResponse lib upResp bytes signed).headers.getAll n =
      (if passesResponse n then upResp.headers.getAll n else []) ++
        ownValues (signingFields signed) n := by
  rw [buildSignedResponse_eq hv h, MultiMap.appendAll_append]
  exact upResp.headers.getAll_rebuilt passesResponse (signingFields signed) n

/-- A signing header keeps what the upstream sent under its name. -/
theorem Pipelined.signingValues (hv : lib.http.ValueRule)
    (h : Pipelined lib up signer env req cap upReq upResp signed) {f : HeaderName × HeaderValue}
    (hf : f ∈ signingFields signed) :
    (buildSignedResponse lib upResp upResp.body.content signed).headers.getAll f.1 =
      upResp.headers.getAll f.1 ++ [f.2] := by
  have hpasses : ∀ n ∈ [HeaderName.vrpcSignature, .vrpcTimestamp, .vrpcPubkey],
      passesResponse n = true := by decide
  rw [getAll_signedResponse hv h.signed, if_pos (hpasses f.1 (name_of_mem_signingFields hf)),
    ownValues_of_mem_signingFields hf]

end Served

/-! ## One set of signing headers -/

/-- The response has exactly one value of each signing header: the sidecar's own. -/
def Response.OneSetOf (resp : Response) (signed : SignedResponse) : Prop :=
  resp.headers.getAll .vrpcSignature = [signed.signatureHex] ∧
    resp.headers.getAll .vrpcTimestamp = [signed.timestampText] ∧
    resp.headers.getAll .vrpcPubkey = [signed.pubkeyHex]

/-- **When the signing headers of a served response are single**: exactly when the
upstream's response has no field of their names.  The signing headers are appended,
so any such field stays, before the sidecar's value. -/
theorem signing_headers_single_iff (lib : Crates) (hv : lib.http.ValueRule) (up : UpstreamClient)
    (signer : SigningState lib) (env : Env) (req : Request) (resp : Response)
    (h : (runPipeline lib up signer env req (up.maxBodyBytes.getD usizeMax)).result =
      some (.ok resp)) :
    (forward lib up signer env req).result = some resp ∧
      ∃ upReq upResp signed,
        (runPipeline lib up signer env req (up.maxBodyBytes.getD usizeMax)).log = [.send upReq] ∧
        (env.upstream upReq).2 = some upResp ∧
        signer.sign env.signClock req.body.content upResp.body.content = some signed ∧
        (resp.OneSetOf signed ↔ ¬ upResp.headers.Holds .vrpcSignature ∧
          ¬ upResp.headers.Holds .vrpcTimestamp ∧ ¬ upResp.headers.Holds .vrpcPubkey) := by
  obtain ⟨upReq, upResp, signed, hp, rfl⟩ := runPipeline_ok h
  refine ⟨hp.forward, upReq, upResp, signed, hp.log, hp.answered, hp.signed, ?_⟩
  have hvalues := fun f (hf : f ∈ signingFields signed) => hp.signingValues hv hf
  simp only [signingFields, List.mem_cons, List.not_mem_nil, or_false, forall_eq_or_imp,
    forall_eq] at hvalues
  rw [Response.OneSetOf, hvalues.1, hvalues.2.1, hvalues.2.2]
  simp only [MultiMap.holds_iff_getAll, ne_eq, not_not, List.append_eq_singleton_iff]
  simp

namespace KnownAnswers

/-- The node's answer to a request with these fields reaches the client of a sidecar without
a cap, signed. -/
theorem pipelined_with (signer : SigningState crates) (headers : HeaderMap)
    (fields : List (HeaderName × HeaderValue)) {request response : Bytes}
    (hreq : request.length ≤ usizeMax) (hresp : response.length ≤ usizeMax) :
    ∃ upReq signed, Pipelined crates upstream signer (envWith (answerWith fields response))
      { post "/" request with headers := headers } usizeMax upReq (answerWith fields response)
      signed := by
  obtain ⟨uri, huri⟩ := Option.isSome_iff_exists.mp
    (by decide +kernel : (upstream.upstreamUri crates (post "/" []).uri).isSome = true)
  obtain ⟨t, ht⟩ := Option.isSome_iff_exists.mp
    (by decide : (nowMs (1700000000000 * 1000000)).isSome = true)
  have hbuilt : ∃ upReq, buildUpstreamRequest crates { post "/" request with headers := headers } uri
      (post "/" request).body.content = some upReq := by
    rw [buildUpstreamRequest, @headerText_visible crates http_values _ _ _ visible_identity]
    exact ⟨_, rfl⟩
  obtain ⟨upReq, hbuilt⟩ := hbuilt
  exact ⟨upReq, _, within_bodyOf hreq, ⟨uri, huri, hbuilt⟩, rfl, within_bodyOf hresp,
    (signer.sign_eq_some).mpr ⟨t, ht, rfl⟩⟩

theorem pipelined (signer : SigningState crates) (fields : List (HeaderName × HeaderValue))
    {request response : Bytes}
    (hreq : request.length ≤ usizeMax) (hresp : response.length ≤ usizeMax) :
    ∃ upReq signed, Pipelined crates upstream signer (envWith (answerWith fields response))
      (post "/" request) usizeMax upReq (answerWith fields response) signed :=
  pipelined_with signer MultiMap.empty fields hreq hresp

end KnownAnswers

open KnownAnswers in
/-- Against the node of the vector, which sends no such field, they are single. -/
theorem signing_headers_single_vector :
    ∃ resp, (forward crates upstream signer env (post "/" rpcRequest)).result = some resp ∧
      ∃ signed, resp.OneSetOf signed := by
  obtain ⟨upReq, signed, hp⟩ := pipelined signer [(.contentType, ascii "application/json")]
    (by decide : rpcRequest.length ≤ usizeMax)
    (by decide : rpcResponse.length ≤ usizeMax)
  obtain ⟨hfwd, upReq', upResp, signed', -, hans, -, hiff⟩ :=
    signing_headers_single_iff crates http_values upstream signer env (post "/" rpcRequest) _ hp.result
  obtain rfl := Option.some.inj (hp.answered.symm.trans hans)
  refine ⟨_, hfwd, signed', hiff.mpr ?_⟩
  simp only [MultiMap.holds_iff_getAll, not_not]
  decide

open KnownAnswers in
/-- A node that sends a `vRPC-Signature` of its own: the served response has two, the
node's first. -/
theorem signing_header_of_the_upstream_comes_first :
    ∃ resp signed, (forward crates upstream signer
        (envWith (answerWith [(.vrpcSignature, ascii "0x00")] rpcResponse))
        (post "/" rpcRequest)).result = some resp ∧
      signer.sign (1700000000000 * 1000000) rpcRequest rpcResponse = some signed ∧
      resp.headers.getAll .vrpcSignature = [ascii "0x00", signed.signatureHex] ∧
      ¬ resp.OneSetOf signed := by
  obtain ⟨upReq, signed, hp⟩ := pipelined signer [(.vrpcSignature, ascii "0x00")]
    (by decide : rpcRequest.length ≤ usizeMax)
    (by decide : rpcResponse.length ≤ usizeMax)
  have hvalues : _ = _ ++ [signed.signatureHex] :=
    hp.signingValues http_values (f := (.vrpcSignature, signed.signatureHex)) (by simp [signingFields])
  have hsent : (answerWith [(.vrpcSignature, ascii "0x00")] rpcResponse).headers.getAll
      .vrpcSignature = [ascii "0x00"] := by decide
  rw [hsent] at hvalues
  refine ⟨_, signed, hp.forward, ?_, hvalues, ?_⟩
  · have hcontent : ∀ bs : Bytes, (bodyOf bs).content = bs := fun bs => List.append_nil bs
    have := hp.signed
    simp only [post, answerWith, hcontent] at this
    exact this
  · rintro ⟨hone, -, -⟩
    rw [hvalues] at hone
    simp at hone

/-! ## The signature -/

/-- **A passthrough signature verifies from what the client sees.**  The three values
the sidecar adds decode to a signature, a key and a timestamp; the signature is the
one the seed makes over the chain id, the request body the client sent, the body
served and the timestamp, and verifies under the key.  The upstream was sent exactly
that request body, and the body served is exactly what it returned.  A pipeline that
ends early answers without any `vRPC-*` header. -/
theorem passthrough_signature_verifies (lib : Crates) (hv : lib.http.ValueRule)
    (hed : lib.ed25519.SignRule) (seed : Block 32) (chainId : Bytes) (signer : SigningState lib)
    (hsigner : SigningState.fromSeedRef lib seed chainId = some signer) (up : UpstreamClient)
    (env : Env) (req : Request) (cap : Nat) :
    (∀ resp, (runPipeline lib up signer env req cap).result = some (.ok resp) →
      ∃ (upReq : OutRequest) (upResp : Incoming) (signature : Block 64) (pubkey : Block 32)
        (timestamp : UInt64) (sigText tsText pkText : Bytes),
        resp.headers.getAll .vrpcSignature =
          upResp.headers.getAll .vrpcSignature ++ [sigText] ∧
        resp.headers.getAll .vrpcTimestamp = upResp.headers.getAll .vrpcTimestamp ++ [tsText] ∧
        resp.headers.getAll .vrpcPubkey = upResp.headers.getAll .vrpcPubkey ++ [pkText] ∧
        readPrefixedHex sigText = some signature.bytes ∧
        readPrefixedHex pkText = some pubkey.bytes ∧
        readU64 tsText = some timestamp ∧
        nowMs env.signClock = some timestamp ∧
        pubkey = lib.ed25519.verifyingKey seed ∧
        (let message := (lib.sha256 chainId).bytes ++ ((lib.sha256 req.body.content).bytes ++
            ((lib.sha256 resp.body).bytes ++ toLE timestamp))
         signature = lib.ed25519.sign seed message ∧
          lib.ed25519.verify pubkey message signature = true) ∧
        (runPipeline lib up signer env req cap).log = [.send upReq] ∧
        req.body.Within cap ∧ upReq.body = req.body.content ∧
        (env.upstream upReq).2 = some upResp ∧
        upResp.body.Within cap ∧ resp.body = upResp.body.content) ∧
    (∀ resp, (runPipeline lib up signer env req cap).result = some (.error resp) →
      resp.Unsigned) := by
  constructor
  · intro resp h
    obtain ⟨upReq, upResp, signed, hp, rfl⟩ := runPipeline_ok h
    obtain ⟨hseed, hchain⟩ := SigningState.fromSeedRef_eq_some lib hsigner
    obtain ⟨t, ht, rfl⟩ := signer.sign_eq_some.mp hp.signed
    have hover := signer.signatureOver_signWithTimestamp req.body.content upResp.body.content t
    have hver := hover.verifies hed
    have hvalues := fun f (hf : f ∈ signingFields _) => hp.signingValues hv hf
    simp only [signingFields, List.mem_cons, List.not_mem_nil, or_false, forall_eq_or_imp,
      forall_eq] at hvalues
    obtain ⟨uri, -, hbuild⟩ := hp.built
    refine ⟨upReq, upResp, _, _, t, _, _, _, hvalues.1, hvalues.2.1, hvalues.2.2,
      hover.signatureText, hover.pubkeyText, hover.timestampText, ht, ?_, ?_, hp.log, hp.received,
      buildUpstreamRequest_body hbuild, hp.answered, hp.collected, ?_⟩
    · rw [← hseed]
      exact hover.pubkey
    · rw [buildSignedResponse_eq hv hp.signed, ← hseed, ← hchain]
      exact ⟨hover.signature, hver⟩
    · rw [buildSignedResponse_eq hv hp.signed]
  · intro resp h
    obtain ⟨s, rfl⟩ := runPipeline_error h
    exact s.intoResponse_unsigned

open KnownAnswers in
/-- On the vector's bodies the signature is the one the test seed makes. -/
theorem passthrough_signature_verifies_vector :
    ∃ signer, SigningState.fromSeedRef crates testSeed chainId = some signer ∧
      ∃ resp, (runPipeline crates upstream signer env (post "/" rpcRequest) usizeMax).result =
          some (.ok resp) ∧ resp.body = rpcResponse ∧
        ∃ pubkey message signature, crates.ed25519.verify pubkey message signature = true ∧
          pubkey = testPublicKey ∧ signature = crates.ed25519.sign testSeed message := by
  obtain ⟨signer, hsigner⟩ := Option.isSome_iff_exists.mp
    (by decide : (SigningState.fromSeedRef crates testSeed chainId).isSome = true)
  obtain ⟨upReq, signed, hp⟩ := pipelined signer [(.contentType, ascii "application/json")]
    (by decide : rpcRequest.length ≤ usizeMax)
    (by decide : rpcResponse.length ≤ usizeMax)
  obtain ⟨hok, -⟩ := passthrough_signature_verifies crates http_values ed25519_signs testSeed chainId
    signer hsigner upstream env (post "/" rpcRequest) usizeMax
  obtain ⟨upReq', upResp, signature, pubkey, t, -, -, -, -, -, -, -, -, -, -, hpk, ⟨hsig, hver⟩, -, -,
    -, hans, -, hbody⟩ := hok _ hp.result
  obtain rfl := Option.some.inj (hp.answered.symm.trans hans)
  have hkey : crates.ed25519.verifyingKey testSeed = testPublicKey := by decide
  exact ⟨signer, hsigner, _, hp.result, hbody.trans (content_bodyOf _), _, _, _, hver,
    hpk.trans hkey, hsig⟩

/-! ## The content -/

/-- The codings a response declares, in the order they were applied: the elements of
its `Content-Encoding` fields, without surrounding blanks and in lowercase. -/
def contentCodings (headers : HeaderMap) : List Bytes :=
  let isBlank := fun b : UInt8 => b = 0x20 || b = 0x09
  (headers.getAll .contentEncoding).flatMap (fun v =>
    ((v.splitOn 0x2c).map (fun c => lower ((c.dropWhile isBlank).rdropWhile isBlank))).filter
      (fun c => c ≠ []))

/-- Decoding a body under a list of codings, the last one first; `dec` gives the
decoder of each coding. -/
def decodeContent (dec : Bytes → Bytes → Option Bytes) (codings : List Bytes) (body : Bytes) :
    Option Bytes :=
  codings.foldr (fun c b => b.bind (dec c)) (some body)

/-- The decoder of `identity` changes nothing. -/
def IdentityDecodes (dec : Bytes → Bytes → Option Bytes) : Prop :=
  ∀ body, dec (ascii "identity") body = some body

theorem decodeContent_identity {dec : Bytes → Bytes → Option Bytes} (hdec : IdentityDecodes dec)
    {codings : List Bytes} (h : ∀ c ∈ codings, c = ascii "identity") (body : Bytes) :
    decodeContent dec codings body = some body := by
  induction codings with
  | nil => rfl
  | cons c codings ih =>
    have hc : c = ascii "identity" := h c List.mem_cons_self
    have hrest := ih (fun d hd => h d (List.mem_cons_of_mem _ hd))
    show (decodeContent dec codings body).bind (dec c) = some body
    rw [hrest, hc, Option.bind_some, hdec]

/-- A decoder that knows no coding but `identity` decodes nothing else. -/
theorem decodeContent_unknown {codings : List Bytes} {c : Bytes} (hc : c ∈ codings)
    (hne : c ≠ ascii "identity") (body : Bytes) :
    decodeContent (fun c b => if c = ascii "identity" then some b else none) codings body = none := by
  induction codings with
  | nil => exact absurd hc List.not_mem_nil
  | cons d codings ih =>
    show (decodeContent _ codings body).bind _ = none
    rcases List.mem_cons.mp hc with rfl | hmem
    · simp [hne]
    · rw [ih hmem]
      rfl

/-- A served response declares no coding. -/
theorem Pipelined.contentCodings_served {lib : Crates} (hv : lib.http.ValueRule)
    {up : UpstreamClient} {signer : SigningState lib} {env : Env} {req : Request} {cap : Nat}
    {upReq : OutRequest} {upResp : Incoming} {signed : SignedResponse}
    (h : Pipelined lib up signer env req cap upReq upResp signed) :
    contentCodings (buildSignedResponse lib upResp upResp.body.content signed).headers = [] := by
  have hce : ¬ HeaderName.contentEncoding.IsVrpc := by decide
  rw [contentCodings, getAll_signedResponse hv h.signed, if_neg (by simp [passesResponse]),
    ownValues_signingFields hce]
  rfl

/-- **When a signed response carries the content its upstream declared**: exactly when
every declared coding is `identity`.  The body is served and signed as it came while
its `Content-Encoding` is dropped, so under any other coding the client is left with
bytes it cannot decode. -/
theorem signed_content_iff (lib : Crates) (hv : lib.http.ValueRule) (up : UpstreamClient)
    (signer : SigningState lib) (env : Env) (req : Request) (resp : Response)
    (h : (runPipeline lib up signer env req (up.maxBodyBytes.getD usizeMax)).result =
      some (.ok resp)) :
    (forward lib up signer env req).result = some resp ∧
      ∃ upReq upResp signed,
        (runPipeline lib up signer env req (up.maxBodyBytes.getD usizeMax)).log = [.send upReq] ∧
        (env.upstream upReq).2 = some upResp ∧
        signer.sign env.signClock req.body.content resp.body = some signed ∧
        ((∀ dec, IdentityDecodes dec →
            decodeContent dec (contentCodings resp.headers) resp.body =
              decodeContent dec (contentCodings upResp.headers) upResp.body.content ∧
            decodeContent dec (contentCodings upResp.headers) upResp.body.content =
              some resp.body) ↔
          ∀ c ∈ contentCodings upResp.headers, c = ascii "identity") := by
  obtain ⟨upReq, upResp, signed, hp, rfl⟩ := runPipeline_ok h
  have hbody : (buildSignedResponse lib upResp upResp.body.content signed).body =
      upResp.body.content := by rw [buildSignedResponse_eq hv hp.signed]
  refine ⟨hp.forward, upReq, upResp, signed, hp.log, hp.answered, by rw [hbody]; exact hp.signed, ?_⟩
  rw [hp.contentCodings_served hv, hbody]
  constructor
  · intro hall c hc
    by_contra hne
    have hdec : IdentityDecodes (fun c b => if c = ascii "identity" then some b else none) :=
      fun body => if_pos rfl
    have hsome := (hall _ hdec).2
    rw [decodeContent_unknown hc hne] at hsome
    cases hsome
  · intro hall dec hdec
    rw [decodeContent_identity hdec hall]
    exact ⟨rfl, rfl⟩

open KnownAnswers in
/-- The node of the vector declares no coding. -/
theorem signed_content_vector :
    ∃ resp, (forward crates upstream signer env (post "/" rpcRequest)).result = some resp ∧
      ∀ dec, IdentityDecodes dec →
        decodeContent dec (contentCodings resp.headers) resp.body = some resp.body := by
  obtain ⟨upReq, signed, hp⟩ := pipelined signer [(.contentType, ascii "application/json")]
    (by decide : rpcRequest.length ≤ usizeMax)
    (by decide : rpcResponse.length ≤ usizeMax)
  obtain ⟨hfwd, upReq', upResp, signed', -, hans, -, hiff⟩ :=
    signed_content_iff crates http_values upstream signer env (post "/" rpcRequest) _ hp.result
  obtain rfl := Option.some.inj (hp.answered.symm.trans hans)
  have hnone : ∀ c ∈ contentCodings (answerWith [(.contentType, ascii "application/json")]
      rpcResponse).headers, c = ascii "identity" := by decide
  refine ⟨_, hfwd, fun dec hdec => ?_⟩
  obtain ⟨hsame, hcontent⟩ := hiff.mpr hnone dec hdec
  exact hsame.trans hcontent

open KnownAnswers in
/-- A node that answers with gzip: the client is served the compressed bytes without
their coding, so no decoder gives it the content. -/
theorem gzipped_content_is_lost :
    ∃ resp, (forward crates upstream signer
        (envWith (answerWith [(.contentEncoding, ascii "gzip")] gzippedResponse))
        (post "/" rpcRequest)).result = some resp ∧
      ∃ dec, IdentityDecodes dec ∧
        decodeContent dec (contentCodings
          (answerWith [(.contentEncoding, ascii "gzip")] gzippedResponse).headers)
          gzippedResponse = some rpcResponse ∧
        decodeContent dec (contentCodings resp.headers) resp.body = some gzippedResponse ∧
        gzippedResponse ≠ rpcResponse := by
  obtain ⟨upReq, signed, hp⟩ := pipelined signer [(.contentEncoding, ascii "gzip")]
    (by decide : rpcRequest.length ≤ usizeMax)
    (by decide : gzippedResponse.length ≤ usizeMax)
  refine ⟨_, hp.forward, fun c b => if c = ascii "identity" then some b else
    if b = gzippedResponse then some rpcResponse else none, fun body => if_pos rfl, ?_, ?_, ?_⟩
  · have hcodings : contentCodings (answerWith [(.contentEncoding, ascii "gzip")]
        gzippedResponse).headers = [ascii "gzip"] := by decide
    rw [hcodings]
    decide
  · rw [hp.contentCodings_served http_values, buildSignedResponse_eq http_values hp.signed]
    exact congrArg some (content_bodyOf _)
  · decide

end VrpcSidecar
