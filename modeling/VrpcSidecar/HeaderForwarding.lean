import VrpcSidecar.Passthrough

/-! # The fields that cross the proxy

Each side of the passthrough route rebuilds a header map: the fields of the message it
received that pass a test on their names, in order, and then fields of its own, which
are `Accept-Encoding: identity` towards the node and the signing headers towards the
client.  `passthrough_transparent` says what this preserves: every value of an
end-to-end field, within its name and in order.

The test is a fixed list of names.  RFC 7230 §6.1 also makes a field hop-by-hop when a
`Connection` field of the same message lists its name; `connection_options_iff` says
exactly when the fixed list is enough for that.
-/
namespace VrpcSidecar

/-! ## The two rebuilt maps -/

/-- The names whose fields a request is passed on with. -/
def passesRequest (n : HeaderName) : Bool := !isHopByHop n && n ≠ .acceptEncoding

/-- The field the sidecar adds to a request. -/
def identityField : List (HeaderName × HeaderValue) := [(.acceptEncoding, ascii "identity")]

section Rebuilt
variable {lib : Crates} {req : Request} {uri : Uri} {bytes : Bytes} {upReq : OutRequest}
  {signer : SigningState lib} {clock : Int} {signed : SignedResponse}

/-- **The request built from a received one**: its method and the collected body, under
the URI and with the rebuilt fields. -/
theorem buildUpstreamRequest_eq (hv : lib.http.ValueRule) (req : Request) (uri : Uri)
    (bytes : Bytes) :
    buildUpstreamRequest lib req uri bytes =
      some ⟨req.method, uri, (MultiMap.empty.appendAll
        (req.headers.toList.filter (fun p => passesRequest p.1))).appendAll identityField, bytes⟩ := by
  rw [buildUpstreamRequest, headerText_visible hv _ _ visible_identity]
  rfl

theorem getAll_upstreamRequest (hv : lib.http.ValueRule)
    (h : buildUpstreamRequest lib req uri bytes = some upReq) (n : HeaderName) :
    upReq.headers.getAll n =
      (if passesRequest n then req.headers.getAll n else []) ++ ownValues identityField n := by
  rw [buildUpstreamRequest_eq hv] at h
  obtain rfl := (Option.some.inj h).symm
  exact req.headers.getAll_rebuilt passesRequest identityField n

end Rebuilt

/-! ## Transparency -/

/-- **A request passed on**: the method and the body it came with, every end-to-end
value in order, no hop-by-hop field, and `identity` as the only coding asked for. -/
structure ForwardedRequest (req : Request) (upReq : OutRequest) : Prop where
  method : upReq.method = req.method
  body : upReq.body = req.body.content
  endToEnd : ∀ n, isHopByHop n = false → n ≠ .acceptEncoding →
    upReq.headers.getAll n = req.headers.getAll n
  hopByHop : ∀ n, isHopByHop n = true → ¬ upReq.headers.Holds n
  acceptEncoding : upReq.headers.getAll .acceptEncoding = [ascii "identity"]

/-- **A response passed on**: the status and the body the node sent, every end-to-end
value in order, and neither a hop-by-hop field nor a content coding. -/
structure ForwardedResponse (upResp : Incoming) (resp : Response) : Prop where
  status : resp.status = upResp.status
  body : resp.body = upResp.body.content
  endToEnd : ∀ n, isHopByHop n = false → n ≠ .contentEncoding → ¬ n.IsVrpc →
    resp.headers.getAll n = upResp.headers.getAll n
  hopByHop : ∀ n, isHopByHop n = true → ¬ resp.headers.Holds n
  contentEncoding : ¬ resp.headers.Holds .contentEncoding

theorem ownValues_identityField_of_ne {n : HeaderName} (h : n ≠ .acceptEncoding) :
    ownValues identityField n = [] := by
  simp [ownValues, identityField, Ne.symm h]

theorem not_isVrpc_of_isHopByHop {n : HeaderName} (h : isHopByHop n = true) : ¬ n.IsVrpc := by
  simp only [isHopByHop, Bool.or_eq_true, decide_eq_true_eq] at h
  rcases h with ((((((((rfl | rfl) | rfl) | rfl) | rfl) | rfl) | rfl) | rfl) | rfl) | rfl <;>
    decide

theorem passesRequest_eq_true {n : HeaderName} (hhop : isHopByHop n = false)
    (hae : n ≠ .acceptEncoding) : passesRequest n = true := by
  simp [passesRequest, hhop, hae]

theorem passesResponse_eq_true {n : HeaderName} (hhop : isHopByHop n = false)
    (hce : n ≠ .contentEncoding) : passesResponse n = true := by
  simp [passesResponse, hhop, hce]

section Forwarded
variable {lib : Crates} {up : UpstreamClient} {signer : SigningState lib} {env : Env}
  {req : Request} {cap : Nat} {upReq : OutRequest} {upResp : Incoming} {signed : SignedResponse}

/-- What a pipeline sends is its request passed on. -/
theorem forwardedRequest_of_mem_sends (hv : lib.http.ValueRule)
    (h : upReq ∈ sends (runPipeline lib up signer env req cap).log) : ForwardedRequest req upReq := by
  obtain ⟨-, uri, -, hbuild⟩ := mem_sends_runPipeline.mp h
  have hvalues := getAll_upstreamRequest hv hbuild
  have hsame := hbuild
  rw [buildUpstreamRequest_eq hv] at hsame
  obtain rfl := (Option.some.inj hsame).symm
  refine ⟨rfl, rfl, ?_, ?_, ?_⟩
  · intro n hhop hae
    rw [hvalues, if_pos (passesRequest_eq_true hhop hae), ownValues_identityField_of_ne hae,
      List.append_nil]
  · intro n hhop
    have hae : n ≠ .acceptEncoding := by
      rintro rfl
      exact absurd hhop (by decide)
    rw [MultiMap.holds_iff_getAll, not_not, hvalues, if_neg (by simp [passesRequest, hhop]),
      ownValues_identityField_of_ne hae]
    rfl
  · rw [hvalues, if_neg (by simp [passesRequest])]
    simp [ownValues, identityField]

/-- What a pipeline serves is the node's response passed on. -/
theorem Pipelined.forwardedResponse (hv : lib.http.ValueRule)
    (h : Pipelined lib up signer env req cap upReq upResp signed) :
    ForwardedResponse upResp (buildSignedResponse lib upResp upResp.body.content signed) := by
  have hvalues := getAll_signedResponse hv h.signed upResp upResp.body.content
  have hce : ¬ HeaderName.contentEncoding.IsVrpc := by decide
  refine ⟨?_, ?_, ?_, ?_, ?_⟩
  · rw [buildSignedResponse_eq hv h.signed]
  · rw [buildSignedResponse_eq hv h.signed]
  · intro n hhop hne hvrpc
    rw [hvalues, if_pos (passesResponse_eq_true hhop hne), ownValues_signingFields hvrpc,
      List.append_nil]
  · intro n hhop
    rw [MultiMap.holds_iff_getAll, not_not, hvalues, if_neg (by simp [passesResponse, hhop]),
      ownValues_signingFields (not_isVrpc_of_isHopByHop hhop)]
    rfl
  · rw [MultiMap.holds_iff_getAll, not_not, hvalues, if_neg (by simp [passesResponse]),
      ownValues_signingFields hce]
    rfl

end Forwarded

/-- **The passthrough route is transparent in both directions.**  A request whose body
is within the cap is sent on, once, under the URI built for it; whatever is sent is the
request passed on, and a signed response is the node's passed on.  No end-to-end value
is lost, added, altered or moved within its name. -/
theorem passthrough_transparent (lib : Crates) (hv : lib.http.ValueRule) (up : UpstreamClient)
    (signer : SigningState lib) (env : Env) (req : Request) (cap : Nat) :
    (req.body.Within cap → ∀ uri, up.upstreamUri lib req.uri = some uri →
      ∃ upReq, (runPipeline lib up signer env req cap).log = [.send upReq] ∧ upReq.uri = uri) ∧
    (∀ upReq ∈ sends (runPipeline lib up signer env req cap).log, ForwardedRequest req upReq) ∧
    (∀ resp, (runPipeline lib up signer env req cap).result = some (.ok resp) →
      ∃ upReq upResp, (runPipeline lib up signer env req cap).log = [.send upReq] ∧
        (env.upstream upReq).2 = some upResp ∧ ForwardedResponse upResp resp) := by
  refine ⟨?_, fun upReq => forwardedRequest_of_mem_sends hv, ?_⟩
  · intro hwithin uri huri
    obtain ⟨upReq, hbuild, hsent⟩ : ∃ upReq,
        buildUpstreamRequest lib req uri req.body.content = some upReq ∧ upReq.uri = uri :=
      ⟨_, buildUpstreamRequest_eq hv req uri req.body.content, rfl⟩
    refine ⟨upReq, ?_, hsent⟩
    rw [log_runPipeline signer hwithin, upstreamRequest, huri, Option.bind_some, hbuild]
    rfl
  · intro resp h
    obtain ⟨upReq, upResp, signed, hp, rfl⟩ := runPipeline_ok h
    exact ⟨upReq, upResp, hp.log, hp.answered, hp.forwardedResponse hv⟩

open KnownAnswers in
/-- A client that sends two `Accept` fields and asks for gzip: the node gets both, and
`identity`.  The node's two `X-Node` fields are served in order, with its body and without its
`Connection` field. -/
theorem passthrough_transparent_vector :
    let req : Request := ⟨ascii "POST", (post "/" []).uri, MultiMap.empty.appendAll
      [(.accept, ascii "text/html"), (.of "Accept-Encoding", ascii "gzip"),
        (.accept, ascii "*/*"), (.of "ACCEPT-ENCODING", ascii "br")], bodyOf rpcRequest⟩
    let node := envWith (answerWith [(.of "X-Node", ascii "a"), (.connection, ascii "close"),
      (.of "x-node", ascii "b")] rpcResponse)
    ∃ upReq resp, (runPipeline crates upstream signer node req usizeMax).log = [.send upReq] ∧
      upReq.body = rpcRequest ∧
      upReq.headers.getAll .accept = [ascii "text/html", ascii "*/*"] ∧
      upReq.headers.getAll .acceptEncoding = [ascii "identity"] ∧
      (runPipeline crates upstream signer node req usizeMax).result = some (.ok resp) ∧
      resp.body = rpcResponse ∧
      resp.headers.getAll (.of "x-node") = [ascii "a", ascii "b"] ∧
      ¬ resp.headers.Holds .connection := by
  intro req node
  obtain ⟨_, _, hp⟩ := pipelined_with signer req.headers
    [(.of "X-Node", ascii "a"), (.connection, ascii "close"), (.of "x-node", ascii "b")]
    (by decide : rpcRequest.length ≤ usizeMax) (by decide : rpcResponse.length ≤ usizeMax)
  obtain ⟨-, hreq, hresp⟩ :=
    passthrough_transparent crates http_values upstream signer node req usizeMax
  obtain ⟨upReq, upResp, hlog, hanswer, hserved⟩ := hresp _ hp.result
  obtain rfl := Option.some.inj hanswer
  have hfwd := hreq upReq (by rw [hlog]; simp [sends])
  refine ⟨upReq, _, hlog, hfwd.body.trans (content_bodyOf _), ?_, hfwd.acceptEncoding, hp.result,
    hserved.body.trans (content_bodyOf _), ?_, hserved.hopByHop .connection (by decide)⟩
  · rw [hfwd.endToEnd .accept (by decide) (by decide)]
    decide
  · rw [hserved.endToEnd (.of "x-node") (by decide) (by decide) (by decide)]
    decide

/-! ## Connection options -/

/-- The options a message's `Connection` fields list: the elements of all their values,
without surrounding blanks and in lowercase. -/
def connectionOptions (headers : HeaderMap) : List Bytes :=
  let isBlank := fun b : UInt8 => b = 0x20 || b = 0x09
  (headers.getAll .connection).flatMap (fun v =>
    ((v.splitOn 0x2c).map (fun c => lower ((c.dropWhile isBlank).rdropWhile isBlank))).filter
      (fun c => c ≠ []))

/-- **RFC 7230 §6.1**: under the name of an option of the received message, or of the
fixed list, a message passed on has the sidecar's own values and no received one. -/
def ConnectionFieldsDropped (received sent : HeaderMap) (own : List (HeaderName × HeaderValue)) :
    Prop :=
  ∀ n, n.bytes ∈ connectionOptions received ∨ isHopByHop n = true →
    sent.getAll n = ownValues own n

/-- A map rebuilt with a test that refuses the fixed list drops what the options name
exactly when the test refuses every option the message has a field for. -/
theorem connectionFieldsDropped_iff {received sent : HeaderMap} {keep : HeaderName → Bool}
    {own : List (HeaderName × HeaderValue)} (hkeep : ∀ n, isHopByHop n = true → keep n = false)
    (hsent : ∀ n, sent.getAll n = (if keep n then received.getAll n else []) ++ ownValues own n) :
    ConnectionFieldsDropped received sent own ↔
      ∀ n, n.bytes ∈ connectionOptions received → received.Holds n → keep n = false := by
  constructor
  · intro h n hn hholds
    by_contra hpass
    rw [Bool.not_eq_false] at hpass
    have hvalues := h n (Or.inl hn)
    rw [hsent, if_pos hpass, List.append_left_eq_self] at hvalues
    exact (received.holds_iff_getAll n).mp hholds hvalues
  · intro h n hn
    rw [hsent]
    by_cases hpass : keep n = true
    · rcases hn with hn | hn
      · have hnone : received.getAll n = [] := by
          by_contra hne
          exact absurd hpass (by simp [h n hn ((received.holds_iff_getAll n).mpr hne)])
        rw [if_pos hpass, hnone]
        rfl
      · exact absurd hpass (by simp [hkeep n hn])
    · rw [if_neg hpass]
      rfl

theorem passesRequest_eq_false {n : HeaderName} :
    passesRequest n = false ↔ isHopByHop n = true ∨ n = .acceptEncoding := by
  simp only [passesRequest, Bool.and_eq_false_iff, Bool.not_eq_false', decide_eq_false_iff_not,
    not_not]

theorem passesResponse_eq_false {n : HeaderName} :
    passesResponse n = false ↔ isHopByHop n = true ∨ n = .contentEncoding := by
  simp only [passesResponse, Bool.and_eq_false_iff, Bool.not_eq_false', decide_eq_false_iff_not,
    not_not]

/-- **When no field named by a connection option crosses the proxy**: exactly when each
one the message has is of the fixed list, or is the field the sidecar replaces or drops
on that side anyway.  Any other field an option names is passed on. -/
theorem connection_options_iff (lib : Crates) (hv : lib.http.ValueRule) (up : UpstreamClient)
    (signer : SigningState lib) (env : Env) (req : Request) (cap : Nat) :
    (∀ upReq ∈ sends (runPipeline lib up signer env req cap).log,
      (ConnectionFieldsDropped req.headers upReq.headers identityField ↔
        ∀ n, n.bytes ∈ connectionOptions req.headers → req.headers.Holds n →
          isHopByHop n = true ∨ n = .acceptEncoding)) ∧
    (∀ resp, (runPipeline lib up signer env req cap).result = some (.ok resp) →
      ∃ upReq upResp signed, (runPipeline lib up signer env req cap).log = [.send upReq] ∧
        (env.upstream upReq).2 = some upResp ∧
        signer.sign env.signClock req.body.content resp.body = some signed ∧
        (ConnectionFieldsDropped upResp.headers resp.headers (signingFields signed) ↔
          ∀ n, n.bytes ∈ connectionOptions upResp.headers → upResp.headers.Holds n →
            isHopByHop n = true ∨ n = .contentEncoding)) := by
  constructor
  · intro upReq h
    obtain ⟨-, uri, -, hbuild⟩ := mem_sends_runPipeline.mp h
    rw [connectionFieldsDropped_iff (fun n hn => passesRequest_eq_false.mpr (Or.inl hn))
      (getAll_upstreamRequest hv hbuild)]
    simp only [passesRequest_eq_false]
  · intro resp h
    obtain ⟨upReq, upResp, signed, hp, rfl⟩ := runPipeline_ok h
    have hbody := (hp.forwardedResponse hv).body
    refine ⟨upReq, upResp, signed, hp.log, hp.answered, by rw [hbody]; exact hp.signed, ?_⟩
    rw [connectionFieldsDropped_iff (fun n hn => passesResponse_eq_false.mpr (Or.inl hn))
      (getAll_signedResponse hv hp.signed upResp upResp.body.content)]
    simp only [passesResponse_eq_false]

namespace KnownAnswers

/-- A `POST` of the vector's body with the given fields. -/
def postWith (fields : List (HeaderName × HeaderValue)) : Request :=
  ⟨ascii "POST", (post "/" []).uri, MultiMap.empty.appendAll fields, bodyOf rpcRequest⟩

/-- It is sent on. -/
theorem sent_postWith (fields : List (HeaderName × HeaderValue)) :
    ∃ upReq, upReq ∈ sends (runPipeline crates upstream signer env (postWith fields) usizeMax).log := by
  obtain ⟨uri, huri⟩ := Option.isSome_iff_exists.mp
    (by decide +kernel : (upstream.upstreamUri crates (post "/" []).uri).isSome = true)
  have hwithin : (postWith fields).body.Within usizeMax := within_bodyOf (by decide)
  exact ⟨_, mem_sends_runPipeline.mpr ⟨hwithin, uri, huri, buildUpstreamRequest_eq http_values _ _ _⟩⟩

end KnownAnswers

open KnownAnswers in
/-- Options of the fixed list, in any case and over two fields, are dropped with their
fields, and so is an `Accept-Encoding` that an option names. -/
theorem connection_options_vector :
    let req := postWith [(.connection, ascii "Keep-Alive, TE"), (.connection, ascii " accept-encoding"),
      (.keepAlive, ascii "timeout=5"), (.te, ascii "trailers"), (.acceptEncoding, ascii "gzip")]
    ∃ upReq ∈ sends (runPipeline crates upstream signer env req usizeMax).log,
      ConnectionFieldsDropped req.headers upReq.headers identityField := by
  intro req
  obtain ⟨upReq, hsent⟩ := sent_postWith [(.connection, ascii "Keep-Alive, TE"),
    (.connection, ascii " accept-encoding"), (.keepAlive, ascii "timeout=5"),
    (.te, ascii "trailers"), (.acceptEncoding, ascii "gzip")]
  obtain ⟨hreq, -⟩ := connection_options_iff crates http_values upstream signer env req usizeMax
  refine ⟨upReq, hsent, (hreq upReq hsent).mpr ?_⟩
  have hoptions : ∀ o ∈ connectionOptions req.headers, o ∈ [HeaderName.keepAlive.bytes,
      HeaderName.te.bytes, HeaderName.acceptEncoding.bytes] := by decide
  intro n hn _
  have hmem := hoptions _ hn
  simp only [List.mem_cons, List.not_mem_nil, or_false] at hmem
  rcases hmem with h | h | h
  · exact Or.inl (HeaderName.ext_bytes h ▸ by decide)
  · exact Or.inl (HeaderName.ext_bytes h ▸ by decide)
  · exact Or.inr (HeaderName.ext_bytes h)

open KnownAnswers in
/-- A request that declares `X-Hop` to be for this connection only: the node gets it. -/
theorem connection_option_is_passed_on :
    let req := postWith [(.connection, ascii "x-hop"), (.of "X-Hop", ascii "1")]
    ascii "x-hop" ∈ connectionOptions req.headers ∧
      ∃ upReq ∈ sends (runPipeline crates upstream signer env req usizeMax).log,
        upReq.headers.getAll (.of "X-Hop") = [ascii "1"] ∧
        ¬ ConnectionFieldsDropped req.headers upReq.headers identityField := by
  intro req
  have hoption : ascii "x-hop" ∈ connectionOptions req.headers := by decide
  obtain ⟨upReq, hsent⟩ := sent_postWith [(.connection, ascii "x-hop"), (.of "X-Hop", ascii "1")]
  have hfwd := forwardedRequest_of_mem_sends http_values hsent
  have hvalues : upReq.headers.getAll (.of "X-Hop") = [ascii "1"] := by
    rw [hfwd.endToEnd (.of "X-Hop") (by decide) (by decide)]
    decide
  refine ⟨hoption, upReq, hsent, hvalues, fun hdropped => ?_⟩
  have hnone : _ = ownValues identityField (.of "X-Hop") :=
    hdropped (.of "X-Hop") (Or.inl (by exact hoption))
  rw [hvalues] at hnone
  exact absurd hnone (by decide)

end VrpcSidecar
