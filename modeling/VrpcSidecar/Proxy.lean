import VrpcSidecar.Environment
import VrpcSidecar.Signing

/-! # The passthrough route

`proxy.rs`: collect the request, send it on with the hop-by-hop fields removed and
`Accept-Encoding: identity` forced, collect the response, sign both bodies, and
serve the response with the upstream's status and end-to-end fields and the three
signing headers.  Each step may end the pipeline early with a bare status.

`runPipeline_ok` takes a pipeline that ended in a signed response apart: what was
collected, what was sent, what came back, and what was built from it.
-/
namespace VrpcSidecar

/-- `u16::MAX - 1`, the longest path and query whose offsets fit. -/
def maxPathAndQuery : Nat := 65534

/-- `usize::MAX` on a 64-bit target. -/
def usizeMax : Nat := 2 ^ 64 - 1

/-- `builder.header(name, text)` for a text that is still to become a value. -/
def headerText (lib : Crates) (m : HeaderMap) (name : HeaderName) (text : Bytes) :
    Option HeaderMap :=
  (lib.http.headerValueFromBytes text).map (m.append name)

theorem isHeaderValue_of_visible {bs : Bytes} (h : Visible bs) : IsHeaderValue bs := by
  intro b hb
  obtain ⟨hge, hle⟩ := h b hb
  refine Or.inl ⟨hge, ?_⟩
  rintro rfl
  exact absurd hle (by decide)

/-- Visible text always becomes a value. -/
theorem headerText_visible {lib : Crates} (hv : lib.http.ValueRule) (m : HeaderMap)
    (name : HeaderName) {text : Bytes} (h : Visible text) :
    headerText lib m name text = some (m.append name text) := by
  rw [headerText, (hv text text).mpr ⟨rfl, isHeaderValue_of_visible h⟩, Option.map_some]

/-- `is_hop_by_hop`. -/
def isHopByHop (name : HeaderName) : Bool :=
  name = .connection || name = .keepAlive || name = .proxyAuthenticate ||
    name = .proxyAuthorization || name = .te || name = .trailers || name = .trailer ||
    name = .transferEncoding || name = .upgrade || name = .host

/-- `UpstreamClient`, its connection pool aside. -/
structure UpstreamClient where
  upstreamUrl : Uri
  maxBodyBytes : Option Nat

namespace UpstreamClient
variable (lib : Crates) (up : UpstreamClient)

/-- `UpstreamClient::new`. -/
def new (upstreamUrl : Bytes) (maxBodyBytes : Option Nat) : Option UpstreamClient :=
  (lib.http.uriFromStr upstreamUrl).map (fun u => ⟨u, maxBodyBytes⟩)

/-- The base path without its trailing slashes. -/
def basePath : Bytes := up.upstreamUrl.path.rdropWhile (fun b => b = 0x2f)

/-- `origin_path_and_query`. -/
def originPathAndQuery (pathAndQuery : Bytes) : Option PathAndQuery :=
  -- the `http` crate keeps the offset of the query in a `u16`
  if up.basePath.length + pathAndQuery.length > maxPathAndQuery then none
  else lib.http.pathAndQueryTryFrom (up.basePath ++ pathAndQuery)

/-- `origin_uri`. -/
def originUri (pathAndQuery : PathAndQuery) : Option Uri :=
  lib.http.uriFromParts up.upstreamUrl.scheme up.upstreamUrl.authority pathAndQuery

/-- `upstream_uri`. -/
def upstreamUri (uri : Uri) : Option Uri := do
  let pathAndQuery := (uri.pathAndQuery.map PathAndQuery.asStr).getD (ascii "/")
  let pathAndQuery ← up.originPathAndQuery lib pathAndQuery
  up.originUri lib pathAndQuery

end UpstreamClient

/-- `send`: one request on the shared pool. -/
def send (env : Env) (req : OutRequest) : Run Event (Option Incoming) := do
  Run.emitOne (.send req)
  Run.waitFor (env.upstream req).1
  return (env.upstream req).2

/-- The fields of a request that are passed on. -/
def forwardedRequestFields (headers : HeaderMap) : List (HeaderName × HeaderValue) :=
  headers.toList.filter (fun p => !isHopByHop p.1 && p.1 ≠ .acceptEncoding)

/-- The request `send_upstream` builds. -/
def buildUpstreamRequest (lib : Crates) (req : Request) (uri : Uri) (requestBytes : Bytes) :
    Option OutRequest := do
  let headers := MultiMap.empty.appendAll (forwardedRequestFields req.headers)
  let headers ← headerText lib headers .acceptEncoding (ascii "identity")
  return ⟨req.method, uri, headers, requestBytes⟩

/-- `send_upstream`. -/
def sendUpstream (lib : Crates) (up : UpstreamClient) (env : Env) (req : Request)
    (requestBytes : Bytes) : Run Event (Except Response Incoming) := do
  match up.upstreamUri lib req.uri with
  | none => return .error StatusCode.internalServerError.intoResponse
  | some uri =>
    match buildUpstreamRequest lib req uri requestBytes with
    | none => return .error StatusCode.internalServerError.intoResponse
    | some upReq =>
      match ← send env upReq with
      | none => return .error StatusCode.badGateway.intoResponse
      | some upResp => return .ok upResp

/-- Collect a body under the cap, or answer with a bare status. -/
def collectOr (status : StatusCode) (body : BodyStream) (cap : Nat) :
    Run Event (Except Response Bytes) := do
  match ← collect cap body with
  | .error _ => return .error status.intoResponse
  | .ok bytes => return .ok bytes

/-- `collect_request`. -/
def collectRequest (req : Request) (cap : Nat) : Run Event (Except Response Bytes) :=
  collectOr .payloadTooLarge req.body cap

/-- `collect_upstream_response`. -/
def collectUpstreamResponse (upResp : Incoming) (cap : Nat) : Run Event (Except Response Bytes) :=
  collectOr .badGateway upResp.body cap

/-- `sign_or_500`. -/
def signOr500 {lib : Crates} (signer : SigningState lib) (clock : Int)
    (requestBytes responseBytes : Bytes) : Except Response SignedResponse :=
  match signer.sign clock requestBytes responseBytes with
  | some signed => .ok signed
  | none => .error StatusCode.internalServerError.intoResponse

/-- The fields of an upstream response that are passed on. -/
def forwardedResponseFields (headers : HeaderMap) : List (HeaderName × HeaderValue) :=
  headers.toList.filter (fun p => !isHopByHop p.1 && p.1 ≠ .contentEncoding)

/-- `build_signed_response`. -/
def buildSignedResponse (lib : Crates) (upResp : Incoming) (responseBytes : Bytes)
    (signed : SignedResponse) : Response :=
  let built : Option Response := do
    let headers := MultiMap.empty.appendAll (forwardedResponseFields upResp.headers)
    let headers ← headerText lib headers .vrpcSignature signed.signatureHex
    let headers ← headerText lib headers .vrpcTimestamp signed.timestampText
    let headers ← headerText lib headers .vrpcPubkey signed.pubkeyHex
    return ⟨upResp.status, headers, responseBytes⟩
  built.getD StatusCode.internalServerError.intoResponse

/-- `run_pipeline`. -/
def runPipeline (lib : Crates) (up : UpstreamClient) (signer : SigningState lib) (env : Env)
    (req : Request) (cap : Nat) : Run Event (Except Response Response) := do
  match ← collectRequest req cap with
  | .error early => return .error early
  | .ok requestBytes =>
    match ← sendUpstream lib up env req requestBytes with
    | .error early => return .error early
    | .ok upResp =>
      match ← collectUpstreamResponse upResp cap with
      | .error early => return .error early
      | .ok responseBytes =>
        match signOr500 signer env.signClock requestBytes responseBytes with
        | .error early => return .error early
        | .ok signed => return .ok (buildSignedResponse lib upResp responseBytes signed)

/-- `forward`: no cap means the largest one. -/
def forward (lib : Crates) (up : UpstreamClient) (signer : SigningState lib) (env : Env)
    (req : Request) : Run Event Response := do
  match ← runPipeline lib up signer env req (up.maxBodyBytes.getD usizeMax) with
  | .ok resp => return resp
  | .error early => return early

/-! ## What a pipeline did -/

section Pipeline
variable {lib : Crates} {up : UpstreamClient} {signer : SigningState lib} {env : Env}
  {req : Request} {cap : Nat}

@[simp] theorem result_send (env : Env) (r : OutRequest) :
    (send env r).result = some (env.upstream r).2 := rfl

@[simp] theorem log_send (env : Env) (r : OutRequest) : (send env r).log = [.send r] := rfl

theorem collectOr_ok_iff {status : StatusCode} {body : BodyStream} {bs : Bytes} :
    (collectOr status body cap).result = some (.ok bs) ↔
      body.Within cap ∧ bs = body.content := by
  rw [← collect_ok_iff (E := Event), collectOr, Run.bind_eq, Run.result_andThen_eq_some]
  constructor
  · rintro ⟨r, hr, hok⟩
    cases r with
    | error e => cases hok
    | ok bytes =>
      cases hok
      exact hr
  · intro h
    exact ⟨.ok bs, h, rfl⟩

theorem collectOr_returns (status : StatusCode) (body : BodyStream) (cap : Nat) :
    ∃ r, (collectOr status body cap).result = some r := by
  obtain ⟨r, hr⟩ := collect_returns (E := Event) cap body
  rw [collectOr, Run.bind_eq, Run.result_andThen, hr]
  cases r <;> exact ⟨_, rfl⟩

theorem collectOr_error {status : StatusCode} {body : BodyStream} {resp : Response}
    (h : (collectOr status body cap).result = some (.error resp)) :
    resp = status.intoResponse := by
  obtain ⟨r, -, hr⟩ := Run.result_andThen_eq_some.mp h
  cases r with
  | error e =>
    cases hr
    rfl
  | ok bytes => cases hr

@[simp] theorem log_collectOr (status : StatusCode) (body : BodyStream) (cap : Nat) :
    (collectOr status body cap).log = [] := by
  obtain ⟨r, hr⟩ := collect_returns (E := Event) cap body
  rw [collectOr, Run.bind_eq, Run.log_andThen hr, log_collect]
  cases r <;> rfl

/-- The upstream leg of a pipeline that got an answer. -/
theorem sendUpstream_ok_iff {requestBytes : Bytes} {upResp : Incoming} :
    (sendUpstream lib up env req requestBytes).result = some (.ok upResp) ↔
      ∃ uri upReq, up.upstreamUri lib req.uri = some uri ∧
        buildUpstreamRequest lib req uri requestBytes = some upReq ∧
        (env.upstream upReq).2 = some upResp := by
  unfold sendUpstream
  cases up.upstreamUri lib req.uri with
  | none => simp
  | some uri =>
    cases hreq : buildUpstreamRequest lib req uri requestBytes with
    | none => simp [hreq]
    | some upReq =>
      cases hans : (env.upstream upReq).2 with
      | none => simp [hreq, hans, Run.result_andThen]
      | some resp => simp [hreq, hans, Run.result_andThen]

/-- The request sent on carries the body it was given. -/
theorem buildUpstreamRequest_body {uri : Uri} {requestBytes : Bytes} {upReq : OutRequest}
    (h : buildUpstreamRequest lib req uri requestBytes = some upReq) :
    upReq.body = requestBytes := by
  simp only [buildUpstreamRequest, Option.bind_eq_bind, Option.bind_eq_some_iff, Option.pure_def,
    Option.some.injEq] at h
  obtain ⟨headers, -, rfl⟩ := h
  rfl

/-- The request the upstream leg sends for a collected one, when one can be built. -/
def upstreamRequest (lib : Crates) (up : UpstreamClient) (req : Request) (requestBytes : Bytes) :
    Option OutRequest :=
  (up.upstreamUri lib req.uri).bind (fun uri => buildUpstreamRequest lib req uri requestBytes)

/-- The upstream leg sends one request, exactly when it can be built. -/
theorem log_sendUpstream (lib : Crates) (up : UpstreamClient) (env : Env) (req : Request)
    (requestBytes : Bytes) :
    (sendUpstream lib up env req requestBytes).log =
      ((upstreamRequest lib up req requestBytes).map Event.send).toList := by
  unfold sendUpstream upstreamRequest
  cases up.upstreamUri lib req.uri with
  | none => rfl
  | some uri =>
    rw [Option.bind_some]
    cases hreq : buildUpstreamRequest lib req uri requestBytes with
    | none =>
      simp only [hreq]
      rfl
    | some upReq =>
      simp only [hreq, Run.bind_eq]
      rw [Run.log_andThen (result_send env upReq), log_send]
      cases (env.upstream upReq).2 <;> rfl

theorem sendUpstream_returns (lib : Crates) (up : UpstreamClient) (env : Env) (req : Request)
    (requestBytes : Bytes) : ∃ r, (sendUpstream lib up env req requestBytes).result = some r := by
  unfold sendUpstream
  cases up.upstreamUri lib req.uri with
  | none => exact ⟨_, rfl⟩
  | some uri =>
    cases hreq : buildUpstreamRequest lib req uri requestBytes with
    | none => exact ⟨.error _, by simp only [hreq]; rfl⟩
    | some upReq =>
      simp only [hreq, Run.bind_eq, Run.result_andThen, result_send, Option.bind_some]
      cases (env.upstream upReq).2 <;> exact ⟨_, rfl⟩

theorem sendUpstream_error {requestBytes : Bytes} {resp : Response}
    (h : (sendUpstream lib up env req requestBytes).result = some (.error resp)) :
    ∃ s : StatusCode, resp = s.intoResponse := by
  unfold sendUpstream at h
  split at h
  · cases h
    exact ⟨_, rfl⟩
  · split at h
    · cases h
      exact ⟨_, rfl⟩
    · obtain ⟨o, -, ho⟩ := Run.result_andThen_eq_some.mp h
      cases o with
      | none =>
        cases ho
        exact ⟨_, rfl⟩
      | some upResp => cases ho

/-- **A pipeline that reached the end**: the request body was received within the
cap, `upReq` was built from it and sent, `upResp` came back with a body within the
cap, and `signed` is the signature over the two bodies. -/
structure Pipelined (lib : Crates) (up : UpstreamClient) (signer : SigningState lib) (env : Env)
    (req : Request) (cap : Nat) (upReq : OutRequest) (upResp : Incoming)
    (signed : SignedResponse) : Prop where
  received : req.body.Within cap
  built : ∃ uri, up.upstreamUri lib req.uri = some uri ∧
    buildUpstreamRequest lib req uri req.body.content = some upReq
  answered : (env.upstream upReq).2 = some upResp
  collected : upResp.body.Within cap
  signed : signer.sign env.signClock req.body.content upResp.body.content = some signed

/-- **When a pipeline ends in a signed response, and in which.** -/
theorem runPipeline_ok {resp : Response}
    (h : (runPipeline lib up signer env req cap).result = some (.ok resp)) :
    ∃ upReq upResp signed, Pipelined lib up signer env req cap upReq upResp signed ∧
      resp = buildSignedResponse lib upResp upResp.body.content signed := by
  obtain ⟨r, hreq, h⟩ := Run.result_andThen_eq_some.mp h
  rcases r with early | requestBytes
  · cases h
  obtain ⟨hwithin, rfl⟩ := collectOr_ok_iff.mp hreq
  obtain ⟨r, hup, h⟩ := Run.result_andThen_eq_some.mp h
  rcases r with early | upResp
  · cases h
  obtain ⟨uri, upReq, huri, hbuild, hans⟩ := sendUpstream_ok_iff.mp hup
  obtain ⟨r, hresp, h⟩ := Run.result_andThen_eq_some.mp h
  rcases r with early | responseBytes
  · cases h
  obtain ⟨hwithin', rfl⟩ := collectOr_ok_iff.mp hresp
  dsimp only [signOr500] at h
  cases hsign : signer.sign env.signClock req.body.content upResp.body.content with
  | none =>
    rw [hsign] at h
    cases h
  | some signed =>
    rw [hsign] at h
    cases h
    exact ⟨upReq, upResp, signed, ⟨hwithin, ⟨uri, huri, hbuild⟩, hans, hwithin', hsign⟩, rfl⟩

/-- **What a pipeline sends**: the request built from the collected body, once; nothing
when the body was not collected. -/
theorem log_runPipeline (signer : SigningState lib) (h : req.body.Within cap) :
    (runPipeline lib up signer env req cap).log =
      ((upstreamRequest lib up req req.body.content).map Event.send).toList := by
  have hreq : (collectRequest req cap).result = some (.ok req.body.content) :=
    collectOr_ok_iff.mpr ⟨h, rfl⟩
  obtain ⟨r, hup⟩ := sendUpstream_returns lib up env req req.body.content
  rw [runPipeline, Run.bind_eq, Run.log_andThen hreq, collectRequest, log_collectOr]
  dsimp only
  rw [Run.bind_eq, Run.log_andThen hup, log_sendUpstream]
  rcases r with early | upResp
  · exact List.append_nil _
  -- what follows the upstream leg only collects and signs
  obtain ⟨r, hresp⟩ := collectOr_returns .badGateway upResp.body cap
  dsimp only
  rw [Run.bind_eq, Run.log_andThen (r := collectUpstreamResponse upResp cap) hresp,
    collectUpstreamResponse, log_collectOr]
  rcases r with early | responseBytes
  · exact List.append_nil _
  · dsimp only
    cases signOr500 signer env.signClock req.body.content responseBytes <;> exact List.append_nil _

theorem log_runPipeline_refused (signer : SigningState lib) (h : ¬ req.body.Within cap) :
    (runPipeline lib up signer env req cap).log = [] := by
  obtain ⟨r, hr⟩ := collectOr_returns .payloadTooLarge req.body cap
  rw [runPipeline, Run.bind_eq, Run.log_andThen (r := collectRequest req cap) hr, collectRequest,
    log_collectOr]
  rcases r with early | bytes
  · rfl
  · exact absurd (collectOr_ok_iff.mp hr).1 h

/-- A request a pipeline sends was built from the body it collected. -/
theorem mem_sends_runPipeline {upReq : OutRequest} :
    upReq ∈ sends (runPipeline lib up signer env req cap).log ↔
      req.body.Within cap ∧ ∃ uri, up.upstreamUri lib req.uri = some uri ∧
        buildUpstreamRequest lib req uri req.body.content = some upReq := by
  by_cases h : req.body.Within cap
  · rw [log_runPipeline signer h, sends_toList, Option.mem_toList, upstreamRequest,
      Option.bind_eq_some_iff]
    simp [h]
  · rw [log_runPipeline_refused signer h]
    simp [h, sends]

/-- A pipeline that reached the end sent exactly one request. -/
theorem Pipelined.log {upReq : OutRequest} {upResp : Incoming} {signed : SignedResponse}
    (h : Pipelined lib up signer env req cap upReq upResp signed) :
    (runPipeline lib up signer env req cap).log = [.send upReq] := by
  obtain ⟨uri, huri, hbuild⟩ := h.built
  rw [log_runPipeline signer h.received, upstreamRequest, huri, Option.bind_some, hbuild]
  rfl

/-- A pipeline that reached the end returns the response built from it. -/
theorem Pipelined.result {upReq : OutRequest} {upResp : Incoming} {signed : SignedResponse}
    (h : Pipelined lib up signer env req cap upReq upResp signed) :
    (runPipeline lib up signer env req cap).result =
      some (.ok (buildSignedResponse lib upResp upResp.body.content signed)) := by
  obtain ⟨uri, huri, hbuild⟩ := h.built
  refine Run.result_andThen_eq_some.mpr ⟨_, collectOr_ok_iff.mpr ⟨h.received, rfl⟩, ?_⟩
  refine Run.result_andThen_eq_some.mpr
    ⟨_, sendUpstream_ok_iff.mpr ⟨uri, upReq, huri, hbuild, h.answered⟩, ?_⟩
  refine Run.result_andThen_eq_some.mpr ⟨_, collectOr_ok_iff.mpr ⟨h.collected, rfl⟩, ?_⟩
  simp only [signOr500, h.signed]
  rfl

/-- **A pipeline that ends early answers with a bare status.** -/
theorem runPipeline_error {resp : Response}
    (h : (runPipeline lib up signer env req cap).result = some (.error resp)) :
    ∃ s : StatusCode, resp = s.intoResponse := by
  obtain ⟨r, hreq, h⟩ := Run.result_andThen_eq_some.mp h
  rcases r with early | requestBytes
  · cases h
    exact ⟨_, collectOr_error hreq⟩
  obtain ⟨r, hup, h⟩ := Run.result_andThen_eq_some.mp h
  rcases r with early | upResp
  · cases h
    exact sendUpstream_error hup
  obtain ⟨r, hresp, h⟩ := Run.result_andThen_eq_some.mp h
  rcases r with early | responseBytes
  · cases h
    exact ⟨_, collectOr_error hresp⟩
  dsimp only [signOr500] at h
  cases hsign : signer.sign env.signClock requestBytes responseBytes with
  | none =>
    rw [hsign] at h
    cases h
    exact ⟨_, rfl⟩
  | some signed =>
    rw [hsign] at h
    cases h

/-- What `forward` returns when the pipeline reached the end. -/
theorem Pipelined.forward {upReq : OutRequest} {upResp : Incoming} {signed : SignedResponse}
    (h : Pipelined lib up signer env req (up.maxBodyBytes.getD usizeMax) upReq upResp signed) :
    (VrpcSidecar.forward lib up signer env req).result =
      some (buildSignedResponse lib upResp upResp.body.content signed) :=
  Run.result_andThen_eq_some.mpr ⟨_, h.result, rfl⟩

/-- **The response built from an answer**: its status and body, the fields passed on,
and the three signing headers appended to them. -/
theorem buildSignedResponse_eq (hv : lib.http.ValueRule) {clock : Int}
    {requestBody responseBody body : Bytes} {signed : SignedResponse} {upResp : Incoming}
    (hs : signer.sign clock requestBody responseBody = some signed) :
    buildSignedResponse lib upResp body signed =
      ⟨upResp.status, MultiMap.empty.appendAll (forwardedResponseFields upResp.headers ++
        [(.vrpcSignature, signed.signatureHex), (.vrpcTimestamp, signed.timestampText),
          (.vrpcPubkey, signed.pubkeyHex)]), body⟩ := by
  obtain ⟨t, -, rfl⟩ := signer.sign_eq_some.mp hs
  obtain ⟨hsig, hts, hpk⟩ := signer.visible_texts requestBody responseBody t
  simp only [buildSignedResponse, headerText_visible hv _ _ hsig, headerText_visible hv _ _ hts,
    headerText_visible hv _ _ hpk, Option.bind_eq_bind, Option.bind_some, Option.pure_def,
    Option.getD_some, MultiMap.appendAll_append, MultiMap.appendAll_cons, MultiMap.appendAll_nil]

end Pipeline

end VrpcSidecar
