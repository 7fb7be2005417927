import VrpcSidecar.AttestationWire
import VrpcSidecar.OutcomeRecords
import VrpcSidecar.Routing

/-! # The server

`server.rs`: the state every call shares, and the router over the four handlers.
`/confidential` stands outside the two layers of the passthrough routes, so its responses
are never compressed; `/attestation` and `/info` are served locally; every other path is
proxied.

`serve_cases` says once which handler a request gets.  From it, `Served` collects what a
call leaves on each route, and `routes_keep_apart` is what follows for every request:
which routes can reach the upstream, which can ask for a quote, and where an outcome line
is written.
-/
namespace VrpcSidecar
open QueryStrings

/-! ## The crates around the handlers -/

/-- What `axum`, `serde_json` and `tower-http` do around the handlers. -/
structure WebCrates where
  json : JsonCrate
  /-- `String::from_utf8_lossy`, as the query extractor uses it. -/
  lossy : Lossy
  /-- The text of its rejection. -/
  queryRejection : Bytes
  /-- `CompressionLayer` on a response, given the headers of the request. -/
  compress : HeaderMap → Response → Response

namespace HeaderName

def acceptRanges : HeaderName := of "accept-ranges"
def contentLength : HeaderName := of "content-length"
def vary : HeaderName := of "vary"

/-- The fields that compression may change. -/
def describesTransfer (name : HeaderName) : Bool :=
  name = contentEncoding || name = contentLength || name = acceptRanges || name = vary

end HeaderName

/-- **What compression does** to a response that is not coded: it leaves the body, or
replaces it by one that `gunzip` takes back and says so; the status and the other fields
stay. -/
structure WebCrates.CompressionRule (web : WebCrates) (gunzip : Bytes → Option Bytes) : Prop where
  status : ∀ headers resp, (web.compress headers resp).status = resp.status
  kept : ∀ headers resp name, HeaderName.describesTransfer name = false →
    (web.compress headers resp).headers.getAll name = resp.headers.getAll name
  coding : ∀ headers resp, resp.headers.getAll .contentEncoding = [] →
    ((web.compress headers resp).headers.getAll .contentEncoding = [] ∧
      (web.compress headers resp).body = resp.body) ∨
    ((web.compress headers resp).headers.getAll .contentEncoding = [ascii "gzip"] ∧
      gunzip (web.compress headers resp).body = some resp.body)

/-- The response of a handler that returns an error: its status and its text. -/
def errorResponse (status : StatusCode) (text : Bytes) : Response :=
  ⟨status, MultiMap.empty.append .contentType (ascii "text/plain; charset=utf-8"), text⟩

/-- The extractor `Query::<AttestationQuery>`, with the response of its rejection. -/
def WebCrates.query (web : WebCrates) (uri : Uri) : Except Response AttestationQuery :=
  match AttestationQuery.visitMap none (textPairs web.lossy (uri.query.getD [])) with
  | some query => .ok query
  | none => .error (errorResponse .badRequest web.queryRejection)

/-- **Which requests the handler sees a nonce of.** -/
theorem WebCrates.query_asks_iff (web : WebCrates) {uri : Uri} {nonce : Block 32} :
    (∃ q, web.query uri = .ok q ∧ extractNonce q = .ok nonce) ↔
      AsksFor (uri.query.getD []) nonce := by
  rw [← visitMap_asks_iff web.lossy]
  unfold WebCrates.query
  cases AttestationQuery.visitMap none (textPairs web.lossy (uri.query.getD [])) with
  | none => simp
  | some q => simp

theorem WebCrates.query_error {web : WebCrates} {uri : Uri} {rejection : Response}
    (h : web.query uri = .error rejection) :
    rejection = errorResponse .badRequest web.queryRejection := by
  unfold WebCrates.query at h
  split at h
  · cases h
  · exact (Except.error.inj h).symm

/-! ## State and handlers -/

/-- `AppState`. -/
structure AppState (lib : Crates) where
  upstream : UpstreamClient
  signing : SigningState lib
  attestation : AttestationState
  confidential : ConfidentialConfig

/-- What a call observes: the upstream, the generator and the clocks, and dstack. -/
structure CallEnv where
  env : Env
  dstack : DstackClient

/-- What others see of the service. -/
inductive ServiceEvent where
  | call (e : Event)
  | dstack (c : DstackCall)

/-- The events of the two routes to the upstream. -/
def callEvents (es : List ServiceEvent) : List Event :=
  es.filterMap (fun e => match e with
    | .call e => some e
    | .dstack _ => none)

/-- The requests to dstack. -/
def dstackCalls (es : List ServiceEvent) : List DstackCall :=
  es.filterMap (fun e => match e with
    | .call _ => none
    | .dstack c => some c)

@[simp] theorem callEvents_append (xs ys : List ServiceEvent) :
    callEvents (xs ++ ys) = callEvents xs ++ callEvents ys := List.filterMap_append ..

@[simp] theorem callEvents_map_call (es : List Event) :
    callEvents (es.map ServiceEvent.call) = es := by simp [callEvents, List.filterMap_map]

@[simp] theorem dstackCalls_map_call (es : List Event) :
    dstackCalls (es.map ServiceEvent.call) = [] := by
  simp [dstackCalls, List.filterMap_map]

@[simp] theorem callEvents_map_dstack (cs : List DstackCall) :
    callEvents (cs.map ServiceEvent.dstack) = [] := by
  simp [callEvents, List.filterMap_map]

@[simp] theorem dstackCalls_map_dstack (cs : List DstackCall) :
    dstackCalls (cs.map ServiceEvent.dstack) = cs := by
  simp [dstackCalls, List.filterMap_map]

section Handlers
variable (lib : Crates) (web : WebCrates) (app : AppState lib) (ce : CallEnv)

/-- `confidential_exchange` as a task: dropped, its guard logs a cancelled outcome. -/
def confidentialJob (req : Request) : Job Event Response :=
  ⟨confidentialExchange lib app.upstream app.signing app.confidential ce.env req,
    fun t => [.logged (OutcomeGuard.drop ⟨none⟩ t)]⟩

/-- `confidential_handler`. -/
def confidentialHandler : Handler ServiceEvent := fun req =>
  (confidentialJob lib app ce req).embed .call

/-- `confidential_method_not_allowed`, as a handler. -/
def confidentialRefusal : Handler ServiceEvent := fun _ =>
  (⟨confidentialMethodNotAllowed, fun _ => []⟩ : Job Event Response).embed .call

/-- `proxy_handler`. -/
def proxyHandler : Handler ServiceEvent := fun req =>
  (⟨forward lib app.upstream app.signing ce.env req, fun _ => []⟩ : Job Event Response).embed .call

/-- The response for what `attestation_handler` returns. -/
def attestationAnswer (json : JsonCrate) :
    Except (StatusCode × Bytes) AttestationResponse → Response
  | .error (status, text) => errorResponse status text
  | .ok resp =>
    ⟨.ok, MultiMap.empty.append .contentType (ascii "application/json"), resp.toJson json⟩

/-- `attestation_handler` behind its extractor. -/
def attestationRoute : Handler ServiceEvent := fun req =>
  match web.query req.uri with
  | .error rejection => ⟨.ret rejection, fun _ => []⟩
  | .ok query =>
    ((⟨attestationHandler app.attestation ce.dstack query, fun _ => []⟩ :
      Job DstackCall _).embed ServiceEvent.dstack).map (attestationAnswer web.json)

/-- `info_handler`. -/
def infoRoute : Handler ServiceEvent := .always (infoHandler app.attestation)

/-- `DefaultBodyLimit`: the limit is read by extractors that buffer a body; the handlers
here take the request as it is, or none of its body. -/
def defaultBodyLimit (_limit : Option Nat) (h : Handler ServiceEvent) : Handler ServiceEvent := h

/-- `build_router`, against what one call observes. -/
def buildRouter (maxBodyBytes : Option Nat) : Router ServiceEvent :=
  let passthrough := ((((Router.new.route (ascii "/attestation")
      (.get (attestationRoute lib web app ce))).route (ascii "/info")
      (.get (infoRoute lib app))).withFallback (.any (proxyHandler lib app ce))).layer
      (defaultBodyLimit maxBodyBytes)).layer (Handler.mapResponse web.compress)
  (Router.new.route (ascii "/confidential")
    ((MethodRouter.post (confidentialHandler lib app ce)).withFallback confidentialRefusal)).merge
    passthrough

end Handlers

/-! ## Which handler serves a request -/

section Routes
variable {lib : Crates} {web : WebCrates} {app : AppState lib} {ce : CallEnv} {cap : Option Nat}

/-- The route table. -/
theorem methods_buildRouter (path : Bytes) :
    (buildRouter lib web app ce cap).methods path =
      if path = ascii "/confidential" then
        (MethodRouter.post (confidentialHandler lib app ce)).withFallback confidentialRefusal
      else if path = ascii "/attestation" then
        (MethodRouter.get (attestationRoute lib web app ce)).layer (Handler.mapResponse web.compress)
      else if path = ascii "/info" then
        (MethodRouter.get (infoRoute lib app)).layer (Handler.mapResponse web.compress)
      else (MethodRouter.any (proxyHandler lib app ce)).layer (Handler.mapResponse web.compress) := by
  by_cases hconf : path = ascii "/confidential"
  · rw [if_pos hconf, hconf]
    rfl
  by_cases hatt : path = ascii "/attestation"
  · rw [if_neg hconf, if_pos hatt, hatt]
    rfl
  by_cases hinfo : path = ascii "/info"
  · rw [if_neg hconf, if_neg hatt, if_pos hinfo, hinfo]
    rfl
  have hnone : (buildRouter lib web app ce cap).routes.lookup path = none := by
    have hconf' : (path == ascii "/confidential") = false := beq_eq_false_iff_ne.mpr hconf
    have hatt' : (path == ascii "/attestation") = false := beq_eq_false_iff_ne.mpr hatt
    have hinfo' : (path == ascii "/info") = false := beq_eq_false_iff_ne.mpr hinfo
    simp [buildRouter, Router.merge, Router.route, Router.new, Router.layer, Router.withFallback,
      List.lookup_cons, hconf', hatt', hinfo']
  rw [if_neg hconf, if_neg hatt, if_neg hinfo, Router.methods, hnone]
  rfl

/-- **What a call leaves, by its route.** -/
inductive Served (lib : Crates) (web : WebCrates) (app : AppState lib) (ce : CallEnv)
    (req : Request) : Option Response → List ServiceEvent → Prop where
  | confidential {o : Option Response} {evs : List Event}
      (hpath : req.uri.path = ascii "/confidential") (hmethod : req.method = ascii "POST")
      (h : (confidentialJob lib app ce req).Leaves o evs) :
      Served lib web app ce req o (evs.map .call)
  | refused (hpath : req.uri.path = ascii "/confidential") (hmethod : req.method ≠ ascii "POST") :
      Served lib web app ce req
        (some (Router.withoutBody req.method (MethodRouter.addAllow (some (ascii "POST"))
          StatusCode.methodNotAllowed.intoResponse)))
        [.call (.logged ((Outcome.plaintext .methodNotAllowed 0 0).line 405 0))]
  | attested {query : AttestationQuery}
      {o : Option (Except (StatusCode × Bytes) AttestationResponse)} {evs : List DstackCall}
      (hpath : req.uri.path = ascii "/attestation") (hmethod : MethodRouter.IsRead req.method)
      (hquery : web.query req.uri = .ok query)
      (h : (⟨attestationHandler app.attestation ce.dstack query, fun _ => []⟩ :
        Job DstackCall _).Leaves o evs) :
      Served lib web app ce req (o.map (fun r => Router.withoutBody req.method
        (web.compress req.headers (attestationAnswer web.json r)))) (evs.map .dstack)
  | rejected {rejection : Response} (hpath : req.uri.path = ascii "/attestation")
      (hmethod : MethodRouter.IsRead req.method) (hquery : web.query req.uri = .error rejection) :
      Served lib web app ce req (some (Router.withoutBody req.method
        (web.compress req.headers rejection))) []
  | info (hpath : req.uri.path = ascii "/info") (hmethod : MethodRouter.IsRead req.method) :
      Served lib web app ce req (some (Router.withoutBody req.method
        (web.compress req.headers (infoHandler app.attestation)))) []
  | notAllowed (hpath : req.uri.path = ascii "/attestation" ∨ req.uri.path = ascii "/info")
      (hmethod : ¬ MethodRouter.IsRead req.method) :
      Served lib web app ce req (some (Router.withoutBody req.method
        (MethodRouter.addAllow (some (ascii "GET,HEAD"))
          (web.compress req.headers StatusCode.methodNotAllowed.intoResponse)))) []
  | proxied {o : Option Response} {evs : List Event}
      (hconf : req.uri.path ≠ ascii "/confidential") (hatt : req.uri.path ≠ ascii "/attestation")
      (hinfo : req.uri.path ≠ ascii "/info")
      (h : (⟨forward lib app.upstream app.signing ce.env req, fun _ => []⟩ :
        Job Event Response).Leaves o evs) :
      Served lib web app ce req (o.map (fun resp => Router.withoutBody req.method
        (web.compress req.headers resp))) (evs.map .call)

variable {req : Request} {o : Option Response} {es : List ServiceEvent}

theorem withoutBody_post (resp : Response) : Router.withoutBody (ascii "POST") resp = resp :=
  if_neg (by decide)

/-- A local route: `GET` and `HEAD` reach the handler, other methods are refused. -/
theorem leaves_get {h : Handler ServiceEvent} {o : Option Response}
    (hleaves : (((MethodRouter.get h).layer (Handler.mapResponse web.compress)).call req).Leaves o
      es) :
    (MethodRouter.IsRead req.method ∧ ∃ o', (h req).Leaves o' es ∧
      o = o'.map (web.compress req.headers)) ∨
    ¬ MethodRouter.IsRead req.method ∧ es = [] ∧
      o = some (MethodRouter.addAllow (some (ascii "GET,HEAD"))
        (web.compress req.headers StatusCode.methodNotAllowed.intoResponse)) := by
  obtain ⟨handler, hselect, hl⟩ | ⟨hselect, o', hl, rfl⟩ := MethodRouter.leaves_call hleaves
  · rw [MethodRouter.select_layer, MethodRouter.select_get] at hselect
    by_cases hread : MethodRouter.IsRead req.method
    · rw [if_pos hread] at hselect
      cases hselect
      exact .inl ⟨hread, Job.leaves_map_iff.mp hl⟩
    · rw [if_neg hread] at hselect
      cases hselect
  · rw [MethodRouter.select_layer, MethodRouter.select_get] at hselect
    by_cases hread : MethodRouter.IsRead req.method
    · rw [if_pos hread] at hselect
      cases hselect
    · obtain ⟨o'', hl', rfl⟩ := Job.leaves_map_iff.mp hl
      obtain ⟨rfl, rfl⟩ := Job.leaves_ret_iff.mp hl'
      exact .inr ⟨hread, rfl, rfl⟩

/-- **What the router makes of a request.** -/
theorem serve_leaves (hserve : ((buildRouter lib web app ce cap).serve req).Leaves o es) :
    Served lib web app ce req o es := by
  obtain ⟨o', h, rfl⟩ := Job.leaves_map_iff.mp hserve
  rw [methods_buildRouter] at h
  by_cases hconf : req.uri.path = ascii "/confidential"
  · rw [if_pos hconf] at h
    obtain ⟨handler, hselect, hl⟩ | ⟨hselect, o'', hl, rfl⟩ := MethodRouter.leaves_call h
    · rw [MethodRouter.select_post] at hselect
      split at hselect
      · rename_i hpost
        cases hselect
        obtain ⟨evs, hevs, rfl⟩ := Job.leaves_embed_iff.mp hl
        have hbody : Router.withoutBody req.method = id := by
          rw [hpost]
          funext resp
          exact withoutBody_post resp
        rw [hbody, Option.map_id_fun, id]
        exact .confidential hconf hpost hevs
      · cases hselect
    · rw [MethodRouter.select_post] at hselect
      split at hselect
      · cases hselect
      · rename_i hpost
        obtain ⟨evs, hevs, rfl⟩ := Job.leaves_embed_iff.mp hl
        cases hevs with
        | returned hret =>
          obtain rfl := Option.some.inj hret
          exact .refused hconf hpost
        | dropped hdrop => cases hdrop
  rw [if_neg hconf] at h
  by_cases hatt : req.uri.path = ascii "/attestation"
  · rw [if_pos hatt] at h
    obtain ⟨hread, o'', hl, rfl⟩ | ⟨hread, rfl, rfl⟩ := leaves_get h
    · unfold attestationRoute at hl
      cases hquery : web.query req.uri with
      | error rejection =>
        rw [hquery] at hl
        obtain ⟨rfl, rfl⟩ := Job.leaves_ret_iff.mp hl
        exact .rejected hatt hread hquery
      | ok query =>
        rw [hquery] at hl
        obtain ⟨o₃, hl', rfl⟩ := Job.leaves_map_iff.mp hl
        obtain ⟨evs, hevs, rfl⟩ := Job.leaves_embed_iff.mp hl'
        rw [Option.map_map, Option.map_map]
        exact .attested hatt hread hquery hevs
    · exact .notAllowed (.inl hatt) hread
  rw [if_neg hatt] at h
  by_cases hinfo : req.uri.path = ascii "/info"
  · rw [if_pos hinfo] at h
    obtain ⟨hread, o'', hl, rfl⟩ | ⟨hread, rfl, rfl⟩ := leaves_get h
    · obtain ⟨rfl, rfl⟩ := Job.leaves_ret_iff.mp hl
      exact .info hinfo hread
    · exact .notAllowed (.inr hinfo) hread
  rw [if_neg hinfo] at h
  obtain ⟨handler, hselect, -⟩ | ⟨-, o'', hl, rfl⟩ := MethodRouter.leaves_call h
  · rw [MethodRouter.select_layer, MethodRouter.select_any] at hselect
    cases hselect
  · obtain ⟨o₃, hl', rfl⟩ := Job.leaves_map_iff.mp hl
    obtain ⟨evs, hevs, rfl⟩ := Job.leaves_embed_iff.mp hl'
    rw [Option.map_map, Option.map_map]
    exact .proxied hconf hatt hinfo hevs

end Routes

/-! ## What a confidential call leaves -/

section Confidential
variable {lib : Crates} {app : AppState lib} {ce : CallEnv} {req : Request}
  {o : Option Response} {evs : List Event}

/-- After the exchange a call waits for nothing, so it is dropped where the exchange is. -/
theorem confidentialExchange_droppedAt (lib : Crates) (app : AppState lib) (ce : CallEnv)
    (req : Request) (n : Nat) :
    (confidentialExchange lib app.upstream app.signing app.confidential ce.env req).droppedAt n =
      (exchange lib app.upstream app.signing app.confidential ce.env req).droppedAt n := by
  rw [confidentialExchange, Run.bind_eq, Run.droppedAt_andThen, Run.timed, Run.droppedAt_andThen]
  · intro a m
    cases m <;> rfl
  · intro a m
    cases m <;> rfl

/-- What a call leaves, by what became of its future. -/
theorem confidentialJob_leaves (h : (confidentialJob lib app ce req).Leaves o evs) :
    (∃ resp out, o = some resp ∧
      (exchange lib app.upstream app.signing app.confidential ce.env req).result =
        some (resp, out) ∧
      evs = (exchange lib app.upstream app.signing app.confidential ce.env req).log ++
        [.logged (out.line resp.status.code (millis
          (exchange lib app.upstream app.signing app.confidential ce.env req).elapsed))]) ∨
    ∃ n d, o = none ∧
      (exchange lib app.upstream app.signing app.confidential ce.env req).droppedAt n = some d ∧
      evs = d.1 ++ [.logged (OutcomeGuard.drop ⟨none⟩ d.2)] := by
  cases h with
  | returned h =>
    obtain ⟨resp, out, hres, -⟩ :=
      exchange_ends lib app.upstream app.signing app.confidential ce.env req
    obtain ⟨hret, hlog⟩ := confidentialExchange_eq hres
    exact .inl ⟨resp, out, h.symm.trans hret, hres, hlog⟩
  | dropped h =>
    have hdrop := (confidentialExchange_droppedAt lib app ce req _).symm.trans h
    exact .inr ⟨_, _, rfl, hdrop, rfl⟩

/-- **One line, and one request at most**, however a call ends. -/
theorem confidentialJob_effects (h : (confidentialJob lib app ce req).Leaves o evs) :
    (loggedLines evs).length = 1 ∧ (sends evs).length ≤ 1 ∧
      sends evs <+: sends (exchange lib app.upstream app.signing app.confidential ce.env req).log := by
  have hone := length_sends_exchange lib app.upstream app.signing app.confidential ce.env req
  have hnone := loggedLines_exchange lib app.upstream app.signing app.confidential ce.env req
  obtain ⟨resp, out, -, -, rfl⟩ | ⟨n, d, -, hd, rfl⟩ := confidentialJob_leaves h
  · rw [loggedLines_append, hnone, sends_append]
    refine ⟨rfl, ?_, ?_⟩
    · rwa [List.length_append]
    · exact ⟨[], by simp [sends]⟩
  · have hpre := Run.droppedAt_prefix hd
    rw [loggedLines_append, loggedLines_of_prefix hpre hnone, sends_append]
    have hsends : sends d.1 ++ sends [.logged (OutcomeGuard.drop ⟨none⟩ d.2)] = sends d.1 :=
      List.append_nil _
    rw [hsends]
    have hsent := sends_prefix hpre
    exact ⟨rfl, hsent.length_le.trans hone, hsent⟩

/-- **The line of an ended call is true**: of the response it returned, or it says that the
call was dropped. -/
theorem confidentialJob_record (hv : lib.http.ValueRule) (hstatus : lib.bhttp.StatusRule)
    (hwrite : lib.bhttp.WriteRule) (h : (confidentialJob lib app ce req).Leaves o evs) :
    ∃ line, loggedLines evs = [line] ∧
      (o = none → line.outcome = "cancelled" ∧ line.status = 0) ∧
      ∀ resp, o = some resp → line.outcome ≠ "cancelled" ∧
        TrueRecord lib app.upstream app.signing app.confidential ce.env req resp line := by
  have hnone := loggedLines_exchange lib app.upstream app.signing app.confidential ce.env req
  obtain ⟨resp, out, rfl, hres, rfl⟩ | ⟨n, d, rfl, hd, rfl⟩ := confidentialJob_leaves h
  · obtain ⟨resp', out', hres', hend⟩ :=
      exchange_ends lib app.upstream app.signing app.confidential ce.env req
    cases Option.some.inj (hres.symm.trans hres')
    rw [loggedLines_append, hnone]
    refine ⟨_, rfl, fun hdropped => (by cases hdropped), ?_⟩
    intro resp' hresp
    cases hresp
    refine ⟨fun hcancelled => ?_, hend.trueRecord hv hstatus hwrite _⟩
    exact hend.not_cancelled (OutcomeClass.eq_cancelled hcancelled)
  · rw [loggedLines_append, loggedLines_of_prefix (Run.droppedAt_prefix hd) hnone]
    refine ⟨_, rfl, fun _ => ⟨rfl, rfl⟩, ?_⟩
    intro resp hresp
    cases hresp

end Confidential

/-! ## What a proxied call leaves -/

section Proxied
variable {lib : Crates} {up : UpstreamClient} {signer : SigningState lib} {env : Env}
  {req : Request}

/-- `forward` returns what its pipeline ended with. -/
theorem forward_eq (lib : Crates) (up : UpstreamClient) (signer : SigningState lib) (env : Env)
    (req : Request) :
    forward lib up signer env req =
      (runPipeline lib up signer env req (up.maxBodyBytes.getD usizeMax)).andThen
        (fun r => .ret (match r with
          | .ok resp => resp
          | .error early => early)) := by
  rw [forward, Run.bind_eq]
  congr 1
  funext r
  cases r <;> rfl

/-- A pipeline logs no outcome and sends one request at most. -/
theorem forward_effects (lib : Crates) (up : UpstreamClient) (signer : SigningState lib)
    (env : Env) (req : Request) :
    loggedLines (forward lib up signer env req).log = [] ∧
      (sends (forward lib up signer env req).log).length ≤ 1 := by
  rw [forward_eq, Run.log_andThen_ret]
  by_cases h : req.body.Within (up.maxBodyBytes.getD usizeMax)
  · rw [log_runPipeline signer h, sends_toList]
    exact ⟨loggedLines_sends _, Option.length_toList_le⟩
  · rw [log_runPipeline_refused signer h]
    exact ⟨rfl, Nat.zero_le 1⟩

theorem runPipeline_returns (lib : Crates) (up : UpstreamClient) (signer : SigningState lib)
    (env : Env) (req : Request) (cap : Nat) :
    ∃ r, (runPipeline lib up signer env req cap).result = some r := by
  obtain ⟨r, hreq⟩ := collectOr_returns .payloadTooLarge req.body cap
  rw [runPipeline, Run.bind_eq, Run.result_andThen, collectRequest, hreq, Option.bind_some]
  rcases r with early | requestBytes
  · exact ⟨_, rfl⟩
  obtain ⟨r, hup⟩ := sendUpstream_returns lib up env req requestBytes
  dsimp only
  rw [Run.bind_eq, Run.result_andThen, hup, Option.bind_some]
  rcases r with early | upResp
  · exact ⟨_, rfl⟩
  obtain ⟨r, hresp⟩ := collectOr_returns .badGateway upResp.body cap
  dsimp only
  rw [Run.bind_eq, Run.result_andThen, collectUpstreamResponse, hresp, Option.bind_some]
  rcases r with early | responseBytes
  · exact ⟨_, rfl⟩
  dsimp only
  cases signOr500 signer env.signClock requestBytes responseBytes with
  | error early => exact ⟨_, rfl⟩
  | ok signed => exact ⟨_, rfl⟩

theorem forward_returns (lib : Crates) (up : UpstreamClient) (signer : SigningState lib)
    (env : Env) (req : Request) : ∃ resp, (forward lib up signer env req).result = some resp := by
  obtain ⟨r, hr⟩ := runPipeline_returns lib up signer env req (up.maxBodyBytes.getD usizeMax)
  rw [forward_eq, Run.result_andThen, hr]
  exact ⟨_, rfl⟩

end Proxied

/-! ## The routes side by side -/

section Effects
variable {lib : Crates} {web : WebCrates} {gunzip : Bytes → Option Bytes} {resp : Response}

/-- The quotes a request to `/attestation` asks for: one, when it has a nonce. -/
theorem log_attestationHandler (att : AttestationState) (dstack : DstackClient)
    (query : AttestationQuery) :
    (attestationHandler att dstack query).log =
      match extractNonce query with
      | .ok nonce => [.getQuote (att.signingPubkey.bytes ++ nonce.bytes)]
      | .error _ => [] := by
  cases hextract : extractNonce query with
  | error e =>
    rw [attestationHandler_refused att dstack hextract]
    rfl
  | ok nonce =>
    obtain ⟨text⟩ := query
    cases text with
    | none => cases hextract
    | some text => exact (attestationHandler_nonce att dstack hextract).1

/-- **Every request is answered**, unless it is dropped. -/
theorem serve_returns (lib : Crates) (web : WebCrates) (app : AppState lib) (ce : CallEnv)
    (cap : Option Nat) (req : Request) :
    ∃ resp, ((buildRouter lib web app ce cap).serve req).run.result = some resp := by
  -- It is enough that the handler of the request returns: what is around it only maps.
  suffices key : ∃ resp, (((buildRouter lib web app ce cap).methods req.uri.path).call
      req).run.result = some resp by
    obtain ⟨resp, hresp⟩ := key
    exact ⟨_, by rw [Router.serve, Job.result_map, hresp]; rfl⟩
  have hget : ∀ h : Handler ServiceEvent, (∃ resp, (h req).run.result = some resp) →
      ∃ resp, (((MethodRouter.get h).layer (Handler.mapResponse web.compress)).call
        req).run.result = some resp := by
    rintro h ⟨resp, hresp⟩
    rw [MethodRouter.call, MethodRouter.select_layer, MethodRouter.select_get]
    by_cases hread : MethodRouter.IsRead req.method
    · rw [if_pos hread]
      exact ⟨_, (Job.result_map _ _).trans (congrArg _ hresp)⟩
    · rw [if_neg hread]
      exact ⟨_, rfl⟩
  rw [methods_buildRouter]
  by_cases hconf : req.uri.path = ascii "/confidential"
  · rw [if_pos hconf, MethodRouter.call, MethodRouter.select_post]
    by_cases hpost : req.method = ascii "POST"
    · rw [if_pos hpost]
      obtain ⟨resp, out, hres, -⟩ :=
        exchange_ends lib app.upstream app.signing app.confidential ce.env req
      exact ⟨_, (Job.result_embed _ _).trans (confidentialExchange_eq hres).1⟩
    · rw [if_neg hpost]
      exact ⟨_, rfl⟩
  rw [if_neg hconf]
  by_cases hatt : req.uri.path = ascii "/attestation"
  · rw [if_pos hatt]
    apply hget
    unfold attestationRoute
    cases web.query req.uri with
    | error rejection => exact ⟨_, rfl⟩
    | ok query =>
      dsimp only
      rw [Job.result_map, Job.result_embed]
      cases hextract : extractNonce query with
      | error e =>
        rw [attestationHandler_refused app.attestation ce.dstack hextract]
        exact ⟨_, rfl⟩
      | ok nonce =>
        obtain ⟨text⟩ := query
        cases text with
        | none => cases hextract
        | some text =>
          rw [(attestationHandler_nonce app.attestation ce.dstack hextract).2]
          exact ⟨_, rfl⟩
  rw [if_neg hatt]
  by_cases hinfo : req.uri.path = ascii "/info"
  · rw [if_pos hinfo]
    exact hget _ ⟨_, rfl⟩
  rw [if_neg hinfo, MethodRouter.call, MethodRouter.select_layer, MethodRouter.select_any]
  obtain ⟨resp, hresp⟩ := forward_returns lib app.upstream app.signing ce.env req
  have hproxy : (proxyHandler lib app ce req).run.result = some resp :=
    (Job.result_embed _ _).trans hresp
  have hlayered : (Handler.mapResponse web.compress (proxyHandler lib app ce) req).run.result =
      some (web.compress req.headers resp) := by
    rw [Handler.mapResponse, Job.result_map, hproxy]
    rfl
  exact ⟨_, (Job.result_map _ _).trans (congrArg _ hlayered)⟩

theorem not_isVrpc_of_describesTransfer {name : HeaderName}
    (h : HeaderName.describesTransfer name = true) : ¬ name.IsVrpc := by
  simp only [HeaderName.describesTransfer, Bool.or_eq_true, decide_eq_true_eq] at h
  rcases h with ((rfl | rfl) | rfl) | rfl <;> decide

theorem unsigned_iff_getAll :
    resp.Unsigned ↔ ∀ name : HeaderName, name.IsVrpc → resp.headers.getAll name = [] := by
  constructor
  · intro h name hname
    by_contra hne
    obtain ⟨p, hp, hkey⟩ := (MultiMap.holds_iff_getAll resp.headers name).mpr hne
    exact h p hp (hkey ▸ hname)
  · intro h p hp hname
    have hholds : resp.headers.Holds p.1 := ⟨p, hp, rfl⟩
    exact (MultiMap.holds_iff_getAll resp.headers p.1).mp hholds (h p.1 hname)

/-- No layer adds a signing header. -/
theorem WebCrates.CompressionRule.unsigned (hcomp : web.CompressionRule gunzip)
    (h : resp.Unsigned) (headers : HeaderMap) : (web.compress headers resp).Unsigned := by
  rw [unsigned_iff_getAll] at h ⊢
  intro name hname
  have htransfer : HeaderName.describesTransfer name = false := by
    cases ht : HeaderName.describesTransfer name with
    | false => rfl
    | true => exact absurd hname (not_isVrpc_of_describesTransfer ht)
  rw [hcomp.kept headers resp name htransfer, h name hname]

theorem unsigned_withoutBody (h : resp.Unsigned) (method : Bytes) :
    (Router.withoutBody method resp).Unsigned := by
  unfold Router.withoutBody
  split
  · exact h
  · exact h

theorem unsigned_addAllow (h : resp.Unsigned) (allowed : Option Bytes) :
    (MethodRouter.addAllow allowed resp).Unsigned := by
  cases allowed with
  | none => exact h
  | some methods =>
    unfold MethodRouter.addAllow
    dsimp only
    split
    · rw [unsigned_iff_getAll] at h ⊢
      intro name hname
      have hne : HeaderName.allow ≠ name := by
        rintro rfl
        exact absurd hname (by decide)
      rw [MultiMap.getAll_append, if_neg hne, h name hname, List.append_nil]
    · exact h

theorem unsigned_single {status : StatusCode} {value body : Bytes} :
    (⟨status, MultiMap.empty.append .contentType value, body⟩ : Response).Unsigned := by
  rw [unsigned_iff_getAll]
  intro name hname
  have hne : HeaderName.contentType ≠ name := by
    rintro rfl
    exact absurd hname (by decide)
  rw [MultiMap.getAll_append, if_neg hne, MultiMap.getAll_empty, List.append_nil]

end Effects

/-- The routes the sidecar answers itself, without the upstream. -/
def IsLocal (req : Request) : Prop :=
  req.uri.path = ascii "/attestation" ∨ req.uri.path = ascii "/info" ∨
    (req.uri.path = ascii "/confidential" ∧ req.method ≠ ascii "POST")

/-- **What a request may do, by its path and method**, and what it may be answered. -/
structure KeepsApart (lib : Crates) (web : WebCrates) (app : AppState lib) (ce : CallEnv)
    (req : Request) (o : Option Response) (es : List ServiceEvent) : Prop where
  /-- An outcome line is written for `/confidential`, once, and for no other path. -/
  lines : (loggedLines (callEvents es)).length =
    if req.uri.path = ascii "/confidential" then 1 else 0
  /-- One request at most goes to the upstream, and none of a local route. -/
  sends_le : (sends (callEvents es)).length ≤ 1
  sends_local : IsLocal req → sends (callEvents es) = []
  /-- One quote at most is asked for, by a read of `/attestation` with a nonce, over the
  signing key and that nonce. -/
  quotes_le : (dstackCalls es).length ≤ 1
  quotes : ∀ c ∈ dstackCalls es, req.uri.path = ascii "/attestation" ∧
    MethodRouter.IsRead req.method ∧ ∃ query nonce, web.query req.uri = .ok query ∧
      extractNonce query = .ok nonce ∧
      c = .getQuote (app.attestation.signingPubkey.bytes ++ nonce.bytes)
  /-- What is answered locally has no `vRPC-*` header. -/
  unsigned : IsLocal req → ∀ resp, o = some resp → resp.Unsigned
  /-- What `confidential_exchange` returned is served as it is. -/
  untouched : req.uri.path = ascii "/confidential" → req.method = ascii "POST" →
    ∀ resp, o = some resp →
      (confidentialExchange lib app.upstream app.signing app.confidential ce.env req).result =
        some resp

section KeepsApart
variable {lib : Crates} {web : WebCrates} {gunzip : Bytes → Option Bytes} {app : AppState lib}
  {ce : CallEnv} {req : Request}

/-- An answer without an event, on a path other than `/confidential`. -/
theorem KeepsApart.quiet {resp : Response} (hpath : req.uri.path ≠ ascii "/confidential")
    (hunsigned : resp.Unsigned) : KeepsApart lib web app ce req (some resp) [] where
  lines := by
    rw [if_neg hpath]
    rfl
  sends_le := Nat.zero_le 1
  sends_local _ := rfl
  quotes_le := Nat.zero_le 1
  quotes c hc := absurd hc List.not_mem_nil
  unsigned _ resp' hresp := by
    cases hresp
    exact hunsigned
  untouched hconf := absurd hconf hpath

theorem KeepsApart.confidential {o : Option Response} {evs : List Event}
    (hpath : req.uri.path = ascii "/confidential") (hmethod : req.method = ascii "POST")
    (h : (confidentialJob lib app ce req).Leaves o evs) :
    KeepsApart lib web app ce req o (evs.map .call) := by
  obtain ⟨hlines, hsends, -⟩ := confidentialJob_effects h
  have hnot : ¬ IsLocal req := by
    rintro (hatt | hinfo | ⟨-, hne⟩)
    · exact absurd (hpath.symm.trans hatt) (by decide)
    · exact absurd (hpath.symm.trans hinfo) (by decide)
    · exact hne hmethod
  constructor
  · rw [callEvents_map_call, if_pos hpath]
    exact hlines
  · rw [callEvents_map_call]
    exact hsends
  · exact fun hlocal => absurd hlocal hnot
  · rw [dstackCalls_map_call]
    exact Nat.zero_le 1
  · rw [dstackCalls_map_call]
    exact fun c hc => absurd hc List.not_mem_nil
  · exact fun hlocal => absurd hlocal hnot
  · intro _ _ resp hresp
    cases h with
    | returned hret => exact hret.trans hresp
    | dropped _ => cases hresp

theorem KeepsApart.attested (hcomp : web.CompressionRule gunzip) {query : AttestationQuery}
    {o : Option (Except (StatusCode × Bytes) AttestationResponse)} {evs : List DstackCall}
    (hpath : req.uri.path = ascii "/attestation") (hmethod : MethodRouter.IsRead req.method)
    (hquery : web.query req.uri = .ok query)
    (h : (⟨attestationHandler app.attestation ce.dstack query, fun _ => []⟩ :
      Job DstackCall _).Leaves o evs) :
    KeepsApart lib web app ce req (o.map (fun r => Router.withoutBody req.method
      (web.compress req.headers (attestationAnswer web.json r)))) (evs.map .dstack) := by
  have hconf : req.uri.path ≠ ascii "/confidential" := by
    rw [hpath]
    decide
  have hlog := h.log_prefix (fun _ => rfl)
  rw [log_attestationHandler] at hlog
  constructor
  · rw [callEvents_map_dstack, if_neg hconf]
    rfl
  · rw [callEvents_map_dstack]
    exact Nat.zero_le 1
  · intro _
    rw [callEvents_map_dstack]
    rfl
  · rw [dstackCalls_map_dstack]
    refine hlog.length_le.trans ?_
    split
    · exact Nat.le_refl 1
    · exact Nat.zero_le 1
  · intro c hc
    rw [dstackCalls_map_dstack] at hc
    have hmem := hlog.subset hc
    cases hextract : extractNonce query with
    | error e =>
      rw [hextract] at hmem
      cases hmem
    | ok nonce =>
      rw [hextract] at hmem
      exact ⟨hpath, hmethod, query, nonce, hquery, hextract, List.mem_singleton.mp hmem⟩
  · intro _ resp hresp
    obtain ⟨r, -, rfl⟩ := Option.map_eq_some_iff.mp hresp
    apply unsigned_withoutBody
    apply hcomp.unsigned
    rcases r with ⟨status, text⟩ | r
    · exact unsigned_single
    · exact unsigned_single
  · exact fun hpath' => absurd hpath' hconf

theorem KeepsApart.proxied {o : Option Response} {evs : List Event}
    (hconf : req.uri.path ≠ ascii "/confidential") (hatt : req.uri.path ≠ ascii "/attestation")
    (hinfo : req.uri.path ≠ ascii "/info")
    (h : (⟨forward lib app.upstream app.signing ce.env req, fun _ => []⟩ :
      Job Event Response).Leaves o evs) :
    KeepsApart lib web app ce req (o.map (fun resp => Router.withoutBody req.method
      (web.compress req.headers resp))) (evs.map .call) := by
  obtain ⟨hlines, hsends⟩ := forward_effects lib app.upstream app.signing ce.env req
  have hpre := h.log_prefix (fun _ => rfl)
  have hnot : ¬ IsLocal req := by
    rintro (hpath | hpath | ⟨hpath, -⟩)
    · exact hatt hpath
    · exact hinfo hpath
    · exact hconf hpath
  constructor
  · rw [callEvents_map_call, if_neg hconf, loggedLines_of_prefix hpre hlines]
    rfl
  · rw [callEvents_map_call]
    have hsent := sends_prefix hpre
    exact hsent.length_le.trans hsends
  · exact fun hlocal => absurd hlocal hnot
  · rw [dstackCalls_map_call]
    exact Nat.zero_le 1
  · rw [dstackCalls_map_call]
    exact fun c hc => absurd hc List.not_mem_nil
  · exact fun hlocal => absurd hlocal hnot
  · exact fun hpath => absurd hpath hconf

/-- What a call leaves keeps to its route. -/
theorem Served.keepsApart (hcomp : web.CompressionRule gunzip)
    {o : Option Response} {es : List ServiceEvent} (h : Served lib web app ce req o es) :
    KeepsApart lib web app ce req o es := by
  have hac : ascii "/attestation" ≠ ascii "/confidential" := by decide
  have hic : ascii "/info" ≠ ascii "/confidential" := by decide
  have h405 : StatusCode.methodNotAllowed.intoResponse.Unsigned :=
    StatusCode.intoResponse_unsigned _
  cases h with
  | confidential hpath hmethod h => exact .confidential hpath hmethod h
  | refused hpath hmethod =>
    exact {
      lines := by
        rw [if_pos hpath]
        rfl
      sends_le := Nat.zero_le 1
      sends_local := fun _ => rfl
      quotes_le := Nat.zero_le 1
      quotes := fun c hc => absurd hc List.not_mem_nil
      unsigned := fun _ resp hresp => by
        cases hresp
        exact unsigned_withoutBody (unsigned_addAllow h405 _) _
      untouched := fun _ hpost => absurd hpost hmethod }
  | attested hpath hmethod hquery h => exact .attested hcomp hpath hmethod hquery h
  | rejected hpath hmethod hquery =>
    rw [WebCrates.query_error hquery]
    refine .quiet ?_ (unsigned_withoutBody (hcomp.unsigned unsigned_single _) _)
    rw [hpath]
    exact hac
  | info hpath hmethod =>
    refine .quiet ?_ (unsigned_withoutBody (hcomp.unsigned unsigned_single _) _)
    rw [hpath]
    exact hic
  | notAllowed hpath hmethod =>
    refine .quiet ?_ (unsigned_withoutBody (unsigned_addAllow (hcomp.unsigned h405 _) _) _)
    rcases hpath with hpath | hpath
    · rw [hpath]
      exact hac
    · rw [hpath]
      exact hic
  | proxied hconf hatt hinfo h => exact .proxied hconf hatt hinfo h

end KeepsApart

/-- **The routes keep apart**, whatever becomes of a request: answered, or dropped at any
point. -/
theorem routes_keep_apart (lib : Crates) (web : WebCrates) (gunzip : Bytes → Option Bytes)
    (hcomp : web.CompressionRule gunzip)
    (app : AppState lib) (ce : CallEnv) (cap : Option Nat) (req : Request)
    (o : Option Response) (es : List ServiceEvent)
    (h : ((buildRouter lib web app ce cap).serve req).Leaves o es) :
    KeepsApart lib web app ce req o es := (serve_leaves h).keepsApart hcomp

namespace KnownAnswers

/-- Texts in UTF-8; of other bytes only the mark is left. -/
def lossy : Lossy where
  decode bs := (bs.toByteArray.utf8Decode?.map Array.toList).getD [replacementCharacter]
  valid t := by
    show (t.utf8Encode.utf8Decode?.map Array.toList).getD _ = t
    rw [List.utf8Decode?_utf8Encode]
    rfl
  invalid bs h := by
    cases hdecode : bs.toByteArray.utf8Decode? with
    | none => exact List.mem_singleton_self _
    | some cs =>
      have hsome : bs.toByteArray.utf8Decode?.isSome = true := by
        rw [hdecode]
        rfl
      exact absurd (utf8_of_utf8Encode ByteArray.utf8Encode_get_utf8Decode?)
        (h (bs.toByteArray.utf8Decode?.get hsome).toList)

/-- The crates as they act on requests from a client that does not accept gzip. -/
def web : WebCrates where
  json := structJson
  lossy := lossy
  queryRejection := ascii "Failed to deserialize query string: duplicate field `nonce`"
  compress _ resp :=
    if resp.body.length < 32 then resp
    else { resp with headers := resp.headers.append .vary (ascii "accept-encoding") }

/-- A coding nothing is compressed with. -/
theorem web_compresses : web.CompressionRule (fun _ => none) where
  status headers resp := by
    simp only [web]
    split <;> rfl
  kept headers resp name hname := by
    simp only [web]
    split
    · rfl
    · have hne : HeaderName.vary ≠ name := by
        rintro rfl
        exact absurd hname (by decide)
      rw [MultiMap.getAll_append, if_neg hne, List.append_nil]
  coding headers resp hplain := by
    have hne : HeaderName.vary ≠ HeaderName.contentEncoding := by decide
    simp only [web]
    split
    · exact .inl ⟨hplain, rfl⟩
    · refine .inl ⟨?_, rfl⟩
      rw [MultiMap.getAll_append, if_neg hne, hplain, List.append_nil]

/-- The state of a sidecar with the test seed. -/
def app : AppState crates where
  upstream := upstream
  signing := signer
  attestation := ⟨testPublicKey, ascii "abcd", ascii "\x7b\x7d", ascii "\x7b\x7d"⟩
  confidential := config

/-- What a call sees of the node of the vector. -/
def callEnv : CallEnv where
  env := env
  dstack :=
    { getKey := fun _ _ => (3, none)
      info := (2, none)
      getQuote := fun reportData =>
        (40, some ⟨ascii "dead", ascii "beef", hexEncode reportData, []⟩) }

end KnownAnswers

open KnownAnswers in
/-- The vector's request leaves one line and no request to dstack; the response is the one
`confidential_exchange` returned. -/
theorem routes_keep_apart_vector :
    ∃ resp es, ((buildRouter crates web app callEnv none).serve
        (post "/confidential" encapsulatedRequest)).Leaves (some resp) es ∧
      (loggedLines (callEvents es)).length = 1 ∧ (dstackCalls es).length ≤ 1 ∧
      (confidentialExchange crates upstream signer config env
        (post "/confidential" encapsulatedRequest)).result = some resp := by
  obtain ⟨resp, hresp⟩ := serve_returns crates web app callEnv none
    (post "/confidential" encapsulatedRequest)
  have hroutes := routes_keep_apart crates web _ web_compresses app callEnv none
    (post "/confidential" encapsulatedRequest) _ _ (.returned hresp)
  have hpath : (post "/confidential" encapsulatedRequest).uri.path = ascii "/confidential" := by
    decide
  refine ⟨resp, _, .returned hresp, ?_, hroutes.quotes_le, hroutes.untouched hpath rfl resp rfl⟩
  have hlines := hroutes.lines
  rwa [if_pos hpath] at hlines

end VrpcSidecar
