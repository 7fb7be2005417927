import VrpcSidecar.Serving

/-! # What a signature of a process means

Every response of a process that passes the client's check names the key of the process
(`ProcessReaches.namesKey`).

Between the process and the client stands a network that may replace, repeat and reorder
responses.  `accepted_means_answered` is what a client may conclude all the same: a response
it accepts carries what a call of the process answered to the very request the client sent,
when the message its signature stands for was signed by the process (`Unforged`) and SHA-256
does not collide on the bodies at hand.  The routes share one format of signatures, so the
call may have been one of either kind.
-/
namespace VrpcSidecar

/-! ## What a call signs -/

/-- **A call signed a body at a time**: the sealed answer of the confidential route, or the
body the upstream returned. -/
inductive Signs {lib : Crates} (app : AppState lib) (call : Call) : Bytes → UInt64 → Prop where
  | sealed {plaintext : Bytes} {ctx : ResponseContext} {nonce : Block 32} {inner : InnerCall}
      {answer : Sealed} {signed : SignedResponse} {t : UInt64} (hconf : IsConfidential call.req)
      (h : Answered lib app.upstream app.signing app.confidential call.ce.env call.req plaintext
        ctx nonce inner answer signed)
      (ht : nowMs call.ce.env.signClock = some t) : Signs app call answer.body t
  | forwarded {upReq : OutRequest} {upResp : Incoming} {signed : SignedResponse} {t : UInt64}
      (hpath : call.req.uri.path ≠ ascii "/confidential") (hlocal : ¬ IsLocal call.req)
      (h : Pipelined lib app.upstream app.signing call.ce.env call.req
        (app.upstream.maxBodyBytes.getD usizeMax) upReq upResp signed)
      (ht : nowMs call.ce.env.signClock = some t) : Signs app call upResp.body.content t

section Signed
variable {lib : Crates} {web : WebCrates} {gunzip : Bytes → Option Bytes} {app : AppState lib}
  {call : Call} {resp : Response} {es : List ServiceEvent}

theorem signedBy_withoutBody {signed : SignedResponse} (h : resp.SignedBy signed) (method : Bytes) :
    (Router.withoutBody method resp).SignedBy signed := by
  unfold Router.withoutBody
  split
  · exact h
  · exact h

/-- What `forward` answers is signed, or without signing headers. -/
theorem forward_signed
    (h : (forward lib app.upstream app.signing call.ce.env call.req).result = some resp) :
    (∃ s : StatusCode, resp = s.intoResponse) ∨
      ∃ upReq upResp signed, Pipelined lib app.upstream app.signing call.ce.env call.req
        (app.upstream.maxBodyBytes.getD usizeMax) upReq upResp signed ∧
        resp = buildSignedResponse lib upResp upResp.body.content signed := by
  rw [forward_eq, Run.result_andThen_eq_some] at h
  obtain ⟨r, hr, h⟩ := h
  cases h
  cases r with
  | error early => exact .inl (runPipeline_error hr)
  | ok served => exact .inr (runPipeline_ok hr)

/-- **A served response is signed for its request, or has no signing header.** -/
theorem Served.signed (hv : lib.http.ValueRule) (hcomp : web.CompressionRule gunzip)
    (hplain : call.ce.env.NoSignature) (h : Served lib web app call.ce call.req (some resp) es) :
    resp.Unsigned ∨ ∃ body t, Signs app call body t ∧
      resp.SignedBy (app.signing.signWithTimestamp call.req.body.content body t) := by
  by_cases hlocal : IsLocal call.req
  · exact .inl ((h.keepsApart hcomp).unsigned hlocal resp rfl)
  generalize ho : some resp = o at h
  cases h with
  | confidential hpath hmethod hleaves =>
    subst ho
    obtain ⟨resp', out, hresp, hres, -⟩ | ⟨n, d, hnone, -⟩ := confidentialJob_leaves hleaves
    · cases hresp
      obtain ⟨resp', out', hres', hend⟩ := exchange_ends lib app.upstream app.signing
        app.confidential call.ce.env call.req
      cases Option.some.inj (hres.symm.trans hres')
      cases hend with
      | sealed hr hcall hs hsign =>
        have hanswered : Answered lib app.upstream app.signing app.confidential call.ce.env
            call.req _ _ _ _ _ _ := ⟨hr, hcall, hs, hsign⟩
        obtain ⟨t, ht, rfl⟩ := app.signing.sign_eq_some.mp hsign
        exact .inr ⟨_, t, .sealed ⟨hpath, hmethod⟩ hanswered ht, hanswered.signedBy hv⟩
      | requestTooLarge _ => exact .inl (StatusCode.intoResponse_unsigned _)
      | requestReadFailed _ _ => exact .inl (StatusCode.intoResponse_unsigned _)
      | notOpened _ _ => exact .inl preDecapsulationError_unsigned
      | notReady _ _ _ => exact .inl (StatusCode.intoResponse_unsigned _)
      | notSealed _ _ _ => exact .inl (StatusCode.intoResponse_unsigned _)
      | notSigned _ _ _ _ => exact .inl (StatusCode.intoResponse_unsigned _)
    · cases hnone
  | refused hpath hmethod => exact absurd (.inr (.inr ⟨hpath, hmethod⟩)) hlocal
  | attested hpath _ _ _ => exact absurd (.inl hpath) hlocal
  | rejected hpath _ _ => exact absurd (.inl hpath) hlocal
  | info hpath _ => exact absurd (.inr (.inl hpath)) hlocal
  | notAllowed hpath _ => exact absurd (hpath.imp id .inl) hlocal
  | proxied hconf hatt hinfo hleaves =>
    obtain ⟨fwd, rfl, rfl⟩ := Option.map_eq_some_iff.mp ho.symm
    obtain ⟨s, rfl⟩ | ⟨upReq, upResp, signed, hp, rfl⟩ := forward_signed hleaves.result_eq
    · exact .inl (unsigned_withoutBody (hcomp.unsigned s.intoResponse_unsigned _) _)
    · have hsigned := signedBy_withoutBody (hp.signedBy hv hcomp hplain call.req.headers)
        call.req.method
      obtain ⟨t, ht, rfl⟩ := app.signing.sign_eq_some.mp hp.signed
      exact .inr ⟨_, t, .forwarded hconf hlocal hp ht, hsigned⟩

end Signed

/-! ## One key -/

section Process
variable {I : Type} [DecidableEq I] {lib : Crates} {web : WebCrates}
  {gunzip : Bytes → Option Bytes} {config : Config} {benv : BootEnv} {calls : I → Call}
  {app : AppState lib} {s : Service (AppState lib) I ServiceEvent Response}

theorem booted_of_bootOutcome (h : bootOutcome lib config benv = .ok app) :
    Booted config benv.dstack app := by
  rw [bootOutcome] at h
  cases hres : (boot lib config benv).result with
  | none =>
    rw [hres] at h
    cases h
  | some r =>
    rw [hres] at h
    exact booted_of_boot (hres.trans (congrArg some h))

/-- The calls of a process run with what it booted into. -/
theorem ProcessReaches.pool (h : ProcessReaches lib web config benv calls s)
    (happ : bootOutcome lib config benv = .ok app) :
    Pool.Reachable (fun i => serveCall lib web config app (calls i)) s.pool :=
  (Service.sound h).of_ok happ

/-- What a process has returned, its router made of the request. -/
theorem ProcessReaches.served (h : ProcessReaches lib web config benv calls s)
    (happ : bootOutcome lib config benv = .ok app) {i : I} {resp : Response}
    (hphase : s.pool.phase i = .returned resp) :
    Served lib web app (calls i).ce (calls i).req (some resp) (s.pool.eventsOf i) :=
  serve_leaves (Pool.leaves_returned (h.pool happ) hphase)

/-- What a process has returned and a client accepts names the key of the process. -/
theorem ProcessReaches.namesKey (h : ProcessReaches lib web config benv calls s)
    (happ : bootOutcome lib config benv = .ok app) (hv : lib.http.ValueRule)
    (hcomp : web.CompressionRule gunzip)
    {i : I} {resp : Response} {requestBody : Bytes} (hphase : s.pool.phase i = .returned resp)
    (hplain : (calls i).ce.env.NoSignature)
    (haccept : clientVerifies lib gunzip (utf8 config.chainId) requestBody resp = .ok ()) :
    NamesKey app.signing resp := by
  obtain ⟨body, -, hverify⟩ := bind_eq_ok.mp haccept
  obtain hunsigned | ⟨body, t, -, hsigned⟩ :=
    (h.served happ hphase).signed hv hcomp hplain
  · -- without signing headers the check refuses
    have hdecoded : ({ resp with body := body } : Response).Unsigned := hunsigned
    rw [verifySignedResponse_unsigned hdecoded] at hverify
    cases hverify
  · exact hsigned.namesKey

end Process

namespace KnownAnswers

/-- The process sends to the node of the vector. -/
theorem booted_upstream {app : AppState crates} (h : Booted sidecarConfig dstack app) :
    app.upstream = upstream := by
  have huri : crates.http.uriFromStr (utf8 sidecarConfig.upstreamUrl) =
      some ⟨some (ascii "http"), some (ascii "127.0.0.1:8545"), ⟨ascii "/", PathAndQuery.noQuery⟩⟩ := by
    decide +kernel
  have hnew := h.upstream
  rw [UpstreamClient.new, huri] at hnew
  exact (Option.some.inj hnew).symm

/-- It forwards the vector's request, and what it answers verifies. -/
theorem forwarded {app : AppState crates} (h : Booted sidecarConfig dstack app) {resp : Response}
    (hresp : (serveCall crates web sidecarConfig app ⟨post "/" rpcRequest, callEnv⟩).run.result =
      some resp) :
    clientVerifies crates (fun _ => none) app.signing.chainId rpcRequest resp = .ok () ∧
      clientBody (fun _ => none) resp = some rpcResponse := by
  obtain ⟨upReq, signed, hp⟩ := pipelined app.signing [(.contentType, ascii "application/json")]
    (by decide : rpcRequest.length ≤ usizeMax)
    (by decide : rpcResponse.length ≤ usizeMax)
  have hcap : app.upstream.maxBodyBytes.getD usizeMax = usizeMax := by
    rw [booted_upstream h]
    rfl
  rw [← booted_upstream h, ← hcap] at hp
  have hserved := serve_proxied web callEnv sidecarConfig.maxBodyBytes (by decide) (by decide)
    (by decide) (by decide) hp.forward
  obtain rfl := Option.some.inj (hresp.symm.trans hserved)
  obtain ⟨hok, -, hread⟩ := hp.verifies http_values ed25519_signs web_compresses callEnv_plain
  rw [content_post] at hok
  rw [content_answerWith] at hread
  exact ⟨hok, hread⟩

end KnownAnswers

/-! ## Agreement -/

/-- A message that a call of the process signed, and whose answer it gave. -/
def SignedIn {I : Type} {lib : Crates} (app : AppState lib) (calls : I → Call)
    (s : Service (AppState lib) I ServiceEvent Response) (message : Bytes) : Prop :=
  ∃ i served body t, s.pool.phase i = .returned served ∧ Signs app (calls i) body t ∧
    message = SigningState.signedMessage lib app.signing.chainId (calls i).req.body.content body t

/-- **The message a client checks was signed by the process**, if its signature is good.
This is unforgeability for the one message at hand, in a world where nothing else signs under
the key: dstack derives one key for all replicas of an app and for all their restarts, and
what another process signed is outside of this run. -/
def Unforged {I : Type} {lib : Crates} (app : AppState lib) (calls : I → Call)
    (s : Service (AppState lib) I ServiceEvent Response) (requestBody : Bytes) (resp : Response) :
    Prop :=
  ∀ (signature : Block 64) (t : UInt64),
    decodeHex0x (headerStr resp.headers .vrpcSignature) = .ok signature.bytes →
    parseU64 (headerStr resp.headers .vrpcTimestamp) = some t →
    let message := SigningState.signedMessage lib app.signing.chainId requestBody resp.body t
    lib.ed25519.verify app.signing.pubkeyBytes message signature = true →
    SignedIn app calls s message

/-- Equal messages have equal parts, as far as SHA-256 tells. -/
theorem signedMessage_inj {lib : Crates} {chainId request response request' response' : Bytes}
    {t t' : UInt64}
    (h : SigningState.signedMessage lib chainId request response t =
      SigningState.signedMessage lib chainId request' response' t') :
    lib.sha256 request = lib.sha256 request' ∧ lib.sha256 response = lib.sha256 response' ∧
      t = t' := by
  have hpre : buildPreImage (lib.sha256 chainId) (lib.sha256 request) (lib.sha256 response) t =
      buildPreImage (lib.sha256 chainId) (lib.sha256 request') (lib.sha256 response') t' :=
    Block.ext (by rw [bytes_buildPreImage, bytes_buildPreImage]; exact h)
  exact (buildPreImage_eq_iff.mp hpre).2

/-- **What a call gave a client**: a sealed answer with this body, or the body that the
upstream returned to a request with this one. -/
inductive Gave {I : Type} {lib : Crates} (app : AppState lib) (calls : I → Call)
    (s : Service (AppState lib) I ServiceEvent Response) (i : I) (requestBody body : Bytes) :
    Prop where
  | sealed {served : Response} (hconf : IsConfidential (calls i).req)
      (hphase : s.pool.phase i = .returned served)
      (hsealed : SealedAnswer lib app.upstream app.signing app.confidential (calls i).ce.env
        (calls i).req served) (hbody : served.body = body)
      (hrequest : (calls i).req.body.content = requestBody) : Gave app calls s i requestBody body
  | forwarded {served : Response} {upReq : OutRequest} {upResp : Incoming}
      (hphase : s.pool.phase i = .returned served)
      (hsent : (i, ServiceEvent.call (.send upReq)) ∈ s.pool.log)
      (hrequest : upReq.body = requestBody)
      (hanswered : ((calls i).ce.env.upstream upReq).2 = some upResp)
      (hbody : upResp.body.content = body) : Gave app calls s i requestBody body

section Gave
variable {I : Type} [DecidableEq I] {lib : Crates} {web : WebCrates} {config : Config}
  {benv : BootEnv} {calls : I → Call} {app : AppState lib}
  {s : Service (AppState lib) I ServiceEvent Response}

/-- A call has one sealed body. -/
theorem SealedAnswer.body_eq {up : UpstreamClient} {signer : SigningState lib}
    {cfg : ConfidentialConfig} {env : Env} {req : Request} {resp : Response}
    {plaintext : Bytes} {ctx : ResponseContext} {nonce : Block 32} {call : InnerCall}
    {answer : Sealed} {signed : SignedResponse} (h : SealedAnswer lib up signer cfg env req resp)
    (ha : Answered lib up signer cfg env req plaintext ctx nonce call answer signed) :
    resp.body = answer.body := by
  obtain ⟨_, _, _, _, _, _, ha', -, -, -, encoded, ct, hinner, hct, hbody⟩ := h
  cases Except.ok.inj (ha.reached.opened.symm.trans ha'.reached.opened)
  cases Option.some.inj (ha.reached.drawn.symm.trans ha'.reached.drawn)
  cases Option.some.inj (ha.called.symm.trans ha'.called)
  cases Except.ok.inj (ha.sealed.symm.trans ha'.sealed)
  obtain ⟨encoded', ct', hinner', hct', hanswer⟩ :=
    sealInner_ok (ofSuite_of_openRequest ha.reached.opened) ha.sealed
  cases Option.some.inj (hinner.symm.trans hinner')
  cases Option.some.inj (hct.symm.trans hct')
  rw [hbody, hanswer]

/-- What a call signed and returned, it gave. -/
theorem Signs.gave (hv : lib.http.ValueRule) (h : ProcessReaches lib web config benv calls s)
    (happ : bootOutcome lib config benv = .ok app) {i : I} {served : Response} {body : Bytes}
    {t : UInt64} (hphase : s.pool.phase i = .returned served) (hsigns : Signs app (calls i) body t) :
    Gave app calls s i (calls i).req.body.content body := by
  have hserved := h.served happ hphase
  cases hsigns with
  | sealed hconf ha ht =>
    obtain ⟨evs, hjob, -⟩ := hserved.of_confidential hconf
    obtain ⟨resp, out, hresp, hres, -⟩ | ⟨_, _, hnone, -⟩ := confidentialJob_leaves hjob
    · cases hresp
      obtain ⟨resp', out', hres', hend⟩ := exchange_ends lib app.upstream app.signing
        app.confidential (calls i).ce.env (calls i).req
      cases Option.some.inj (hres.symm.trans hres')
      have hsealed : SealedAnswer lib app.upstream app.signing app.confidential (calls i).ce.env
          (calls i).req served :=
        (hend.form_iff hv .answered).mpr ⟨_, _, _, _, _, _, ha⟩
      exact .sealed hconf hphase hsealed (hsealed.body_eq ha) rfl
    · cases hnone
  | forwarded hpath hlocal hp ht =>
    rename_i upReq upResp signed
    obtain ⟨uri, -, hbuilt⟩ := hp.built
    -- the log of the call is that of its pipeline
    have hlog : .call (.send upReq) ∈ s.pool.eventsOf i := by
      obtain ⟨o, evs, hleaves, hevs, ho⟩ := hserved.of_proxied hpath hlocal
      obtain ⟨fwd, rfl, -⟩ := Option.map_eq_some_iff.mp ho.symm
      have hforward : evs = [.send upReq] := by
        rw [hleaves.log_eq]
        show (forward lib app.upstream app.signing (calls i).ce.env (calls i).req).log = _
        rw [forward_eq, Run.log_andThen_ret, hp.log]
      rw [hevs, hforward]
      exact List.mem_singleton_self _
    exact .forwarded hphase (Pool.mem_eventsOf.mp hlog) (buildUpstreamRequest_body hbuilt)
      hp.answered rfl

omit [DecidableEq I] in
/-- What a client accepts was signed by a call that has returned, for the request of the
client. -/
theorem accepted_signed (happ : bootOutcome lib config benv = .ok app) {requestBody : Bytes}
    {resp : Response}
    (haccept : verifySignedResponse lib (utf8 config.chainId) requestBody resp = .ok ())
    (hkey : NamesKey app.signing resp)
    (hgenuine : Unforged app calls s requestBody resp)
    (hhash : ∀ i body t, Signs app (calls i) body t →
      NoCollision lib.sha256 requestBody (calls i).req.body.content ∧
        NoCollision lib.sha256 resp.body body) :
    ∃ i served t, s.pool.phase i = .returned served ∧ Signs app (calls i) resp.body t ∧
      requestBody = (calls i).req.body.content ∧
      parseU64 (headerStr resp.headers .vrpcTimestamp) = some t := by
  obtain ⟨signature, pubkey, t, hsig, hpk, ht, hverify⟩ := verifySignedResponse_sound haccept
  have hpubkey : pubkey = app.signing.pubkeyBytes := Block.ext (Except.ok.inj (hpk.symm.trans hkey))
  rw [hpubkey, ← (booted_of_bootOutcome happ).chain] at hverify
  obtain ⟨i, served, body, t', hphase, hsigns, hmessage⟩ := hgenuine signature t hsig ht hverify
  obtain ⟨hrequest, hresponse, rfl⟩ := signedMessage_inj hmessage
  obtain ⟨hrequest', hresponse'⟩ := hhash i body t hsigns
  obtain rfl := hresponse' hresponse
  exact ⟨i, served, t, hphase, hsigns, hrequest' hrequest, ht⟩

end Gave

/-- **An accepted response was answered.**  A client that sent a body and accepts a
response under the key of the process, whatever the network made of it, holds the body
and the time that a call of the process signed for that very request, and the call has
returned.  This is as long as the message of the signature is one the process signed and
SHA-256 tells these bodies apart. -/
theorem accepted_means_answered {I : Type} [DecidableEq I] (lib : Crates) (web : WebCrates)
    (hv : lib.http.ValueRule) (config : Config) (benv : BootEnv) (calls : I → Call)
    (s : Service (AppState lib) I ServiceEvent Response)
    (h : ProcessReaches lib web config benv calls s) (app : AppState lib)
    (happ : bootOutcome lib config benv = .ok app) (requestBody : Bytes) (resp : Response)
    (haccept : verifySignedResponse lib (utf8 config.chainId) requestBody resp = .ok ())
    (hkey : NamesKey app.signing resp)
    (hgenuine : Unforged app calls s requestBody resp)
    (hhash : ∀ i body t, Signs app (calls i) body t →
      NoCollision lib.sha256 requestBody (calls i).req.body.content ∧
        NoCollision lib.sha256 resp.body body) :
    ∃ i t, Gave app calls s i requestBody resp.body ∧ Signs app (calls i) resp.body t ∧
      parseU64 (headerStr resp.headers .vrpcTimestamp) = some t := by
  obtain ⟨i, served, t, hphase, hsigns, rfl, ht⟩ := accepted_signed happ haccept hkey hgenuine hhash
  exact ⟨i, t, hsigns.gave hv h happ hphase, hsigns, ht⟩

namespace KnownAnswers

/-- The table holds one message for each of its signatures. -/
theorem signature_unique {known message : Bytes} (hknown : known ∈ signatures.map Prod.fst)
    (h : Block.padded 64 (lookup signatures known) = Block.padded 64 (lookup signatures message)) :
    message = known := by
  have hdistinct : ∀ e ∈ signatures,
      Block.padded 64 (lookup signatures e.1) ≠ Block.padded 64 [] ∧
      ∀ e' ∈ signatures, Block.padded 64 (lookup signatures e.1) =
        Block.padded 64 (lookup signatures e'.1) → e'.1 = e.1 := by decide +kernel
  obtain ⟨e, he, rfl⟩ := List.mem_map.mp hknown
  by_cases hmessage : message ∈ signatures.map Prod.fst
  · obtain ⟨e', he', rfl⟩ := List.mem_map.mp hmessage
    exact (hdistinct e he).2 e' he' h
  · have hnone : signatures.find? (fun e' => e'.1 = message) = none := by
      apply List.find?_eq_none.mpr
      intro e' he' heq
      exact hmessage (List.mem_map.mpr ⟨e', he', of_decide_eq_true heq⟩)
    have hempty : lookup signatures message = [] := by
      rw [lookup, hnone]
      rfl
    rw [hempty] at h
    exact absurd h (hdistinct e he).1

/-- A signature of the table was made by the call that signed its message. -/
theorem genuine {app : AppState crates} (h : Booted sidecarConfig dstack app) {call : Call}
    {s : Service (AppState crates) Unit ServiceEvent Response} {served resp : Response}
    {requestBody response : Bytes} (hphase : s.pool.phase () = .returned served)
    (hsigns : Signs app call response timestampMs)
    (hsigned : resp.SignedBy
      (app.signing.signWithTimestamp call.req.body.content response timestampMs))
    (hknown : preImage call.req.body.content response ∈ signatures.map Prod.fst) :
    Unforged app (fun _ : Unit => call) s requestBody resp := by
  intro signature t hdecoded _ message hverify
  have hchain : app.signing.chainId = chainId := by
    rw [h.chain]
    decide
  have hmessage : SigningState.signedMessage crates app.signing.chainId call.req.body.content
      response timestampMs = preImage call.req.body.content response := by
    rw [hchain]
    rfl
  have hsignature := (app.signing.signatureOver_signWithTimestamp call.req.body.content response
    timestampMs).signature
  rw [hsigned.headerStr.1, SignedResponse.signatureHex, decodeHex0x_prefixedHex] at hdecoded
  have hsame : signature =
      Block.padded 64 (lookup signatures (preImage call.req.body.content response)) := by
    rw [← Block.ext (Except.ok.inj hdecoded), hsignature]
    exact congrArg (fun m => Block.padded 64 (lookup signatures m)) hmessage
  have htable : signature = Block.padded 64 (lookup signatures message) := of_decide_eq_true hverify
  refine ⟨(), served, response, timestampMs, hphase, hsigns, ?_⟩
  rw [signature_unique hknown (hsame.symm.trans htable), hmessage]

/-- The call of the vector signs the node's answer, and nothing else. -/
theorem signs_iff {app : AppState crates} (h : Booted sidecarConfig dstack app) {body : Bytes}
    {t : UInt64} :
    Signs app ⟨post "/" rpcRequest, callEnv⟩ body t ↔ body = rpcResponse ∧ t = timestampMs := by
  have hclock : nowMs callEnv.env.signClock = some timestampMs := by decide
  constructor
  · intro hsigns
    cases hsigns with
    | sealed hconf _ _ => exact absurd hconf.1 (by decide)
    | forwarded _ _ hp ht =>
      obtain rfl := Option.some.inj hp.answered
      exact ⟨content_answerWith _ _, Option.some.inj (ht.symm.trans hclock)⟩
  · rintro ⟨rfl, rfl⟩
    obtain ⟨upReq, signed, hp⟩ := pipelined app.signing [(.contentType, ascii "application/json")]
      (by decide : rpcRequest.length ≤ usizeMax)
      (by decide : rpcResponse.length ≤ usizeMax)
    have hcap : app.upstream.maxBodyBytes.getD usizeMax = usizeMax := by
      rw [booted_upstream h]
      rfl
    rw [← booted_upstream h, ← hcap] at hp
    have hsigns : Signs app ⟨post "/" rpcRequest, callEnv⟩
        (answerWith [(.contentType, ascii "application/json")] rpcResponse).body.content
        timestampMs := by
      refine .forwarded (by decide) ?_ hp hclock
      rintro (hatt | hinfo | ⟨hconf, -⟩)
      · exact absurd hatt (by decide)
      · exact absurd hinfo (by decide)
      · exact absurd hconf (by decide)
    rwa [content_answerWith] at hsigns

end KnownAnswers

open KnownAnswers in
/-- A client of the vector's process that accepts the answer holds the node's body. -/
theorem accepted_means_answered_vector :
    ∃ app s resp, bootOutcome crates sidecarConfig ⟨dstack, true⟩ = .ok app ∧
      ProcessReaches crates web sidecarConfig ⟨dstack, true⟩
        (fun _ : Unit => ⟨post "/" rpcRequest, callEnv⟩) s ∧
      verifySignedResponse crates (utf8 sidecarConfig.chainId) rpcRequest resp = .ok () ∧
      resp.body = rpcResponse ∧
      ∃ t, Gave app (fun _ : Unit => ⟨post "/" rpcRequest, callEnv⟩) s () rpcRequest resp.body ∧
        parseU64 (headerStr resp.headers .vrpcTimestamp) = some t := by
  obtain ⟨app, s, served, happ, hbooted, hs, -, hphase⟩ := drained ⟨post "/" rpcRequest, callEnv⟩
  obtain ⟨hok, hread⟩ := forwarded hbooted (Pool.leaves_returned (hs.pool happ) hphase).result_eq
  rw [clientVerifies, hread, orRefused_some, ok_bind, hbooted.chain] at hok
  obtain hunsigned | ⟨body, t, hsigns, hsigned⟩ :=
    (hs.served happ hphase).signed http_values web_compresses callEnv_plain
  · have hdecoded : ({ served with body := rpcResponse } : Response).Unsigned := hunsigned
    rw [verifySignedResponse_unsigned hdecoded] at hok
    cases hok
  obtain ⟨rfl, rfl⟩ := (signs_iff hbooted).mp hsigns
  have hknown : preImage (post "/" rpcRequest).body.content rpcResponse ∈
      signatures.map Prod.fst := by
    rw [content_post]
    simp [signatures]
  obtain ⟨i, t, hgave, -, ht⟩ := accepted_means_answered crates web http_values sidecarConfig
    ⟨dstack, true⟩ _ s hs app happ rpcRequest { served with body := rpcResponse } hok
    hsigned.namesKey (genuine hbooted hphase hsigns hsigned hknown) (fun i body t hsigns' => by
      obtain ⟨rfl, rfl⟩ := (signs_iff hbooted).mp hsigns'
      exact ⟨fun _ => (content_post _ _).symm, fun _ => rfl⟩)
  exact ⟨app, s, _, happ, hs, hok, rfl, t, hgave, ht⟩

end VrpcSidecar
