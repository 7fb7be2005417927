import VrpcSidecar.Inner

/-! # The bounded upstream leg

`confidential/upstream.rs`: one inner request out, one capped response back.  The
request carries the content type, the accept values and a forced
`Accept-Encoding: identity`, and nothing else of what the client sent; the response
is read frame by frame under a cap and a deadline and reduced to its status, its
content types and its data.

`result_readFrames` says which bodies the frame loop accepts, and `log_callUpstream`
that the leg sends one request, exactly when the request could be built.
-/
namespace VrpcSidecar

/-- `ConfidentialConfig`; the timeout in milliseconds. -/
structure ConfidentialConfig where
  maxRequestBytes : Nat
  maxResponseBytes : Nat
  maxBatchSize : Nat
  upstreamTimeout : Nat

/-- What an inner call answers with: a status and the response message. -/
abbrev InnerResult := Except InnerError (Nat × BinaryHttp.Message)

/-- The loop of `read_upstream` over the frames of the body: `total` counts the data,
`acc` is the content written so far. -/
def readFramesLoop (eof cap : Nat) :
    Nat → Bytes → List (Nat × BodyEvent) → Run Event (Except InnerError Bytes)
  | _, acc, [] => do
    Run.waitFor eof
    return .ok acc
  | total, acc, (ms, ev) :: rest => do
    Run.waitFor ms
    match ev with
    | .error => return .error .upstream
    | .trailers => readFramesLoop eof cap total acc rest
    | .data bs =>
      -- the cap is checked before the frame is written to the content
      let total := saturatingAdd total bs.length
      if total > cap then return .error .upstream
      else readFramesLoop eof cap total (acc ++ bs) rest

/-- The content of the response body, under the cap. -/
def readFrames (cap : Nat) (body : BodyStream) : Run Event (Except InnerError Bytes) :=
  readFramesLoop body.eof cap 0 [] body.frames

/-- `u64::try_from(cap).unwrap_or(u64::MAX)`. -/
def capAsU64 (cap : Nat) : Nat := if cap < 2 ^ 64 then cap else 2 ^ 64 - 1

/-- The checks of `read_upstream` on the response head. -/
def refusesHead (cap : Nat) (resp : Incoming) : Bool :=
  !(200 ≤ resp.status.code && resp.status.code ≤ 599) ||
    (resp.headers.getAll .contentEncoding).any (fun v => !eqIgnoreCase v (ascii "identity")) ||
    resp.body.sizeHintLower > capAsU64 cap

theorem refusesHead_eq_false {cap : Nat} {resp : Incoming}
    (hstatus : 200 ≤ resp.status.code ∧ resp.status.code ≤ 599)
    (hcodings : ∀ v ∈ resp.headers.getAll .contentEncoding, eqIgnoreCase v (ascii "identity") = true)
    (hsize : ¬ resp.body.sizeHintLower > capAsU64 cap) : refusesHead cap resp = false := by
  have hany : (resp.headers.getAll .contentEncoding).any
      (fun v => !eqIgnoreCase v (ascii "identity")) = false := by
    rw [List.any_eq_false]
    intro v hv
    simp [hcodings v hv]
  simp only [refusesHead, hany, hstatus.1, hstatus.2, decide_true, Bool.and_self, Bool.not_true,
    Bool.false_or, hsize, decide_false]

/-- `read_upstream`. -/
def readUpstream (lib : Crates) (env : Env) (cap : Nat) (upReq : OutRequest) :
    Run Event InnerResult := do
  match ← send env upReq with
  | none => return .error .upstream
  | some resp =>
    if refusesHead cap resp then return .error .upstream
    else
      match lib.bhttp.statusTryFrom resp.status.code with
      | none => return .error .internal
      | some code =>
        match ← readFrames cap resp.body with
        | .error e => return .error e
        | .ok content =>
          return .ok (resp.status.code,
            responseMessage code (resp.headers.getAll .contentType) content)

/-- The header fields of the request to the node, in the order they are added. -/
def innerRequestFields (inner : InnerRequest) : List (HeaderName × HeaderValue) :=
  inner.contentType.toList.map (fun v => (.contentType, v)) ++
    inner.accept.map (fun v => (.accept, v))

/-- The request `call_upstream` builds. -/
def buildInnerRequest (lib : Crates) (uri : Uri) (inner : InnerRequest) : Option OutRequest := do
  let headers := MultiMap.empty.appendAll (innerRequestFields inner)
  let headers ← headerText lib headers .acceptEncoding (ascii "identity")
  return ⟨inner.method, uri, headers, inner.body⟩

/-- `call_upstream`. -/
def callUpstream (lib : Crates) (up : UpstreamClient) (cfg : ConfidentialConfig) (env : Env)
    (inner : InnerRequest) : Run Event InnerResult := do
  match up.originPathAndQuery lib inner.pathAndQuery with
  | none => return .error .badRequest
  | some pathAndQuery =>
    match up.originUri lib pathAndQuery with
    | none => return .error .internal
    | some uri =>
      match buildInnerRequest lib uri inner with
      | none => return .error .internal
      | some upReq =>
        match ← Run.timeout cfg.upstreamTimeout
          (readUpstream lib env cfg.maxResponseBytes upReq) with
        | none => return .error .upstreamTimeout
        | some result => return result

/-! ## The frame loop -/

/-- The data of a body is within the cap, as a saturating counter sees it: a cap of
`usize::MAX` is never exceeded. -/
def CountedWithin (cap n : Nat) : Prop := n ≤ cap ∨ usizeMax ≤ cap

instance (cap n : Nat) : Decidable (CountedWithin cap n) := inferInstanceAs (Decidable (_ ∨ _))

theorem saturatingAdd_le {cap total n : Nat} :
    saturatingAdd total n ≤ cap ↔ CountedWithin cap (total + n) := by
  simp only [saturatingAdd, CountedWithin]
  omega

theorem countedWithin_saturatingAdd {cap total n m : Nat} :
    CountedWithin cap (saturatingAdd total n + m) ↔ CountedWithin cap (total + (n + m)) := by
  simp only [saturatingAdd, CountedWithin]
  omega

theorem result_readFramesLoop (eof cap : Nat) (total : Nat) (acc : Bytes)
    (frames : List (Nat × BodyEvent)) (htotal : total ≤ cap) :
    (readFramesLoop eof cap total acc frames).result =
      some (if CountedWithin cap (total + (delivered frames).length) ∧ hasError frames = false
        then .ok (acc ++ delivered frames) else .error .upstream) := by
  induction frames generalizing total acc with
  | nil =>
    have h : CountedWithin cap total := Or.inl htotal
    simp [readFramesLoop, delivered, hasError, h]
  | cons f rest ih =>
    obtain ⟨ms, ev⟩ := f
    cases ev with
    | data bs =>
      simp only [readFramesLoop, Run.bind_eq, Run.waitFor_andThen, Run.result_wait, delivered,
        hasError, List.length_append]
      -- The counter stays within the cap exactly as long as the data so far does.
      by_cases h : saturatingAdd total bs.length ≤ cap
      · rw [if_neg (Nat.not_lt.mpr h), ih _ (acc ++ bs) h, List.append_assoc]
        simp only [countedWithin_saturatingAdd]
      · have hover : ¬ CountedWithin cap (total + (bs.length + (delivered rest).length)) := by
          rw [saturatingAdd_le] at h
          simp only [CountedWithin] at h ⊢
          omega
        rw [if_pos (Nat.lt_of_not_le h), if_neg (fun hc => hover hc.1)]
        rfl
    | trailers => exact ih total acc htotal
    | error => simp [readFramesLoop, delivered, hasError]

/-- **Which bodies the frame loop accepts**: those that arrive without an error and
within the cap, whatever frames they are split into. -/
theorem result_readFrames (cap : Nat) (body : BodyStream) :
    (readFrames cap body).result =
      some (if CountedWithin cap body.content.length ∧ body.fails = false
        then .ok body.content else .error .upstream) := by
  have h := result_readFramesLoop body.eof cap 0 [] body.frames (Nat.zero_le _)
  rwa [Nat.zero_add] at h

theorem log_readFrames (cap : Nat) (body : BodyStream) : (readFrames cap body).log = [] := by
  suffices key : ∀ (frames : List (Nat × BodyEvent)) (total : Nat) (acc : Bytes),
      (readFramesLoop body.eof cap total acc frames).log = [] from key body.frames 0 []
  intro frames
  induction frames with
  | nil => intro total acc; rfl
  | cons f rest ih =>
    intro total acc
    obtain ⟨ms, ev⟩ := f
    cases ev with
    | data bs =>
      simp only [readFramesLoop, Run.bind_eq, Run.waitFor_andThen, Run.log_wait]
      split
      · rfl
      · exact ih _ _
    | trailers => exact ih _ _
    | error => rfl

/-! ## The leg as a whole -/

theorem visible_identity : Visible (ascii "identity") := by decide +kernel

section Leg
variable {lib : Crates} {up : UpstreamClient} {cfg : ConfidentialConfig} {env : Env}
  {cap : Nat} {upReq : OutRequest} {inner : InnerRequest}

/-- Reading a response ends, with an answer or an error. -/
theorem readUpstream_returns (lib : Crates) (env : Env) (cap : Nat) (upReq : OutRequest) :
    ∃ r, (readUpstream lib env cap upReq).result = some r := by
  unfold readUpstream
  simp only [Run.bind_eq, Run.result_andThen, result_send, Option.bind_some]
  cases (env.upstream upReq).2 with
  | none => exact ⟨_, rfl⟩
  | some resp =>
    dsimp only
    split
    · exact ⟨_, rfl⟩
    · cases lib.bhttp.statusTryFrom resp.status.code with
      | none => exact ⟨_, rfl⟩
      | some code =>
        simp only [Run.result_andThen, result_readFrames, Option.bind_some]
        split <;> exact ⟨_, rfl⟩

/-- Reading a response sends its request, and nothing else. -/
theorem log_readUpstream (lib : Crates) (env : Env) (cap : Nat) (upReq : OutRequest) :
    (readUpstream lib env cap upReq).log = [.send upReq] := by
  unfold readUpstream
  rw [Run.bind_eq, Run.log_andThen (result_send env upReq), log_send]
  cases (env.upstream upReq).2 with
  | none => rfl
  | some resp =>
    dsimp only
    split
    · rfl
    · cases lib.bhttp.statusTryFrom resp.status.code with
      | none => rfl
      | some code =>
        dsimp only
        rw [Run.bind_eq, Run.log_andThen (result_readFrames cap resp.body), log_readFrames]
        split <;> rfl

/-- **What a relayed answer is**: the node's status and content types, and its data. -/
theorem readUpstream_ok {status : Nat} {msg : BinaryHttp.Message}
    (h : (readUpstream lib env cap upReq).result = some (.ok (status, msg))) :
    ∃ resp code, (env.upstream upReq).2 = some resp ∧ refusesHead cap resp = false ∧
      lib.bhttp.statusTryFrom resp.status.code = some code ∧
      CountedWithin cap resp.body.content.length ∧ resp.body.fails = false ∧
      status = resp.status.code ∧
      msg = responseMessage code (resp.headers.getAll .contentType) resp.body.content := by
  obtain ⟨o, hsend, h⟩ := Run.result_andThen_eq_some.mp h
  obtain rfl := Option.some.inj ((result_send env upReq).symm.trans hsend)
  cases hresp : (env.upstream upReq).2 with
  | none =>
    rw [hresp] at h
    cases h
  | some resp =>
    rw [hresp] at h
    dsimp only at h
    split at h
    · cases h
    · rename_i hhead
      cases hcode : lib.bhttp.statusTryFrom resp.status.code with
      | none =>
        rw [hcode] at h
        cases h
      | some code =>
        rw [hcode] at h
        obtain ⟨r, hframes, h⟩ := Run.result_andThen_eq_some.mp h
        rw [result_readFrames, Option.some.injEq] at hframes
        split at hframes
        · rename_i hbody
          subst hframes
          cases h
          exact ⟨resp, code, rfl, by simpa using hhead, hcode, hbody.1, hbody.2, rfl, rfl⟩
        · subst hframes
          cases h

/-- The request the leg sends for an inner request, when one can be built. -/
def innerUpstreamRequest (lib : Crates) (up : UpstreamClient) (inner : InnerRequest) :
    Option OutRequest := do
  let pathAndQuery ← up.originPathAndQuery lib inner.pathAndQuery
  let uri ← up.originUri lib pathAndQuery
  buildInnerRequest lib uri inner

/-- The upstream leg either ends before any request, or is the bounded reading of
the response to one. -/
theorem callUpstream_cases (lib : Crates) (up : UpstreamClient) (cfg : ConfidentialConfig)
    (env : Env) (inner : InnerRequest) :
    (∃ e, innerUpstreamRequest lib up inner = none ∧
      callUpstream lib up cfg env inner = .ret (.error e)) ∨
    ∃ upReq, innerUpstreamRequest lib up inner = some upReq ∧
      callUpstream lib up cfg env inner =
        (Run.timeout cfg.upstreamTimeout (readUpstream lib env cfg.maxResponseBytes upReq)).andThen
          (fun o => .ret (o.getD (.error .upstreamTimeout))) := by
  unfold callUpstream innerUpstreamRequest
  cases hpq : up.originPathAndQuery lib inner.pathAndQuery with
  | none => exact Or.inl ⟨_, rfl, rfl⟩
  | some pathAndQuery =>
    simp only [Option.bind_eq_bind, Option.bind_some]
    cases huri : up.originUri lib pathAndQuery with
    | none => exact Or.inl ⟨_, rfl, rfl⟩
    | some uri =>
      simp only [Option.bind_some]
      cases hreq : buildInnerRequest lib uri inner with
      | none => exact Or.inl ⟨_, rfl, rfl⟩
      | some upReq =>
        refine Or.inr ⟨upReq, rfl, ?_⟩
        dsimp only
        rw [Run.bind_eq]
        congr 1
        funext o
        cases o <;> rfl

theorem callUpstream_returns (lib : Crates) (up : UpstreamClient) (cfg : ConfidentialConfig)
    (env : Env) (inner : InnerRequest) :
    ∃ r, (callUpstream lib up cfg env inner).result = some r := by
  rcases callUpstream_cases lib up cfg env inner with ⟨e, -, h⟩ | ⟨upReq, -, h⟩
  · exact ⟨_, congrArg Run.result h⟩
  · obtain ⟨r, hr⟩ := readUpstream_returns lib env cfg.maxResponseBytes upReq
    obtain ⟨o, ho, -⟩ := Run.timeout_returns (d := cfg.upstreamTimeout) hr
    rw [h, Run.result_andThen, ho]
    exact ⟨_, rfl⟩

/-- **The leg sends one request, exactly when it can be built**, whatever becomes of
the response. -/
theorem log_callUpstream (lib : Crates) (up : UpstreamClient) (cfg : ConfidentialConfig)
    (env : Env) (inner : InnerRequest) :
    (callUpstream lib up cfg env inner).log =
      ((innerUpstreamRequest lib up inner).map Event.send).toList := by
  rcases callUpstream_cases lib up cfg env inner with ⟨e, hnone, h⟩ | ⟨upReq, hsome, h⟩
  · rw [h, hnone]
    rfl
  · obtain ⟨r, hr⟩ := readUpstream_returns lib env cfg.maxResponseBytes upReq
    obtain ⟨o, ho, -⟩ := Run.timeout_returns (d := cfg.upstreamTimeout) hr
    have hlog : (Run.timeout cfg.upstreamTimeout
        (readUpstream lib env cfg.maxResponseBytes upReq)).log = [.send upReq] := by
      -- The send comes before the first suspension, so the deadline cannot cut it off.
      have hpre := Run.log_timeout_prefix cfg.upstreamTimeout
        (readUpstream lib env cfg.maxResponseBytes upReq)
      rw [log_readUpstream] at hpre
      have hfirst : ∃ evs, (Run.timeout cfg.upstreamTimeout
          (readUpstream lib env cfg.maxResponseBytes upReq)).log = .send upReq :: evs :=
        ⟨_, rfl⟩
      obtain ⟨evs, hevs⟩ := hfirst
      rw [hevs, List.cons_prefix_cons] at hpre
      rw [hevs, List.prefix_nil.mp hpre.2]
    rw [h, hsome, Run.log_andThen ho, hlog]
    rfl

/-- A leg that answered read the response to its request before the deadline. -/
theorem callUpstream_ok {r : Nat × BinaryHttp.Message}
    (h : (callUpstream lib up cfg env inner).result = some (.ok r)) :
    ∃ upReq, innerUpstreamRequest lib up inner = some upReq ∧
      (readUpstream lib env cfg.maxResponseBytes upReq).result = some (.ok r) := by
  rcases callUpstream_cases lib up cfg env inner with ⟨e, -, hc⟩ | ⟨upReq, hsome, hc⟩
  · rw [hc] at h
    cases h
  · rw [hc] at h
    obtain ⟨o, ho, h⟩ := Run.result_andThen_eq_some.mp h
    cases o with
    | none => cases h
    | some r' =>
      cases h
      exact ⟨upReq, hsome, Run.result_of_timeout ho⟩

/-- The request the leg sends carries the inner body. -/
theorem innerUpstreamRequest_body (h : innerUpstreamRequest lib up inner = some upReq) :
    upReq.body = inner.body := by
  simp only [innerUpstreamRequest, buildInnerRequest, Option.bind_eq_bind, Option.bind_eq_some_iff,
    Option.pure_def, Option.some.injEq] at h
  obtain ⟨pathAndQuery, -, uri, -, headers, -, rfl⟩ := h
  rfl

/-- What the built request is: the inner method and body, the target, and the allowed
fields followed by `Accept-Encoding: identity`. -/
theorem buildInnerRequest_eq (hv : lib.http.ValueRule) (uri : Uri) (inner : InnerRequest) :
    buildInnerRequest lib uri inner =
      some ⟨inner.method, uri, MultiMap.empty.appendAll (innerRequestFields inner ++
        [(.acceptEncoding, ascii "identity")]), inner.body⟩ := by
  simp only [buildInnerRequest, headerText_visible hv _ _ visible_identity, Option.bind_eq_bind,
    Option.bind_some, Option.pure_def, MultiMap.appendAll_append, MultiMap.appendAll_cons,
    MultiMap.appendAll_nil]

end Leg

end VrpcSidecar
