import VrpcSidecar.InnerLanguage
import VrpcSidecar.Relay
import VrpcSidecar.OutcomeRecords

/-! # How long a call takes

The upstream leg of a confidential call runs under one deadline, which covers the
connection, the response head and the body.  Reading the outer body has none.  A call ends
in a signed 504 precisely when reading the node's response takes longer than the deadline,
which for an answer that would have been relayed is the time until its last byte
(`timed_out_iff`).

The clock of a run moves on in its waits, and a timer fires on time.  In the program all of
this takes longer, so what is said of the times in an outcome line are lower bounds
(`logged_times_sound`).
-/
namespace VrpcSidecar

/-! ## Reading bodies -/

/-- The time until the end of the body. -/
def BodyStream.duration (b : BodyStream) : Nat := (b.frames.map Prod.fst).sum + b.eof

section Bodies
variable {E : Type}

/-- A body that is collected is read to its end. -/
theorem elapsed_collectLoop (eof left : Nat) (acc : Bytes) (frames : List (Nat × BodyEvent))
    (h : (delivered frames).length ≤ left) (herror : hasError frames = false) :
    (collectLoop (E := E) eof left acc frames).elapsed = (frames.map Prod.fst).sum + eof := by
  induction frames generalizing left acc with
  | nil =>
    show eof + 0 = 0 + eof
    omega
  | cons f rest ih =>
    obtain ⟨ms, ev⟩ := f
    rw [List.map_cons, List.sum_cons]
    cases ev with
    | data bs =>
      rw [delivered, List.length_append] at h
      have hfits : ¬ left < bs.length := by omega
      rw [collectLoop, Run.bind_eq, Run.waitFor_andThen, Run.elapsed]
      dsimp only
      rw [if_neg hfits, ih _ _ (by omega) herror]
      omega
    | trailers =>
      show ms + (collectLoop (E := E) eof left acc rest).elapsed = _
      rw [ih left acc h herror]
      omega
    | error => cases herror

/-- A body that the frame loop accepts is read to its end. -/
theorem elapsed_readFramesLoop {eof cap : Nat} (total : Nat) (acc : Bytes)
    (frames : List (Nat × BodyEvent))
    (h : CountedWithin cap (total + (delivered frames).length)) (herror : hasError frames = false) :
    (readFramesLoop eof cap total acc frames).elapsed = (frames.map Prod.fst).sum + eof := by
  induction frames generalizing total acc with
  | nil =>
    show eof + 0 = 0 + eof
    omega
  | cons f rest ih =>
    obtain ⟨ms, ev⟩ := f
    rw [List.map_cons, List.sum_cons]
    cases ev with
    | data bs =>
      rw [delivered, List.length_append] at h
      have hfits : saturatingAdd total bs.length ≤ cap := by
        rw [saturatingAdd_le]
        simp only [CountedWithin] at h ⊢
        omega
      rw [readFramesLoop, Run.bind_eq, Run.waitFor_andThen, Run.elapsed]
      dsimp only
      rw [if_neg (Nat.not_lt.mpr hfits), ih _ _ (countedWithin_saturatingAdd.mpr h) herror]
      omega
    | trailers =>
      show ms + (readFramesLoop eof cap total acc rest).elapsed = _
      rw [ih total acc h herror]
      omega
    | error => cases herror

end Bodies

/-! ## The upstream leg -/

section Leg
variable {lib : Crates} {up : UpstreamClient} {cfg : ConfidentialConfig} {env : Env}
  {inner : InnerRequest} {upReq : OutRequest} {resp : Incoming} {plaintext : Bytes}

/-- A relayable answer is read in the time until its last byte. -/
theorem elapsed_readUpstream_relayable (hstatus : lib.bhttp.StatusRule) {cap : Nat}
    (hresp : (env.upstream upReq).2 = some resp) (h : Relayable cap resp)
    (hint : resp.body.HintRule) :
    (readUpstream lib env cap upReq).elapsed = (env.upstream upReq).1 + resp.body.duration := by
  have hcode := hstatus resp.status.code h.status.1 h.status.2
  have hframes : (readFrames cap resp.body).result = some (.ok resp.body.content) := by
    rw [result_readFrames, if_pos ⟨Or.inl h.body.1, h.body.2⟩]
  have hsend : (send env upReq).elapsed = (env.upstream upReq).1 := Nat.add_zero _
  have htime : (readFrames cap resp.body).elapsed = resp.body.duration :=
    elapsed_readFramesLoop 0 [] _ (by rw [Nat.zero_add]; exact .inl h.body.1) h.body.2
  rw [readUpstream, Run.bind_eq, Run.elapsed_andThen (result_send env upReq), hsend, hresp]
  dsimp only
  rw [h.head hint, if_neg Bool.false_ne_true, hcode]
  dsimp only
  rw [Run.bind_eq, Run.elapsed_andThen hframes, htime]
  rfl

/-- **The leg takes its own time or that of the deadline**, whichever is less. -/
theorem elapsed_callUpstream (hreq : innerUpstreamRequest lib up inner = some upReq) :
    (callUpstream lib up cfg env inner).elapsed =
      min cfg.upstreamTimeout (readUpstream lib env cfg.maxResponseBytes upReq).elapsed := by
  obtain ⟨_, hnone, -⟩ | ⟨upReq', hsome, hc⟩ := callUpstream_cases lib up cfg env inner
  · rw [hreq] at hnone
    cases hnone
  · obtain rfl := Option.some.inj (hreq.symm.trans hsome)
    obtain ⟨r, hr⟩ := readUpstream_returns lib env cfg.maxResponseBytes upReq
    obtain ⟨o, ho, -⟩ := Run.timeout_returns (d := cfg.upstreamTimeout) hr
    rw [hc, Run.elapsed_andThen ho, Run.elapsed_timeout hr]
    rfl

/-- It ends in a timeout exactly when reading the response takes longer. -/
theorem callUpstream_timeout_iff (hreq : innerUpstreamRequest lib up inner = some upReq) :
    (callUpstream lib up cfg env inner).result = some (.error .upstreamTimeout) ↔
      cfg.upstreamTimeout < (readUpstream lib env cfg.maxResponseBytes upReq).elapsed := by
  obtain ⟨_, hnone, -⟩ | ⟨upReq', hsome, hc⟩ := callUpstream_cases lib up cfg env inner
  · rw [hreq] at hnone
    cases hnone
  · obtain rfl := Option.some.inj (hreq.symm.trans hsome)
    obtain ⟨r, hr⟩ := readUpstream_returns lib env cfg.maxResponseBytes upReq
    rw [hc, ← Run.timeout_eq_none_iff hr, Run.result_andThen_eq_some]
    constructor
    · rintro ⟨o, ho, h⟩
      cases o with
      | none => exact ho
      | some r' =>
        -- reading a response does not fail with a timeout of its own
        cases h
        obtain h | h := readUpstream_error (Run.result_of_timeout ho)
        · cases h
        · cases h
    · intro ho
      exact ⟨none, ho, rfl⟩

/-- The inner call reports the time it took. -/
theorem elapsed_runInner {call : InnerCall}
    (h : (runInner lib up cfg env plaintext).result = some call) :
    call.upstreamMs = millis (runInner lib up cfg env plaintext).elapsed := by
  unfold runInner at h ⊢
  cases hdecode : decodeInner lib plaintext with
  | error e =>
    rw [hdecode] at h
    cases h
    rfl
  | ok inner =>
    rw [hdecode] at h
    dsimp only at h ⊢
    split at h
    · rename_i hlt
      cases h
      rw [if_pos hlt]
      rfl
    · rename_i hle
      obtain ⟨r, hr⟩ := callUpstream_returns lib up cfg env inner
      have htimed : (callUpstream lib up cfg env inner).timed.result =
          some (r, (callUpstream lib up cfg env inner).elapsed) := by
        rw [Run.result_timed, hr]
        rfl
      have helapsed : (callUpstream lib up cfg env inner).timed.elapsed =
          (callUpstream lib up cfg env inner).elapsed := by
        rw [Run.timed, Run.elapsed_andThen hr]
        rfl
      rw [Run.bind_eq, Run.result_andThen, htimed] at h
      rw [if_neg hle, Run.bind_eq, Run.elapsed_andThen htimed, helapsed]
      cases h
      rfl

end Leg

/-! ## The whole call -/

section Call
variable {lib : Crates} {up : UpstreamClient} {signer : SigningState lib}
  {cfg : ConfidentialConfig} {env : Env} {req : Request} {plaintext : Bytes}
  {ctx : ResponseContext} {nonce : Block 32}

/-- Sealing and signing wait for nothing. -/
theorem elapsed_answer (outerReq : Bytes) (ctx : ResponseContext) (nonce : Block 32)
    (call : InnerCall) : (answer lib signer env outerReq ctx nonce call).elapsed = 0 := by
  unfold answer
  dsimp only
  split
  · rfl
  · rfl
  · split
    · rfl
    · rfl

/-- An outer body within the cap is read to its end. -/
theorem readOuter_within {cap : Nat} (h : req.body.Within cap) :
    (readOuter req cap).result = some (.ok req.body.content) ∧
      (readOuter req cap).elapsed = req.body.duration := by
  have hcollect := collect_ok_iff (E := Event).mpr ⟨h, rfl⟩
  have htime : (collect (E := Event) cap req.body).elapsed = req.body.duration :=
    elapsed_collectLoop _ _ _ _ h.1 h.2
  refine ⟨Run.result_andThen_eq_some.mpr ⟨_, hcollect, rfl⟩, ?_⟩
  rw [readOuter, Run.bind_eq, Run.elapsed_andThen hcollect, htime]
  rfl

/-- Settling takes no time. -/
theorem elapsed_exchange (lib : Crates) (up : UpstreamClient) (signer : SigningState lib)
    (cfg : ConfidentialConfig) (env : Env) (req : Request) :
    (exchange lib up signer cfg env req).elapsed =
      (sealedExchange lib up signer cfg env req).elapsed := by
  obtain ⟨resp, out, hres, -⟩ := exchange_ends lib up signer cfg env req
  obtain ⟨r, hr, -⟩ := Run.result_andThen_eq_some.mp hres
  rw [exchange, Run.bind_eq, Run.elapsed_andThen hr]
  rfl

/-- An exchange takes at least the time in which its body arrives. -/
theorem duration_le_exchange (lib : Crates) (up : UpstreamClient) (signer : SigningState lib)
    (env : Env) (h : req.body.Within cfg.maxRequestBytes) :
    req.body.duration ≤ (exchange lib up signer cfg env req).elapsed := by
  obtain ⟨hread, htime⟩ := readOuter_within h
  rw [elapsed_exchange, sealedExchange, Run.bind_eq, Run.elapsed_andThen hread, htime]
  exact Nat.le_add_right _ _

/-- The part of the time that a call which gets to the inner request spends on it. -/
theorem Reached.elapsed_exchange (hr : Reached lib signer cfg env req plaintext ctx nonce)
    (up : UpstreamClient) :
    (exchange lib up signer cfg env req).elapsed =
      req.body.duration + (runInner lib up cfg env plaintext).elapsed := by
  obtain ⟨hread, htime⟩ := readOuter_within hr.received
  obtain ⟨call, hcall⟩ := runInner_returns lib up cfg env plaintext
  rw [VrpcSidecar.elapsed_exchange, sealedExchange, Run.bind_eq, Run.elapsed_andThen hread, htime]
  dsimp only
  rw [hr.openedExchange, Run.elapsed_andThen hcall, elapsed_answer]
  rfl

/-- The time for the upstream in an outcome is that of the inner call, if there was one. -/
theorem Ending.upstreamMs {resp : Response} {out : Outcome}
    (h : Ending lib up signer cfg env req resp out) :
    out.upstreamMs = 0 ∨ ∃ plaintext ctx nonce call,
      Reached lib signer cfg env req plaintext ctx nonce ∧
        (runInner lib up cfg env plaintext).result = some call ∧
        out.upstreamMs = call.upstreamMs := by
  cases h with
  | requestTooLarge _ => exact .inl rfl
  | requestReadFailed _ _ => exact .inl rfl
  | notOpened _ _ => exact .inl rfl
  | notReady _ _ _ => exact .inl rfl
  | notSealed hr hc _ => exact .inr ⟨_, _, _, _, hr, hc, rfl⟩
  | notSigned hr hc _ _ => exact .inr ⟨_, _, _, _, hr, hc, rfl⟩
  | sealed hr hc _ _ => exact .inr ⟨_, _, _, _, hr, hc, rfl⟩

/-- It is part of the time of the exchange. -/
theorem Ending.upstreamMs_le {resp : Response} {out : Outcome}
    (h : Ending lib up signer cfg env req resp out) :
    out.upstreamMs ≤ millis (exchange lib up signer cfg env req).elapsed := by
  obtain hzero | ⟨plaintext, ctx, nonce, call, hr, hcall, hms⟩ := h.upstreamMs
  · rw [hzero]
    exact Nat.zero_le _
  · have htotal := hr.elapsed_exchange up
    rw [hms, elapsed_runInner hcall]
    unfold millis
    omega

/-- A call that reports one had its request decoded and its batch counted. -/
theorem Ending.counted {resp : Response} {out : Outcome}
    (h : Ending lib up signer cfg env req resp out) (hpos : 0 < out.upstreamMs) :
    ∃ plaintext ctx inner, signer.openRequest req.body.content = .ok (plaintext, ctx) ∧
      decodeInner lib plaintext = .ok inner ∧ batchSize lib inner.body ≤ cfg.maxBatchSize := by
  obtain hzero | ⟨plaintext, ctx, nonce, call, hr, hcall, hms⟩ := h.upstreamMs
  · omega
  · rw [hms] at hpos
    obtain ⟨e, -, rfl⟩ | ⟨inner, -, -, rfl⟩ | ⟨inner, r, ms, hd, hbatch, -, -⟩ :=
      runInner_eq_some lib up cfg env hcall
    · exact absurd hpos (Nat.lt_irrefl 0)
    · exact absurd hpos (Nat.lt_irrefl 0)
    · exact ⟨plaintext, ctx, inner, hr.opened, hd, hbatch⟩

end Call

/-! ## The deadline -/

section Deadline
variable {lib : Crates} {up : UpstreamClient} {signer : SigningState lib}
  {cfg : ConfidentialConfig} {env : Env} {req : Request} {plaintext : Bytes}
  {ctx : ResponseContext} {nonce : Block 32} {call : InnerCall} {answer : Sealed}
  {signed : SignedResponse} {inner : InnerRequest} {uri : Uri}

/-- A leg that sends nothing does not time out. -/
theorem callUpstream_unsent (hnone : innerUpstreamRequest lib up inner = none) :
    (callUpstream lib up cfg env inner).result ≠ some (.error .upstreamTimeout) := by
  unfold innerUpstreamRequest at hnone
  unfold callUpstream
  cases hpq : up.originPathAndQuery lib inner.pathAndQuery with
  | none => simp
  | some pathAndQuery =>
    rw [hpq] at hnone
    simp only [Option.bind_eq_bind, Option.bind_some] at hnone
    dsimp only
    cases huri : up.originUri lib pathAndQuery with
    | none => simp
    | some uri =>
      rw [huri, Option.bind_some] at hnone
      dsimp only
      rw [hnone]
      simp

theorem InnerError.outcome_timeout_iff (e : InnerError) :
    e.outcome = .upstreamTimeout ↔ e = .upstreamTimeout := by
  cases e <;> decide

/-- The class of an answer says whether the inner call timed out. -/
theorem innerAnswer_timeout_iff {result : InnerResult} {a : OutcomeClass × Nat × Bytes}
    (h : innerAnswer lib result = some a) :
    a.1 = .upstreamTimeout ↔ result = .error .upstreamTimeout := by
  have hproblem : ∀ e, problemAnswer lib e = some a →
      (a.1 = .upstreamTimeout ↔ e = .upstreamTimeout) := by
    intro e he
    obtain ⟨encoded, -, rfl⟩ := Option.map_eq_some_iff.mp he
    exact e.outcome_timeout_iff
  cases result with
  | error e =>
    rw [hproblem e h]
    constructor
    · rintro rfl
      rfl
    · intro he
      exact Except.error.inj he
  | ok r =>
    obtain ⟨status, msg⟩ := r
    rw [innerAnswer] at h
    split at h
    · cases h
      simp
    · have hinternal := hproblem .internal h
      simpa using hinternal

theorem Answered.timeout_iff
    (h : Answered lib up signer cfg env req plaintext ctx nonce call answer signed) :
    answer.outcomeClass = .upstreamTimeout ↔ call.result = .error .upstreamTimeout := by
  obtain ⟨encoded, ct, hinner, -, -⟩ :=
    sealInner_ok (ofSuite_of_openRequest h.reached.opened) h.sealed
  exact innerAnswer_timeout_iff hinner

/-- What is sealed for a timeout is a 504. -/
theorem Answered.timeout_status
    (h : Answered lib up signer cfg env req plaintext ctx nonce call answer signed)
    (htimeout : call.result = .error .upstreamTimeout) : answer.innerStatus = 504 := by
  obtain ⟨encoded, ct, hinner, -, -⟩ :=
    sealInner_ok (ofSuite_of_openRequest h.reached.opened) h.sealed
  rw [htimeout] at hinner
  obtain ⟨encoded', -, heq⟩ := Option.map_eq_some_iff.mp hinner
  exact (congrArg (fun a => a.2.1) heq).symm

/-- When the guards hold, the answer is that of the leg, which sends their request, and so
is the time. -/
theorem Answered.leg (hv : lib.http.ValueRule)
    (h : Answered lib up signer cfg env req plaintext ctx nonce call answer signed)
    (hg : Guards lib up signer cfg env req inner uri) :
    (callUpstream lib up cfg env inner).result = some call.result ∧
      innerUpstreamRequest lib up inner = some (guardedRequest inner uri) ∧
      call.upstreamMs = millis (callUpstream lib up cfg env inner).elapsed := by
  obtain ⟨plaintext', ctx', hopened, hdecode⟩ := hg.opened
  cases Except.ok.inj (h.reached.opened.symm.trans hopened)
  obtain ⟨pathAndQuery, hpq, huri⟩ := hg.target
  have hreq : innerUpstreamRequest lib up inner = some (guardedRequest inner uri) :=
    (innerUpstreamRequest_eq_some hv).mpr ⟨pathAndQuery, uri, hpq, huri, rfl⟩
  obtain ⟨r, hr⟩ := callUpstream_returns lib up cfg env inner
  -- with the guards passed, the inner call is the leg and its time
  have hcalled := h.called
  rw [runInner, hdecode] at hcalled
  dsimp only at hcalled
  rw [if_neg (Nat.not_lt.mpr hg.batch), Run.bind_eq, Run.result_andThen, Run.result_timed, hr]
    at hcalled
  obtain rfl := Option.some.inj hcalled
  exact ⟨hr, hreq, rfl⟩

/-- A call that timed out had passed the guards. -/
theorem Answered.guards_of_timeout (hm : lib.http.MethodRule) (hv : lib.http.ValueRule)
    (hread : lib.bhttp.ReadRule)
    (h : Answered lib up signer cfg env req plaintext ctx nonce call answer signed)
    (htimeout : call.result = .error .upstreamTimeout) :
    ∃ inner uri, Guards lib up signer cfg env req inner uri := by
  obtain ⟨e, hd, rfl⟩ | ⟨inner, hd, -, rfl⟩ | ⟨inner, r, ms, hd, hbatch, hr, rfl⟩ :=
    runInner_eq_some lib up cfg env h.called
  · obtain rfl := Except.error.inj htimeout
    obtain hbad | ⟨hmedia, -⟩ := decodeInner_error hm hv hread hd
    · cases hbad
    · cases hmedia
  · cases htimeout
  · cases hreq : innerUpstreamRequest lib up inner with
    | none =>
      obtain rfl : r = .error .upstreamTimeout := htimeout
      exact absurd hr (callUpstream_unsent hreq)
    | some upReq =>
      obtain ⟨pathAndQuery, uri, hpq, huri, -⟩ := (innerUpstreamRequest_eq_some hv).mp hreq
      exact ⟨inner, uri, h.reached.received, ⟨plaintext, ctx, h.reached.opened, hd⟩,
        ⟨nonce, h.reached.drawn⟩, h.reached.clock, hbatch, pathAndQuery, hpq, huri⟩

/-- A call that timed out reports the deadline at least. -/
theorem Answered.timeout_ms (hm : lib.http.MethodRule) (hv : lib.http.ValueRule)
    (hread : lib.bhttp.ReadRule)
    (h : Answered lib up signer cfg env req plaintext ctx nonce call answer signed)
    (hclass : answer.outcomeClass = .upstreamTimeout) :
    millis cfg.upstreamTimeout ≤ call.upstreamMs := by
  have htimeout := h.timeout_iff.mp hclass
  obtain ⟨inner, uri, hg⟩ := h.guards_of_timeout hm hv hread htimeout
  obtain ⟨hleg, hreq, hms⟩ := h.leg hv hg
  rw [htimeout, callUpstream_timeout_iff hreq] at hleg
  rw [hms, elapsed_callUpstream hreq, Nat.min_eq_left (Nat.le_of_lt hleg)]

theorem OutcomeClass.asStr_timeout_iff (c : OutcomeClass) :
    c.asStr = "upstream-timeout" ↔ c = .upstreamTimeout := by
  cases c <;> decide

/-- So does its outcome. -/
theorem Ending.timeout_ms (hm : lib.http.MethodRule) (hv : lib.http.ValueRule)
    (hread : lib.bhttp.ReadRule) {resp : Response} {out : Outcome}
    (h : Ending lib up signer cfg env req resp out) (hclass : out.outcomeClass = .upstreamTimeout) :
    millis cfg.upstreamTimeout ≤ out.upstreamMs := by
  cases h with
  | requestTooLarge _ => cases hclass
  | requestReadFailed _ _ => cases hclass
  | notOpened _ _ => cases hclass
  | notReady _ _ _ => cases hclass
  | notSealed _ _ _ => cases hclass
  | notSigned _ _ _ _ => cases hclass
  | sealed hr hc hs hsign => exact Answered.timeout_ms hm hv hread ⟨hr, hc, hs, hsign⟩ hclass

end Deadline

/-- **When a call is answered with a timeout.**  Exactly when it sent its request and
reading the response takes longer than the deadline; for an answer of the node that would
have been relayed, that is the time until its last byte.  The answer is then a sealed 504,
the time for the upstream that the line reports is the deadline at least, and the node has
received the request. -/
theorem timed_out_iff (lib : Crates) (hm : lib.http.MethodRule) (hv : lib.http.ValueRule)
    (hread : lib.bhttp.ReadRule) (hstatus : lib.bhttp.StatusRule) (up : UpstreamClient)
    (signer : SigningState lib) (cfg : ConfidentialConfig) (env : Env) (req : Request)
    (plaintext : Bytes) (ctx : ResponseContext) (nonce : Block 32) (call : InnerCall)
    (answer : Sealed) (signed : SignedResponse)
    (h : Answered lib up signer cfg env req plaintext ctx nonce call answer signed) :
    (answer.outcomeClass = .upstreamTimeout ↔
      ∃ inner uri, Guards lib up signer cfg env req inner uri ∧ cfg.upstreamTimeout <
        (readUpstream lib env cfg.maxResponseBytes (guardedRequest inner uri)).elapsed) ∧
    (answer.outcomeClass = .upstreamTimeout → answer.innerStatus = 504 ∧
      millis cfg.upstreamTimeout ≤ call.upstreamMs ∧
      ∃ upReq, sends (exchange lib up signer cfg env req).log = [upReq]) ∧
    ∀ inner uri resp, Guards lib up signer cfg env req inner uri →
      (env.upstream (guardedRequest inner uri)).2 = some resp →
      Relayable cfg.maxResponseBytes resp → resp.body.HintRule →
      (answer.outcomeClass = .upstreamTimeout ↔
        cfg.upstreamTimeout < (env.upstream (guardedRequest inner uri)).1 + resp.body.duration) := by
  have hguarded : ∀ inner uri, Guards lib up signer cfg env req inner uri →
      (answer.outcomeClass = .upstreamTimeout ↔ cfg.upstreamTimeout <
        (readUpstream lib env cfg.maxResponseBytes (guardedRequest inner uri)).elapsed) := by
    intro inner uri hg
    obtain ⟨hleg, hreq, -⟩ := h.leg hv hg
    rw [h.timeout_iff, ← callUpstream_timeout_iff hreq, hleg, Option.some.injEq]
  refine ⟨⟨fun hclass => ?_, ?_⟩, fun hclass => ?_, ?_⟩
  · obtain ⟨inner, uri, hg⟩ := h.guards_of_timeout hm hv hread (h.timeout_iff.mp hclass)
    exact ⟨inner, uri, hg, (hguarded inner uri hg).mp hclass⟩
  · rintro ⟨inner, uri, hg, hlate⟩
    exact (hguarded inner uri hg).mpr hlate
  · obtain ⟨inner, uri, hg⟩ := h.guards_of_timeout hm hv hread (h.timeout_iff.mp hclass)
    exact ⟨h.timeout_status (h.timeout_iff.mp hclass), h.timeout_ms hm hv hread hclass, _,
      hg.sends_exchange hv⟩
  · intro inner uri resp hg hresp hrel hint
    rw [hguarded inner uri hg, elapsed_readUpstream_relayable hstatus hresp hrel hint]

namespace KnownAnswers

/-- The node of the vector when it takes half a minute. -/
def slowEnv : Env := { env with
  upstream := fun _ => (30000, some (answerWith [(.contentType, ascii "application/json")] rpcResponse)) }

/-- A problem document is sealed and signed in the exchange of the vector. -/
theorem answered_slowly : ∃ ctx call answer signed,
    Answered crates upstream signer config slowEnv (post "/confidential" encapsulatedRequest)
      bhttpRequest ctx responseNonce call answer signed := by
  obtain ⟨ctx, hr, -⟩ := opensAndSeals "/confidential"
  obtain ⟨call, hcall⟩ := runInner_returns crates upstream config slowEnv bhttpRequest
  have hlate : call.result = .error .upstreamTimeout := by
    have hleg : (callUpstream crates upstream config slowEnv innerRequest).result =
        some (.error .upstreamTimeout) := by decide +kernel
    obtain ⟨e, hd, -⟩ | ⟨inner, hd, hlt, -⟩ | ⟨inner, r, ms, hd, -, hr, rfl⟩ :=
      runInner_eq_some crates upstream config slowEnv hcall
    · cases decoded.symm.trans hd
    · cases decoded.symm.trans hd
      exact absurd hlt (by decide)
    · cases decoded.symm.trans hd
      exact Option.some.inj (hr.symm.trans hleg)
  obtain ⟨t, ht⟩ : ∃ t, nowMs env.signClock = some t := Option.isSome_iff_exists.mp (by decide)
  have hreached : Reached crates signer config slowEnv (post "/confidential" encapsulatedRequest)
      bhttpRequest ctx responseNonce := ⟨hr.received, hr.opened, hr.drawn, hr.clock⟩
  have hsealed : ∃ answer, sealInner crates ctx responseNonce call.result = .ok answer := by
    have hvalue : (signer.openRequest encapsulatedRequest).toOption.map (fun r =>
        (sealInner crates r.2 responseNonce (.error .upstreamTimeout)).toOption.isSome) =
        some true := by decide +kernel
    have hopened := hr.opened
    rw [content_post] at hopened
    rw [hopened] at hvalue
    rw [hlate]
    exact exists_ok (Option.some.inj hvalue)
  obtain ⟨answer, hanswer⟩ := hsealed
  exact ⟨ctx, call, answer, _, hreached, hcall, hanswer, signer.sign_eq_some.mpr ⟨t, ht, rfl⟩⟩

end KnownAnswers

open KnownAnswers in
/-- A node that takes longer than the 25 seconds gets its client a sealed 504. -/
theorem timed_out_vector :
    ∃ ctx call answer signed,
      Answered crates upstream signer config slowEnv (post "/confidential" encapsulatedRequest)
        bhttpRequest ctx responseNonce call answer signed ∧
      answer.outcomeClass = .upstreamTimeout ∧ answer.innerStatus = 504 ∧
      25000 ≤ call.upstreamMs := by
  obtain ⟨ctx, call, answer, signed, h⟩ := answered_slowly
  obtain ⟨-, hstatus, hrelayable⟩ := timed_out_iff crates http_methods http_values bhttp_reads
    bhttp_statuses upstream signer config slowEnv (post "/confidential" encapsulatedRequest) _ _ _ _
    _ _ h
  obtain ⟨uri, hg⟩ := guards "/confidential"
  have hg' : Guards crates upstream signer config slowEnv
      (post "/confidential" encapsulatedRequest) innerRequest uri :=
    ⟨hg.received, hg.opened, hg.drawn, hg.clock, hg.batch, hg.target⟩
  have hclass : answer.outcomeClass = .upstreamTimeout :=
    (hrelayable innerRequest uri _ hg' rfl (relayable (by decide))
      ⟨Nat.zero_le _, by decide⟩).mpr
      (by decide : 25000 < 30000 + 0)
  obtain ⟨hinner, hms, -⟩ := hstatus hclass
  exact ⟨ctx, call, answer, signed, h, hclass, hinner, hms⟩

/-! ## The outcome line -/

/-- **The times in an outcome line are lower bounds.**  A call that returns writes one line.
The time for the upstream is part of the total; a call reports one only when its inner request
was decoded and its batch counted; one that timed out reports the deadline at least; and the
total is at least the time in which the outer body arrived. -/
theorem logged_times_sound (lib : Crates) (hm : lib.http.MethodRule) (hv : lib.http.ValueRule)
    (hread : lib.bhttp.ReadRule) (up : UpstreamClient) (signer : SigningState lib)
    (cfg : ConfidentialConfig) (env : Env) (req : Request) :
    ∃ line, loggedLines (confidentialExchange lib up signer cfg env req).log = [line] ∧
      line.upstreamMs ≤ line.totalMs ∧
      (0 < line.upstreamMs → ∃ plaintext ctx inner,
        signer.openRequest req.body.content = .ok (plaintext, ctx) ∧
          decodeInner lib plaintext = .ok inner ∧ batchSize lib inner.body ≤ cfg.maxBatchSize) ∧
      (line.outcome = "upstream-timeout" → millis cfg.upstreamTimeout ≤ line.upstreamMs) ∧
      (req.body.Within cfg.maxRequestBytes → millis req.body.duration ≤ line.totalMs) := by
  obtain ⟨resp, out, hres, hend⟩ := exchange_ends lib up signer cfg env req
  obtain ⟨-, hlog⟩ := confidentialExchange_eq hres
  rw [hlog, loggedLines_append, loggedLines_exchange]
  refine ⟨_, rfl, hend.upstreamMs_le, hend.counted, fun htimeout => ?_, fun hwithin => ?_⟩
  · exact hend.timeout_ms hm hv hread ((OutcomeClass.asStr_timeout_iff _).mp htimeout)
  · have hduration := duration_le_exchange lib up signer env hwithin
    show millis _ ≤ millis _
    unfold millis
    omega

open KnownAnswers in
/-- The line of a call to a node that takes too long has the 25 seconds in both times. -/
theorem logged_times_vector :
    ∃ line, loggedLines (confidentialExchange crates upstream signer config slowEnv
        (post "/confidential" encapsulatedRequest)).log = [line] ∧
      line.outcome = "upstream-timeout" ∧ 25000 ≤ line.upstreamMs ∧ 25000 ≤ line.totalMs := by
  obtain ⟨line, hline, htotal, -, htimeout, -⟩ := logged_times_sound crates http_methods http_values
    bhttp_reads upstream signer config slowEnv (post "/confidential" encapsulatedRequest)
  have hlogged : (loggedLines (confidentialExchange crates upstream signer config slowEnv
      (post "/confidential" encapsulatedRequest)).log).map OutcomeLine.outcome =
        ["upstream-timeout"] := by decide +kernel
  rw [hline] at hlogged
  have houtcome := List.singleton_inj.mp hlogged
  have hms : 25000 ≤ line.upstreamMs := htimeout houtcome
  exact ⟨line, hline, houtcome, hms, hms.trans htotal⟩

end VrpcSidecar
