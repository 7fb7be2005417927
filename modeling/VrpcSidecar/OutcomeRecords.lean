import VrpcSidecar.Relay

/-! # The record of a call

Nothing of the content of a call is logged, so the one line a call leaves is all that an
operator learns of it.  The line is put together from an `Outcome`, which six places of
`confidential.rs` make, apart from the response.  `TrueRecord` says what a line has to
have in common with the response it stands for; every ending of a call gives a line that
does (`Ending.trueRecord`), and a call leaves one line, whether it returns or is dropped
(`outcome_record_is_true`).
-/
namespace VrpcSidecar
open BinaryHttp

/-! ## Lines -/

/-- The outcome lines among the events. -/
def loggedLines : List Event → List OutcomeLine
  | [] => []
  | .send _ :: evs => loggedLines evs
  | .logged line :: evs => line :: loggedLines evs

@[simp] theorem loggedLines_append (xs ys : List Event) :
    loggedLines (xs ++ ys) = loggedLines xs ++ loggedLines ys := by
  induction xs with
  | nil => rfl
  | cons e xs ih =>
    cases e with
    | send req => exact ih
    | logged line => exact congrArg (line :: ·) ih

/-- Without a line among the events there is none in a prefix of them. -/
theorem loggedLines_of_prefix {xs ys : List Event} (h : xs <+: ys) (hnone : loggedLines ys = []) :
    loggedLines xs = [] := by
  obtain ⟨zs, rfl⟩ := h
  rw [loggedLines_append, List.append_eq_nil_iff] at hnone
  exact hnone.1

theorem loggedLines_sends (o : Option OutRequest) : loggedLines (o.map Event.send).toList = [] := by
  cases o <;> rfl

/-- The classes that a sealed answer can have. -/
def sealedClasses : List String :=
  ["ok", "bad-request", "unsupported-media-type", "batch-too-large", "upstream",
    "upstream-timeout", "internal"]

theorem mem_sealedClasses {outcome : String} (h : outcome ∈ sealedClasses) :
    outcome = "ok" ∨ ∃ e : InnerError, outcome = e.outcome.asStr := by
  simp only [sealedClasses, List.mem_cons, List.not_mem_nil, or_false] at h
  rcases h with h | h | h | h | h | h | h
  · exact .inl h
  · exact .inr ⟨.badRequest, h⟩
  · exact .inr ⟨.unsupportedMediaType, h⟩
  · exact .inr ⟨.batchTooLarge, h⟩
  · exact .inr ⟨.upstream, h⟩
  · exact .inr ⟨.upstreamTimeout, h⟩
  · exact .inr ⟨.internal, h⟩

theorem OutcomeClass.eq_cancelled {c : OutcomeClass} (h : c.asStr = "cancelled") :
    c = .cancelled := by
  cases c <;>
    first
    | rfl
    | exact absurd h (by decide)

/-! ## The guard -/

/-- `OutcomeGuard`, less the instant it was made at. -/
structure OutcomeGuard where
  done : Option (Outcome × Nat)

/-- `OutcomeGuard::drop`: the line it logs. -/
def OutcomeGuard.drop (guard : OutcomeGuard) (elapsed : Nat) : OutcomeLine :=
  let (outcome, status) := guard.done.getD (.plaintext .cancelled 0 0, 0)
  outcome.line status (millis elapsed)

/-- What becomes of the future of a call: it is polled until it returns, or dropped at its
`n`-th suspension point. -/
inductive Fate where
  | returned
  | dropped (n : Nat)

section Record
variable (lib : Crates) (up : UpstreamClient) (signer : SigningState lib)
  (cfg : ConfidentialConfig) (env : Env) (req : Request)

/-- The events a call leaves; `none` when it has no such suspension point. -/
def eventsUnder : Fate → Option (List Event)
  | .returned => some (confidentialExchange lib up signer cfg env req).log
  | .dropped n => confidentialExchangeDropped lib up signer cfg env req n

/-- A call that is dropped drops its guard before `done` is set. -/
theorem eventsUnder_dropped (n : Nat) :
    eventsUnder lib up signer cfg env req (.dropped n) =
      ((exchange lib up signer cfg env req).droppedAt n).map fun d =>
        d.1 ++ [.logged (OutcomeGuard.drop ⟨none⟩ d.2)] := rfl

/-- A call that returns drops it with what the exchange returned. -/
theorem eventsUnder_returned {resp : Response} {out : Outcome}
    (h : (exchange lib up signer cfg env req).result = some (resp, out)) :
    eventsUnder lib up signer cfg env req .returned =
      some ((exchange lib up signer cfg env req).log ++
        [.logged (OutcomeGuard.drop ⟨some (out, resp.status.code)⟩
          (exchange lib up signer cfg env req).elapsed)]) := by
  rw [eventsUnder, (confidentialExchange_eq h).2]
  rfl

/-- **What is sealed in a response**: the encoded message, made for what the inner call
ended with, and encrypted to the client after the nonce. -/
def Seals (resp : Response) (call : InnerCall) (encoded : Bytes) : Prop :=
  ∃ plaintext ctx nonce ct, Reached lib signer cfg env req plaintext ctx nonce ∧
    (runInner lib up cfg env plaintext).result = some call ∧
    ctx.ciphertext lib (confidentialSuite lib) nonce.bytes encoded = some ct ∧
    resp.body = nonce.bytes ++ ct

/-- The message is the answer of the node: the inner call ended with what the node answered
to its one request, and the message is the encoding of that. -/
def RelayedMessage (call : InnerCall) (encoded : Bytes) : Prop :=
  ∃ upReq upResp, sends (exchange lib up signer cfg env req).log = [upReq] ∧
    (env.upstream upReq).2 = some upResp ∧
    call.result = .ok (upResp.status.code, nodeAnswer upResp) ∧
    encoding lib (nodeAnswer upResp) = some encoded

/-- The message is the sidecar's problem document for `e`: the inner call ended with `e`, or
with an answer that could not be encoded. -/
def ProblemMessage (call : InnerCall) (encoded : Bytes) (e : InnerError) : Prop :=
  (call.result = .error e ∨
    e = .internal ∧ ∃ status msg, call.result = .ok (status, msg) ∧ encoding lib msg = none) ∧
    encodeResponse lib (.ofError e) = some encoded

/-- **A line tells the truth about a response.** -/
structure TrueRecord (resp : Response) (line : OutcomeLine) : Prop where
  status : line.status = resp.status.code
  /-- The class says whether the response is sealed. -/
  outcome_sealed : line.outcome ∈ sealedClasses ↔ SealedAnswer lib up signer cfg env req resp
  /-- It says what is sealed, and the inner status is that of the message: of what is sealed,
  and of what any client reads who encapsulated the request. -/
  message : SealedAnswer lib up signer cfg env req resp → ∃ call encoded m,
    Seals lib up signer cfg env req resp call encoded ∧
    (line.outcome = "ok" ↔ RelayedMessage lib up signer cfg env req call encoded) ∧
    (∀ e : InnerError, line.outcome = e.outcome.asStr ↔ ProblemMessage lib call encoded e) ∧
    readResponse encoded = some m ∧ m.control = .response line.innerStatus ∧
    (SuiteRules lib → ∀ plaintext enc snd,
      Encapsulated signer plaintext req.body.content enc snd →
        clientReads lib enc snd resp.body = some m)
  innerStatus_plaintext : ¬ SealedAnswer lib up signer cfg env req resp → line.innerStatus = 0
  batchSize : SealedAnswer lib up signer cfg env req resp →
    resp.headers.getAll .vrpcBatchSize = [decimal line.batchSize]
  responseBytes : line.responseBytes = resp.body.length
  requestBytes : req.body.Within cfg.maxRequestBytes →
    line.requestBytes = req.body.content.length
  requestBytes_unread : ¬ req.body.Within cfg.maxRequestBytes → line.requestBytes = 0

variable {lib up signer cfg env req}
  {plaintext : Bytes} {ctx : ResponseContext} {nonce : Block 32} {call : InnerCall}
  {answer : Sealed} {signed : SignedResponse} {encoded : Bytes}

/-! ## Plaintext answers -/

/-- A plaintext answer is recorded truly when its class is not one of a sealed answer, and
its lengths are right. -/
theorem trueRecord_of_plaintext {resp : Response} {c : Cause} {out : Outcome}
    (hform : Form lib up signer cfg env req resp c) (hc : c ≠ .answered)
    (hclass : out.outcomeClass.asStr ∉ sealedClasses) (hinner : out.innerStatus = 0)
    (hbody : out.responseBytes = resp.body.length)
    (hread : req.body.Within cfg.maxRequestBytes → out.requestBytes = req.body.content.length)
    (hunread : ¬ req.body.Within cfg.maxRequestBytes → out.requestBytes = 0) (ms : Nat) :
    TrueRecord lib up signer cfg env req resp (out.line resp.status.code ms) := by
  have hplain : ¬ SealedAnswer lib up signer cfg env req resp := by
    intro hsealed
    have hanswered : Form lib up signer cfg env req resp .answered := hsealed
    exact hc (form_unique hform hanswered)
  exact {
    status := rfl
    outcome_sealed := iff_of_false hclass hplain
    message := fun h => absurd h hplain
    innerStatus_plaintext := fun _ => hinner
    batchSize := fun h => absurd h hplain
    responseBytes := hbody
    requestBytes := hread
    requestBytes_unread := hunread }

/-! ## Sealed answers -/

/-- The classes of the errors have names of their own. -/
theorem InnerError.asStr_injective {e e' : InnerError}
    (h : e.outcome.asStr = e'.outcome.asStr) : e = e' := by
  cases e <;> cases e' <;>
    first
    | rfl
    | exact absurd h (by decide)

theorem InnerError.asStr_ne_ok (e : InnerError) : e.outcome.asStr ≠ "ok" := by
  cases e <;> decide

theorem InnerError.asStr_mem (e : InnerError) : e.outcome.asStr ∈ sealedClasses := by
  cases e <;> decide

/-- **What is sealed for an inner call**: the answer it ended with, or a problem document. -/
theorem innerAnswer_cases {c : OutcomeClass} {status : Nat}
    (h : innerAnswer lib call.result = some (c, status, encoded)) :
    (c = .ok ∧ ∃ msg, call.result = .ok (status, msg) ∧ encoding lib msg = some encoded) ∨
    ∃ e : InnerError, c = e.outcome ∧ status = e.status ∧ ProblemMessage lib call encoded e := by
  cases hresult : call.result with
  | error e =>
    rw [hresult] at h
    obtain ⟨_, henc, heq⟩ := Option.map_eq_some_iff.mp h
    cases heq
    exact .inr ⟨e, rfl, rfl, .inl hresult, henc⟩
  | ok r =>
    obtain ⟨code, msg⟩ := r
    rw [hresult, innerAnswer] at h
    cases hencoding : encoding lib msg with
    | some _ =>
      rw [hencoding] at h
      cases h
      exact .inl ⟨rfl, msg, rfl, hencoding⟩
    | none =>
      rw [hencoding] at h
      obtain ⟨_, henc, heq⟩ := Option.map_eq_some_iff.mp h
      cases heq
      exact .inr ⟨.internal, rfl, rfl, .inr ⟨rfl, code, msg, hresult, hencoding⟩, henc⟩

/-- A message is a problem document for one error at most. -/
theorem ProblemMessage.unique {e e' : InnerError} (h : ProblemMessage lib call encoded e)
    (h' : ProblemMessage lib call encoded e') : e = e' := by
  obtain ⟨hcause, -⟩ := h
  obtain ⟨hcause', -⟩ := h'
  rcases hcause with herr | ⟨rfl, status, msg, hok, -⟩
  · rcases hcause' with herr' | ⟨-, status', msg', hok', -⟩
    · exact Except.error.inj (herr.symm.trans herr')
    · cases herr.symm.trans hok'
  · rcases hcause' with herr' | ⟨rfl, -⟩
    · cases hok.symm.trans herr'
    · rfl

/-- A relayed answer is no problem document. -/
theorem RelayedMessage.not_problem {e : InnerError}
    (h : RelayedMessage lib up signer cfg env req call encoded) :
    ¬ ProblemMessage lib call encoded e := by
  obtain ⟨upReq, upResp, -, -, hok, hencoding⟩ := h
  rintro ⟨herr | ⟨-, status, msg, hok', hnone⟩, -⟩
  · cases hok.symm.trans herr
  · cases hok.symm.trans hok'
    cases hencoding.symm.trans hnone

/-- **The class of a sealed answer says what is sealed**, and its inner status is that of
the message. -/
theorem Reached.message (hstatus : lib.bhttp.StatusRule) (hwrite : lib.bhttp.WriteRule)
    {c : OutcomeClass} {status : Nat}
    (hr : Reached lib signer cfg env req plaintext ctx nonce)
    (hc : (runInner lib up cfg env plaintext).result = some call)
    (h : innerAnswer lib call.result = some (c, status, encoded)) :
    c.asStr ∈ sealedClasses ∧
      (c.asStr = "ok" ↔ RelayedMessage lib up signer cfg env req call encoded) ∧
      (∀ e : InnerError, c.asStr = e.outcome.asStr ↔ ProblemMessage lib call encoded e) ∧
      ∃ m, readResponse encoded = some m ∧ m.control = .response status := by
  obtain ⟨rfl, msg, hok, hencoding⟩ | ⟨e, rfl, rfl, hproblem⟩ := innerAnswer_cases h
  · obtain ⟨hfinal, -⟩ := runInner_status hc hok
    obtain ⟨upReq, upResp, hsent, hanswer, rfl, rfl⟩ := hr.relays hstatus hc hok
    have hrelayed : RelayedMessage lib up signer cfg env req call encoded :=
      ⟨upReq, upResp, hsent, hanswer, hok, hencoding⟩
    obtain ⟨hvec, -⟩ := Option.filter_eq_some_iff.mp hencoding
    refine ⟨by decide, iff_of_true rfl hrelayed, fun e => iff_of_false ?_ hrelayed.not_problem,
      nodeAnswer upResp, readResponse_writeToVec hwrite hfinal hvec, rfl⟩
    exact e.asStr_ne_ok.symm
  · have hanswer : problemAnswer lib e = some (e.outcome, e.status, encoded) := by
      rw [problemAnswer, hproblem.2]
      rfl
    refine ⟨e.asStr_mem, iff_of_false e.asStr_ne_ok fun hrelayed => hrelayed.not_problem hproblem,
      fun e' => ⟨?_, ?_⟩, _, problemAnswer_reads hstatus hwrite hanswer, rfl⟩
    · intro hname
      rwa [← InnerError.asStr_injective hname]
    · intro hproblem'
      rw [hproblem.unique hproblem']

/-- A client that encapsulated the request reads what was sealed for it. -/
theorem Encapsulated.clientReads_eq (hsuite : SuiteRules lib) {plaintext' ct : Bytes}
    {enc : lib.kem.EncappedKey} {snd : SenderContext}
    (h : Encapsulated signer plaintext req.body.content enc snd)
    (hopened : signer.openRequest req.body.content = .ok (plaintext', ctx))
    (hct : ctx.ciphertext lib (confidentialSuite lib) nonce.bytes encoded = some ct) :
    clientReads lib enc snd (nonce.bytes ++ ct) = readResponse encoded := by
  obtain ⟨ctx', hopen, -, hclient, -⟩ := h.opens hsuite
  cases Except.ok.inj (hopened.symm.trans hopen)
  exact clientReads_of_open (hclient nonce encoded ct hct).1

/-- The body and the batch header of a sealed answer are what was sealed and counted. -/
theorem Answered.response (hv : lib.http.ValueRule)
    (h : Answered lib up signer cfg env req plaintext ctx nonce call answer signed) :
    (buildConfidentialResponse lib answer.innerStatus call.batchSize answer.body signed).body =
        answer.body ∧
      (buildConfidentialResponse lib answer.innerStatus call.batchSize answer.body
        signed).headers.getAll .vrpcBatchSize = [decimal call.batchSize] := by
  have hfield : (.vrpcBatchSize, decimal call.batchSize) ∈ sealedFields call.batchSize signed := by
    simp [sealedFields]
  rw [buildConfidentialResponse_eq hv h.signed h.innerStatus_mem]
  exact ⟨rfl, getAll_sealedFields hfield⟩

/-- **A sealed answer is recorded truly.** -/
theorem Answered.trueRecord (hv : lib.http.ValueRule) (hstatus : lib.bhttp.StatusRule)
    (hwrite : lib.bhttp.WriteRule)
    (h : Answered lib up signer cfg env req plaintext ctx nonce call answer signed) (ms : Nat) :
    TrueRecord lib up signer cfg env req
      (buildConfidentialResponse lib answer.innerStatus call.batchSize answer.body signed)
      (Outcome.line ⟨answer.outcomeClass, answer.innerStatus, call.batchSize,
        req.body.content.length, answer.body.length, call.upstreamMs⟩
        (buildConfidentialResponse lib answer.innerStatus call.batchSize answer.body
          signed).status.code ms) := by
  have hsealed := h.form hv
  obtain ⟨hresp, hbatch⟩ := h.response hv
  obtain ⟨encoded, ct, hinner, hct, hbody⟩ :=
    sealInner_ok (ofSuite_of_openRequest h.reached.opened) h.sealed
  obtain ⟨hclass, hok, hproblem, m, hm, hcontrol⟩ :=
    h.reached.message hstatus hwrite h.called hinner
  exact {
    status := rfl
    outcome_sealed := iff_of_true hclass hsealed
    message := fun _ => by
      refine ⟨call, encoded, m, ⟨plaintext, ctx, nonce, ct, h.reached, h.called, hct, ?_⟩, hok,
        hproblem, hm, hcontrol, ?_⟩
      · rw [hresp, hbody]
      · intro hsuite plaintext' enc snd henc
        rw [hresp, hbody, henc.clientReads_eq hsuite h.reached.opened hct, hm]
    innerStatus_plaintext := fun hplain => absurd hsealed hplain
    batchSize := fun _ => hbatch
    responseBytes := congrArg List.length hresp.symm
    requestBytes := fun _ => rfl
    requestBytes_unread := fun hunread => absurd h.reached.received hunread }

/-! ## Runs -/

/-- **Every ending is recorded truly.** -/
theorem Ending.trueRecord (hv : lib.http.ValueRule) (hstatus : lib.bhttp.StatusRule)
    (hwrite : lib.bhttp.WriteRule) {resp : Response} {out : Outcome}
    (h : Ending lib up signer cfg env req resp out) (ms : Nat) :
    TrueRecord lib up signer cfg env req resp (out.line resp.status.code ms) := by
  -- The class of an ending without a sealed answer is none of a sealed one.
  have htooLarge : OutcomeClass.requestTooLarge.asStr ∉ sealedClasses := by decide
  have hreadFailed : OutcomeClass.requestReadFailed.asStr ∉ sealedClasses := by decide
  have hpre : OutcomeClass.preDecapsulation.asStr ∉ sealedClasses := by decide
  have hunsealable : OutcomeClass.unsealable.asStr ∉ sealedClasses := by decide
  have h500 : Form lib up signer cfg env req plaintext500 .unsealable := rfl
  cases h with
  | requestTooLarge hlt =>
    have hform : Form lib up signer cfg env req StatusCode.payloadTooLarge.intoResponse
      .requestTooLarge := rfl
    apply trueRecord_of_plaintext hform (by simp) htooLarge rfl rfl
    · intro hwithin
      exact absurd hwithin.1 (Nat.not_le.mpr hlt)
    · intro _
      rfl
  | requestReadFailed hlen hfails =>
    have hform : Form lib up signer cfg env req StatusCode.badRequest.intoResponse
      .requestReadFailed := rfl
    apply trueRecord_of_plaintext hform (by simp) hreadFailed rfl rfl
    · intro hwithin
      rw [hwithin.2] at hfails
      cases hfails
    · intro _
      rfl
  | notOpened hwithin hopen =>
    have hform : Form lib up signer cfg env req preDecapsulationError .notOpened := rfl
    apply trueRecord_of_plaintext hform (by simp) hpre rfl rfl
    · intro _
      rfl
    · exact absurd hwithin
  | notReady hwithin hopen hfailed =>
    exact trueRecord_of_plaintext h500 (by simp) hunsealable rfl rfl (fun _ => rfl)
      (absurd hwithin) ms
  | notSealed hr hc hs =>
    exact trueRecord_of_plaintext h500 (by simp) hunsealable rfl rfl (fun _ => rfl)
      (absurd hr.received) ms
  | notSigned hr hc hs hsign =>
    exact trueRecord_of_plaintext h500 (by simp) hunsealable rfl rfl (fun _ => rfl)
      (absurd hr.received) ms
  | sealed hr hc hs hsign => exact Answered.trueRecord hv hstatus hwrite ⟨hr, hc, hs, hsign⟩ ms

/-- No ending is classed as cancelled. -/
theorem Ending.not_cancelled {resp : Response} {out : Outcome}
    (h : Ending lib up signer cfg env req resp out) : out.outcomeClass ≠ .cancelled := by
  intro hcancelled
  cases h with
  | sealed hr hc hs hsign =>
    obtain ⟨encoded, ct, hinner, -, -⟩ := sealInner_ok (ofSuite_of_openRequest hr.opened) hs
    obtain ⟨hclass, -⟩ | ⟨e, hclass, -⟩ := innerAnswer_cases hinner
    · cases hclass.symm.trans hcancelled
    · cases e <;> cases hclass.symm.trans hcancelled
  | requestTooLarge _ => cases hcancelled
  | requestReadFailed _ _ => cases hcancelled
  | notOpened _ _ => cases hcancelled
  | notReady _ _ _ => cases hcancelled
  | notSealed _ _ _ => cases hcancelled
  | notSigned _ _ _ _ => cases hcancelled

/-- The exchange itself logs nothing. -/
theorem loggedLines_exchange (lib : Crates) (up : UpstreamClient) (signer : SigningState lib)
    (cfg : ConfidentialConfig) (env : Env) (req : Request) :
    loggedLines (exchange lib up signer cfg env req).log = [] := by
  by_cases h : ∃ plaintext ctx nonce, Reached lib signer cfg env req plaintext ctx nonce
  · obtain ⟨plaintext, ctx, nonce, hr⟩ := h
    rw [hr.ends.2, log_runInner]
    exact loggedLines_sends _
  · rw [(ends_early h).2]
    rfl

end Record

/-- **The outcome record tells the truth.**  Whatever becomes of a call, it leaves one line.
The line has the class of a cancelled call and status 0 when the call was dropped, and
neither of them otherwise; then the call returned a response, and the line is true of
it. -/
theorem outcome_record_is_true (lib : Crates) (hv : lib.http.ValueRule)
    (hstatus : lib.bhttp.StatusRule) (hwrite : lib.bhttp.WriteRule) (up : UpstreamClient)
    (signer : SigningState lib) (cfg : ConfidentialConfig) (env : Env) (req : Request)
    (fate : Fate) (log : List Event)
    (hlog : eventsUnder lib up signer cfg env req fate = some log) :
    ∃ line, loggedLines log = [line] ∧
      (line.outcome = "cancelled" ↔ ∃ n, fate = .dropped n) ∧
      (line.status = 0 ↔ ∃ n, fate = .dropped n) ∧
      (fate = .returned → ∃ resp,
        (confidentialExchange lib up signer cfg env req).result = some resp ∧
          TrueRecord lib up signer cfg env req resp line) := by
  have hnone := loggedLines_exchange lib up signer cfg env req
  cases fate with
  | returned =>
    obtain ⟨resp, out, hres, hend⟩ := exchange_ends lib up signer cfg env req
    obtain ⟨hret, -⟩ := confidentialExchange_returns hres
    have hrecord := hend.trueRecord hv hstatus hwrite
      (millis (exchange lib up signer cfg env req).elapsed)
    have hkept : ¬ ∃ n, Fate.returned = .dropped n := by
      rintro ⟨n, hfate⟩
      cases hfate
    rw [eventsUnder_returned lib up signer cfg env req hres] at hlog
    obtain rfl := Option.some.inj hlog
    refine ⟨_, ?_, iff_of_false ?_ hkept, iff_of_false ?_ hkept, fun _ => ⟨resp, hret, hrecord⟩⟩
    · rw [loggedLines_append, hnone]
      rfl
    · intro hcancelled
      exact hend.not_cancelled (OutcomeClass.eq_cancelled hcancelled)
    · intro hzero
      -- a response has a status, and none is 0
      have hcode := resp.status.ge
      rw [← hrecord.status, hzero] at hcode
      omega
  | dropped n =>
    rw [eventsUnder_dropped] at hlog
    obtain ⟨d, hd, rfl⟩ := Option.map_eq_some_iff.mp hlog
    refine ⟨OutcomeGuard.drop ⟨none⟩ d.2, ?_, iff_of_true rfl ⟨n, rfl⟩, iff_of_true rfl ⟨n, rfl⟩, ?_⟩
    · rw [loggedLines_append, loggedLines_of_prefix (Run.droppedAt_prefix hd) hnone]
      rfl
    · intro hfate
      cases hfate

open KnownAnswers in
/-- The line of the vector's exchange: it was read in full, and the node's answer was
relayed. -/
theorem outcome_record_is_true_vector :
    ∃ line, loggedLines (confidentialExchange crates upstream signer config env
        (post "/confidential" encapsulatedRequest)).log = [line] ∧
      line.outcome = "ok" ∧ line.requestBytes = encapsulatedRequest.length := by
  obtain ⟨line, hline, -, -, hrecord⟩ := outcome_record_is_true crates http_values bhttp_statuses
    bhttp_writes upstream signer config env (post "/confidential" encapsulatedRequest) .returned _
    rfl
  obtain ⟨resp, hret, hrecord⟩ := hrecord rfl
  obtain ⟨ctx, hr, hs⟩ := opensAndSeals "/confidential"
  obtain ⟨ms, hc⟩ := called
  obtain ⟨t, ht⟩ : ∃ t, nowMs env.signClock = some t := Option.isSome_iff_exists.mp (by decide)
  -- The response is sealed, so its class is one of those.
  obtain ⟨resp', out, hres, hend⟩ := exchange_ends crates upstream signer config env
    (post "/confidential" encapsulatedRequest)
  obtain rfl := Option.some.inj ((confidentialExchange_returns hres).1.symm.trans hret)
  have hsealed := (hend.form_iff http_values .answered).mpr
    ⟨_, ctx, _, _, _, _, hr, hc, hs, signer.sign_eq_some.mpr ⟨t, ht, rfl⟩⟩
  obtain ⟨call, encoded, m, ⟨_, _, _, _, hr', hc', -, -⟩, -, hproblem, -⟩ := hrecord.message hsealed
  obtain ⟨rfl, -, -⟩ := hr.unique hr'
  obtain rfl := Option.some.inj (hc.symm.trans hc')
  refine ⟨line, hline, ?_, ?_⟩
  · obtain hok | ⟨e, he⟩ := mem_sealedClasses (hrecord.outcome_sealed.mpr hsealed)
    · exact hok
    · -- a problem document is sealed for an error or for an answer that is not encoded
      obtain ⟨herr | ⟨-, status, msg, hok, hnone⟩, -⟩ := (hproblem e).mp he
      · cases herr
      · cases hok
        exact absurd hnone (by decide)
  · rw [hrecord.requestBytes hr.received]
    exact congrArg List.length (content_post _ _)

end VrpcSidecar
