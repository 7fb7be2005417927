import VrpcSidecar.Upstream

/-! # The confidential route

`confidential.rs`: one call of `POST /confidential`.  The outer body is read under
a cap and opened; a response nonce is drawn and the clock is checked before
anything is sent on; the inner request is decoded, counted and forwarded; whatever
came of it is encoded, sealed and signed.  A call that cannot get that far answers
in plaintext, without a signature.

`sealInner_eq` says once what is sealed: for a relayed answer and for a problem
document alike, the nonce followed by the ciphertext of an encoded message.
-/
namespace VrpcSidecar

/-- `OHTTP_KEY_PROBLEM`. -/
def ohttpKeyProblem : Bytes :=
  ascii ("\x7b\"type\":\"https://iana.org/assignments/http-problem-types#ohttp-key\"," ++
    "\"title\":\"Oblivious HTTP key configuration not acceptable\"\x7d")

/-! ## Outcomes -/

/-- `Outcome`. -/
structure Outcome where
  outcomeClass : OutcomeClass
  innerStatus : Nat
  batchSize : Nat
  requestBytes : Nat
  responseBytes : Nat
  upstreamMs : Nat

/-- `Outcome::plaintext`. -/
def Outcome.plaintext (c : OutcomeClass) (requestBytes responseBytes : Nat) : Outcome :=
  ⟨c, 0, 0, requestBytes, responseBytes, 0⟩

/-- The line `log_outcome` writes for an outcome. -/
def Outcome.line (o : Outcome) (status totalMs : Nat) : OutcomeLine :=
  ⟨o.outcomeClass.asStr, status, o.innerStatus, o.batchSize, o.requestBytes, o.responseBytes,
    o.upstreamMs, totalMs⟩

/-- `millis`. -/
def millis (ms : Nat) : Nat := min ms (2 ^ 64 - 1)

/-- `unsealable`. -/
def unsealable (requestBytes batchSize upstreamMs : Nat) : Outcome :=
  { Outcome.plaintext .unsealable requestBytes 0 with
    batchSize := batchSize, upstreamMs := upstreamMs }

/-! ## Responses -/

/-- `pre_decapsulation_error`: the header array replaces the content type of the
string body. -/
def preDecapsulationError : Response :=
  ⟨.badRequest, MultiMap.empty.append .contentType (ascii "application/problem+json"),
    ohttpKeyProblem⟩

/-- `plaintext_500`. -/
def plaintext500 : Response := StatusCode.internalServerError.intoResponse

/-- `plaintext_response`. -/
def plaintextResponse : OutcomeClass → Response
  | .requestTooLarge => StatusCode.payloadTooLarge.intoResponse
  | .requestReadFailed => StatusCode.badRequest.intoResponse
  | .preDecapsulation => preDecapsulationError
  | _ => plaintext500

/-- The outer status for an inner one: a status without content becomes 200. -/
def outerStatus (innerStatus : Nat) : Nat :=
  if innerStatus = 204 ∨ innerStatus = 205 ∨ innerStatus = 304 then 200 else innerStatus

/-- `build_confidential_response`. -/
def buildConfidentialResponse (lib : Crates) (innerStatus batchSize : Nat) (outerResp : Bytes)
    (signed : SignedResponse) : Response :=
  let built : Option Response := do
    let status ← StatusCode.tryFrom (outerStatus innerStatus)
    let headers ← headerText lib .empty .contentType (ascii "message/ohttp-res")
    let headers ← headerText lib headers .vrpcSignature signed.signatureHex
    let headers ← headerText lib headers .vrpcTimestamp signed.timestampText
    let headers ← headerText lib headers .vrpcPubkey signed.pubkeyHex
    let headers ← headerText lib headers .vrpcBatchSize (decimal batchSize)
    return ⟨status, headers, outerResp⟩
  built.getD plaintext500

/-! ## The inner call -/

/-- `InnerCall`. -/
structure InnerCall where
  result : InnerResult
  batchSize : Nat
  upstreamMs : Nat

/-- `InnerCall::failed`. -/
def InnerCall.failed (e : InnerError) (batchSize : Nat) : InnerCall := ⟨.error e, batchSize, 0⟩

/-- `run_inner`. -/
def runInner (lib : Crates) (up : UpstreamClient) (cfg : ConfidentialConfig) (env : Env)
    (plaintext : Bytes) : Run Event InnerCall := do
  match decodeInner lib plaintext with
  | .error e => return .failed e 1
  | .ok inner =>
    let n := batchSize lib inner.body
    if n > cfg.maxBatchSize then return .failed .batchTooLarge n
    else
      let (result, ms) ← (callUpstream lib up cfg env inner).timed
      return ⟨result, n, millis ms⟩

/-- `Sealed`. -/
structure Sealed where
  outcomeClass : OutcomeClass
  innerStatus : Nat
  body : Bytes

/-- The first step of `seal_inner`: a relayed answer that cannot be encoded becomes an
internal error. -/
def encodeResult (lib : Crates) (nonce : Block 32) : InnerResult → Except InnerError (Nat × Bytes)
  | .error e => .error e
  | .ok (status, msg) =>
    match encodeWithNonce lib msg nonce with
    | none => .error .internal
    | some buf => .ok (status, buf)

/-- `seal_inner`. -/
def sealInner (lib : Crates) (ctx : ResponseContext) (nonce : Block 32) (result : InnerResult) :
    Fallible Sealed :=
  match encodeResult lib nonce result with
  | .ok (innerStatus, body) =>
    match ctx.sealInPlace body with
    | (.ok (), body) => .ok ⟨.ok, innerStatus, body⟩
    | (.error fault, _) => .error fault
  -- problem documents take the second encoder and the copying seal
  | .error e => do
    let encoded ← orRefused (encodeResponse lib (.ofError e))
    let body ← ctx.sealPlaintext nonce encoded
    return ⟨e.outcome, (InnerResponse.ofError e).status, body⟩

/-! ## The exchange -/

/-- `read_outer`. -/
def readOuter (req : Request) (cap : Nat) : Run Event (Except Outcome Bytes) := do
  match ← collect cap req.body with
  | .ok bytes => return .ok bytes
  | .error .lengthLimit => return .error (.plaintext .requestTooLarge 0 0)
  | .error .body => return .error (.plaintext .requestReadFailed 0 0)

/-- The match of `exchange`: an outcome without a response gets a plaintext one. -/
def settle : Except Outcome (Response × Outcome) → Response × Outcome
  | .ok done => done
  | .error outcome => (plaintextResponse outcome.outcomeClass, outcome)

section Exchange
variable (lib : Crates) (up : UpstreamClient) (signer : SigningState lib)
  (cfg : ConfidentialConfig) (env : Env)

/-- The end of `sealed_exchange`: seal what came of the inner call and sign it. -/
def answer (outerReq : Bytes) (ctx : ResponseContext) (nonce : Block 32) (call : InnerCall) :
    Run Event (Except Outcome (Response × Outcome)) :=
  let failed := unsealable outerReq.length call.batchSize call.upstreamMs
  match sealInner lib ctx nonce call.result with
  | .error .panicked => Run.panicked
  | .error .refused => return .error failed
  | .ok sealed =>
    match signer.sign env.signClock outerReq sealed.body with
    | none => return .error failed
    | some signed =>
      return .ok (buildConfidentialResponse lib sealed.innerStatus call.batchSize sealed.body signed,
        ⟨sealed.outcomeClass, sealed.innerStatus, call.batchSize, outerReq.length,
          sealed.body.length, call.upstreamMs⟩)

/-- `sealed_exchange` once the outer body is read. -/
def openedExchange (outerReq : Bytes) : Run Event (Except Outcome (Response × Outcome)) := do
  match signer.openRequest outerReq with
  | .error .panicked => Run.panicked
  | .error .refused =>
    return .error (.plaintext .preDecapsulation outerReq.length ohttpKeyProblem.length)
  | .ok (plaintext, ctx) =>
    match env.nonce, nowMs env.preCheckClock with
    -- nothing is sent on unless the answer can be sealed and signed
    | some nonce, some _ =>
      let call ← runInner lib up cfg env plaintext
      answer lib signer env outerReq ctx nonce call
    | _, _ => return .error (unsealable outerReq.length 0 0)

/-- `sealed_exchange`. -/
def sealedExchange (req : Request) : Run Event (Except Outcome (Response × Outcome)) := do
  match ← readOuter req cfg.maxRequestBytes with
  | .error outcome => return .error outcome
  | .ok outerReq => openedExchange lib up signer cfg env outerReq

/-- `exchange`. -/
def exchange (req : Request) : Run Event (Response × Outcome) := do
  return settle (← sealedExchange lib up signer cfg env req)

/-- `confidential_exchange`: the guard logs the outcome when the call returns. -/
def confidentialExchange (req : Request) : Run Event Response := do
  let ((resp, outcome), ms) ← (exchange lib up signer cfg env req).timed
  Run.emitOne (.logged (outcome.line resp.status.code (millis ms)))
  return resp

/-- What a call does when its future is dropped at the `n`-th suspension point: the
guard logs a cancelled outcome. -/
def confidentialExchangeDropped (req : Request) (n : Nat) : Option (List Event) :=
  ((exchange lib up signer cfg env req).droppedAt n).map (fun d =>
    d.1 ++ [.logged ((Outcome.plaintext .cancelled 0 0).line 0 (millis d.2))])

/-- `confidential_method_not_allowed`. -/
def confidentialMethodNotAllowed : Run Event Response := do
  Run.emitOne (.logged ((Outcome.plaintext .methodNotAllowed 0 0).line 405 0))
  return StatusCode.methodNotAllowed.intoResponse

end Exchange

/-! ## Sealing an answer -/

/-- The problem document sealed for an error. -/
def problemAnswer (lib : Crates) (e : InnerError) : Option (OutcomeClass × Nat × Bytes) :=
  (encodeResponse lib (.ofError e)).map (fun encoded => (e.outcome, e.status, encoded))

/-- What is sealed for the result of an inner call: its class, the inner status and
the encoded message. -/
def innerAnswer (lib : Crates) : InnerResult → Option (OutcomeClass × Nat × Bytes)
  | .error e => problemAnswer lib e
  | .ok (status, msg) =>
    match encoding lib msg with
    | some encoded => some (.ok, status, encoded)
    | none => problemAnswer lib .internal

/-- **Sealing the result of an inner call**: both paths of `seal_inner` put the nonce
before the ciphertext of the encoded message. -/
theorem sealInner_eq {lib : Crates} {ctx : ResponseContext}
    (h : ctx.OfSuite lib (confidentialSuite lib)) (nonce : Block 32) (result : InnerResult) :
    sealInner lib ctx nonce result =
      orRefused ((innerAnswer lib result).bind (fun a =>
        (ctx.ciphertext lib (confidentialSuite lib) nonce.bytes a.2.2).map (fun ct =>
          ⟨a.1, a.2.1, nonce.bytes ++ ct⟩))) := by
  have hn : nonce.bytes.length = (confidentialSuite lib).secretLen := nonce.size
  have hproblem : ∀ e, (do
      let encoded ← orRefused (encodeResponse lib (.ofError e))
      let body ← ctx.sealPlaintext nonce encoded
      return (⟨e.outcome, (InnerResponse.ofError e).status, body⟩ : Sealed)) =
      orRefused ((problemAnswer lib e).bind (fun a =>
        (ctx.ciphertext lib (confidentialSuite lib) nonce.bytes a.2.2).map (fun ct =>
          ⟨a.1, a.2.1, nonce.bytes ++ ct⟩))) := by
    intro e
    rw [problemAnswer]
    cases encodeResponse lib (.ofError e) with
    | none => rfl
    | some encoded =>
      rw [orRefused_some, ok_bind, ResponseContext.sealPlaintext, h.sealWithNonce hn]
      dsimp only [Option.map_some, Option.bind_some]
      cases ctx.ciphertext lib (confidentialSuite lib) nonce.bytes encoded <;> rfl
  cases result with
  | error e => exact hproblem e
  | ok r =>
    obtain ⟨status, msg⟩ := r
    rw [sealInner, encodeResult, encodeWithNonce_eq, innerAnswer]
    cases encoding lib msg with
    | none => exact hproblem .internal
    | some encoded =>
      dsimp only [Option.map_some, Option.bind_some]
      rw [h.sealInPlace hn]
      cases ctx.ciphertext lib (confidentialSuite lib) nonce.bytes encoded <;> rfl

end VrpcSidecar
