import VrpcSidecar.ExchangePlanes

/-! # The keys responses are sealed under

A response is encrypted under an AES-GCM key and nonce that HKDF derives from a salt,
the encapsulated key of the request followed by the response nonce, and the secret
HPKE exports.  Two responses under one key and nonce would give their plaintexts away,
and a replayed request exports the same secret, so everything rests on the salt: on the
nonce that one module writes in front of the plaintext and another reads back.

Here an exchange is run with a record of the calls it makes to the suite's seal function
(`exchangeRecorded`, which without the record is `exchange`).  There is at most one in
an exchange, and its salt is the one above on both paths of `seal_inner`
(`sealCalls_spec`); `no_response_key_reuse` is about exchanges that run side by side.
-/
namespace VrpcSidecar

/-! ## Recorded sealing -/

/-- One call of the suite's seal function: what the key and the nonce of AES-GCM are
derived from, and the buffer with the offset of the plaintext in it. -/
structure SealCall where
  salt : Bytes
  secret : Bytes
  buf : Bytes
  offset : Nat

namespace ResponseContext
variable (ctx : ResponseContext)

/-- `seal_buf`, with the calls it makes. -/
def sealBufRecorded (buf : Bytes) : (Fallible Unit × Bytes) × List SealCall :=
  match ctx.sealBufInputs buf with
  | .error e => ((.error e, buf), [])
  | .ok (salt, secret) =>
    (ctx.sealFn salt secret buf ctx.secretLen, [⟨salt, secret, buf, ctx.secretLen⟩])

/-- `seal_in_place`, with the calls it makes. -/
def sealInPlaceRecorded (buf : Bytes) : (Fallible Unit × Bytes) × List SealCall :=
  match ctx.sealBufRecorded buf with
  | ((.error .refused, _), calls) => ((.error .refused, []), calls)
  | r => r

/-- `seal_with_nonce`, with the calls it makes. -/
def sealWithNonceRecorded (responseNonce plaintext : Bytes) : Fallible Bytes × List SealCall :=
  if responseNonce.length ≠ ctx.secretLen then (.error .refused, [])
  else
    match ctx.sealInPlaceRecorded (responseNonce ++ plaintext) with
    | ((.ok (), out), calls) => (.ok out, calls)
    | ((.error e, _), calls) => (.error e, calls)

theorem sealBufRecorded_erase (buf : Bytes) : (ctx.sealBufRecorded buf).1 = ctx.sealBuf buf := by
  rw [sealBufRecorded, sealBuf]
  cases ctx.sealBufInputs buf <;> rfl

theorem sealInPlaceRecorded_erase (buf : Bytes) :
    (ctx.sealInPlaceRecorded buf).1 = ctx.sealInPlace buf := by
  rw [sealInPlaceRecorded, sealInPlace, ← sealBufRecorded_erase]
  rcases ctx.sealBufRecorded buf with ⟨⟨(- | -) | -, out⟩, calls⟩ <;> rfl

theorem sealWithNonceRecorded_erase (responseNonce plaintext : Bytes) :
    (ctx.sealWithNonceRecorded responseNonce plaintext).1 =
      ctx.sealWithNonce responseNonce plaintext := by
  rw [sealWithNonceRecorded, sealWithNonce, ← sealInPlaceRecorded_erase]
  split
  · rfl
  · rcases ctx.sealInPlaceRecorded (responseNonce ++ plaintext) with ⟨⟨- | -, out⟩, calls⟩ <;> rfl

/-- The call that seals `plaintext` after `nonce`. -/
def sealCall (nonce plaintext : Bytes) : SealCall :=
  ⟨ctx.enc.bytes ++ nonce, ctx.secret.bytes.take ctx.secretLen, nonce ++ plaintext, ctx.secretLen⟩

variable {ctx} {lib : Crates} {S : Suite lib.kem}

/-- **Sealing a buffer is one call**, with the nonce read back from the buffer. -/
theorem OfSuite.sealInPlace_calls (h : ctx.OfSuite lib S) {nonce : Bytes}
    (hn : nonce.length = S.secretLen) (plaintext : Bytes) :
    (ctx.sealInPlaceRecorded (nonce ++ plaintext)).2 = [ctx.sealCall nonce plaintext] := by
  have hlen : ctx.secretLen = nonce.length := h.secretLen.trans hn.symm
  have hbuf : (ctx.sealBufRecorded (nonce ++ plaintext)).2 = [ctx.sealCall nonce plaintext] := by
    rw [sealBufRecorded, ctx.sealBufInputs_eq (h.secretLen ▸ h.secretLen_le), hlen,
      if_pos (by simp), List.take_left]
    dsimp only
    rw [sealCall, hlen]
  rw [sealInPlaceRecorded]
  generalize ctx.sealBufRecorded (nonce ++ plaintext) = r at hbuf ⊢
  rcases r with ⟨⟨(_ | _) | _, out⟩, calls⟩ <;> exact hbuf

theorem OfSuite.sealWithNonce_calls (h : ctx.OfSuite lib S) {nonce : Bytes}
    (hn : nonce.length = S.secretLen) (plaintext : Bytes) :
    (ctx.sealWithNonceRecorded nonce plaintext).2 = [ctx.sealCall nonce plaintext] := by
  have hcalls := h.sealInPlace_calls hn plaintext
  rw [sealWithNonceRecorded, if_neg (by rw [h.secretLen]; exact not_not_intro hn)]
  generalize ctx.sealInPlaceRecorded (nonce ++ plaintext) = r at hcalls ⊢
  rcases r with ⟨⟨_ | _, out⟩, calls⟩ <;> exact hcalls

end ResponseContext

/-- `seal_inner`, with the calls it makes. -/
def sealInnerRecorded (lib : Crates) (ctx : ResponseContext) (nonce : Block 32)
    (result : InnerResult) : Fallible Sealed × List SealCall :=
  match encodeResult lib nonce result with
  | .ok (innerStatus, body) =>
    match ctx.sealInPlaceRecorded body with
    | ((.ok (), body), calls) => (.ok ⟨.ok, innerStatus, body⟩, calls)
    | ((.error fault, _), calls) => (.error fault, calls)
  | .error e =>
    match encodeResponse lib (.ofError e) with
    | none => (.error .refused, [])
    | some encoded =>
      match ctx.sealWithNonceRecorded nonce.bytes encoded with
      | (.ok body, calls) => (.ok ⟨e.outcome, (InnerResponse.ofError e).status, body⟩, calls)
      | (.error fault, calls) => (.error fault, calls)

/-- Without the record this is `seal_inner`. -/
theorem sealInnerRecorded_erase (lib : Crates) (ctx : ResponseContext) (nonce : Block 32)
    (result : InnerResult) :
    (sealInnerRecorded lib ctx nonce result).1 = sealInner lib ctx nonce result := by
  rw [sealInnerRecorded, sealInner]
  rcases encodeResult lib nonce result with e | ⟨innerStatus, body⟩
  · dsimp only
    cases encodeResponse lib (.ofError e) with
    | none => rfl
    | some encoded =>
      rw [orRefused_some, ok_bind, ResponseContext.sealPlaintext,
        ← ctx.sealWithNonceRecorded_erase]
      dsimp only
      rcases ctx.sealWithNonceRecorded nonce.bytes encoded with ⟨- | -, calls⟩ <;> rfl
  · dsimp only
    rw [← ctx.sealInPlaceRecorded_erase]
    rcases ctx.sealInPlaceRecorded body with ⟨⟨- | -, out⟩, calls⟩ <;> rfl

/-- **What `seal_inner` seals, it seals in one call**, on both of its paths: the encoded
answer, after the nonce. -/
theorem sealInnerRecorded_calls {lib : Crates} {ctx : ResponseContext}
    (h : ctx.OfSuite lib (confidentialSuite lib)) (nonce : Block 32) (result : InnerResult) :
    (sealInnerRecorded lib ctx nonce result).2 =
      ((innerAnswer lib result).map (fun a => ctx.sealCall nonce.bytes a.2.2)).toList := by
  have hn : nonce.bytes.length = (confidentialSuite lib).secretLen := nonce.size
  have hproblem : ∀ e, (match encodeResponse lib (.ofError e) with
      | none => ((.error .refused, []) : Fallible Sealed × List SealCall)
      | some encoded =>
        match ctx.sealWithNonceRecorded nonce.bytes encoded with
        | (.ok body, calls) => (.ok ⟨e.outcome, (InnerResponse.ofError e).status, body⟩, calls)
        | (.error fault, calls) => (.error fault, calls)).2 =
      ((problemAnswer lib e).map (fun a => ctx.sealCall nonce.bytes a.2.2)).toList := by
    intro e
    rw [problemAnswer]
    cases encodeResponse lib (.ofError e) with
    | none => rfl
    | some encoded =>
      have hcalls := h.sealWithNonce_calls hn encoded
      dsimp only [Option.map_some, Option.toList_some]
      generalize ctx.sealWithNonceRecorded nonce.bytes encoded = r at hcalls ⊢
      rcases r with ⟨_ | _, calls⟩ <;> exact hcalls
  cases result with
  | error e => exact hproblem e
  | ok r =>
    obtain ⟨status, msg⟩ := r
    rw [sealInnerRecorded, encodeResult, encodeWithNonce_eq, innerAnswer]
    cases encoding lib msg with
    | none => exact hproblem .internal
    | some encoded =>
      have hcalls := h.sealInPlace_calls hn encoded
      dsimp only [Option.map_some, Option.toList_some]
      generalize ctx.sealInPlaceRecorded (nonce.bytes ++ encoded) = r at hcalls ⊢
      rcases r with ⟨⟨_ | _, out⟩, calls⟩ <;> exact hcalls

/-! ## Recorded exchanges -/

/-- A run with a record of its seal calls among its events. -/
abbrev RecordedRun (α : Type) := Run (Event ⊕ SealCall) α

/-- A run that seals nothing. -/
def unsealing {α : Type} (r : Run Event α) : RecordedRun α :=
  r.filterMapEvents (fun e => some (.inl e))

/-- The run without the record. -/
def RecordedRun.erase {α : Type} (r : RecordedRun α) : Run Event α :=
  r.filterMapEvents Sum.getLeft?

/-- The seal calls among events. -/
def sealCallsOf (log : List (Event ⊕ SealCall)) : List SealCall := log.filterMap Sum.getRight?

section Recorded
variable (lib : Crates) (up : UpstreamClient) (signer : SigningState lib)
  (cfg : ConfidentialConfig) (env : Env)

/-- The end of `sealed_exchange`, recorded. -/
def answerRecorded (outerReq : Bytes) (ctx : ResponseContext) (nonce : Block 32)
    (call : InnerCall) : RecordedRun (Except Outcome (Response × Outcome)) := do
  let failed := unsealable outerReq.length call.batchSize call.upstreamMs
  let (sealed, calls) := sealInnerRecorded lib ctx nonce call.result
  Run.emitAll (calls.map .inr)
  match sealed with
  | .error .panicked => Run.panicked
  | .error .refused => return .error failed
  | .ok sealed =>
    match signer.sign env.signClock outerReq sealed.body with
    | none => return .error failed
    | some signed =>
      return .ok (buildConfidentialResponse lib sealed.innerStatus call.batchSize sealed.body signed,
        ⟨sealed.outcomeClass, sealed.innerStatus, call.batchSize, outerReq.length,
          sealed.body.length, call.upstreamMs⟩)

/-- `sealed_exchange` once the outer body is read, recorded. -/
def openedExchangeRecorded (outerReq : Bytes) :
    RecordedRun (Except Outcome (Response × Outcome)) := do
  match signer.openRequest outerReq with
  | .error .panicked => Run.panicked
  | .error .refused =>
    return .error (.plaintext .preDecapsulation outerReq.length ohttpKeyProblem.length)
  | .ok (plaintext, ctx) =>
    match env.nonce, nowMs env.preCheckClock with
    | some nonce, some _ =>
      let call ← unsealing (runInner lib up cfg env plaintext)
      answerRecorded lib signer env outerReq ctx nonce call
    | _, _ => return .error (unsealable outerReq.length 0 0)

/-- `sealed_exchange`, recorded. -/
def sealedExchangeRecorded (req : Request) :
    RecordedRun (Except Outcome (Response × Outcome)) := do
  match ← unsealing (readOuter req cfg.maxRequestBytes) with
  | .error outcome => return .error outcome
  | .ok outerReq => openedExchangeRecorded lib up signer cfg env outerReq

/-- `exchange`, recorded. -/
def exchangeRecorded (req : Request) : RecordedRun (Response × Outcome) := do
  return settle (← sealedExchangeRecorded lib up signer cfg env req)

theorem erase_unsealing {α : Type} (r : Run Event α) :
    Run.filterMapEvents Sum.getLeft? (unsealing r) = r := by
  rw [unsealing, Run.filterMapEvents_comp]
  exact Run.filterMapEvents_some r

theorem answerRecorded_erase (outerReq : Bytes) (ctx : ResponseContext) (nonce : Block 32)
    (call : InnerCall) :
    Run.filterMapEvents Sum.getLeft? (answerRecorded lib signer env outerReq ctx nonce call) =
      answer lib signer env outerReq ctx nonce call := by
  rw [answerRecorded, answer, ← sealInnerRecorded_erase]
  generalize sealInnerRecorded lib ctx nonce call.result = r
  obtain ⟨sealed, calls⟩ := r
  have hcalls : (calls.map Sum.inr).filterMap (Sum.getLeft? : Event ⊕ SealCall → Option Event) =
      [] := by
    simp [List.filterMap_map, Function.comp_def]
  dsimp only
  rw [Run.bind_eq, Run.filterMapEvents_andThen, Run.filterMapEvents_emitAll, hcalls]
  show Run.filterMapEvents Sum.getLeft? _ = _
  rcases sealed with (_ | _) | sealed
  · rfl
  · rfl
  · dsimp only
    cases signer.sign env.signClock outerReq sealed.body <;> rfl

/-- **Without the record this is `exchange`.** -/
theorem exchangeRecorded_erase (req : Request) :
    (exchangeRecorded lib up signer cfg env req).erase = exchange lib up signer cfg env req := by
  have hopened : ∀ outerReq, Run.filterMapEvents Sum.getLeft?
      (openedExchangeRecorded lib up signer cfg env outerReq) =
        openedExchange lib up signer cfg env outerReq := by
    intro outerReq
    rw [openedExchangeRecorded, openedExchange]
    rcases signer.openRequest outerReq with (_ | _) | ⟨plaintext, ctx⟩
    · rfl
    · rfl
    · dsimp only
      cases env.nonce with
      | none => rfl
      | some nonce =>
        cases nowMs env.preCheckClock with
        | none => rfl
        | some t =>
          dsimp only
          rw [Run.bind_eq, Run.bind_eq, Run.filterMapEvents_andThen, erase_unsealing]
          exact congrArg _ (funext fun call => answerRecorded_erase lib signer env _ _ _ call)
  rw [RecordedRun.erase, exchangeRecorded, exchange, sealedExchangeRecorded, sealedExchange]
  simp only [Run.bind_eq, Run.filterMapEvents_andThen, erase_unsealing]
  congr 2
  funext r
  rcases r with outcome | outerReq
  · rfl
  · exact hopened outerReq

/-- The seal calls of an exchange. -/
def sealCalls (req : Request) : List SealCall :=
  sealCallsOf (exchangeRecorded lib up signer cfg env req).log

end Recorded

section SealCalls
variable {lib : Crates} {up : UpstreamClient} {signer : SigningState lib}
  {cfg : ConfidentialConfig} {env : Env} {req : Request}

theorem sealCallsOf_append (xs ys : List (Event ⊕ SealCall)) :
    sealCallsOf (xs ++ ys) = sealCallsOf xs ++ sealCallsOf ys := List.filterMap_append

theorem sealCallsOf_unsealing {α : Type} (r : Run Event α) : sealCallsOf (unsealing r).log = [] := by
  rw [unsealing, Run.log_filterMapEvents, sealCallsOf, List.filterMap_filterMap]
  simp

theorem sealCallsOf_answerRecorded (outerReq : Bytes) (ctx : ResponseContext) (nonce : Block 32)
    (call : InnerCall) :
    sealCallsOf (answerRecorded lib signer env outerReq ctx nonce call).log =
      (sealInnerRecorded lib ctx nonce call.result).2 := by
  rw [answerRecorded]
  generalize sealInnerRecorded lib ctx nonce call.result = r
  obtain ⟨sealed, calls⟩ := r
  have hcalls : sealCallsOf (calls.map Sum.inr) = calls := by
    simp [sealCallsOf, List.filterMap_map, Function.comp_def]
  dsimp only
  rw [Run.bind_eq, Run.log_andThen (Run.result_emitAll _), Run.log_emitAll, sealCallsOf_append, hcalls]
  rcases sealed with (_ | _) | sealed
  · exact List.append_nil _
  · exact List.append_nil _
  · dsimp only
    cases signer.sign env.signClock outerReq sealed.body <;> exact List.append_nil _

/-- Reading the outer body seals nothing: the seal calls are those of what follows. -/
theorem sealCalls_of_readOuter {r : Except Outcome Bytes}
    (h : (readOuter req cfg.maxRequestBytes).result = some r) :
    sealCalls lib up signer cfg env req =
      match r with
      | .error _ => []
      | .ok outerReq => sealCallsOf (openedExchangeRecorded lib up signer cfg env outerReq).log := by
  have hres : (unsealing (readOuter req cfg.maxRequestBytes)).result = some r := by
    rw [unsealing, Run.result_filterMapEvents]
    exact h
  rw [sealCalls, exchangeRecorded, Run.bind_eq]
  show sealCallsOf (Run.andThen _ (fun r => .ret (settle r))).log = _
  rw [Run.log_andThen_ret, sealedExchangeRecorded, Run.bind_eq, Run.log_andThen hres,
    sealCallsOf_append, sealCallsOf_unsealing, List.nil_append]
  cases r with
  | error out => rfl
  | ok outerReq => rfl

/-- **A call that gets to the inner request seals what came of it, in one call.** -/
theorem Reached.sealCalls {plaintext : Bytes} {ctx : ResponseContext} {nonce : Block 32}
    {call : InnerCall} (hr : Reached lib signer cfg env req plaintext ctx nonce)
    (hc : (runInner lib up cfg env plaintext).result = some call) :
    VrpcSidecar.sealCalls lib up signer cfg env req =
      ((innerAnswer lib call.result).map (fun a => ctx.sealCall nonce.bytes a.2.2)).toList := by
  have hread : (readOuter req cfg.maxRequestBytes).result = some (.ok req.body.content) :=
    Run.result_andThen_eq_some.mpr ⟨_, collect_ok_iff.mpr ⟨hr.received, rfl⟩, rfl⟩
  have hcall : (unsealing (runInner lib up cfg env plaintext)).result = some call := by
    rw [unsealing, Run.result_filterMapEvents]
    exact hc
  obtain ⟨t, ht⟩ := hr.clock
  rw [sealCalls_of_readOuter hread]
  dsimp only
  rw [openedExchangeRecorded, hr.opened]
  dsimp only
  rw [hr.drawn, ht]
  dsimp only
  rw [Run.bind_eq, Run.log_andThen hcall, sealCallsOf_append, sealCallsOf_unsealing,
    sealCallsOf_answerRecorded, sealInnerRecorded_calls (ofSuite_of_openRequest hr.opened)]
  rfl

/-- A call that does not get to the inner request seals nothing. -/
theorem sealCalls_early
    (h : ¬ ∃ plaintext ctx nonce, Reached lib signer cfg env req plaintext ctx nonce) :
    sealCalls lib up signer cfg env req = [] := by
  obtain ⟨r, hr⟩ := collect_returns (E := Event) cfg.maxRequestBytes req.body
  rcases r with e | bytes
  · have hread : ∃ out, (readOuter req cfg.maxRequestBytes).result = some (.error out) := by
      rw [readOuter, Run.bind_eq, Run.result_andThen, hr]
      cases e <;> exact ⟨_, rfl⟩
    obtain ⟨out, hread⟩ := hread
    exact sealCalls_of_readOuter hread
  · obtain ⟨hw, rfl⟩ := collect_ok_iff.mp hr
    rw [sealCalls_of_readOuter (Run.result_andThen_eq_some.mpr ⟨_, hr, rfl⟩)]
    dsimp only
    rw [openedExchangeRecorded]
    cases hopen : signer.openRequest req.body.content with
    | error fault => cases fault <;> rfl
    | ok opened =>
      obtain ⟨plaintext, ctx⟩ := opened
      dsimp only
      cases hn : env.nonce with
      | none => rfl
      | some nonce =>
        cases ht : nowMs env.preCheckClock with
        | none => rfl
        | some t => exact absurd ⟨plaintext, ctx, nonce, hw, hopen, hn, t, ht⟩ h

/-- The `enc` of an encapsulated request. -/
def encOf (outerReq : Bytes) : Bytes := (outerReq.drop hdrLen).take encLen

/-- The context of an opened request keeps its `enc`, all 32 bytes of it. -/
theorem enc_of_openRequest {body plaintext : Bytes} {ctx : ResponseContext}
    (h : signer.openRequest body = .ok (plaintext, ctx)) :
    ctx.enc.bytes = encOf body ∧ (encOf body).length = 32 := by
  have hs : (confidentialSuite lib).secretLen ≤ 32 := Nat.le_refl 32
  obtain ⟨hlen, -, hopened⟩ := openEnvelope_ok hs h
  have henc : (encOf body).length = 32 := by
    rw [encOf, List.length_take, List.length_drop, hdrLen, encLen]
    omega
  obtain ⟨sk, enc, rcv, exported, -, -, -, -, -, rfl⟩ := opened_iff.mp hopened
  exact ⟨Block.padded_bytes henc, henc⟩

/-- **What an exchange seals with**: a salt of the request's `enc` and the drawn nonce,
and a buffer with that nonce in front of the plaintext. -/
structure SealedWith (env : Env) (req : Request) (c : SealCall) : Prop where
  drawn : ∃ nonce, env.nonce = some nonce ∧ c.salt = encOf req.body.content ++ nonce.bytes ∧
    c.buf.take 32 = nonce.bytes
  encLength : (encOf req.body.content).length = 32
  offset : c.offset = 32 ∧ 32 ≤ c.buf.length

/-- **The seal calls of an exchange**: at most one, with the salt of its own request and
nonce. -/
theorem sealCalls_spec (lib : Crates) (up : UpstreamClient) (signer : SigningState lib)
    (cfg : ConfidentialConfig) (env : Env) (req : Request) :
    (sealCalls lib up signer cfg env req).length ≤ 1 ∧
      ∀ c ∈ sealCalls lib up signer cfg env req, SealedWith env req c := by
  by_cases h : ∃ plaintext ctx nonce, Reached lib signer cfg env req plaintext ctx nonce
  · obtain ⟨plaintext, ctx, nonce, hr⟩ := h
    obtain ⟨call, hc⟩ := runInner_returns lib up cfg env plaintext
    obtain ⟨henc, hlen⟩ := enc_of_openRequest hr.opened
    have hsuite : ctx.secretLen = 32 := (ofSuite_of_openRequest hr.opened).secretLen
    rw [hr.sealCalls hc]
    refine ⟨by cases innerAnswer lib call.result <;> simp, ?_⟩
    intro c hcall
    obtain ⟨a, -, rfl⟩ := Option.map_eq_some_iff.mp (Option.mem_toList.mp hcall)
    refine ⟨⟨nonce, hr.drawn, ?_, ?_⟩, hlen, hsuite, ?_⟩
    · rw [ResponseContext.sealCall, henc]
    · exact List.take_left' nonce.size
    · simp [ResponseContext.sealCall]
  · rw [sealCalls_early h]
    exact ⟨by simp, by simp⟩

/-- A dropped exchange made the first of the calls, if any. -/
theorem sealCallsOf_dropped {n : Nat} {d : List (Event ⊕ SealCall) × Nat}
    (h : (exchangeRecorded lib up signer cfg env req).droppedAt n = some d) :
    sealCallsOf d.1 <+: sealCalls lib up signer cfg env req :=
  (Run.droppedAt_prefix h).filterMap _

/-- **A sealed response names its salt**: the request's `enc` and its own first 32
bytes. -/
theorem salt_of_response (hv : lib.http.ValueRule) {resp : Response} {out : Outcome}
    (hres : (exchange lib up signer cfg env req).result = some (resp, out))
    (hsigned : ¬ resp.Unsigned) :
    ∃ c, sealCalls lib up signer cfg env req = [c] ∧
      c.salt = encOf req.body.content ++ resp.body.take 32 := by
  obtain ⟨resp', out', hres', hend⟩ := exchange_ends lib up signer cfg env req
  cases Option.some.inj (hres.symm.trans hres')
  obtain ⟨cause, -, hform⟩ := hend.cause hv
  by_cases hc : cause = .answered
  · subst hc
    obtain ⟨plaintext, ctx, nonce, call, answer, signed, hans, -, -, -, encoded, ct, hinner, -,
      hbody⟩ := hform
    obtain ⟨henc, -⟩ := enc_of_openRequest hans.reached.opened
    refine ⟨ctx.sealCall nonce.bytes encoded, ?_, ?_⟩
    · rw [hans.reached.sealCalls hans.called, hinner]
      rfl
    · rw [hbody, List.take_left' nonce.size, ResponseContext.sealCall, henc]
  · exact absurd (unsigned_of_form hform hc) hsigned

end SealCalls

/-! ## Keys -/

/-- The AES-GCM key and nonce a call encrypts under. -/
def SealCall.aeadKey (lib : Crates) (c : SealCall) : Option (Bytes × Bytes) := do
  let prk := lib.hkdf.extract c.salt c.secret
  let key ← lib.hkdf.expand prk (ascii "key") lib.aes256Gcm.keySize
  let nonce ← lib.hkdf.expand prk (ascii "nonce") 12
  return (key.bytes, nonce.bytes)

/-- They are what `seal_response` gives to AES-GCM, with the buffer from the offset on. -/
theorem sealResponseInputs_aeadKey (lib : Crates) {c : SealCall} (h : c.offset ≤ c.buf.length) :
    sealResponseInputs lib (confidentialSuite lib) c.salt c.secret c.buf c.offset =
      orRefused ((c.aeadKey lib).bind (fun k => (lib.aes256Gcm.newFromSlice k.1).bind
        (fun cipher => (lib.aes256Gcm.nonceTryFrom k.2).map
          (fun nonce => (cipher, nonce, c.buf.drop c.offset))))) := by
  rw [sealResponseInputs_eq lib (confidentialSuite lib) (Nat.le_of_eq lib.aes256Gcm_keySize) _ _ h,
    responseKey, SealCall.aeadKey]
  show orRefused (Option.map _ (Option.bind (lib.hkdf.expand _ (ascii "key") lib.aes256Gcm.keySize)
    _)) = _
  cases lib.hkdf.expand (lib.hkdf.extract c.salt c.secret) (ascii "key") lib.aes256Gcm.keySize with
  | none => rfl
  | some key =>
    simp only [Option.bind_some, Option.bind_eq_bind]
    cases lib.hkdf.expand (lib.hkdf.extract c.salt c.secret) (ascii "nonce") 12 with
    | none => rfl
    | some nonce =>
      simp only [Option.bind_some, Option.pure_def]
      show orRefused (Option.map _ (Option.bind (lib.aes256Gcm.newFromSlice key.bytes) _)) = _
      cases lib.aes256Gcm.newFromSlice key.bytes with
      | none => rfl
      | some cipher =>
        simp only [Option.bind_some]
        show orRefused (Option.map _ (Option.bind (lib.aes256Gcm.nonceTryFrom nonce.bytes) _)) = _
        cases lib.aes256Gcm.nonceTryFrom nonce.bytes <;> rfl

/-- HKDF does not collide on the inputs of the given calls. -/
structure KeysCollisionFree (lib : Crates) (calls : List SealCall) : Prop where
  extract : ∀ c ∈ calls, ∀ c' ∈ calls,
    lib.hkdf.extract c.salt c.secret = lib.hkdf.extract c'.salt c'.secret → c.salt = c'.salt
  expand : ∀ c ∈ calls, ∀ c' ∈ calls,
    lib.hkdf.expand (lib.hkdf.extract c.salt c.secret) (ascii "key") lib.aes256Gcm.keySize =
      lib.hkdf.expand (lib.hkdf.extract c'.salt c'.secret) (ascii "key") lib.aes256Gcm.keySize →
    lib.hkdf.extract c.salt c.secret = lib.hkdf.extract c'.salt c'.secret

/-- Calls under one key have one salt. -/
theorem KeysCollisionFree.salt_eq {lib : Crates} {calls : List SealCall} {c c' : SealCall}
    {k : Bytes × Bytes} (h : KeysCollisionFree lib calls) (hc : c ∈ calls) (hc' : c' ∈ calls)
    (hk : c.aeadKey lib = some k) (hk' : c'.aeadKey lib = some k) : c.salt = c'.salt := by
  simp only [SealCall.aeadKey, Option.bind_eq_bind, Option.bind_eq_some_iff, Option.pure_def,
    Option.some.injEq] at hk hk'
  obtain ⟨key, hkey, nonce, -, rfl⟩ := hk
  obtain ⟨key', hkey', nonce', -, hpair⟩ := hk'
  have hsame : key' = key := Block.ext (Prod.mk.inj hpair).1
  exact h.extract c hc c' hc' (h.expand c hc c' hc' (by rw [hkey, hkey', hsame]))

/-! ## Exchanges side by side -/

/-- One exchange of a server: the request, and what the server runs it with. -/
structure ExchangeInput where
  up : UpstreamClient
  cfg : ConfidentialConfig
  env : Env
  req : Request

namespace ExchangeInput
variable {lib : Crates} (signer : SigningState lib) (x : ExchangeInput)

/-- The exchange. -/
def run : Run Event (Response × Outcome) := exchange lib x.up signer x.cfg x.env x.req

/-- The exchange with a record of its seal calls. -/
def recorded : RecordedRun (Response × Outcome) :=
  exchangeRecorded lib x.up signer x.cfg x.env x.req

/-- Its seal calls. -/
def calls : List SealCall := sealCalls lib x.up signer x.cfg x.env x.req

/-- The `enc` of its request. -/
def enc : Bytes := encOf x.req.body.content

end ExchangeInput

/-- The seal calls of exchanges that run side by side on one key, in the order they
happen, each with the exchange that made it: the calls of an exchange are the first of
those it makes when it runs to its end. -/
def Interleaved {lib : Crates} (signer : SigningState lib) (xs : List ExchangeInput)
    (calls : List (Fin xs.length × SealCall)) : Prop :=
  ∀ i, (calls.filter (fun e => e.1 = i)).map Prod.snd <+: (xs.get i).calls signer

/-- **No AEAD key and nonce is used for two different responses.**  Any number of
exchanges run on one signing key, in any order, side by side, dropped or not, and with
any request any number of times.  An exchange seals at most one buffer, under a salt
made of the `enc` of its request and the nonce it drew, which is what its buffer starts
with; when it answers with a sealed response, that nonce is the first 32 bytes of the
response.  As long as HKDF does not collide on what was used, two calls under one key
and nonce belong to one `enc` and one drawn nonce. -/
theorem no_response_key_reuse (lib : Crates) (hv : lib.http.ValueRule) (signer : SigningState lib)
    (xs : List ExchangeInput) (calls : List (Fin xs.length × SealCall))
    (hcalls : Interleaved signer xs calls) :
    (∀ x ∈ xs, (x.recorded signer).erase = x.run signer ∧ (x.calls signer).length ≤ 1 ∧
      ∀ n d, (x.recorded signer).droppedAt n = some d → sealCallsOf d.1 <+: x.calls signer) ∧
    (∀ x ∈ xs, ∀ resp out, (x.run signer).result = some (resp, out) → ¬ resp.Unsigned →
      ∃ c, x.calls signer = [c] ∧ c.salt = x.enc ++ resp.body.take 32) ∧
    (∀ i, (calls.filter (fun e => e.1 = i)).length ≤ 1) ∧
    (∀ e ∈ calls, SealedWith (xs.get e.1).env (xs.get e.1).req e.2 ∧
      sealResponseInputs lib (confidentialSuite lib) e.2.salt e.2.secret e.2.buf e.2.offset =
        orRefused ((e.2.aeadKey lib).bind (fun k => (lib.aes256Gcm.newFromSlice k.1).bind
          (fun cipher => (lib.aes256Gcm.nonceTryFrom k.2).map
            (fun nonce => (cipher, nonce, e.2.buf.drop 32)))))) ∧
    (KeysCollisionFree lib (calls.map Prod.snd) → ∀ e ∈ calls, ∀ e' ∈ calls, ∀ k,
      e.2.aeadKey lib = some k → e'.2.aeadKey lib = some k →
      (xs.get e.1).enc = (xs.get e'.1).enc ∧ (xs.get e.1).env.nonce = (xs.get e'.1).env.nonce) := by
  have hspec : ∀ x : ExchangeInput, (x.calls signer).length ≤ 1 ∧
      ∀ c ∈ x.calls signer, SealedWith x.env x.req c :=
    fun x => sealCalls_spec lib x.up signer x.cfg x.env x.req
  have hwith : ∀ e ∈ calls, SealedWith (xs.get e.1).env (xs.get e.1).req e.2 := by
    intro e he
    apply (hspec (xs.get e.1)).2
    apply (hcalls e.1).subset
    exact List.mem_map_of_mem (List.mem_filter.mpr ⟨he, decide_eq_true rfl⟩)
  refine ⟨?_, ?_, ?_, ?_, ?_⟩
  · intro x _
    exact ⟨exchangeRecorded_erase lib x.up signer x.cfg x.env x.req, (hspec x).1,
      fun n d => sealCallsOf_dropped⟩
  · intro x _ resp out hres hsigned
    exact salt_of_response hv hres hsigned
  · intro i
    have hle := (hcalls i).length_le.trans (hspec (xs.get i)).1
    rw [List.length_map] at hle
    exact hle
  · intro e he
    have hw := hwith e he
    refine ⟨hw, ?_⟩
    rw [sealResponseInputs_aeadKey lib (by rw [hw.offset.1]; exact hw.offset.2), hw.offset.1]
  · intro hfree e he e' he' k hk hk'
    obtain ⟨nonce, hdrawn, hsalt, -⟩ := (hwith e he).drawn
    obtain ⟨nonce', hdrawn', hsalt', -⟩ := (hwith e' he').drawn
    have hsame : e.2.salt = e'.2.salt :=
      hfree.salt_eq (List.mem_map_of_mem he) (List.mem_map_of_mem he') hk hk'
    rw [hsalt, hsalt'] at hsame
    obtain ⟨henc, hnonce⟩ := List.append_inj hsame
      ((hwith e he).encLength.trans (hwith e' he').encLength.symm)
    refine ⟨henc, ?_⟩
    rw [hdrawn, hdrawn', Block.ext hnonce]

namespace KnownAnswers

/-- The exchange of the vector seals one buffer. -/
theorem calls_vector : ∃ c, sealCalls crates upstream signer config env
    (post "/confidential" encapsulatedRequest) = [c] := by
  obtain ⟨ctx, hr, hs⟩ := opensAndSeals "/confidential"
  obtain ⟨ms, hc⟩ := called
  obtain ⟨encoded, ct, hinner, -, -⟩ := sealInner_ok (ofSuite_of_openRequest hr.opened) hs
  refine ⟨ctx.sealCall responseNonce.bytes encoded, ?_⟩
  rw [hr.sealCalls hc]
  dsimp only
  rw [hinner]
  rfl

end KnownAnswers

open KnownAnswers in
/-- The request of the vector, replayed against a server that draws the same nonce twice:
the two calls have one key, and indeed one `enc` and one nonce. -/
theorem no_response_key_reuse_vector :
    let x : ExchangeInput :=
      ⟨upstream, config, env, post "/confidential" encapsulatedRequest⟩
    ∃ c, Interleaved signer [x, x] [(0, c), (1, c)] ∧ x.calls signer = [c] ∧
      KeysCollisionFree crates [c, c] ∧ SealedWith x.env x.req c := by
  intro x
  obtain ⟨c, hc⟩ := calls_vector
  have hx : x.calls signer = [c] := hc
  have hinter : Interleaved signer [x, x] [(0, c), (1, c)] := by
    intro i
    have hi : (([(0, c), (1, c)] : List (Fin [x, x].length × SealCall)).filter
        (fun e => e.1 = i)).map Prod.snd = [c] := by
      match i with
      | ⟨0, _⟩ => rfl
      | ⟨1, _⟩ => rfl
    have hget : ([x, x].get i).calls signer = [c] := by
      match i with
      | ⟨0, _⟩ => exact hx
      | ⟨1, _⟩ => exact hx
    rw [hi, hget]
  have hfree : KeysCollisionFree crates [c, c] := by
    refine ⟨?_, ?_⟩
    · intro a ha b hb _
      simp only [List.mem_cons, List.not_mem_nil, or_false, or_self] at ha hb
      rw [ha, hb]
    · intro a ha b hb _
      simp only [List.mem_cons, List.not_mem_nil, or_false, or_self] at ha hb
      rw [ha, hb]
  obtain ⟨-, -, -, hsealed, -⟩ :=
    no_response_key_reuse crates http_values signer [x, x] [(0, c), (1, c)] hinter
  exact ⟨c, hinter, hx, hfree, (hsealed (0, c) List.mem_cons_self).1⟩

end VrpcSidecar
