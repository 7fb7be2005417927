import VrpcSidecar.ExchangeEndings
import VrpcSidecar.KnownAnswers

/-! # The two planes of the confidential route

A call answers either in plaintext, without a signature and with one of four constant
responses, or with a sealed and signed body.  Which of the five it is depends on the
body received, on what opens, and on the randomness, the clock and the sealing
(`Cause`); each cause has its own form (`Form`), and no response has two of them, so a
client can tell from the response what happened (`exchange_two_planes`).
-/
namespace VrpcSidecar

/-! ## The sealed form -/

/-- The header fields of a sealed response, in order. -/
def sealedFields (batchSize : Nat) (signed : SignedResponse) : List (HeaderName × HeaderValue) :=
  [(.contentType, ascii "message/ohttp-res"), (.vrpcSignature, signed.signatureHex),
    (.vrpcTimestamp, signed.timestampText), (.vrpcPubkey, signed.pubkeyHex),
    (.vrpcBatchSize, decimal batchSize)]

theorem sealedFields_distinct (batchSize : Nat) (signed : SignedResponse) :
    ((sealedFields batchSize signed).map Prod.fst).Nodup := by
  show [HeaderName.contentType, .vrpcSignature, .vrpcTimestamp, .vrpcPubkey, .vrpcBatchSize].Nodup
  decide

/-- The fields appended to an empty map are the header list. -/
theorem toList_sealedFields (batchSize : Nat) (signed : SignedResponse) :
    (MultiMap.empty.appendAll (sealedFields batchSize signed)).toList =
      sealedFields batchSize signed :=
  MultiMap.toList_appendAll_distinct (sealedFields_distinct batchSize signed)
    (fun _ _ h => by
      obtain ⟨_, hp, -⟩ := h
      exact absurd hp List.not_mem_nil)

/-- Each of its names has one value. -/
theorem getAll_sealedFields {batchSize : Nat} {signed : SignedResponse}
    {f : HeaderName × HeaderValue} (hf : f ∈ sealedFields batchSize signed) :
    (MultiMap.empty.appendAll (sealedFields batchSize signed)).getAll f.1 = [f.2] := by
  rw [MultiMap.getAll, toList_sealedFields]
  exact MultiMap.values_of_distinct (sealedFields_distinct batchSize signed) hf

theorem outerStatus_mem {status : Nat} (h : 200 ≤ status ∧ status ≤ 599) :
    100 ≤ outerStatus status ∧ outerStatus status ≤ 999 := by
  unfold outerStatus
  split <;> omega

section Sealed
variable {lib : Crates} {up : UpstreamClient} {signer : SigningState lib}
  {cfg : ConfidentialConfig} {env : Env} {req : Request}

/-- **The response built from a sealed answer**, for the status of a final response. -/
theorem buildConfidentialResponse_eq (hv : lib.http.ValueRule) {clock : Int}
    {requestBody responseBody body : Bytes} {signed : SignedResponse} {status : Nat}
    (hs : signer.sign clock requestBody responseBody = some signed)
    (hstatus : 200 ≤ status ∧ status ≤ 599) (batchSize : Nat) :
    buildConfidentialResponse lib status batchSize body signed =
      ⟨⟨outerStatus status, (outerStatus_mem hstatus).1, (outerStatus_mem hstatus).2⟩,
        MultiMap.empty.appendAll (sealedFields batchSize signed), body⟩ := by
  have hct : Visible (ascii "message/ohttp-res") := by decide +kernel
  obtain ⟨t, -, rfl⟩ := signer.sign_eq_some.mp hs
  obtain ⟨hsig, hts, hpk⟩ := signer.visible_texts requestBody responseBody t
  simp only [buildConfidentialResponse, headerText_visible hv _ _ hct,
    headerText_visible hv _ _ hsig, headerText_visible hv _ _ hts, headerText_visible hv _ _ hpk,
    headerText_visible hv _ _ (visible_decimal _), Option.bind_eq_bind, Option.bind_some,
    StatusCode.tryFrom_of_le (outerStatus_mem hstatus).1 (outerStatus_mem hstatus).2,
    Option.pure_def, Option.getD_some, sealedFields, MultiMap.appendAll_cons,
    MultiMap.appendAll_nil]

/-- The status of a relayed answer is that of a final response. -/
theorem runInner_status {plaintext : Bytes} {call : InnerCall} {status : Nat}
    {msg : BinaryHttp.Message} (hc : (runInner lib up cfg env plaintext).result = some call)
    (h : call.result = .ok (status, msg)) : 200 ≤ status ∧ status ≤ 599 := by
  rcases runInner_eq_some lib up cfg env hc with
    ⟨e, -, rfl⟩ | ⟨inner, -, -, rfl⟩ | ⟨inner, r, ms, -, -, hcall, rfl⟩
  · cases h
  · cases h
  · subst h
    obtain ⟨upReq, -, hread⟩ := callUpstream_ok hcall
    obtain ⟨resp, code, -, hhead, -, -, -, rfl, -⟩ := readUpstream_ok hread
    simp only [refusesHead, Bool.or_eq_false_iff, Bool.not_eq_false', Bool.and_eq_true,
      decide_eq_true_eq] at hhead
    exact hhead.1.1

theorem InnerError.status_mem (e : InnerError) : 200 ≤ e.status ∧ e.status ≤ 599 := by
  cases e <;> decide

/-- What is sealed has the status of a final response. -/
theorem innerAnswer_status {result : InnerResult} {a : OutcomeClass × Nat × Bytes}
    (hok : ∀ status msg, result = .ok (status, msg) → 200 ≤ status ∧ status ≤ 599)
    (h : innerAnswer lib result = some a) : 200 ≤ a.2.1 ∧ a.2.1 ≤ 599 := by
  have hproblem : ∀ e, problemAnswer lib e = some a → 200 ≤ a.2.1 ∧ a.2.1 ≤ 599 := by
    intro e he
    obtain ⟨encoded, -, rfl⟩ := Option.map_eq_some_iff.mp he
    exact e.status_mem
  cases result with
  | error e => exact hproblem e h
  | ok r =>
    obtain ⟨status, msg⟩ := r
    rw [innerAnswer] at h
    split at h
    · cases h
      exact hok status msg rfl
    · exact hproblem .internal h

/-- What a sealed answer is: the encoded message, encrypted after the nonce. -/
theorem sealInner_ok {ctx : ResponseContext} (hof : ctx.OfSuite lib (confidentialSuite lib))
    {nonce : Block 32} {result : InnerResult} {answer : Sealed}
    (h : sealInner lib ctx nonce result = .ok answer) :
    ∃ encoded ct, innerAnswer lib result = some (answer.outcomeClass, answer.innerStatus, encoded) ∧
      ctx.ciphertext lib (confidentialSuite lib) nonce.bytes encoded = some ct ∧
      answer.body = nonce.bytes ++ ct := by
  rw [sealInner_eq hof, orRefused_eq_ok, Option.bind_eq_some_iff] at h
  obtain ⟨a, ha, h⟩ := h
  obtain ⟨ct, hct, rfl⟩ := Option.map_eq_some_iff.mp h
  exact ⟨a.2.2, ct, ha, hct, rfl⟩

end Sealed

/-! ## Causes and forms -/

/-- What an answer of the route can come from. -/
inductive Cause where
  | requestTooLarge
  | requestReadFailed
  | notOpened
  | unsealable
  | answered

section Planes
variable (lib : Crates) (up : UpstreamClient) (signer : SigningState lib)
  (cfg : ConfidentialConfig) (env : Env) (req : Request)

/-- The call opened, and then the randomness, a reading of the clock, or the sealing
failed. -/
def Unsealable : Prop :=
  req.body.Within cfg.maxRequestBytes ∧
    ∃ plaintext ctx, signer.openRequest req.body.content = .ok (plaintext, ctx) ∧
      (env.nonce = none ∨ nowMs env.preCheckClock = none ∨ nowMs env.signClock = none ∨
        ∃ nonce call, env.nonce = some nonce ∧
          (runInner lib up cfg env plaintext).result = some call ∧
          ∀ answer, sealInner lib ctx nonce call.result ≠ .ok answer)

/-- The call opened, and what came of it was sealed and signed. -/
structure Answered (plaintext : Bytes) (ctx : ResponseContext) (nonce : Block 32)
    (call : InnerCall) (answer : Sealed) (signed : SignedResponse) : Prop where
  reached : Reached lib signer cfg env req plaintext ctx nonce
  called : (runInner lib up cfg env plaintext).result = some call
  sealed : sealInner lib ctx nonce call.result = .ok answer
  signed : signer.sign env.signClock req.body.content answer.body = some signed

/-- When each cause applies. -/
def Applies : Cause → Prop
  | .requestTooLarge => cfg.maxRequestBytes < req.body.content.length
  | .requestReadFailed => req.body.content.length ≤ cfg.maxRequestBytes ∧ req.body.fails = true
  | .notOpened => req.body.Within cfg.maxRequestBytes ∧
      ∀ r, signer.openRequest req.body.content ≠ .ok r
  | .unsealable => Unsealable lib up signer cfg env req
  | .answered => ∃ plaintext ctx nonce call answer signed,
      Answered lib up signer cfg env req plaintext ctx nonce call answer signed

/-- **A sealed and signed response**: the status and the five header fields, the nonce
and the ciphertext of the encoded answer as the body, and a signature over the outer
request and that body. -/
def SealedAnswer (resp : Response) : Prop :=
  ∃ plaintext ctx nonce call answer signed,
    Answered lib up signer cfg env req plaintext ctx nonce call answer signed ∧
    resp.status.code = outerStatus answer.innerStatus ∧
    resp.headers.toList = sealedFields call.batchSize signed ∧
    signer.SignatureOver req.body.content resp.body signed ∧
    ∃ encoded ct,
      innerAnswer lib call.result = some (answer.outcomeClass, answer.innerStatus, encoded) ∧
      ctx.ciphertext lib (confidentialSuite lib) nonce.bytes encoded = some ct ∧
      resp.body = nonce.bytes ++ ct

/-- The response each cause gives. -/
def Form (resp : Response) : Cause → Prop
  | .requestTooLarge => resp = StatusCode.payloadTooLarge.intoResponse
  | .requestReadFailed => resp = StatusCode.badRequest.intoResponse
  | .notOpened => resp = preDecapsulationError
  | .unsealable => resp = plaintext500
  | .answered => SealedAnswer lib up signer cfg env req resp

variable {lib up signer cfg env req}
  {plaintext : Bytes} {ctx : ResponseContext} {nonce : Block 32} {call : InnerCall}
  {answer : Sealed} {signed : SignedResponse}

/-- A call that was sealed and signed was not unsealable. -/
theorem Answered.not_unsealable
    (h : Answered lib up signer cfg env req plaintext ctx nonce call answer signed) :
    ¬ Unsealable lib up signer cfg env req := by
  rintro ⟨-, plaintext', ctx', ho, hfailed⟩
  cases Except.ok.inj (h.reached.opened.symm.trans ho)
  obtain ⟨t, ht⟩ := h.reached.clock
  rcases hfailed with hn | hclock | hsign | ⟨nonce', call', hn, hc, hs⟩
  · rw [h.reached.drawn] at hn
    cases hn
  · rw [ht] at hclock
    cases hclock
  · have hsigned := h.signed
    rw [signer.sign_eq_none.mpr hsign] at hsigned
    cases hsigned
  · cases Option.some.inj (h.reached.drawn.symm.trans hn)
    cases Option.some.inj (h.called.symm.trans hc)
    exact hs answer h.sealed

open Classical in
/-- The cause of an answer, by the first check that fails. -/
noncomputable def causeOf (lib : Crates) (up : UpstreamClient) (signer : SigningState lib)
    (cfg : ConfidentialConfig) (env : Env) (req : Request) : Cause :=
  if cfg.maxRequestBytes < req.body.content.length then .requestTooLarge
  else if req.body.fails = true then .requestReadFailed
  else if ∀ r, signer.openRequest req.body.content ≠ .ok r then .notOpened
  else if Unsealable lib up signer cfg env req then .unsealable
  else .answered

theorem causeOf_eq {c : Cause} (h : Applies lib up signer cfg env req c) :
    causeOf lib up signer cfg env req = c := by
  have hpast : req.body.Within cfg.maxRequestBytes → ∀ r,
      signer.openRequest req.body.content = .ok r →
      causeOf lib up signer cfg env req = open Classical in
        if Unsealable lib up signer cfg env req then .unsealable else .answered := by
    intro hw r hr
    rw [causeOf, if_neg (Nat.not_lt.mpr hw.1), if_neg (by simp [hw.2]), if_neg (fun h => h r hr)]
  -- Each cause fails the checks before its own and passes its own.
  cases c with
  | requestTooLarge => exact if_pos h
  | requestReadFailed => rw [causeOf, if_neg (Nat.not_lt.mpr h.1), if_pos h.2]
  | notOpened =>
    rw [causeOf, if_neg (Nat.not_lt.mpr h.1.1), if_neg (by simp [h.1.2]), if_pos h.2]
  | unsealable =>
    obtain ⟨plaintext, ctx, ho, -⟩ := h.2
    rw [hpast h.1 _ ho]
    exact if_pos h
  | answered =>
    obtain ⟨plaintext, ctx, nonce, call, answer, signed, ha⟩ := h
    rw [hpast ha.reached.received _ ha.reached.opened, if_neg ha.not_unsealable]

/-- A sealed answer carries a `vRPC-*` header. -/
theorem SealedAnswer.not_unsigned {resp : Response}
    (h : SealedAnswer lib up signer cfg env req resp) : ¬ resp.Unsigned := by
  obtain ⟨_, _, _, call, _, signed, -, -, hlist, -⟩ := h
  intro hu
  have hmem : (HeaderName.vrpcSignature, signed.signatureHex) ∈ resp.headers.toList := by
    rw [hlist]
    simp [sealedFields]
  have hvrpc : HeaderName.vrpcSignature.IsVrpc := by decide
  exact hu _ hmem hvrpc

theorem preDecapsulationError_unsigned : preDecapsulationError.Unsigned := by
  show ∀ p ∈ preDecapsulationError.headers.toList, ¬ p.1.IsVrpc
  decide +kernel

/-- The plaintext forms carry none. -/
theorem unsigned_of_form {resp : Response} {c : Cause} (h : Form lib up signer cfg env req resp c)
    (hc : c ≠ .answered) : resp.Unsigned := by
  cases c with
  | requestTooLarge =>
    rw [show resp = _ from h]
    exact StatusCode.intoResponse_unsigned _
  | requestReadFailed =>
    rw [show resp = _ from h]
    exact StatusCode.intoResponse_unsigned _
  | notOpened =>
    rw [show resp = _ from h]
    exact preDecapsulationError_unsigned
  | unsealable =>
    rw [show resp = _ from h]
    exact StatusCode.intoResponse_unsigned _
  | answered => exact absurd rfl hc

/-- **A response has one form at most.** -/
theorem form_unique {resp : Response} {c c' : Cause}
    (h : Form lib up signer cfg env req resp c) (h' : Form lib up signer cfg env req resp c') :
    c = c' := by
  -- A sealed answer is signed and the plaintext forms are not.
  by_cases hc : c = .answered
  · by_contra hne
    have hsealed : SealedAnswer lib up signer cfg env req resp := by
      subst hc
      exact h
    exact hsealed.not_unsigned (unsigned_of_form h' (fun hc' => hne (hc.trans hc'.symm)))
  by_cases hc' : c' = .answered
  · have hsealed : SealedAnswer lib up signer cfg env req resp := by
      subst hc'
      exact h'
    exact absurd (unsigned_of_form h hc) hsealed.not_unsigned
  -- The plaintext responses differ in their status or in the length of their body.
  have key : ∀ r r' : Response, resp = r → resp = r' →
      (r.status.code, r.body.length) = (r'.status.code, r'.body.length) := by
    rintro r r' rfl rfl
    rfl
  cases c <;> cases c' <;>
    first
    | rfl
    | exact absurd rfl hc
    | exact absurd rfl hc'
    | exact absurd (key _ _ h h') (by decide +kernel)

/-- The inner status of a sealed answer is that of a final response. -/
theorem Answered.innerStatus_mem
    (h : Answered lib up signer cfg env req plaintext ctx nonce call answer signed) :
    200 ≤ answer.innerStatus ∧ answer.innerStatus ≤ 599 := by
  obtain ⟨encoded, -, hinner, -, -⟩ := sealInner_ok (ofSuite_of_openRequest h.reached.opened) h.sealed
  exact innerAnswer_status (fun status msg he => runInner_status h.called he) hinner

/-- The form of the answer to a call that was sealed and signed. -/
theorem Answered.form (hv : lib.http.ValueRule)
    (h : Answered lib up signer cfg env req plaintext ctx nonce call answer signed) :
    SealedAnswer lib up signer cfg env req
      (buildConfidentialResponse lib answer.innerStatus call.batchSize answer.body signed) := by
  obtain ⟨encoded, ct, hinner, hct, hbody⟩ := sealInner_ok (ofSuite_of_openRequest h.reached.opened) h.sealed
  have hstatus := h.innerStatus_mem
  obtain ⟨t, -, hsigned⟩ := signer.sign_eq_some.mp h.signed
  rw [buildConfidentialResponse_eq hv h.signed hstatus]
  refine ⟨plaintext, ctx, nonce, call, answer, signed, h, rfl, toList_sealedFields _ _, ?_,
    encoded, ct, hinner, hct, hbody⟩
  rw [hsigned]
  exact signer.signatureOver_signWithTimestamp _ _ t

/-- Every ending has a cause, and the form that belongs to it. -/
theorem Ending.cause (hv : lib.http.ValueRule) {resp : Response} {out : Outcome}
    (h : Ending lib up signer cfg env req resp out) :
    ∃ c, Applies lib up signer cfg env req c ∧ Form lib up signer cfg env req resp c := by
  cases h with
  | requestTooLarge h => exact ⟨.requestTooLarge, h, rfl⟩
  | requestReadFailed hlen h => exact ⟨.requestReadFailed, ⟨hlen, h⟩, rfl⟩
  | notOpened hw h =>
    refine ⟨.notOpened, ⟨hw, fun r hr => ?_⟩, rfl⟩
    rw [h] at hr
    cases hr
  | @notReady plaintext ctx hw ho h =>
    refine ⟨.unsealable, ⟨hw, plaintext, ctx, ho, ?_⟩, rfl⟩
    exact h.imp_right Or.inl
  | @notSealed plaintext ctx nonce call hr hc hs =>
    refine ⟨.unsealable, ⟨hr.received, plaintext, ctx, hr.opened, ?_⟩, rfl⟩
    refine Or.inr (Or.inr (Or.inr ⟨nonce, call, hr.drawn, hc, fun answer ha => ?_⟩))
    rw [hs] at ha
    cases ha
  | @notSigned plaintext ctx nonce call answer hr hc hs hsign =>
    refine ⟨.unsealable, ⟨hr.received, plaintext, ctx, hr.opened, ?_⟩, rfl⟩
    exact Or.inr (Or.inr (Or.inl (signer.sign_eq_none.mp hsign)))
  | sealed hr hc hs hsign =>
    have ha : Answered lib up signer cfg env req _ _ _ _ _ _ := ⟨hr, hc, hs, hsign⟩
    exact ⟨.answered, ⟨_, _, _, _, _, _, ha⟩, ha.form hv⟩

/-- **The form of a response says which cause applied.** -/
theorem Ending.form_iff (hv : lib.http.ValueRule) {resp : Response} {out : Outcome}
    (h : Ending lib up signer cfg env req resp out) (c : Cause) :
    Form lib up signer cfg env req resp c ↔ Applies lib up signer cfg env req c := by
  obtain ⟨c₀, ha, hf⟩ := h.cause hv
  constructor
  · intro hc
    rwa [← form_unique hf hc]
  · intro hc
    rwa [← causeOf_eq hc, causeOf_eq ha]

end Planes

/-- **The two planes of the confidential route.**  Every call ends, in plaintext or with
a sealed answer, never both.  The plaintext responses carry no `vRPC-*` header and are
constants: a bare 413 exactly when the outer body exceeds the cap, a bare 400 exactly
when it fails to read otherwise, the one problem document exactly when the body does
not open, and a bare 500 exactly when it opens but the randomness, a clock reading or
the sealing fails.  A sealed answer has exactly the five header fields, the inner status
unless that forbids content, and a body and signature made for this call. -/
theorem exchange_two_planes (lib : Crates) (hv : lib.http.ValueRule) (up : UpstreamClient)
    (signer : SigningState lib) (cfg : ConfidentialConfig) (env : Env) (req : Request) :
    ∃ resp out, (exchange lib up signer cfg env req).result = some (resp, out) ∧
      (resp = StatusCode.payloadTooLarge.intoResponse ↔
        cfg.maxRequestBytes < req.body.content.length) ∧
      (resp = StatusCode.badRequest.intoResponse ↔
        req.body.content.length ≤ cfg.maxRequestBytes ∧ req.body.fails = true) ∧
      (resp = preDecapsulationError ↔ req.body.Within cfg.maxRequestBytes ∧
        ∀ r, signer.openRequest req.body.content ≠ .ok r) ∧
      (resp = plaintext500 ↔ Unsealable lib up signer cfg env req) ∧
      (SealedAnswer lib up signer cfg env req resp ↔
        ∃ plaintext ctx nonce call answer signed,
          Answered lib up signer cfg env req plaintext ctx nonce call answer signed) ∧
      Xor
        (resp.Unsigned ∧ (resp = StatusCode.payloadTooLarge.intoResponse ∨
          resp = StatusCode.badRequest.intoResponse ∨ resp = preDecapsulationError ∨
          resp = plaintext500))
        (SealedAnswer lib up signer cfg env req resp) := by
  obtain ⟨resp, out, hres, hend⟩ := exchange_ends lib up signer cfg env req
  refine ⟨resp, out, hres, hend.form_iff hv .requestTooLarge, hend.form_iff hv .requestReadFailed,
    hend.form_iff hv .notOpened, hend.form_iff hv .unsealable, hend.form_iff hv .answered, ?_⟩
  obtain ⟨c, -, hf⟩ := hend.cause hv
  by_cases hc : c = .answered
  · subst hc
    exact Or.inr ⟨hf, fun h => SealedAnswer.not_unsigned hf h.1⟩
  · have hu := unsigned_of_form hf hc
    refine Or.inl ⟨⟨hu, ?_⟩, fun h => h.not_unsigned hu⟩
    cases c with
    | requestTooLarge => exact Or.inl hf
    | requestReadFailed => exact Or.inr (Or.inl hf)
    | notOpened => exact Or.inr (Or.inr (Or.inl hf))
    | unsealable => exact Or.inr (Or.inr (Or.inr hf))
    | answered => exact absurd rfl hc

namespace KnownAnswers

/-- The inner call of the vector relays the node's answer. -/
theorem called : ∃ ms, (runInner crates upstream config env bhttpRequest).result =
    some ⟨.ok (200, relayed), 1, ms⟩ := by
  have hbatch : batchSize crates innerRequest.body = 1 := by decide
  obtain ⟨call, hcall⟩ := runInner_returns crates upstream config env bhttpRequest
  rcases runInner_eq_some crates upstream config env hcall with
    ⟨e, hd, -⟩ | ⟨inner, hd, hlt, -⟩ | ⟨inner, r, ms, hd, -, hr, rfl⟩
  · rw [decoded] at hd
    cases hd
  · cases Except.ok.inj (decoded.symm.trans hd)
    rw [hbatch] at hlt
    exact absurd hlt (by decide)
  · cases Except.ok.inj (decoded.symm.trans hd)
    cases Option.some.inj (relays.symm.trans hr)
    rw [hbatch] at hcall
    exact ⟨ms, hcall⟩

/-- The request of the vector opens, at any path, and its answer seals to the response
of the vector. -/
theorem opensAndSeals (path : String) : ∃ ctx,
    Reached crates signer config env (post path encapsulatedRequest) bhttpRequest ctx
      responseNonce ∧
    sealInner crates ctx responseNonce (.ok (200, relayed)) =
      .ok ⟨.ok, 200, encapsulatedResponse⟩ := by
  have hvalue : (signer.openRequest encapsulatedRequest).toOption.map (fun r => (r.1,
      (sealInner crates r.2 responseNonce (.ok (200, relayed))).toOption.map
        (fun s => (s.outcomeClass, s.innerStatus, s.body)))) =
      some (bhttpRequest, some (.ok, 200, encapsulatedResponse)) := by
    decide +kernel
  cases hopen : signer.openRequest encapsulatedRequest with
  | error fault =>
    rw [hopen] at hvalue
    cases hvalue
  | ok r =>
    obtain ⟨plaintext, ctx⟩ := r
    rw [hopen] at hvalue
    simp only [Except.toOption, Option.map_some, Option.some.injEq, Prod.mk.injEq] at hvalue
    obtain ⟨rfl, hseal⟩ := hvalue
    refine ⟨ctx, ⟨⟨?_, rfl⟩, ?_, rfl, ?_⟩, ?_⟩
    · rw [content_post]
      decide +kernel
    · rw [content_post]
      exact hopen
    · exact Option.isSome_iff_exists.mp (by decide)
    · cases hs : sealInner crates ctx responseNonce (.ok (200, relayed)) with
      | error fault =>
        rw [hs] at hseal
        cases hseal
      | ok answer =>
        obtain ⟨c, status, body⟩ := answer
        rw [hs] at hseal
        simp only [Option.map_some, Option.some.injEq, Prod.mk.injEq] at hseal
        obtain ⟨rfl, rfl, rfl⟩ := hseal
        rfl

end KnownAnswers

open KnownAnswers in
/-- The exchange of the vector is answered with a sealed response: its encapsulated
response. -/
theorem exchange_two_planes_vector :
    ∃ resp out, (exchange crates upstream signer config env
        (post "/confidential" encapsulatedRequest)).result = some (resp, out) ∧
      SealedAnswer crates upstream signer config env (post "/confidential" encapsulatedRequest)
        resp := by
  obtain ⟨ctx, hr, hs⟩ := opensAndSeals "/confidential"
  obtain ⟨ms, hc⟩ := called
  obtain ⟨t, ht⟩ : ∃ t, nowMs env.signClock = some t :=
    Option.isSome_iff_exists.mp (by decide)
  obtain ⟨resp, out, hres, -, -, -, -, hsealed, -⟩ := exchange_two_planes crates http_values
    upstream signer config env (post "/confidential" encapsulatedRequest)
  exact ⟨resp, out, hres, hsealed.mpr
    ⟨_, ctx, _, _, _, _, hr, hc, hs, signer.sign_eq_some.mpr ⟨t, ht, rfl⟩⟩⟩

end VrpcSidecar
