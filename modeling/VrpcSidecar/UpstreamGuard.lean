import VrpcSidecar.ExchangePlanes

/-! # The guard before the upstream call

The node executes what it is sent, so a request the client is told was refused must
never have been sent.  The checks are spread over the exchange, the inner call and the
upstream leg; `Guards` lists them, and `sends_exchange` says that a call sends its one
request exactly when all of them held.  What a dropped call has sent is a prefix of
what the completed call sends (`Observed.sends_prefix`), so at most one request leaves
in any run (`upstream_call_guard`).
-/
namespace VrpcSidecar

section Guard
variable (lib : Crates) (up : UpstreamClient) (signer : SigningState lib)
  (cfg : ConfidentialConfig) (env : Env) (req : Request)

/-- **The checks before the upstream call**, for an inner request and its target. -/
structure Guards (inner : InnerRequest) (uri : Uri) : Prop where
  received : req.body.Within cfg.maxRequestBytes
  opened : ∃ plaintext ctx, signer.openRequest req.body.content = .ok (plaintext, ctx) ∧
    decodeInner lib plaintext = .ok inner
  drawn : ∃ nonce, env.nonce = some nonce
  clock : ∃ t, nowMs env.preCheckClock = some t
  batch : batchSize lib inner.body ≤ cfg.maxBatchSize
  target : ∃ pathAndQuery, up.originPathAndQuery lib inner.pathAndQuery = some pathAndQuery ∧
    up.originUri lib pathAndQuery = some uri

/-- The request sent for an inner request and its target. -/
def guardedRequest (inner : InnerRequest) (uri : Uri) : OutRequest :=
  ⟨inner.method, uri, MultiMap.empty.appendAll (innerRequestFields inner ++
    [(.acceptEncoding, ascii "identity")]), inner.body⟩

/-- The events a call can leave behind: those of a call that returned, or of one that
was dropped at a suspension point. -/
inductive Observed : List Event → Prop where
  | returned : Observed (confidentialExchange lib up signer cfg env req).log
  | dropped {n : Nat} {log : List Event}
      (h : confidentialExchangeDropped lib up signer cfg env req n = some log) : Observed log

variable {lib up signer cfg env req}

/-! ## What is sent -/

theorem guarded_eq_some {plaintext : Bytes} {inner : InnerRequest} :
    guarded lib cfg plaintext = some inner ↔
      decodeInner lib plaintext = .ok inner ∧ batchSize lib inner.body ≤ cfg.maxBatchSize := by
  unfold guarded
  cases decodeInner lib plaintext with
  | error e => simp
  | ok r =>
    dsimp only
    split
    · rename_i hgt
      simp only [reduceCtorEq, Except.ok.injEq, false_iff, not_and, not_le]
      rintro rfl
      exact hgt
    · rename_i hle
      simp only [Option.some.injEq, Except.ok.injEq]
      constructor
      · rintro rfl
        exact ⟨rfl, Nat.le_of_not_lt hle⟩
      · exact And.left

theorem innerUpstreamRequest_eq_some (hv : lib.http.ValueRule) {inner : InnerRequest}
    {upReq : OutRequest} :
    innerUpstreamRequest lib up inner = some upReq ↔
      ∃ pathAndQuery uri, up.originPathAndQuery lib inner.pathAndQuery = some pathAndQuery ∧
        up.originUri lib pathAndQuery = some uri ∧ upReq = guardedRequest inner uri := by
  simp only [innerUpstreamRequest, buildInnerRequest_eq hv, Option.bind_eq_bind,
    Option.bind_eq_some_iff, Option.some.injEq, guardedRequest]
  constructor
  · rintro ⟨pathAndQuery, hpq, uri, huri, rfl⟩
    exact ⟨pathAndQuery, uri, hpq, huri, rfl⟩
  · rintro ⟨pathAndQuery, uri, hpq, huri, rfl⟩
    exact ⟨pathAndQuery, hpq, uri, huri, rfl⟩

/-- A call that gets to the inner request sends what the inner call sends. -/
theorem Reached.sends {plaintext : Bytes} {ctx : ResponseContext} {nonce : Block 32}
    (hr : Reached lib signer cfg env req plaintext ctx nonce) :
    sends (exchange lib up signer cfg env req).log =
      ((guarded lib cfg plaintext).bind (innerUpstreamRequest lib up)).toList := by
  rw [hr.ends.2, log_runInner, sends_toList]

/-- A call sends a request exactly when it was built for an inner request that passed
the guards. -/
theorem mem_sends_exchange {upReq : OutRequest} :
    upReq ∈ sends (exchange lib up signer cfg env req).log ↔
      ∃ plaintext ctx nonce inner, Reached lib signer cfg env req plaintext ctx nonce ∧
        decodeInner lib plaintext = .ok inner ∧ batchSize lib inner.body ≤ cfg.maxBatchSize ∧
        innerUpstreamRequest lib up inner = some upReq := by
  constructor
  · intro hmem
    by_cases h : ∃ plaintext ctx nonce, Reached lib signer cfg env req plaintext ctx nonce
    · obtain ⟨plaintext, ctx, nonce, hr⟩ := h
      rw [hr.sends, Option.mem_toList, Option.bind_eq_some_iff] at hmem
      obtain ⟨inner, hg, hreq⟩ := hmem
      obtain ⟨hdecode, hbatch⟩ := guarded_eq_some.mp hg
      exact ⟨plaintext, ctx, nonce, inner, hr, hdecode, hbatch, hreq⟩
    · rw [(ends_early h).2] at hmem
      cases hmem
  · rintro ⟨plaintext, ctx, nonce, inner, hr, hdecode, hbatch, hreq⟩
    rw [hr.sends, Option.mem_toList, Option.bind_eq_some_iff]
    exact ⟨inner, guarded_eq_some.mpr ⟨hdecode, hbatch⟩, hreq⟩

/-- **What a call sends**: the request of its inner request and target, exactly when
every guard held. -/
theorem sends_exchange (hv : lib.http.ValueRule) {upReq : OutRequest} :
    upReq ∈ sends (exchange lib up signer cfg env req).log ↔
      ∃ inner uri, Guards lib up signer cfg env req inner uri ∧
        upReq = guardedRequest inner uri := by
  rw [mem_sends_exchange]
  constructor
  · rintro ⟨plaintext, ctx, nonce, inner, hr, hdecode, hbatch, hreq⟩
    obtain ⟨pathAndQuery, uri, hpq, huri, rfl⟩ := (innerUpstreamRequest_eq_some hv).mp hreq
    exact ⟨inner, uri, ⟨hr.received, ⟨plaintext, ctx, hr.opened, hdecode⟩, ⟨nonce, hr.drawn⟩,
      hr.clock, hbatch, ⟨pathAndQuery, hpq, huri⟩⟩, rfl⟩
  · rintro ⟨inner, uri, hg, rfl⟩
    obtain ⟨plaintext, ctx, ho, hdecode⟩ := hg.opened
    obtain ⟨nonce, hn⟩ := hg.drawn
    obtain ⟨pathAndQuery, hpq, huri⟩ := hg.target
    exact ⟨plaintext, ctx, nonce, inner, ⟨hg.received, ho, hn, hg.clock⟩, hdecode, hg.batch,
      (innerUpstreamRequest_eq_some hv).mpr ⟨pathAndQuery, uri, hpq, huri, rfl⟩⟩

/-- The guards determine the inner request. -/
theorem Guards.unique {inner inner' : InnerRequest} {uri uri' : Uri}
    (h : Guards lib up signer cfg env req inner uri)
    (h' : Guards lib up signer cfg env req inner' uri') : inner = inner' := by
  obtain ⟨plaintext, ctx, ho, hd⟩ := h.opened
  obtain ⟨plaintext', ctx', ho', hd'⟩ := h'.opened
  cases Except.ok.inj (ho.symm.trans ho')
  exact Except.ok.inj (hd.symm.trans hd')

/-- A call sends one request at most. -/
theorem length_sends_exchange (lib : Crates) (up : UpstreamClient) (signer : SigningState lib)
    (cfg : ConfidentialConfig) (env : Env) (req : Request) :
    (sends (exchange lib up signer cfg env req).log).length ≤ 1 := by
  by_cases h : ∃ plaintext ctx nonce, Reached lib signer cfg env req plaintext ctx nonce
  · obtain ⟨plaintext, ctx, nonce, hr⟩ := h
    rw [hr.sends]
    exact Option.length_toList_le
  · rw [(ends_early h).2]
    exact Nat.zero_le 1

/-- When the guards hold, the exchange sends their request and no other. -/
theorem Guards.sends_exchange (hv : lib.http.ValueRule) {inner : InnerRequest} {uri : Uri}
    (h : Guards lib up signer cfg env req inner uri) :
    sends (exchange lib up signer cfg env req).log = [guardedRequest inner uri] := by
  have hmem := (VrpcSidecar.sends_exchange hv).mpr ⟨inner, uri, h, rfl⟩
  have hone := Nat.le_antisymm (length_sends_exchange lib up signer cfg env req)
    (List.length_pos_of_mem hmem)
  obtain ⟨upReq, hone⟩ := List.length_eq_one_iff.mp hone
  rw [hone, List.mem_singleton] at hmem
  rw [hone, hmem]

/-- A call that returned returns the response of the exchange, and logs its outcome
after what the exchange did. -/
theorem confidentialExchange_eq {resp : Response} {out : Outcome}
    (h : (exchange lib up signer cfg env req).result = some (resp, out)) :
    (confidentialExchange lib up signer cfg env req).result = some resp ∧
      (confidentialExchange lib up signer cfg env req).log =
        (exchange lib up signer cfg env req).log ++ [.logged (out.line resp.status.code
          (millis (exchange lib up signer cfg env req).elapsed))] := by
  have htimed : (exchange lib up signer cfg env req).timed.result =
      some ((resp, out), (exchange lib up signer cfg env req).elapsed) := by
    rw [Run.result_timed, h]
    rfl
  constructor
  · exact Run.result_andThen_eq_some.mpr ⟨_, htimed, rfl⟩
  · rw [confidentialExchange, Run.bind_eq, Run.log_andThen htimed, Run.log_timed h]
    rfl

/-- The line it logs is no request. -/
theorem confidentialExchange_returns {resp : Response} {out : Outcome}
    (h : (exchange lib up signer cfg env req).result = some (resp, out)) :
    (confidentialExchange lib up signer cfg env req).result = some resp ∧
      sends (confidentialExchange lib up signer cfg env req).log =
        sends (exchange lib up signer cfg env req).log := by
  obtain ⟨hret, hlog⟩ := confidentialExchange_eq h
  refine ⟨hret, ?_⟩
  rw [hlog, sends_append]
  exact List.append_nil _

/-- **What has been sent when a call returns or is dropped** is a prefix of what the
exchange sends. -/
theorem Observed.sends_prefix {log : List Event}
    (h : Observed lib up signer cfg env req log) :
    sends log <+: sends (exchange lib up signer cfg env req).log := by
  cases h with
  | returned =>
    obtain ⟨resp, out, hres, -⟩ := exchange_ends lib up signer cfg env req
    rw [(confidentialExchange_returns hres).2]
  | dropped h =>
    obtain ⟨d, hd, rfl⟩ := Option.map_eq_some_iff.mp h
    -- the line logged by the guard is no request
    rw [sends_append]
    show sends d.1 ++ [] <+: _
    rw [List.append_nil]
    exact VrpcSidecar.sends_prefix (Run.droppedAt_prefix hd)

/-! ## What a refusal tells the client -/

/-- Reading a response fails with an upstream or an internal error. -/
theorem readUpstream_error {cap : Nat} {upReq : OutRequest} {e : InnerError}
    (h : (readUpstream lib env cap upReq).result = some (.error e)) :
    e = .upstream ∨ e = .internal := by
  obtain ⟨o, -, h⟩ := Run.result_andThen_eq_some.mp h
  cases o with
  | none =>
    cases h
    exact Or.inl rfl
  | some resp =>
    dsimp only at h
    split at h
    · cases h
      exact Or.inl rfl
    · split at h
      · cases h
        exact Or.inr rfl
      · obtain ⟨r, hframes, h⟩ := Run.result_andThen_eq_some.mp h
        rw [result_readFrames, Option.some.injEq] at hframes
        split at hframes
        · subst hframes
          cases h
        · subst hframes
          cases h
          exact Or.inl rfl

/-- The errors that say that a request was refused before it was sent. -/
def InnerError.IsRefusal : InnerError → Prop
  | .badRequest => True
  | .unsupportedMediaType => True
  | .batchTooLarge => True
  | _ => False

/-- **Once its request is sent, the upstream leg refuses nothing.** -/
theorem callUpstream_not_refusal {inner : InnerRequest} {upReq : OutRequest} {e : InnerError}
    (hreq : innerUpstreamRequest lib up inner = some upReq)
    (h : (callUpstream lib up cfg env inner).result = some (.error e)) : ¬ e.IsRefusal := by
  rcases callUpstream_cases lib up cfg env inner with ⟨_, hnone, -⟩ | ⟨upReq', -, hc⟩
  · rw [hreq] at hnone
    cases hnone
  · rw [hc] at h
    obtain ⟨o, ho, h⟩ := Run.result_andThen_eq_some.mp h
    cases o with
    | none =>
      cases h
      exact id
    | some r =>
      cases h
      rcases readUpstream_error (Run.result_of_timeout ho) with rfl | rfl
      · exact id
      · exact id

/-- What is sealed for a result that is no refusal is classed as none. -/
theorem innerAnswer_not_refusal {result : InnerResult} {a : OutcomeClass × Nat × Bytes}
    (hres : ∀ e, result = .error e → ¬ e.IsRefusal) (h : innerAnswer lib result = some a)
    {e : InnerError} (he : e.IsRefusal) : a.1 ≠ e.outcome := by
  have hproblem : ∀ e', ¬ e'.IsRefusal → problemAnswer lib e' = some a → a.1 ≠ e.outcome := by
    intro e' he' hp
    obtain ⟨encoded, -, rfl⟩ := Option.map_eq_some_iff.mp hp
    cases e <;> cases e' <;> simp_all [InnerError.IsRefusal, InnerError.outcome]
  cases result with
  | error e' => exact hproblem e' (hres e' rfl) h
  | ok r =>
    rw [innerAnswer] at h
    split at h
    · cases h
      cases e <;> simp_all [InnerError.IsRefusal, InnerError.outcome]
    · exact hproblem .internal id h

/-- **A refusal means that nothing was sent**, whatever class it has. -/
theorem Answered.sends_nil {plaintext : Bytes} {ctx : ResponseContext} {nonce : Block 32}
    {call : InnerCall} {answer : Sealed} {signed : SignedResponse}
    (h : Answered lib up signer cfg env req plaintext ctx nonce call answer signed)
    {e : InnerError} (he : e.IsRefusal) (hclass : answer.outcomeClass = e.outcome) :
    sends (exchange lib up signer cfg env req).log = [] := by
  obtain ⟨encoded, ct, hinner, -⟩ := sealInner_ok (ofSuite_of_openRequest h.reached.opened) h.sealed
  rw [h.reached.sends, Option.toList_eq_nil_iff, Option.bind_eq_none_iff]
  intro inner hg
  obtain ⟨hdecode, hbatch⟩ := guarded_eq_some.mp hg
  -- Had a request been built for it, the leg would have run, and it refuses nothing.
  by_contra hreq
  obtain ⟨upReq, hreq⟩ := Option.ne_none_iff_exists'.mp hreq
  refine innerAnswer_not_refusal ?_ hinner he hclass
  intro e' he'
  rcases runInner_eq_some lib up cfg env h.called with
    ⟨_, hd, -⟩ | ⟨inner', hd, hlt, -⟩ | ⟨inner', r, ms, hd, -, hcall, rfl⟩
  · rw [hdecode] at hd
    cases hd
  · cases Except.ok.inj (hdecode.symm.trans hd)
    exact absurd hbatch (Nat.not_le.mpr hlt)
  · cases Except.ok.inj (hdecode.symm.trans hd)
    subst he'
    exact callUpstream_not_refusal hreq hcall

/-- The batch size reported for a plaintext. -/
def reportedBatch (lib : Crates) (plaintext : Bytes) : Nat :=
  match decodeInner lib plaintext with
  | .error _ => 1
  | .ok inner => batchSize lib inner.body

/-- An inner call reports the batch it counted, and 1 when there was none to count. -/
theorem runInner_batch {plaintext : Bytes} {call : InnerCall}
    (h : (runInner lib up cfg env plaintext).result = some call) :
    call.batchSize = reportedBatch lib plaintext := by
  unfold reportedBatch
  rcases runInner_eq_some lib up cfg env h with
    ⟨e, hd, rfl⟩ | ⟨inner, hd, -, rfl⟩ | ⟨inner, r, ms, hd, -, -, rfl⟩
  · rw [hd]
    rfl
  · rw [hd]
    rfl
  · rw [hd]

theorem Ending.sends_nil_of_refusal {resp : Response} {out : Outcome}
    (h : Ending lib up signer cfg env req resp out) {e : InnerError} (he : e.IsRefusal)
    (hclass : out.outcomeClass = e.outcome) :
    sends (exchange lib up signer cfg env req).log = [] := by
  cases h with
  | sealed hr hc hs hsign => exact Answered.sends_nil ⟨hr, hc, hs, hsign⟩ he hclass
  | requestTooLarge _ => cases e <;> cases hclass
  | requestReadFailed _ _ => cases e <;> cases hclass
  | notOpened _ _ => cases e <;> cases hclass
  | notReady _ _ _ => cases e <;> cases hclass
  | notSealed _ _ _ => cases e <;> cases hclass
  | notSigned _ _ _ _ => cases e <;> cases hclass

/-- A plaintext answer other than a 500 means that nothing was sent. -/
theorem Ending.sends_nil_of_plaintext (hv : lib.http.ValueRule) {resp : Response} {out : Outcome}
    (h : Ending lib up signer cfg env req resp out) (hu : resp.Unsigned)
    (hstatus : resp.status.code ≠ 500) :
    sends (exchange lib up signer cfg env req).log = [] := by
  suffices hno : ¬ ∃ plaintext ctx nonce, Reached lib signer cfg env req plaintext ctx nonce by
    rw [(ends_early hno).2]
    rfl
  rintro ⟨plaintext, ctx, nonce, hr⟩
  obtain ⟨c, ha, hf⟩ := h.cause hv
  cases c with
  | requestTooLarge => exact absurd hr.received.1 (Nat.not_le.mpr ha)
  | requestReadFailed =>
    have hfails := hr.received.2
    rw [ha.2] at hfails
    cases hfails
  | notOpened => exact ha.2 _ hr.opened
  | unsealable =>
    rw [show resp = plaintext500 from hf] at hstatus
    exact hstatus rfl
  | answered => exact SealedAnswer.not_unsigned hf hu

/-- The batch header of a sealed answer. -/
theorem SealedAnswer.batchHeader {resp : Response}
    (h : SealedAnswer lib up signer cfg env req resp) {plaintext : Bytes} {ctx : ResponseContext}
    (ho : signer.openRequest req.body.content = .ok (plaintext, ctx)) :
    resp.headers.getAll .vrpcBatchSize = [decimal (reportedBatch lib plaintext)] := by
  obtain ⟨plaintext', ctx', nonce, call, answer, signed, ha, -, hlist, -⟩ := h
  cases Except.ok.inj (ha.reached.opened.symm.trans ho)
  have hbatch : (.vrpcBatchSize, decimal call.batchSize) ∈ sealedFields call.batchSize signed := by
    simp [sealedFields]
  rw [MultiMap.getAll, hlist, ← runInner_batch ha.called]
  exact MultiMap.values_of_distinct (sealedFields_distinct _ _) hbatch

end Guard

/-- **The guard before the upstream call.**  In every run, completed or dropped, at most
one request is sent, it carries the inner body, and every guard held before; a completed
run sends it exactly when they all held.  So nothing was sent in a run that ends in a
plaintext 400 or 413 or in a bad-request, unsupported-media-type or batch-too-large
answer of the sidecar, or in which the randomness or the first clock reading failed.  A
sealed answer reports the batch that was counted, and 1 when the request did not
decode. -/
theorem upstream_call_guard (lib : Crates) (hv : lib.http.ValueRule) (up : UpstreamClient)
    (signer : SigningState lib) (cfg : ConfidentialConfig) (env : Env) (req : Request) :
    (∀ log, Observed lib up signer cfg env req log →
      (sends log).length ≤ 1 ∧
      (∀ upReq ∈ sends log, ∃ inner uri, Guards lib up signer cfg env req inner uri ∧
        upReq.body = inner.body) ∧
      (env.nonce = none ∨ nowMs env.preCheckClock = none → sends log = [])) ∧
    ((∃ upReq, sends (confidentialExchange lib up signer cfg env req).log = [upReq]) ↔
      ∃ inner uri, Guards lib up signer cfg env req inner uri) ∧
    ∃ resp out, (exchange lib up signer cfg env req).result = some (resp, out) ∧
      (confidentialExchange lib up signer cfg env req).result = some resp ∧
      (resp.Unsigned ∧ (resp.status.code = 400 ∨ resp.status.code = 413) →
        sends (confidentialExchange lib up signer cfg env req).log = []) ∧
      (out.outcomeClass = .badRequest ∨ out.outcomeClass = .unsupportedMediaType ∨
          out.outcomeClass = .batchTooLarge →
        sends (confidentialExchange lib up signer cfg env req).log = []) ∧
      ∀ plaintext ctx, signer.openRequest req.body.content = .ok (plaintext, ctx) →
        SealedAnswer lib up signer cfg env req resp →
        resp.headers.getAll .vrpcBatchSize =
          [decimal (match decodeInner lib plaintext with
            | .error _ => 1
            | .ok inner => batchSize lib inner.body)] := by
  obtain ⟨resp, out, hres, hend⟩ := exchange_ends lib up signer cfg env req
  obtain ⟨hret, hsends⟩ := confidentialExchange_returns hres
  refine ⟨?_, ?_, resp, out, hres, hret, ?_, ?_, fun plaintext ctx ho hs => hs.batchHeader ho⟩
  · intro log hlog
    have hpre := hlog.sends_prefix
    refine ⟨hpre.length_le.trans (length_sends_exchange _ _ _ _ _ _), fun upReq hmem => ?_, fun hunusable => ?_⟩
    · obtain ⟨inner, uri, hg, rfl⟩ := (sends_exchange hv).mp (hpre.subset hmem)
      exact ⟨inner, uri, hg, rfl⟩
    · rw [List.eq_nil_iff_forall_not_mem]
      intro upReq hmem
      obtain ⟨inner, uri, hg, -⟩ := (sends_exchange hv).mp (hpre.subset hmem)
      obtain ⟨nonce, hn⟩ := hg.drawn
      obtain ⟨t, ht⟩ := hg.clock
      rcases hunusable with h | h
      · rw [hn] at h
        cases h
      · rw [ht] at h
        cases h
  · rw [hsends]
    constructor
    · rintro ⟨upReq, hone⟩
      obtain ⟨inner, uri, hg, -⟩ := (sends_exchange hv).mp (by rw [hone]; exact List.mem_singleton_self _)
      exact ⟨inner, uri, hg⟩
    · rintro ⟨inner, uri, hg⟩
      exact ⟨_, hg.sends_exchange hv⟩
  · rintro ⟨hu, hstatus⟩
    rw [hsends]
    exact hend.sends_nil_of_plaintext hv hu (by omega)
  · rw [hsends]
    rintro (hclass | hclass | hclass)
    · exact hend.sends_nil_of_refusal (e := .badRequest) trivial hclass
    · exact hend.sends_nil_of_refusal (e := .unsupportedMediaType) trivial hclass
    · exact hend.sends_nil_of_refusal (e := .batchTooLarge) trivial hclass

namespace KnownAnswers

/-- The guards hold in the exchange of the vector. -/
theorem guards (path : String) : ∃ uri, Guards crates upstream signer config env
    (post path encapsulatedRequest) innerRequest uri := by
  obtain ⟨ctx, hr, -⟩ := opensAndSeals path
  obtain ⟨pathAndQuery, hpq⟩ := Option.isSome_iff_exists.mp
    (by decide +kernel : (upstream.originPathAndQuery crates innerRequest.pathAndQuery).isSome = true)
  obtain ⟨uri, huri⟩ : ∃ uri, upstream.originUri crates pathAndQuery = some uri := ⟨_, rfl⟩
  exact ⟨uri, hr.received, ⟨_, ctx, hr.opened, decoded⟩, ⟨_, hr.drawn⟩, hr.clock,
    by decide, pathAndQuery, hpq, huri⟩

end KnownAnswers

open KnownAnswers in
/-- The exchange of the vector sends its inner body, once. -/
theorem upstream_call_guard_vector :
    ∃ upReq, sends (confidentialExchange crates upstream signer config env
        (post "/confidential" encapsulatedRequest)).log = [upReq] ∧
      upReq.body = rpcRequest := by
  obtain ⟨hruns, hiff, -⟩ := upstream_call_guard crates http_values upstream signer config env
    (post "/confidential" encapsulatedRequest)
  obtain ⟨uri, hg⟩ := guards "/confidential"
  obtain ⟨upReq, hone⟩ := hiff.mpr ⟨innerRequest, uri, hg⟩
  obtain ⟨inner, uri', hg', hbody⟩ := (hruns _ .returned).2.1 upReq
    (by rw [hone]; exact List.mem_singleton_self _)
  rw [← hg.unique hg'] at hbody
  exact ⟨upReq, hone, hbody⟩

end VrpcSidecar
