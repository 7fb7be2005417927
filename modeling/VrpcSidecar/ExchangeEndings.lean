import VrpcSidecar.Confidential

/-! # How a confidential exchange ends

`Ending` lists the ways a call of `exchange` can end, with what happened on the way
to each; `exchange_ends` says that every call ends in one of them.  Its events are
those of the inner call, if it got that far (`Reached.ends`), and the inner call
sends at most one request, exactly when the guards before it passed
(`log_runInner`).  Everything proved about the route is read off these.
-/
namespace VrpcSidecar

section InnerCall
variable (lib : Crates) (up : UpstreamClient) (cfg : ConfidentialConfig) (env : Env)

/-- The inner request that passes the guards before the upstream call: it decodes, and
its batch is within the limit. -/
def guarded (plaintext : Bytes) : Option InnerRequest :=
  match decodeInner lib plaintext with
  | .error _ => none
  | .ok inner => if batchSize lib inner.body > cfg.maxBatchSize then none else some inner

/-- **How an inner call ends**: the plaintext does not decode, or the batch is too
large, or the upstream leg ran. -/
theorem runInner_cases (plaintext : Bytes) :
    (∃ e, decodeInner lib plaintext = .error e ∧
      (runInner lib up cfg env plaintext).result = some (.failed e 1)) ∨
    (∃ inner, decodeInner lib plaintext = .ok inner ∧
      cfg.maxBatchSize < batchSize lib inner.body ∧
      (runInner lib up cfg env plaintext).result =
        some (.failed .batchTooLarge (batchSize lib inner.body))) ∨
    ∃ inner r ms, decodeInner lib plaintext = .ok inner ∧
      batchSize lib inner.body ≤ cfg.maxBatchSize ∧
      (callUpstream lib up cfg env inner).result = some r ∧
      (runInner lib up cfg env plaintext).result = some ⟨r, batchSize lib inner.body, ms⟩ := by
  unfold runInner
  cases decodeInner lib plaintext with
  | error e => exact Or.inl ⟨e, rfl, rfl⟩
  | ok inner =>
    by_cases h : batchSize lib inner.body > cfg.maxBatchSize
    · refine Or.inr (Or.inl ⟨inner, rfl, h, ?_⟩)
      dsimp only
      rw [if_pos h]
      rfl
    · obtain ⟨r, hr⟩ := callUpstream_returns lib up cfg env inner
      refine Or.inr (Or.inr ⟨inner, r, millis (callUpstream lib up cfg env inner).elapsed, rfl,
        Nat.le_of_not_lt h, hr, ?_⟩)
      dsimp only
      rw [if_neg h, Run.bind_eq, Run.result_andThen, Run.result_timed, hr]
      rfl

/-- The same, for the call an inner call returned. -/
theorem runInner_eq_some {plaintext : Bytes} {call : InnerCall}
    (h : (runInner lib up cfg env plaintext).result = some call) :
    (∃ e, decodeInner lib plaintext = .error e ∧ call = .failed e 1) ∨
    (∃ inner, decodeInner lib plaintext = .ok inner ∧
      cfg.maxBatchSize < batchSize lib inner.body ∧
      call = .failed .batchTooLarge (batchSize lib inner.body)) ∨
    ∃ inner r ms, decodeInner lib plaintext = .ok inner ∧
      batchSize lib inner.body ≤ cfg.maxBatchSize ∧
      (callUpstream lib up cfg env inner).result = some r ∧
      call = ⟨r, batchSize lib inner.body, ms⟩ := by
  rcases runInner_cases lib up cfg env plaintext with
    ⟨e, hd, hr⟩ | ⟨inner, hd, hlt, hr⟩ | ⟨inner, r, ms, hd, hle, hcall, hr⟩
  · exact Or.inl ⟨e, hd, Option.some.inj (h.symm.trans hr)⟩
  · exact Or.inr (Or.inl ⟨inner, hd, hlt, Option.some.inj (h.symm.trans hr)⟩)
  · exact Or.inr (Or.inr ⟨inner, r, ms, hd, hle, hcall, Option.some.inj (h.symm.trans hr)⟩)

theorem runInner_returns (plaintext : Bytes) :
    ∃ call, (runInner lib up cfg env plaintext).result = some call := by
  rcases runInner_cases lib up cfg env plaintext with
    ⟨e, -, h⟩ | ⟨inner, -, -, h⟩ | ⟨inner, r, ms, -, -, -, h⟩
  · exact ⟨_, h⟩
  · exact ⟨_, h⟩
  · exact ⟨_, h⟩

/-- **The inner call sends one request at most**: the one built for the inner request
that passed the guards. -/
theorem log_runInner (plaintext : Bytes) :
    (runInner lib up cfg env plaintext).log =
      (((guarded lib cfg plaintext).bind (innerUpstreamRequest lib up)).map Event.send).toList := by
  unfold runInner guarded
  cases decodeInner lib plaintext with
  | error e => rfl
  | ok inner =>
    dsimp only
    split
    · rfl
    · obtain ⟨r, hr⟩ := callUpstream_returns lib up cfg env inner
      have ht : (callUpstream lib up cfg env inner).timed.result =
          some (r, (callUpstream lib up cfg env inner).elapsed) := by
        rw [Run.result_timed, hr]
        rfl
      rw [Run.bind_eq, Run.log_andThen ht, Run.log_timed hr, log_callUpstream]
      exact List.append_nil _

end InnerCall

section Endings
variable (lib : Crates) (up : UpstreamClient) (signer : SigningState lib)
  (cfg : ConfidentialConfig) (env : Env) (req : Request)

/-- **The call got as far as the inner request**: the outer body was received within
the cap and opened, the response nonce was drawn, and the clock was usable. -/
structure Reached (plaintext : Bytes) (ctx : ResponseContext) (nonce : Block 32) : Prop where
  received : req.body.Within cfg.maxRequestBytes
  opened : signer.openRequest req.body.content = .ok (plaintext, ctx)
  drawn : env.nonce = some nonce
  clock : ∃ t, nowMs env.preCheckClock = some t

/-- **The ways a call ends**, each with its response and its outcome. -/
inductive Ending : Response → Outcome → Prop where
  | requestTooLarge (h : cfg.maxRequestBytes < req.body.content.length) :
      Ending StatusCode.payloadTooLarge.intoResponse (.plaintext .requestTooLarge 0 0)
  | requestReadFailed (hlen : req.body.content.length ≤ cfg.maxRequestBytes)
      (h : req.body.fails = true) :
      Ending StatusCode.badRequest.intoResponse (.plaintext .requestReadFailed 0 0)
  | notOpened (hw : req.body.Within cfg.maxRequestBytes)
      (h : signer.openRequest req.body.content = .error .refused) :
      Ending preDecapsulationError
        (.plaintext .preDecapsulation req.body.content.length ohttpKeyProblem.length)
  | notReady {plaintext : Bytes} {ctx : ResponseContext}
      (hw : req.body.Within cfg.maxRequestBytes)
      (ho : signer.openRequest req.body.content = .ok (plaintext, ctx))
      (h : env.nonce = none ∨ nowMs env.preCheckClock = none) :
      Ending plaintext500 (unsealable req.body.content.length 0 0)
  | notSealed {plaintext : Bytes} {ctx : ResponseContext} {nonce : Block 32} {call : InnerCall}
      (hr : Reached lib signer cfg env req plaintext ctx nonce)
      (hc : (runInner lib up cfg env plaintext).result = some call)
      (hs : sealInner lib ctx nonce call.result = .error .refused) :
      Ending plaintext500 (unsealable req.body.content.length call.batchSize call.upstreamMs)
  | notSigned {plaintext : Bytes} {ctx : ResponseContext} {nonce : Block 32} {call : InnerCall}
      {answer : Sealed}
      (hr : Reached lib signer cfg env req plaintext ctx nonce)
      (hc : (runInner lib up cfg env plaintext).result = some call)
      (hs : sealInner lib ctx nonce call.result = .ok answer)
      (hsign : signer.sign env.signClock req.body.content answer.body = none) :
      Ending plaintext500 (unsealable req.body.content.length call.batchSize call.upstreamMs)
  | sealed {plaintext : Bytes} {ctx : ResponseContext} {nonce : Block 32} {call : InnerCall}
      {answer : Sealed} {signed : SignedResponse}
      (hr : Reached lib signer cfg env req plaintext ctx nonce)
      (hc : (runInner lib up cfg env plaintext).result = some call)
      (hs : sealInner lib ctx nonce call.result = .ok answer)
      (hsign : signer.sign env.signClock req.body.content answer.body = some signed) :
      Ending (buildConfidentialResponse lib answer.innerStatus call.batchSize answer.body signed)
        ⟨answer.outcomeClass, answer.innerStatus, call.batchSize, req.body.content.length,
          answer.body.length, call.upstreamMs⟩

variable {lib up signer cfg env req}
  {plaintext : Bytes} {ctx : ResponseContext} {nonce : Block 32} {call : InnerCall}

/-- The context of an opened request belongs to the suite of the route, whose sizes fit
the arrays. -/
theorem ofSuite_of_openRequest {body : Bytes}
    (h : signer.openRequest body = .ok (plaintext, ctx)) :
    ctx.OfSuite lib (confidentialSuite lib) := by
  have hs : (confidentialSuite lib).secretLen ≤ 32 := Nat.le_refl 32
  obtain ⟨-, -, hopened⟩ := openEnvelope_ok hs h
  exact ofSuite_of_opened hs (Nat.le_of_eq lib.aes256Gcm_keySize) hopened

/-- Opening a request never panics. -/
theorem openRequest_not_panicked (signer : SigningState lib) (body : Bytes) :
    signer.openRequest body ≠ .error .panicked :=
  openEnvelope_not_panicked (Nat.le_refl 32) signer.kemSecret body

/-- Sealing under the context of an opened request never panics. -/
theorem Reached.sealInner_not_panicked (hr : Reached lib signer cfg env req plaintext ctx nonce)
    (result : InnerResult) : sealInner lib ctx nonce result ≠ .error .panicked := by
  rw [sealInner_eq (ofSuite_of_openRequest hr.opened)]
  exact orRefused_not_panicked _

theorem Reached.unique {plaintext' : Bytes} {ctx' : ResponseContext} {nonce' : Block 32}
    (h : Reached lib signer cfg env req plaintext ctx nonce)
    (h' : Reached lib signer cfg env req plaintext' ctx' nonce') :
    plaintext = plaintext' ∧ ctx = ctx' ∧ nonce = nonce' := by
  have ho := Except.ok.inj (h.opened.symm.trans h'.opened)
  have hn := Option.some.inj (h.drawn.symm.trans h'.drawn)
  exact ⟨congrArg Prod.fst ho, congrArg Prod.snd ho, hn⟩

/-- The exchange settles what the sealed exchange ended with. -/
theorem exchange_of_sealedExchange {r : Except Outcome (Response × Outcome)}
    (h : (sealedExchange lib up signer cfg env req).result = some r) :
    (exchange lib up signer cfg env req).result = some (settle r) ∧
      (exchange lib up signer cfg env req).log = (sealedExchange lib up signer cfg env req).log := by
  constructor
  · exact Run.result_andThen_eq_some.mpr ⟨r, h, rfl⟩
  · exact Run.log_andThen_ret _ settle

theorem log_readOuter (req : Request) (cap : Nat) : (readOuter req cap).log = [] := by
  obtain ⟨r, hr⟩ := collect_returns (E := Event) cap req.body
  rw [readOuter, Run.bind_eq, Run.log_andThen hr, log_collect]
  rcases r with (- | -) | bytes <;> rfl

/-- A body that is not read ends the exchange with nothing sent. -/
theorem sealedExchange_unread {out : Outcome}
    (h : (readOuter req cfg.maxRequestBytes).result = some (.error out)) :
    (sealedExchange lib up signer cfg env req).result = some (.error out) ∧
      (sealedExchange lib up signer cfg env req).log = [] := by
  constructor
  · exact Run.result_andThen_eq_some.mpr ⟨_, h, rfl⟩
  · rw [sealedExchange, Run.bind_eq, Run.log_andThen h, log_readOuter]
    rfl

/-- A body that is read is opened. -/
theorem sealedExchange_read (lib : Crates) (up : UpstreamClient) (signer : SigningState lib)
    (env : Env) (h : req.body.Within cfg.maxRequestBytes) :
    (sealedExchange lib up signer cfg env req).result =
        (openedExchange lib up signer cfg env req.body.content).result ∧
      (sealedExchange lib up signer cfg env req).log =
        (openedExchange lib up signer cfg env req.body.content).log := by
  have hread : (readOuter req cfg.maxRequestBytes).result = some (.ok req.body.content) :=
    Run.result_andThen_eq_some.mpr ⟨_, collect_ok_iff.mpr ⟨h, rfl⟩, rfl⟩
  constructor
  · rw [sealedExchange, Run.bind_eq, Run.result_andThen, hread]
    rfl
  · rw [sealedExchange, Run.bind_eq, Run.log_andThen hread, log_readOuter]
    rfl

/-- From the inner request on, an exchange is the inner call and the answer to it. -/
theorem Reached.openedExchange
    (hr : Reached lib signer cfg env req plaintext ctx nonce) :
    openedExchange lib up signer cfg env req.body.content =
      (runInner lib up cfg env plaintext).andThen
        (answer lib signer env req.body.content ctx nonce) := by
  obtain ⟨t, ht⟩ := hr.clock
  rw [VrpcSidecar.openedExchange, hr.opened]
  dsimp only
  rw [hr.drawn, ht]
  rfl

/-- The answer to an inner call is sealed, or a plaintext 500. -/
theorem Reached.answer (hr : Reached lib signer cfg env req plaintext ctx nonce)
    (hc : (runInner lib up cfg env plaintext).result = some call) :
    ∃ r, answer lib signer env req.body.content ctx nonce call = .ret r ∧
      Ending lib up signer cfg env req (settle r).1 (settle r).2 := by
  rw [VrpcSidecar.answer]
  cases hs : sealInner lib ctx nonce call.result with
  | error fault =>
    cases fault with
    | panicked => exact absurd hs (hr.sealInner_not_panicked _)
    | refused => exact ⟨_, rfl, Ending.notSealed hr hc hs⟩
  | ok sealed =>
    dsimp only
    cases hsign : signer.sign env.signClock req.body.content sealed.body with
    | none => exact ⟨_, rfl, Ending.notSigned hr hc hs hsign⟩
    | some signed => exact ⟨_, rfl, Ending.sealed hr hc hs hsign⟩

/-- **A call that gets to the inner request** ends sealed or in a plaintext 500, and
its events are those of the inner call. -/
theorem Reached.ends (hr : Reached lib signer cfg env req plaintext ctx nonce) :
    (∃ resp out, (exchange lib up signer cfg env req).result = some (resp, out) ∧
      Ending lib up signer cfg env req resp out) ∧
    (exchange lib up signer cfg env req).log = (runInner lib up cfg env plaintext).log := by
  obtain ⟨call, hc⟩ := runInner_returns lib up cfg env plaintext
  obtain ⟨r, hanswer, hend⟩ := hr.answer hc
  obtain ⟨hres, hlog⟩ := sealedExchange_read lib up signer env hr.received
  rw [hr.openedExchange, Run.result_andThen, hc, Option.bind_some, hanswer, Run.result_ret] at hres
  rw [hr.openedExchange, Run.log_andThen hc, hanswer, Run.log_ret, List.append_nil] at hlog
  obtain ⟨hres', hlog'⟩ := exchange_of_sealedExchange hres
  exact ⟨⟨_, _, hres', hend⟩, hlog'.trans hlog⟩

/-- **A call that does not get to the inner request** ends in plaintext, without an
event. -/
theorem ends_early
    (h : ¬ ∃ plaintext ctx nonce, Reached lib signer cfg env req plaintext ctx nonce) :
    (∃ resp out, (exchange lib up signer cfg env req).result = some (resp, out) ∧
      Ending lib up signer cfg env req resp out) ∧
    (exchange lib up signer cfg env req).log = [] := by
  -- It is enough that the sealed exchange ends with an error and without an event.
  suffices key : ∃ out, ((sealedExchange lib up signer cfg env req).result = some (.error out) ∧
      (sealedExchange lib up signer cfg env req).log = []) ∧
      Ending lib up signer cfg env req (plaintextResponse out.outcomeClass) out by
    obtain ⟨out, ⟨hres, hlog⟩, hend⟩ := key
    obtain ⟨hres', hlog'⟩ := exchange_of_sealedExchange hres
    exact ⟨⟨_, out, hres', hend⟩, hlog'.trans hlog⟩
  by_cases hlen : cfg.maxRequestBytes < req.body.content.length
  · refine ⟨.plaintext .requestTooLarge 0 0, sealedExchange_unread ?_,
      Ending.requestTooLarge hlen⟩
    refine Run.result_andThen_eq_some.mpr ⟨_, result_collect _ _, ?_⟩
    rw [if_pos hlen]
    rfl
  cases hfails : req.body.fails with
  | true =>
    refine ⟨.plaintext .requestReadFailed 0 0, sealedExchange_unread ?_,
      Ending.requestReadFailed (Nat.le_of_not_lt hlen) hfails⟩
    refine Run.result_andThen_eq_some.mpr ⟨_, result_collect _ _, ?_⟩
    rw [if_neg hlen, hfails]
    rfl
  | false =>
    have hw : req.body.Within cfg.maxRequestBytes := ⟨Nat.le_of_not_lt hlen, hfails⟩
    obtain ⟨hres, hlog⟩ := sealedExchange_read lib up signer env hw
    rw [hres, hlog, openedExchange]
    cases hopen : signer.openRequest req.body.content with
    | error fault =>
      cases fault with
      | panicked => exact absurd hopen (openRequest_not_panicked signer _)
      | refused => exact ⟨_, ⟨rfl, rfl⟩, Ending.notOpened hw hopen⟩
    | ok r =>
      obtain ⟨plaintext, ctx⟩ := r
      dsimp only
      cases hn : env.nonce with
      | none => exact ⟨_, ⟨rfl, rfl⟩, Ending.notReady hw hopen (Or.inl hn)⟩
      | some nonce =>
        cases ht : nowMs env.preCheckClock with
        | none => exact ⟨_, ⟨rfl, rfl⟩, Ending.notReady hw hopen (Or.inr ht)⟩
        | some t => exact absurd ⟨plaintext, ctx, nonce, hw, hopen, hn, t, ht⟩ h

/-- **Every call ends, in one of the ways listed.** -/
theorem exchange_ends (lib : Crates) (up : UpstreamClient) (signer : SigningState lib)
    (cfg : ConfidentialConfig) (env : Env) (req : Request) :
    ∃ resp out, (exchange lib up signer cfg env req).result = some (resp, out) ∧
      Ending lib up signer cfg env req resp out := by
  by_cases h : ∃ plaintext ctx nonce, Reached lib signer cfg env req plaintext ctx nonce
  · obtain ⟨plaintext, ctx, nonce, hr⟩ := h
    exact hr.ends.1
  · exact (ends_early h).1

end Endings
end VrpcSidecar
