import VrpcSidecar.Relay

/-! # The cap on the node's response

The two routes bound the node's body in two ways.  The passthrough route collects it
through `Limited`, which counts an allowance down and fails on the frame that exceeds
it; the confidential route reads frame by frame, counts up with a saturating addition,
and looks at the size hint first.  Below a cap of `usize::MAX` they accept the same
bodies and read the same bytes (`response_cap_exact`).
-/
namespace VrpcSidecar

/-- All the data frames of a body, in order. -/
def BodyStream.dataFrames (b : BodyStream) : List Bytes := VrpcSidecar.dataFrames b.frames

/-- No frame of the body is an error. -/
def BodyStream.ErrorFree (b : BodyStream) : Prop := ∀ f ∈ b.frames, f.2 ≠ .error

/-- **A head that `read_upstream` accepts**: a final status and no coding but
`identity`. -/
structure AcceptableHead (resp : Incoming) : Prop where
  status : 200 ≤ resp.status.code ∧ resp.status.code ≤ 599
  codings : ∀ v ∈ resp.headers.getAll .contentEncoding, eqIgnoreCase v (ascii "identity") = true

theorem BodyStream.errorFree_iff (b : BodyStream) : b.ErrorFree ↔ b.fails = false :=
  hasError_eq_false_iff.symm

theorem BodyStream.ErrorFree.content {b : BodyStream} (h : b.ErrorFree) :
    b.content = b.dataFrames.flatten :=
  delivered_eq_flatten (b.errorFree_iff.mp h)

/-- A body is within the cap when it has no error frame and its data frames are. -/
theorem BodyStream.within_iff (b : BodyStream) (cap : Nat) :
    b.Within cap ↔ b.ErrorFree ∧ b.dataFrames.flatten.length ≤ cap := by
  rw [Within, b.errorFree_iff]
  constructor
  · rintro ⟨hle, hf⟩
    rw [← (b.errorFree_iff.mpr hf).content]
    exact ⟨hf, hle⟩
  · rintro ⟨hf, hle⟩
    rw [(b.errorFree_iff.mpr hf).content]
    exact ⟨hle, hf⟩

/-- Below `usize::MAX` the saturating counter sees the real total, so the frame loop
accepts the bodies within the cap. -/
theorem readFrames_cases {cap : Nat} (hcap : cap < usizeMax) (body : BodyStream) :
    (body.Within cap ∧ (readFrames cap body).result = some (.ok body.content)) ∨
      (¬ body.Within cap ∧ (readFrames cap body).result = some (.error .upstream)) := by
  have hcount : CountedWithin cap body.content.length ∧ body.fails = false ↔ body.Within cap := by
    rw [CountedWithin, BodyStream.Within, or_iff_left (Nat.not_le.mpr hcap)]
  rw [result_readFrames]
  by_cases h : body.Within cap
  · rw [if_pos (hcount.mpr h)]
    exact Or.inl ⟨h, rfl⟩
  · rw [if_neg (fun hc => h (hcount.mp hc))]
    exact Or.inr ⟨h, rfl⟩

section Cap
variable {lib : Crates} {env : Env} {cap : Nat} {upReq : OutRequest} {resp : Incoming}

/-- The size hint refuses nothing that the frame loop accepts. -/
theorem hint_le_cap (hcap : cap < usizeMax)
    (hint : resp.body.sizeHintLower ≤ resp.body.dataFrames.flatten.length)
    (h : resp.body.Within cap) : ¬ resp.body.sizeHintLower > capAsU64 cap := by
  have hle := ((resp.body.within_iff cap).mp h).2
  have hu64 : capAsU64 cap = cap := if_pos (by simp only [usizeMax] at hcap; omega)
  rw [hu64]
  omega

/-- **Reading a response whose head is acceptable**: the status, the content types and
the data when the body is within the cap, an upstream error when it is not. -/
theorem readUpstream_acceptable (hstatus : lib.bhttp.StatusRule)
    (hresp : (env.upstream upReq).2 = some resp) (hhead : AcceptableHead resp)
    (hcap : cap < usizeMax)
    (hint : resp.body.sizeHintLower ≤ resp.body.dataFrames.flatten.length) :
    (resp.body.Within cap ∧ (readUpstream lib env cap upReq).result =
      some (.ok (resp.status.code, nodeAnswer resp))) ∨
    (¬ resp.body.Within cap ∧
      (readUpstream lib env cap upReq).result = some (.error .upstream)) := by
  have hcode := hstatus resp.status.code hhead.status.1 hhead.status.2
  rcases readFrames_cases hcap resp.body with ⟨hw, hframes⟩ | ⟨hw, hframes⟩
  · refine Or.inl ⟨hw, Run.result_andThen_eq_some.mpr ⟨_, result_send env upReq, ?_⟩⟩
    rw [hresp]
    dsimp only
    rw [refusesHead_eq_false hhead.status hhead.codings (hint_le_cap hcap hint hw),
      if_neg Bool.false_ne_true, hcode]
    exact Run.result_andThen_eq_some.mpr ⟨_, hframes, rfl⟩
  · refine Or.inr ⟨hw, Run.result_andThen_eq_some.mpr ⟨_, result_send env upReq, ?_⟩⟩
    rw [hresp]
    dsimp only
    -- the hint may refuse the body before the loop does, with the same error
    split
    · rfl
    · rw [hcode]
      exact Run.result_andThen_eq_some.mpr ⟨_, hframes, rfl⟩

end Cap

/-- **The cap on the streamed response is exact, and agrees with the passthrough cap.**
For every cap below `usize::MAX` and every sequence of frames behind an acceptable head,
with a size hint that is a lower bound, the body is accepted exactly when no frame is an
error and the data frames are within the cap.  What is read is then their
concatenation, and it is what `Limited` collects; a body that is refused is refused
there too.  Neither the saturating counter nor the size hint changes the decision. -/
theorem response_cap_exact (lib : Crates) (hstatus : lib.bhttp.StatusRule) (env : Env)
    (cap : Nat) (hcap : cap < usizeMax) (upReq : OutRequest) (resp : Incoming)
    (hresp : (env.upstream upReq).2 = some resp) (hhead : AcceptableHead resp)
    (hint : resp.body.sizeHintLower ≤ resp.body.dataFrames.flatten.length) :
    ((∃ r, (readUpstream lib env cap upReq).result = some (.ok r)) ↔
      resp.body.ErrorFree ∧ resp.body.dataFrames.flatten.length ≤ cap) ∧
    (∀ status msg, (readUpstream lib env cap upReq).result = some (.ok (status, msg)) →
      msg.content = resp.body.dataFrames.flatten) ∧
    (∀ bytes, (collectUpstreamResponse resp cap).result = some (.ok bytes) ↔
      ∃ status msg, (readUpstream lib env cap upReq).result = some (.ok (status, msg)) ∧
        msg.content = bytes) ∧
    ((readUpstream lib env cap upReq).result = some (.error .upstream) ↔
      (collectUpstreamResponse resp cap).result =
        some (.error StatusCode.badGateway.intoResponse)) ∧
    (∀ bytes, (readFrames cap resp.body).result = some (.ok bytes) →
      resp.body.dataFrames.flatten.length ≤ cap ∧
        ¬ resp.body.sizeHintLower > capAsU64 cap) := by
  have hcollect : ∀ bytes, (collectUpstreamResponse resp cap).result = some (.ok bytes) ↔
      resp.body.Within cap ∧ bytes = resp.body.content := fun _ => collectOr_ok_iff
  have hframes : ∀ bytes, (readFrames cap resp.body).result = some (.ok bytes) →
      resp.body.dataFrames.flatten.length ≤ cap ∧
        ¬ resp.body.sizeHintLower > capAsU64 cap := by
    intro bytes h
    rcases readFrames_cases hcap resp.body with ⟨hw, -⟩ | ⟨-, hrefused⟩
    · exact ⟨((resp.body.within_iff cap).mp hw).2, hint_le_cap hcap hint hw⟩
    · rw [hrefused] at h
      cases h
  rcases readUpstream_acceptable hstatus hresp hhead hcap hint with
    ⟨hw, hread⟩ | ⟨hw, hread⟩
  · have hdata : resp.body.content = resp.body.dataFrames.flatten :=
      ((resp.body.within_iff cap).mp hw).1.content
    refine ⟨⟨fun _ => (resp.body.within_iff cap).mp hw, fun _ => ⟨_, hread⟩⟩, ?_, ?_, ?_, hframes⟩
    · intro status msg h
      rw [hread] at h
      cases h
      exact hdata
    · intro bytes
      rw [hcollect, hread]
      constructor
      · rintro ⟨-, rfl⟩
        exact ⟨_, _, rfl, rfl⟩
      · rintro ⟨status, msg, h, rfl⟩
        cases h
        exact ⟨hw, rfl⟩
    · rw [hread, (hcollect _).mpr ⟨hw, rfl⟩]
      simp
  · refine ⟨?_, ?_, ?_, ?_, hframes⟩
    · rw [hread, ← resp.body.within_iff]
      simp [hw]
    · intro status msg h
      rw [hread] at h
      cases h
    · intro bytes
      rw [hcollect, hread]
      simp [hw]
    · obtain ⟨r, hr⟩ := collectOr_returns .badGateway resp.body cap
      have hr' : (collectUpstreamResponse resp cap).result = some r := hr
      cases r with
      | ok bytes => exact absurd ((hcollect bytes).mp hr').1 hw
      | error early =>
        rw [hread, hr', collectOr_error hr]
        simp

namespace KnownAnswers

/-- The node's answer in three frames, one of them empty, with trailers behind them. -/
def framedAnswer : Incoming :=
  ⟨.ok, MultiMap.empty.appendAll [(.contentType, ascii "application/json")],
    ⟨[(1, .data (rpcResponse.take 16)), (0, .data []), (2, .data (rpcResponse.drop 16)),
      (0, .trailers)], 1, 16⟩⟩

end KnownAnswers

open KnownAnswers in
/-- It is read at a cap of exactly its 40 bytes, and refused at 39. -/
theorem response_cap_exact_vector :
    let upReq : OutRequest := ⟨ascii "POST", upstream.upstreamUrl, MultiMap.empty, rpcRequest⟩
    (∃ status msg, (readUpstream crates (envWith framedAnswer) 40 upReq).result =
        some (.ok (status, msg)) ∧ msg.content = rpcResponse) ∧
      ¬ ∃ r, (readUpstream crates (envWith framedAnswer) 39 upReq).result = some (.ok r) := by
  intro upReq
  have hhead : AcceptableHead framedAnswer := ⟨by decide, by decide⟩
  have hdata : framedAnswer.body.dataFrames.flatten = rpcResponse := by decide
  have hlen : framedAnswer.body.dataFrames.flatten.length = 40 := by decide
  have hint : framedAnswer.body.sizeHintLower ≤ framedAnswer.body.dataFrames.flatten.length := by
    decide
  have hfree : framedAnswer.body.ErrorFree := by
    rw [BodyStream.errorFree_iff]
    rfl
  have hcap : 40 < usizeMax := by decide
  obtain ⟨hread, hcontent, -⟩ := response_cap_exact crates bhttp_statuses (envWith framedAnswer) 40
    hcap upReq _ rfl hhead hint
  obtain ⟨hrefused, -⟩ := response_cap_exact crates bhttp_statuses (envWith framedAnswer) 39
    (by omega) upReq _ rfl hhead hint
  obtain ⟨⟨status, msg⟩, hr⟩ := hread.mpr ⟨hfree, Nat.le_of_eq hlen⟩
  refine ⟨⟨status, msg, hr, (hcontent status msg hr).trans hdata⟩, fun h => ?_⟩
  have := (hrefused.mp h).2
  omega

end VrpcSidecar
