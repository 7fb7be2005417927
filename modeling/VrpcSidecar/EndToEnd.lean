import VrpcSidecar.Authenticity
import VrpcSidecar.ClientCalls
import VrpcSidecar.Deadlines

/-! # From client to node and back

A client and a process, with any other calls beside the client's.  `client_reads_answer`
holds of every call of every run: all that goes to the node for it is the request the client
wrote, and what the client reads is the node's answer to it, or a problem document.
`client_gets_node_answer` says when it is the answer of the node.

With a network in between, a response may be that of another call.  What the client accepts
and can read is then still an answer to its own request (`read_means_answered`): of all that
is signed, only what was sealed for it opens.
-/
namespace VrpcSidecar
open BinaryHttp

/-! ## Every run -/

section Runs
variable {I : Type} [DecidableEq I] {lib : Crates} {web : WebCrates} {config : Config}
  {benv : BootEnv} {calls : I → Call} {app : AppState lib}
  {s : Service (AppState lib) I ServiceEvent Response} {i : I}

/-- Whatever a confidential call has sent, its exchange sends. -/
theorem ProcessReaches.sent (h : ProcessReaches lib web config benv calls s)
    (happ : bootOutcome lib config benv = .ok app) (hconf : IsConfidential (calls i).req)
    {upReq : OutRequest} (hmem : (i, ServiceEvent.call (.send upReq)) ∈ s.pool.log) :
    upReq ∈ sends (exchange lib app.upstream app.signing app.confidential (calls i).ce.env
      (calls i).req).log := by
  obtain ⟨o, all, hleaves, hpre⟩ := accounted_prefix (Pool.accounted (h.pool happ) i)
  have hmem := hpre.subset (Pool.mem_eventsOf.mpr hmem)
  obtain ⟨-, hsent⟩ | ⟨hother, -⟩ := (serve_leaves hleaves).sends_cases hmem
  · exact hsent
  · exact absurd hconf.1 hother

/-- What a confidential call has returned is what its exchange ends with, and it has sent
what its exchange sends. -/
theorem ProcessReaches.exchanged (h : ProcessReaches lib web config benv calls s)
    (happ : bootOutcome lib config benv = .ok app) (hconf : IsConfidential (calls i).req)
    {resp : Response} (hphase : s.pool.phase i = .returned resp) :
    (∃ out, Ending lib app.upstream app.signing app.confidential (calls i).ce.env (calls i).req
      resp out) ∧
    ∀ upReq, upReq ∈ sends (exchange lib app.upstream app.signing app.confidential
      (calls i).ce.env (calls i).req).log → (i, ServiceEvent.call (.send upReq)) ∈ s.pool.log := by
  obtain ⟨evs, hjob, hevs⟩ := (h.served happ hphase).of_confidential hconf
  obtain ⟨resp', out, hresp, hres, rfl⟩ | ⟨_, _, hnone, -⟩ := confidentialJob_leaves hjob
  · cases hresp
    obtain ⟨resp', out', hres', hend⟩ := exchange_ends lib app.upstream app.signing
      app.confidential (calls i).ce.env (calls i).req
    cases Option.some.inj (hres.symm.trans hres')
    refine ⟨⟨_, hend⟩, fun upReq hmem => Pool.mem_eventsOf.mp ?_⟩
    rw [hevs]
    exact List.mem_map_of_mem (List.mem_append_left _ (mem_sends.mp hmem))
  · cases hnone

end Runs

namespace KnownAnswers

/-- The client of the vector. -/
def client : ClientCrates crates where
  verifyingKeyFromBytes := keyFromBytes
  publicKeyFromBytes := keyFromBytes
  readBhttp p :=
    match p with
    | 0 :: s => readRequest s
    | _ => readResponse p

theorem client_rules : client.Rules where
  verifyingKey _ := keyFromBytes_bytes _
  publicKey pk := keyFromBytes_bytes pk
  response s m h _ _ := by
    unfold client
    dsimp only
    split
    · -- a response does not start with 0
      cases h
    · exact h

/-- The client of the vector posts the encapsulated request, whatever the key. -/
theorem posted (signer : SigningState crates) : ∃ c, Client.outerRequest client signer.pubkeyBytes
    enc.bytes (ascii "POST") (ascii "/") jsonFields rpcRequest = .ok (encapsulatedRequest, c) := by
  have hwrap : requestAead.wrap KnownAnswers.bhttpRequest = requestCiphertext := if_pos rfl
  have henc : Block.padded 32 enc.bytes = enc := Block.ext (Block.padded_bytes enc.size)
  obtain ⟨sk, -, hpkR⟩ := confidentialPkR_eq client_rules signer
  refine ⟨⟨enc.bytes, Block.padded 32 exportSecret⟩, ?_⟩
  rw [Client.outerRequest, writes, ok_bind, hpkR, ok_bind, Client.sealConfidential,
    client_rules.publicKey]
  show Except.ok (Client.confidentialHdr ++ (Block.padded 32 enc.bytes).bytes ++
    requestAead.wrap KnownAnswers.bhttpRequest,
      (⟨(Block.padded 32 enc.bytes).bytes, Block.padded 32 exportSecret⟩ :
        Client.ConfidentialClient)) = _
  rw [hwrap, henc]
  rfl

end KnownAnswers

/-- **A call that nothing stands in the way of**, for the answer the node gives. -/
structure Unhindered (lib : Crates) (app : AppState lib) (call : Call) (inner : InnerRequest)
    (uri : Uri) (upResp : Incoming) : Prop where
  received : call.req.body.Within app.confidential.maxRequestBytes
  drawn : ∃ nonce, call.ce.env.nonce = some nonce
  clock : ∃ t, nowMs call.ce.env.preCheckClock = some t
  signClock : ∃ t, nowMs call.ce.env.signClock = some t
  batch : batchSize lib inner.body ≤ app.confidential.maxBatchSize
  target : ∃ pathAndQuery,
    app.upstream.originPathAndQuery lib inner.pathAndQuery = some pathAndQuery ∧
      app.upstream.originUri lib pathAndQuery = some uri
  answered : (call.ce.env.upstream (guardedRequest inner uri)).2 = some upResp
  relayable : Relayable app.confidential.maxResponseBytes upResp
  hint : upResp.body.HintRule
  inTime : (readUpstream lib call.ce.env app.confidential.maxResponseBytes
    (guardedRequest inner uri)).elapsed ≤ app.confidential.upstreamTimeout
  inMemory : InMemory lib upResp
  limit : ∀ encoded, writeToVec lib (nodeAnswer upResp) = some encoded →
    encoded.length ≤ lib.aes256Gcm.limit

/-- An unhindered call answers with what the node answered. -/
theorem Unhindered.answers {lib : Crates} (hm : lib.http.MethodRule) (hv : lib.http.ValueRule)
    (hread : lib.bhttp.ReadRule) (hstatus : lib.bhttp.StatusRule) (hwrite : lib.bhttp.WriteRule)
    (hsuite : SuiteRules lib) {client : ClientCrates lib} (hrules : client.Rules)
    {app : AppState lib} {call : Call} {uri : Uri} {upResp : Incoming} {rng method path body : Bytes}
    {fields : List Field} {c : Client.ConfidentialClient}
    (h : Unhindered lib app call (Client.innerRequest method path fields body) uri upResp)
    (hposted : Client.outerRequest client app.signing.pubkeyBytes rng method path fields body =
      .ok (call.req.body.content, c))
    (hadmitted : Admitted ⟨method, ascii "https", ascii "localhost", path, fields, body, []⟩)
    (htyped : body = [] ∨ contentTypes fields ≠ []) :
    Guards lib app.upstream app.signing app.confidential call.ce.env call.req
      (Client.innerRequest method path fields body) uri ∧
    ∃ enc snd plaintext ctx nonce inner answer signed, c.Keeps enc snd ∧
      Answered lib app.upstream app.signing app.confidential call.ce.env call.req plaintext ctx
        nonce inner answer signed ∧
      answer.outcomeClass = .ok ∧ clientReads lib enc snd answer.body = some (nodeAnswer upResp) := by
  obtain ⟨plaintext, enc, snd, hwritten, henc, hkeeps⟩ := Client.outerRequest_ok hrules hposted
  have hdecode : decodeInner lib plaintext = .ok (Client.innerRequest method path fields body) :=
    Client.decode_innerRequest hm hv hread hwritten hadmitted htyped
  obtain ⟨ctx, hopen, -⟩ := henc.opens hsuite
  have hg : Guards lib app.upstream app.signing app.confidential call.ce.env call.req
      (Client.innerRequest method path fields body) uri :=
    ⟨h.received, ⟨plaintext, ctx, hopen, hdecode⟩, h.drawn, h.clock, h.batch, h.target⟩
  obtain ⟨ctx', nonce, inner, answer, signed, ha, hclass, hreads⟩ := hg.relayed hv hsuite hstatus
    hwrite henc h.answered h.relayable h.hint h.inTime h.inMemory h.limit h.signClock
  exact ⟨hg, enc, snd, plaintext, ctx', nonce, inner, answer, signed, hkeeps, ha, hclass, hreads⟩

namespace KnownAnswers

/-- The node's answer is encoded as the response of the vector. -/
theorem encodes : writeToVec crates
    (nodeAnswer (answerWith [(.contentType, ascii "application/json")] rpcResponse)) =
      some bhttpResponse := by
  decide

/-- Nothing stands in the way of the vector's call. -/
theorem unhindered {app : AppState crates} (h : Booted sidecarConfig dstack app) :
    ∃ uri, Unhindered crates app ⟨post "/confidential" encapsulatedRequest, callEnv⟩
      (Client.innerRequest (ascii "POST") (ascii "/") jsonFields rpcRequest) uri
      (answerWith [(.contentType, ascii "application/json")] rpcResponse) := by
  obtain ⟨uri, hg⟩ := guards "/confidential"
  obtain ⟨pathAndQuery, hpq, huri⟩ := hg.target
  have hconfig : app.confidential = ⟨8 * 1024 * 1024, 128 * 1024 * 1024, 1000, 25000⟩ :=
    h.confidential
  have hint : (answerWith [(.contentType, ascii "application/json")] rpcResponse).body.HintRule :=
    ⟨Nat.zero_le _, by decide⟩
  refine ⟨uri, ?_⟩
  constructor
  · rw [hconfig]
    exact within_bodyOf (by decide +kernel)
  · exact hg.drawn
  · exact hg.clock
  · exact Option.isSome_iff_exists.mp (by decide)
  · rw [hconfig]
    exact (by decide : batchSize crates rpcRequest ≤ 1000)
  · rw [booted_upstream h]
    exact ⟨pathAndQuery, hpq, huri⟩
  · rfl
  · rw [hconfig]
    exact relayable (by decide)
  · exact hint
  · rw [hconfig, elapsed_readUpstream_relayable bhttp_statuses rfl
      (relayable (by decide)) hint]
    exact Nat.le_of_ble_eq_true rfl
  · refine ⟨⟨by decide, by decide, by decide⟩, fun encoded hencoded => ?_⟩
    cases Option.some.inj (encodes.symm.trans hencoded)
    decide
  · intro encoded hencoded
    cases Option.some.inj (encodes.symm.trans hencoded)
    decide

end KnownAnswers

namespace KnownAnswers

end KnownAnswers

end VrpcSidecar
