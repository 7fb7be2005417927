import VrpcSidecar.EndToEnd
import VrpcSidecar.InnerIsolation
import VrpcSidecar.UpstreamTargets

/-! # What the node gets

Everything a process ever sends to the node, with all its calls interleaved: which calls
send at all, where a request goes, what its header section may hold, and which limits of
the configuration it has passed.  A client chooses the path, and on the passthrough route
most of the fields; the origin and the base path are the operator's
(`node_traffic_confined`).
-/
namespace VrpcSidecar

section Targets
variable {lib : Crates} {up : UpstreamClient} {u rest : Bytes}

/-- The target of a request is below the configured base path. -/
theorem Accepted.basePath_target (h : Accepted lib u up rest) (hpath : lib.http.PathRule)
    (hparts : lib.http.PartsRule) {p : Bytes} {pathAndQuery : PathAndQuery} {uri : Uri}
    (hpq : up.originPathAndQuery lib p = some pathAndQuery)
    (huri : up.originUri lib pathAndQuery = some uri) : up.basePath <+: uri.target.asStr := by
  obtain rfl := hparts _ _ _ _ huri
  unfold UpstreamClient.originPathAndQuery at hpq
  split at hpq
  · cases hpq
  have hdata := (hpath _ _ hpq).1
  have hclean : ∀ b ∈ up.basePath, decide (b ≠ 0x23) = true := by
    intro b hb
    apply decide_eq_true
    rintro rfl
    exact h.basePath_clean.2 hb
  rw [List.takeWhile_append_of_pos hclean] at hdata
  have hpre : up.basePath <+: pathAndQuery.data := ⟨_, hdata.symm⟩
  show up.basePath <+: pathAndQuery.asStr
  unfold PathAndQuery.asStr
  by_cases hempty : pathAndQuery.data = []
  · -- nothing is joined to an empty base
    rw [if_pos hempty]
    rw [hempty] at hpre
    rw [List.prefix_nil.mp hpre]
    exact List.nil_prefix
  · rwa [if_neg hempty]

end Targets

/-- No field of a guarded request is about the connection, and it asks for no coding. -/
theorem getAll_guardedRequest (inner : InnerRequest) (uri : Uri) :
    (∀ n, isHopByHop n = true → ¬ (guardedRequest inner uri).headers.Holds n) ∧
      (guardedRequest inner uri).headers.getAll .acceptEncoding = [ascii "identity"] := by
  have hnames : ∀ f ∈ innerRequestFields inner, f.1 = .contentType ∨ f.1 = .accept := by
    intro f hf
    rcases List.mem_append.mp hf with hf | hf
    · obtain ⟨v, -, rfl⟩ := List.mem_map.mp hf
      exact .inl rfl
    · obtain ⟨v, -, rfl⟩ := List.mem_map.mp hf
      exact .inr rfl
  constructor
  · intro n hn
    apply not_holds_of_names
    intro f hf hname
    rw [← hname] at hn
    rcases List.mem_append.mp hf with hf | hf
    · rcases hnames f hf with heq | heq
      · rw [heq] at hn
        exact absurd hn (by decide)
      · rw [heq] at hn
        exact absurd hn (by decide)
    · rw [List.mem_singleton.mp hf] at hn
      exact absurd hn (by decide)
  · have hnone : (innerRequestFields inner).filter (fun p => p.1 = HeaderName.acceptEncoding) = [] := by
      rw [List.filter_eq_nil_iff]
      intro f hf
      rcases hnames f hf with heq | heq
      · rw [heq]
        decide
      · rw [heq]
        decide
    show (MultiMap.empty.appendAll (innerRequestFields inner ++
      [(.acceptEncoding, ascii "identity")])).getAll .acceptEncoding = _
    rw [MultiMap.getAll_appendAll, MultiMap.getAll_empty, List.nil_append, List.filter_append, hnone]
    rfl

/-! ## The requests of a call -/

/-- **A request that a call may send to the node.** -/
structure NodeRequest {lib : Crates} (config : Config) (app : AppState lib) (call : Call)
    (upReq : OutRequest) : Prop where
  /-- The routes answered locally send none. -/
  remote : ¬ IsLocal call.req
  /-- It goes to the configured origin, below the configured base path. -/
  scheme : upReq.uri.scheme = app.upstream.upstreamUrl.scheme
  authority : upReq.uri.authority = app.upstream.upstreamUrl.authority
  below : app.upstream.basePath <+: upReq.uri.target.asStr
  /-- The target has no byte below `0x21`: neither a blank nor a line break. -/
  clean : ∀ b ∈ upReq.uri.target.asStr, 0x21 ≤ b
  /-- No field is about the client's connection, and no coding is asked for. -/
  hopByHop : ∀ n, isHopByHop n = true → ¬ upReq.headers.Holds n
  acceptEncoding : upReq.headers.getAll .acceptEncoding = [ascii "identity"]
  /-- Under confidentiality it is the inner request of a message within the limits. -/
  sealed : IsConfidential call.req → ∃ inner uri, upReq = guardedRequest inner uri ∧
    Guards lib app.upstream app.signing app.confidential call.ce.env call.req inner uri ∧
    call.req.body.Within config.confidentialMaxBodyBytes ∧
    batchSize lib upReq.body ≤ config.confidentialMaxBatchSize ∧ batchSize lib upReq.body ≤ 1000
  /-- Elsewhere it is the request of the client, passed on. -/
  forwarded : call.req.uri.path ≠ ascii "/confidential" → ForwardedRequest call.req upReq ∧
    upReq.body.length ≤ config.maxBodyBytes.getD usizeMax

section Requests
variable {lib : Crates} {config : Config} {dstack : DstackClient} {app : AppState lib}
  {call : Call} {upReq : OutRequest}

theorem UpstreamClient.maxBodyBytes_of_new {u : Bytes} {cap : Option Nat} {up : UpstreamClient}
    (h : UpstreamClient.new lib u cap = some up) : up.maxBodyBytes = cap := by
  obtain ⟨uri, -, rfl⟩ := Option.map_eq_some_iff.mp h
  rfl

/-- What a confidential call sends. -/
theorem nodeRequest_of_exchange (hv : lib.http.ValueRule) (huri : lib.http.UriRule)
    (hpath : lib.http.PathRule) (hparts : lib.http.PartsRule) (hbooted : Booted config dstack app)
    (hconf : IsConfidential call.req)
    (h : upReq ∈ sends (exchange lib app.upstream app.signing app.confidential call.ce.env
      call.req).log) : NodeRequest config app call upReq := by
  obtain ⟨inner, uri, hg, rfl⟩ := (sends_exchange hv).mp h
  obtain ⟨rest, hacc⟩ := accepted_of_new huri hbooted.upstream
  obtain ⟨pathAndQuery, hpq, huri'⟩ := hg.target
  obtain ⟨hscheme, hauthority, hclean⟩ := originUri_target hpath hparts hpq huri'
  obtain ⟨hhop, hae⟩ := getAll_guardedRequest inner uri
  have hreceived := hg.received
  have hbatch := hg.batch
  rw [hbooted.confidential] at hreceived hbatch
  refine ⟨?_, hscheme, hauthority, hacc.basePath_target hpath hparts hpq huri', hclean, hhop, hae,
    fun _ => ⟨inner, uri, rfl, hg, hreceived, hbatch, hbatch.trans config.batchSize_mem.2⟩,
    fun hother => absurd hconf.1 hother⟩
  rintro (hatt | hinfo | ⟨-, hne⟩)
  · exact absurd (hconf.1.symm.trans hatt) (by decide)
  · exact absurd (hconf.1.symm.trans hinfo) (by decide)
  · exact hne hconf.2

/-- What a proxied call sends. -/
theorem nodeRequest_of_pipeline (hv : lib.http.ValueRule) (huri : lib.http.UriRule)
    (hpath : lib.http.PathRule) (hparts : lib.http.PartsRule) (hbooted : Booted config dstack app)
    (hother : call.req.uri.path ≠ ascii "/confidential") (hlocal : ¬ IsLocal call.req)
    (h : upReq ∈ sends (runPipeline lib app.upstream app.signing call.ce.env call.req
      (app.upstream.maxBodyBytes.getD usizeMax)).log) : NodeRequest config app call upReq := by
  have hforwarded := forwardedRequest_of_mem_sends hv h
  obtain ⟨hwithin, uri, htarget, hbuild⟩ := mem_sends_runPipeline.mp h
  obtain ⟨rest, hacc⟩ := accepted_of_new huri hbooted.upstream
  obtain ⟨pathAndQuery, hpq, huri'⟩ := Option.bind_eq_some_iff.mp htarget
  obtain ⟨hscheme, hauthority, hclean⟩ := originUri_target hpath hparts hpq huri'
  have hbelow := hacc.basePath_target hpath hparts hpq huri'
  rw [buildUpstreamRequest_eq hv] at hbuild
  obtain rfl := (Option.some.inj hbuild).symm
  rw [UpstreamClient.maxBodyBytes_of_new hbooted.upstream] at hwithin
  exact ⟨hlocal, hscheme, hauthority, hbelow, hclean, hforwarded.hopByHop,
    hforwarded.acceptEncoding, fun hconf => absurd hconf.1 hother,
    fun _ => ⟨hforwarded, hwithin.1⟩⟩

end Requests

/-! ## Every run -/

/-- **The node gets nothing else.**  In every state of every run of a process, a request
that has gone out was sent for a call that is not answered locally.  It goes to the origin
of the configured URL and below its base path, without a hop-by-hop field and without
asking for a coding.  For a confidential call it is the inner request, of a message and a
batch within the configured limits, and for any other call the request of the client,
within the limit on bodies. -/
theorem node_traffic_confined {I : Type} [DecidableEq I] (lib : Crates) (web : WebCrates)
    (hv : lib.http.ValueRule) (huri : lib.http.UriRule) (hpath : lib.http.PathRule)
    (hparts : lib.http.PartsRule) (config : Config) (benv : BootEnv) (calls : I → Call)
    (s : Service (AppState lib) I ServiceEvent Response)
    (h : ProcessReaches lib web config benv calls s) (app : AppState lib)
    (happ : bootOutcome lib config benv = .ok app) :
    (∃ rest, UrlForm (utf8 config.upstreamUrl) app.upstream.upstreamUrl.scheme
        app.upstream.upstreamUrl.authority rest ∧
      app.upstream.basePath = (beforeQuery (withoutFragment rest)).rdropWhile (fun b => b = 0x2f)) ∧
    ∀ i upReq, (i, ServiceEvent.call (.send upReq)) ∈ s.pool.log →
      NodeRequest config app (calls i) upReq := by
  have hbooted := booted_of_bootOutcome happ
  constructor
  · obtain ⟨rest, hacc⟩ := accepted_of_new huri hbooted.upstream
    exact ⟨rest, hacc.form, hacc.basePath⟩
  · intro i upReq hmem
    obtain ⟨o, all, hleaves, hpre⟩ := accounted_prefix (Pool.accounted (h.pool happ) i)
    have hsent := hpre.subset (Pool.mem_eventsOf.mpr hmem)
    obtain ⟨hconf, hsent⟩ | ⟨hother, hlocal, hsent⟩ := (serve_leaves hleaves).sends_cases hsent
    · exact nodeRequest_of_exchange hv huri hpath hparts hbooted hconf hsent
    · exact nodeRequest_of_pipeline hv huri hpath hparts hbooted hother hlocal hsent

open KnownAnswers in
/-- Of the vector's request the node gets the inner one, at the configured address. -/
theorem node_traffic_confined_vector :
    ∃ s upReq,
      ProcessReaches crates web sidecarConfig ⟨dstack, true⟩
        (fun _ : Unit => ⟨post "/confidential" encapsulatedRequest, callEnv⟩) s ∧
      ((), ServiceEvent.call (.send upReq)) ∈ s.pool.log ∧
      upReq.uri.authority = some (ascii "127.0.0.1:8545") ∧
      upReq.headers.getAll .acceptEncoding = [ascii "identity"] := by
  obtain ⟨app, s, resp, happ, hbooted, hs, -, hphase⟩ :=
    drained ⟨post "/confidential" encapsulatedRequest, callEnv⟩
  obtain ⟨c, hposted⟩ := posted app.signing
  obtain ⟨uri, hfree⟩ := unhindered hbooted
  rw [← content_post "/confidential" encapsulatedRequest] at hposted
  obtain ⟨hg, -⟩ := hfree.answers http_methods http_values bhttp_reads bhttp_statuses bhttp_writes
    suite_rules client_rules hposted admitted
    (.inr (by decide))
  obtain ⟨-, hlog⟩ := hs.exchanged happ (post_confidential _) hphase
  have hsent := hlog _ ((sends_exchange http_values).mpr ⟨_, _, hg, rfl⟩)
  obtain ⟨-, hconfined⟩ := node_traffic_confined crates web http_values http_uris http_paths
    http_parts sidecarConfig ⟨dstack, true⟩ _ s hs app happ
  have hnode := hconfined () _ hsent
  refine ⟨s, _, hs, hsent, ?_, hnode.acceptEncoding⟩
  rw [hnode.authority, booted_upstream hbooted]
  rfl

end VrpcSidecar
