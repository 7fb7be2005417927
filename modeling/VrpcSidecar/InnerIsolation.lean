import VrpcSidecar.InnerLanguage
import VrpcSidecar.UpstreamGuard

/-! # What the upstream sees of a confidential call

A confidential client controls every byte of the plaintext and of the outer request,
and the sidecar hands the node a request built from five parts of the inner one.
`Contacted` is the relation between a plaintext and the request sent for it in some
run, whatever the keys, the outer request and the environment; it is a function of what
the plaintext agrees on (`Agree`), and every request in it has the fields, the target
and the bytes the sidecar allows (`inner_isolation`).
-/
namespace VrpcSidecar
open BinaryHttp

/-- **Some run sent `upReq` for the plaintext `p`**: with some keys, some environment
and some outer request. -/
def Contacted (lib : Crates) (up : UpstreamClient) (cfg : ConfidentialConfig) (p : Bytes)
    (upReq : OutRequest) : Prop :=
  ∃ (signer : SigningState lib) (env : Env) (req : Request) (log : List Event)
    (ctx : ResponseContext), Observed lib up signer cfg env req log ∧
    signer.openRequest req.body.content = .ok (p, ctx) ∧ upReq ∈ sends log

/-- Two inner requests agree on the parts that may reach the node. -/
structure Agree (m m' : InnerMessage) : Prop where
  method : m.method = m'.method
  path : m.path = m'.path
  contentType : (contentTypes m.header).head? = (contentTypes m'.header).head?
  accept : accepts m.header = accepts m'.header
  content : m.content = m'.content

theorem Agree.projection {m m' : InnerMessage} (h : Agree m m') : m.projection = m'.projection := by
  rw [InnerMessage.projection, InnerMessage.projection, h.method, h.path, h.contentType, h.accept,
    h.content]

/-- The header fields of the request sent for an inner request. -/
def allowedFieldList (m : InnerMessage) : List (HeaderName × HeaderValue) :=
  (contentTypes m.header).head?.toList.map (fun v => (.contentType, v)) ++
    (accepts m.header).map (fun v => (.accept, v)) ++ [(.acceptEncoding, ascii "identity")]

section Isolation
variable {lib : Crates} {up : UpstreamClient} {cfg : ConfidentialConfig}

/-- **What is sent for a plaintext** is built from the projection of the request it
encodes. -/
theorem Contacted.request (hm : lib.http.MethodRule) (hv : lib.http.ValueRule)
    (hr : lib.bhttp.ReadRule) {p : Bytes} {upReq : OutRequest} (h : Contacted lib up cfg p upReq) :
    ∃ m, IsInnerRequest p m ∧ Acceptable m ∧
      innerUpstreamRequest lib up m.projection = some upReq := by
  obtain ⟨signer, env, req, log, ctx, hlog, hopen, hmem⟩ := h
  obtain ⟨plaintext, ctx', nonce, inner, hreached, hdecode, -, hreq⟩ :=
    mem_sends_exchange.mp (hlog.sends_prefix.subset hmem)
  cases Except.ok.inj (hreached.opened.symm.trans hopen)
  obtain ⟨m, hp, ha, -, rfl⟩ := decodeInner_ok hm hv hr hdecode
  exact ⟨m, hp, ha, hreq⟩

theorem not_holds_of_names {ps : List (HeaderName × HeaderValue)} {name : HeaderName}
    (h : ∀ q ∈ ps, q.1 ≠ name) : ¬ (MultiMap.empty.appendAll ps).Holds name := by
  rw [MultiMap.holds_iff_getAll, not_not, MultiMap.getAll_appendAll, MultiMap.getAll_empty,
    List.nil_append, List.map_eq_nil_iff, List.filter_eq_nil_iff]
  intro q hq
  simpa using h q hq

/-- The fields of the request are listed in the order they were added: the names are
distinct, and each is added in one go. -/
theorem toList_innerRequestFields (inner : InnerRequest) :
    (MultiMap.empty.appendAll (innerRequestFields inner ++
      [(.acceptEncoding, ascii "identity")])).toList =
      innerRequestFields inner ++ [(.acceptEncoding, ascii "identity")] := by
  have hnames : HeaderName.contentType ≠ .accept ∧ HeaderName.contentType ≠ .acceptEncoding ∧
      HeaderName.accept ≠ .acceptEncoding := by decide
  obtain ⟨h₁, h₂, h₃⟩ := hnames
  have hct : (MultiMap.empty.appendAll (inner.contentType.toList.map
      (fun v => (HeaderName.contentType, v)))).toList =
      inner.contentType.toList.map (fun v => (HeaderName.contentType, v)) := by
    cases inner.contentType with
    | none => rfl
    | some v => rfl
  have haccept : ¬ (MultiMap.empty.appendAll (inner.contentType.toList.map
      (fun v => (HeaderName.contentType, v)))).Holds .accept := by
    refine not_holds_of_names (fun q hq => ?_)
    obtain ⟨v, -, rfl⟩ := List.mem_map.mp hq
    exact h₁
  have hencoding : ¬ (MultiMap.empty.appendAll (innerRequestFields inner)).Holds
      .acceptEncoding := by
    refine not_holds_of_names (fun q hq => ?_)
    rcases List.mem_append.mp hq with hq | hq
    · obtain ⟨v, -, rfl⟩ := List.mem_map.mp hq
      exact h₂
    · obtain ⟨v, -, rfl⟩ := List.mem_map.mp hq
      exact h₃
  -- Each of the three names is new when its first value is appended.
  rw [MultiMap.appendAll_append, MultiMap.appendAll_cons, MultiMap.appendAll_nil,
    (MultiMap.toList_append_fresh _ hencoding).1, innerRequestFields, MultiMap.appendAll_append,
    MultiMap.toList_appendAll_fresh _ haccept, hct]

theorem isTchar_ge : ∀ b : UInt8, isTchar b = true → 0x21 ≤ b := by decide +kernel

/-- A header value has no line break and no NUL. -/
theorem IsHeaderValue.clean {v : Bytes} (h : IsHeaderValue v) :
    0x00 ∉ v ∧ 0x0a ∉ v ∧ 0x0d ∉ v := by
  refine ⟨fun hb => ?_, fun hb => ?_, fun hb => ?_⟩
  · exact absurd (h _ hb) (by decide)
  · exact absurd (h _ hb) (by decide)
  · exact absurd (h _ hb) (by decide)

/-- The target of a request to the node: the configured origin, and a path with no byte
below `0x21`. -/
theorem originUri_target (hpath : lib.http.PathRule) (hparts : lib.http.PartsRule)
    {path : Bytes} {pathAndQuery : PathAndQuery} {uri : Uri}
    (hpq : up.originPathAndQuery lib path = some pathAndQuery)
    (huri : up.originUri lib pathAndQuery = some uri) :
    uri.scheme = up.upstreamUrl.scheme ∧ uri.authority = up.upstreamUrl.authority ∧
      ∀ b ∈ uri.target.asStr, 0x21 ≤ b := by
  obtain rfl := hparts _ _ _ _ huri
  refine ⟨rfl, rfl, ?_⟩
  unfold UpstreamClient.originPathAndQuery at hpq
  split at hpq
  · cases hpq
  · have hbytes := (hpath _ _ hpq).2
    intro b hb
    rw [PathAndQuery.asStr] at hb
    split at hb
    · have hslash : ∀ b ∈ ascii "/", (0x21 : UInt8) ≤ b := by decide +kernel
      exact hslash b hb
    · exact hbytes b hb

/-- The values of the allowed fields are well-formed. -/
theorem Acceptable.values {m : InnerMessage} (h : Acceptable m) :
    ∀ f ∈ allowedFieldList m, IsHeaderValue f.2 := by
  intro f hf
  simp only [allowedFieldList, List.mem_append, List.mem_map, Option.mem_toList,
    List.mem_singleton] at hf
  rcases hf with (⟨v, hv, rfl⟩ | ⟨v, hv, rfl⟩) | rfl
  · exact h.fields.contentType v (List.mem_of_mem_head? hv)
  · exact h.fields.accept v hv
  · exact isHeaderValue_of_visible visible_identity

end Isolation

/-- **Nothing but the allowed inner parts reaches the upstream.**  Two plaintexts whose
requests agree on the method, the path, the content type, the accept values and the
content lead to the same request, in whatever runs they were sent: the outer requests,
the keys, the environments, and every other part of the plaintexts are free.  Every
request that was sent lists the content type, the accept values in order and one
`Accept-Encoding: identity`, goes to the configured origin, has a token as its method,
and has no byte below `0x21` in its method or target and no line break or NUL in its
header values. -/
theorem inner_isolation (lib : Crates) (hm : lib.http.MethodRule) (hv : lib.http.ValueRule)
    (hpath : lib.http.PathRule) (hparts : lib.http.PartsRule) (hr : lib.bhttp.ReadRule)
    (up : UpstreamClient) (cfg : ConfidentialConfig) :
    (∀ p p' m m' upReq upReq', Contacted lib up cfg p upReq → Contacted lib up cfg p' upReq' →
      IsInnerRequest p m → IsInnerRequest p' m' → Agree m m' → upReq = upReq') ∧
    ∀ p upReq, Contacted lib up cfg p upReq → ∃ m, IsInnerRequest p m ∧
      upReq.headers.toList = allowedFieldList m ∧
      upReq.uri.scheme = up.upstreamUrl.scheme ∧
      upReq.uri.authority = up.upstreamUrl.authority ∧
      IsToken upReq.method ∧ (∀ b ∈ upReq.method, 0x21 ≤ b) ∧
      (∀ b ∈ upReq.uri.target.asStr, 0x21 ≤ b) ∧
      ∀ f ∈ upReq.headers.toList, IsHeaderValue f.2 ∧ 0x00 ∉ f.2 ∧ 0x0a ∉ f.2 ∧ 0x0d ∉ f.2 := by
  constructor
  · intro p p' m m' upReq upReq' h h' hp hp' hagree
    obtain ⟨m₁, hp₁, -, hreq⟩ := h.request hm hv hr
    obtain ⟨m₂, hp₂, -, hreq'⟩ := h'.request hm hv hr
    -- A plaintext encodes one request, so the two requests have one projection.
    rw [hp₁.unique hp, hagree.projection] at hreq
    rw [hp₂.unique hp', hreq] at hreq'
    exact Option.some.inj hreq'
  · intro p upReq h
    obtain ⟨m, hp, ha, hreq⟩ := h.request hm hv hr
    obtain ⟨pathAndQuery, uri, hpq, huri, rfl⟩ := (innerUpstreamRequest_eq_some hv).mp hreq
    have hlist : (guardedRequest m.projection uri).headers.toList = allowedFieldList m :=
      toList_innerRequestFields m.projection
    obtain ⟨hscheme, hauthority, htarget⟩ := originUri_target hpath hparts hpq huri
    refine ⟨m, hp, hlist, hscheme, hauthority, ha.token,
      fun b hb => isTchar_ge b (ha.token.2 b hb), htarget, fun f hf => ?_⟩
    have hvalue := ha.values f (hlist ▸ hf)
    exact ⟨hvalue, hvalue.clean⟩

namespace KnownAnswers

/-- The plaintext of the vector reaches the node, at whatever path it was posted. -/
theorem contacted (path : String) : ∃ upReq,
    sends (confidentialExchange crates upstream signer config env
      (post path encapsulatedRequest)).log = [upReq] ∧
    Contacted crates upstream config bhttpRequest upReq := by
  obtain ⟨ctx, hr, -⟩ := opensAndSeals path
  obtain ⟨uri, hg⟩ := guards path
  obtain ⟨resp, out, hres, -⟩ := exchange_ends crates upstream signer config env
    (post path encapsulatedRequest)
  have hsends := hg.sends_exchange http_values
  rw [← (confidentialExchange_returns hres).2] at hsends
  refine ⟨_, hsends, signer, env, _, _, ctx, .returned, hr.opened, ?_⟩
  rw [hsends]
  exact List.mem_singleton_self _

end KnownAnswers

open KnownAnswers in
/-- The request of the vector, posted to two paths: the node is sent the same request,
at the configured origin. -/
theorem inner_isolation_vector :
    ∃ upReq,
      sends (confidentialExchange crates upstream signer config env
        (post "/confidential" encapsulatedRequest)).log = [upReq] ∧
      sends (confidentialExchange crates upstream signer config env
        (post "/other" encapsulatedRequest)).log = [upReq] ∧
      upReq.uri.authority = some (ascii "127.0.0.1:8545") := by
  obtain ⟨hsame, hform⟩ := inner_isolation crates http_methods http_values http_paths http_parts
    bhttp_reads upstream config
  obtain ⟨upReq, hsends, hc⟩ := contacted "/confidential"
  obtain ⟨upReq', hsends', hc'⟩ := contacted "/other"
  obtain ⟨m, hp, -, -, hauthority, -⟩ := hform _ _ hc
  have hagree : Agree m m := ⟨rfl, rfl, rfl, rfl, rfl⟩
  refine ⟨upReq, hsends, ?_, hauthority⟩
  rw [hsame _ _ m m _ _ hc hc' hp hp hagree]
  exact hsends'

end VrpcSidecar
