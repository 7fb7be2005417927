import VrpcSidecar.HeaderForwarding
import VrpcSidecar.UpstreamGuard

/-! # The URIs requests are sent to

The target of a request to the node is the configured base path without its trailing
slashes, followed by the path and query of the request; `http` keeps the offset of the
query in a `u16` without checking, so the sidecar checks the length of the sum
(`upstream_target_exact`).  Scheme and authority come from the configured URL.  A URL is
accepted when it parses, and `http` parses three forms that cannot serve a request
besides the absolute one (`upstream_url_serves_iff`).
-/
namespace VrpcSidecar

/-! ## Paths and offsets -/

section Targets
variable {data base p : Bytes}

theorem idxOf_lt_u16 (hlen : data.length ≤ maxPathAndQuery) (h : 0x3f ∈ data) :
    (UInt16.ofNat (data.idxOf 0x3f)).toNat = data.idxOf 0x3f ∧
      UInt16.ofNat (data.idxOf 0x3f) ≠ PathAndQuery.noQuery := by
  have hlt := List.idxOf_lt_length_of_mem h
  have hnat : (UInt16.ofNat (data.idxOf 0x3f)).toNat = data.idxOf 0x3f := by
    apply UInt16.toNat_ofNat_of_lt'
    simp only [maxPathAndQuery] at hlen
    simp only [UInt16.size]
    omega
  refine ⟨hnat, ?_⟩
  intro he
  have hbad : (PathAndQuery.noQuery).toNat = data.idxOf 0x3f := he ▸ hnat
  have hmax : PathAndQuery.noQuery.toNat = 65535 := rfl
  simp only [maxPathAndQuery] at hlen
  omega

/-- What stands before the first `?` is what precedes its index. -/
theorem take_idxOf_query (data : Bytes) : data.take (data.idxOf 0x3f) = beforeQuery data := by
  induction data with
  | nil => rfl
  | cons b data ih =>
    by_cases hb : b = 0x3f
    · subst hb
      rfl
    · rw [List.idxOf_cons_ne _ hb, List.take_succ_cons, ih, beforeQuery, beforeQuery,
        List.takeWhile_cons_of_pos (by simpa using hb)]

/-- **Up to 65534 bytes the offset is exact**, so the path is what stands before the
first `?`. -/
theorem path_ofBytes (hlen : data.length ≤ maxPathAndQuery) :
    (PathAndQuery.ofBytes data).path =
      if beforeQuery data = [] then ascii "/" else beforeQuery data := by
  have hret : (if (PathAndQuery.ofBytes data).query = PathAndQuery.noQuery then data
      else data.take (PathAndQuery.ofBytes data).query.toNat) = beforeQuery data := by
    by_cases h : 0x3f ∈ data
    · obtain ⟨hnat, hne⟩ := idxOf_lt_u16 hlen h
      have hquery : (PathAndQuery.ofBytes data).query = UInt16.ofNat (data.idxOf 0x3f) := if_pos h
      rw [hquery, if_neg hne, hnat, take_idxOf_query]
    · have hquery : (PathAndQuery.ofBytes data).query = PathAndQuery.noQuery := if_neg h
      rw [if_pos hquery, beforeQuery, List.takeWhile_eq_self_iff.mpr]
      intro b hb
      simp only [ne_eq, decide_not, Bool.not_eq_true', decide_eq_false_iff_not]
      rintro rfl
      exact h hb
  exact congrArg (fun ret => if ret = [] then ascii "/" else ret) hret

/-- A byte that is not in the base is first found after it. -/
theorem beforeQuery_append (h : 0x3f ∉ base) : beforeQuery (base ++ p) = base ++ beforeQuery p := by
  rw [beforeQuery, List.takeWhile_append_of_pos]
  · rfl
  · intro b hb
    simp only [ne_eq, decide_not, Bool.not_eq_true', decide_eq_false_iff_not]
    rintro rfl
    exact h hb

theorem withoutFragment_eq_self (h : 0x23 ∉ data) : withoutFragment data = data := by
  rw [withoutFragment, List.takeWhile_eq_self_iff]
  intro b hb
  simp only [ne_eq, decide_not, Bool.not_eq_true', decide_eq_false_iff_not]
  rintro rfl
  exact h hb

theorem not_mem_withoutFragment (data : Bytes) : 0x23 ∉ withoutFragment data := by
  intro h
  have := List.mem_takeWhile_imp h
  simp at this

theorem not_mem_beforeQuery (data : Bytes) : 0x3f ∉ beforeQuery data := by
  intro h
  have := List.mem_takeWhile_imp h
  simp at this

end Targets

/-! ## The base path -/

/-- **What an accepted URL is**: at most 65534 bytes in one of the four forms, and what
follows the authority is the target. -/
structure Accepted (lib : Crates) (u : Bytes) (up : UpstreamClient) (rest : Bytes) : Prop where
  length_le : u.length ≤ 65534
  form : UrlForm u up.upstreamUrl.scheme up.upstreamUrl.authority rest
  target : rest.head? = some 0x2f → lib.http.Accepts rest
  target_eq : up.upstreamUrl.target = .ofBytes (withoutFragment rest)

theorem accepted_of_new {lib : Crates} (huri : lib.http.UriRule) {u : Bytes} {cap : Option Nat}
    {up : UpstreamClient} (h : UpstreamClient.new lib u cap = some up) :
    ∃ rest, Accepted lib u up rest := by
  obtain ⟨uri, hparse, rfl⟩ := Option.map_eq_some_iff.mp h
  obtain ⟨hlen, rest, hform, htarget, heq⟩ := huri u uri hparse
  exact ⟨rest, hlen, hform, htarget, heq⟩

section Base
variable {lib : Crates} {u rest : Bytes} {up : UpstreamClient}

theorem UrlForm.length_rest_le {scheme authority : Option Bytes}
    (h : UrlForm u scheme authority rest) : rest.length ≤ u.length := by
  cases h with
  | absolute => simp only [List.length_append]; omega
  | authority => exact Nat.zero_le _
  | origin => exact Nat.le_refl _
  | asterisk => exact Nat.le_refl _

/-- **The base path is what the URL has between its authority and its query or fragment,
without trailing slashes.** -/
theorem Accepted.basePath (h : Accepted lib u up rest) :
    up.basePath = (beforeQuery (withoutFragment rest)).rdropWhile (fun b => b = 0x2f) := by
  have hlen : (withoutFragment rest).length ≤ maxPathAndQuery :=
    (List.takeWhile_sublist _).length_le.trans (h.form.length_rest_le.trans h.length_le)
  rw [UpstreamClient.basePath, Uri.path, h.target_eq, path_ofBytes hlen]
  have hslash : (ascii "/").rdropWhile (fun b => b = 0x2f) = [] := by decide
  by_cases hnone : beforeQuery (withoutFragment rest) = []
  · rw [hnone, if_pos rfl]
    split <;> simp [hslash]
  · have hdata : (PathAndQuery.ofBytes (withoutFragment rest)).data ≠ [] := by
      intro hnil
      have : withoutFragment rest = [] := hnil
      rw [this] at hnone
      exact hnone rfl
    rw [if_neg hnone, if_neg (fun hc => hdata hc.1)]

/-- The base path has neither a query nor a fragment in it. -/
theorem Accepted.basePath_clean (h : Accepted lib u up rest) :
    0x3f ∉ up.basePath ∧ 0x23 ∉ up.basePath := by
  have hpre : up.basePath <+: beforeQuery (withoutFragment rest) :=
    h.basePath ▸ List.rdropWhile_prefix _ _
  refine ⟨fun hb => not_mem_beforeQuery _ (hpre.subset hb), fun hb => ?_⟩
  exact not_mem_withoutFragment rest ((List.takeWhile_prefix _).subset (hpre.subset hb))

/-- The base path is a prefix of what follows the authority. -/
theorem Accepted.basePath_prefix (h : Accepted lib u up rest) :
    up.basePath <+: withoutFragment rest :=
  (h.basePath ▸ List.rdropWhile_prefix _ _ : up.basePath <+: beforeQuery (withoutFragment rest)).trans
    (List.takeWhile_prefix _)

/-- What follows the base path starts with a slash, the query or the fragment. -/
theorem Accepted.head_tail (h : Accepted lib u up rest) {tail : Bytes}
    (htail : up.basePath ++ tail = rest) {c : UInt8} (hc : tail.head? = some c) :
    c = 0x2f ∨ c = 0x3f ∨ c = 0x23 := by
  have hparts : up.basePath ++ ((beforeQuery (withoutFragment rest)).rtakeWhile (fun b => b = 0x2f) ++
      ((withoutFragment rest).dropWhile (fun b => b ≠ 0x3f) ++
        rest.dropWhile (fun b => b ≠ 0x23))) = rest := by
    rw [h.basePath, ← List.append_assoc, List.rdropWhile_append_rtakeWhile, beforeQuery,
      ← List.append_assoc, List.takeWhile_append_dropWhile, withoutFragment,
      List.takeWhile_append_dropWhile]
  rw [List.append_cancel_left (htail.trans hparts.symm), List.head?_append, List.head?_append,
    Option.or_eq_some_iff, Option.or_eq_some_iff] at hc
  rcases hc with hslash | ⟨-, hquery | ⟨-, hfragment⟩⟩
  · have := List.mem_rtakeWhile_imp (List.mem_of_mem_head? hslash)
    exact Or.inl (by simpa using this)
  · have hne := List.head?_dropWhile_not (fun b => b ≠ (0x3f : UInt8)) (withoutFragment rest)
    rw [hquery] at hne
    exact Or.inr (Or.inl (by simpa using hne))
  · have hne := List.head?_dropWhile_not (fun b => b ≠ (0x23 : UInt8)) rest
    rw [hfragment] at hne
    exact Or.inr (Or.inr (by simpa using hne))

/-- What follows the authority starts as a target does, or with a query or fragment. -/
theorem UrlForm.head_rest {scheme authority : Option Bytes} (h : UrlForm u scheme authority rest)
    {b : UInt8} (hb : rest.head? = some b) : b = 0x2f ∨ b = 0x2a ∨ b = 0x3f ∨ b = 0x23 := by
  cases h with
  | absolute _ _ _ _ hrest => rcases hrest b hb with h | h | h <;> simp [h]
  | authority => cases hb
  | origin =>
    cases hb
    exact Or.inl rfl
  | asterisk =>
    obtain rfl : (0x2a : UInt8) = b := Option.some.inj hb
    exact Or.inr (Or.inl rfl)

/-- **The joined text starts as a target does.** -/
theorem Accepted.head_joined (h : Accepted lib u up rest) {p : Bytes} (hp : [0x2f] <+: p) :
    (up.basePath ++ p).head? = some 0x2f ∨ (up.basePath ++ p).head? = some 0x2a := by
  obtain ⟨q, rfl⟩ := hp
  cases hbase : up.basePath with
  | nil => exact Or.inl rfl
  | cons b base =>
    obtain ⟨tail, htail⟩ := h.basePath_prefix.trans (List.takeWhile_prefix _)
    rw [hbase] at htail
    have hhead : rest.head? = some b := by rw [← htail]; rfl
    obtain ⟨hq, hf⟩ := h.basePath_clean
    rw [hbase] at hq hf
    rcases h.form.head_rest hhead with rfl | rfl | rfl | rfl
    · exact Or.inl rfl
    · exact Or.inr rfl
    · exact absurd List.mem_cons_self hq
    · exact absurd List.mem_cons_self hf

end Base

/-! ## The joined target -/

/-- **A target joined from the base path and a path and query**: their bytes one after
the other, split at the first `?` of the second, at an offset that is the true one. -/
structure JoinedTarget (base p : Bytes) (pq : PathAndQuery) : Prop where
  data : pq.data = base ++ p
  path : pq.path = base ++ beforeQuery p
  offset : 0x3f ∈ p → pq.query.toNat = base.length + p.idxOf 0x3f ∧ pq.query ≠ PathAndQuery.noQuery
  noQuery : 0x3f ∉ p → pq.query = PathAndQuery.noQuery

theorem joinedTarget_ofBytes {base p : Bytes} (hbase : 0x3f ∉ base) (hp : [0x2f] <+: p)
    (hlen : base.length + p.length ≤ maxPathAndQuery) :
    JoinedTarget base p (.ofBytes (base ++ p)) := by
  have hle : (base ++ p).length ≤ maxPathAndQuery := by rw [List.length_append]; exact hlen
  refine ⟨rfl, ?_, ?_, ?_⟩
  · obtain ⟨q, rfl⟩ := hp
    rw [path_ofBytes hle, beforeQuery_append hbase, if_neg]
    simp [beforeQuery]
  · intro hq
    have hmem : 0x3f ∈ base ++ p := List.mem_append_right base hq
    obtain ⟨hnat, hne⟩ := idxOf_lt_u16 hle hmem
    have hquery : (PathAndQuery.ofBytes (base ++ p)).query =
        UInt16.ofNat ((base ++ p).idxOf 0x3f) := if_pos hmem
    rw [hquery]
    exact ⟨hnat.trans (List.idxOf_append_of_notMem hbase), hne⟩
  · intro hq
    exact if_neg (fun hmem => (List.mem_append.mp hmem).elim hbase hq)

/-- The path and query a request asks for, as `upstream_uri` reads it. -/
def requestedTarget (uri : Uri) : Bytes := (uri.pathAndQuery.map PathAndQuery.asStr).getD (ascii "/")

/-- What `origin_path_and_query` accepts. -/
theorem originPathAndQuery_eq_some {lib : Crates} {up : UpstreamClient} {p : Bytes}
    {pq : PathAndQuery} : up.originPathAndQuery lib p = some pq ↔
      up.basePath.length + p.length ≤ maxPathAndQuery ∧
        lib.http.pathAndQueryTryFrom (up.basePath ++ p) = some pq := by
  rw [UpstreamClient.originPathAndQuery, Option.ite_none_left_eq_some, Nat.not_lt]

/-- Behind an asterisk no target is accepted. -/
theorem HttpCrate.TargetRule.refuses_joined {http : HttpCrate} (h : http.TargetRule)
    {base p : Bytes} (hp : [0x2f] <+: p) (hhead : (base ++ p).head? = some 0x2a) :
    ¬ http.Accepts (base ++ p) := by
  intro haccepted
  have hstar := h.asterisk _ hhead haccepted
  have hslash : (0x2f : UInt8) ∈ base ++ p :=
    List.mem_append_right _ (hp.subset (List.mem_singleton_self _))
  rw [hstar] at hslash
  exact absurd hslash (by decide)

/-- The URI a path and query is sent to. -/
def UpstreamClient.targetUri (lib : Crates) (up : UpstreamClient) (p : Bytes) : Option Uri :=
  (up.originPathAndQuery lib p).bind (up.originUri lib)

section Legs
variable {lib : Crates} {up : UpstreamClient} {env : Env}

/-- The passthrough route sends to the URI of the path and query it was asked for. -/
theorem sentTo_sendUpstream (hv : lib.http.ValueRule) {req : Request} {bytes : Bytes} :
    (sends (sendUpstream lib up env req bytes).log).map OutRequest.uri =
      (up.targetUri lib (requestedTarget req.uri)).toList := by
  rw [log_sendUpstream, sends_toList, upstreamRequest]
  show _ = (up.upstreamUri lib req.uri).toList
  cases up.upstreamUri lib req.uri with
  | none => rfl
  | some uri =>
    rw [Option.bind_some, buildUpstreamRequest_eq hv]
    rfl

/-- The confidential route sends to the URI of the inner path and query. -/
theorem sentTo_callUpstream (hv : lib.http.ValueRule) {cfg : ConfidentialConfig}
    {inner : InnerRequest} :
    (sends (callUpstream lib up cfg env inner).log).map OutRequest.uri =
      (up.targetUri lib inner.pathAndQuery).toList := by
  rw [log_callUpstream, sends_toList]
  cases htarget : up.targetUri lib inner.pathAndQuery with
  | none =>
    cases hsent : innerUpstreamRequest lib up inner with
    | none => rfl
    | some upReq =>
      obtain ⟨pathAndQuery, uri, hpq, huri, rfl⟩ := (innerUpstreamRequest_eq_some hv).mp hsent
      rw [UpstreamClient.targetUri, hpq, Option.bind_some, huri] at htarget
      cases htarget
  | some uri =>
    obtain ⟨pathAndQuery, hpq, huri⟩ := Option.bind_eq_some_iff.mp htarget
    rw [(innerUpstreamRequest_eq_some hv).mpr ⟨pathAndQuery, uri, hpq, huri, rfl⟩]
    rfl

end Legs

/-- **The target of an upstream request is exact up to the `u16` limit.**  For every
configured URL, the base path is what it has before its query, without trailing slashes.
A path and query is refused exactly when the sum of the two lengths is over 65534 or the
crate does not accept the joined bytes; otherwise the target is the joined bytes, split at
the first `?` of the second part, at its true offset.  Its URI has the configured scheme and
authority, both or neither, and both routes send what asks for a path and query to this URI
and to no other. -/
theorem upstream_target_exact (lib : Crates) (hv : lib.http.ValueRule) (huri : lib.http.UriRule)
    (htarget : lib.http.TargetRule) (hassemble : lib.http.AssembleRule) (u : Bytes)
    (cap : Option Nat) (up : UpstreamClient) (hup : UpstreamClient.new lib u cap = some up)
    (p : Bytes) (hslash : [0x2f] <+: p) (hfragment : 0x23 ∉ p) :
    (∃ rest, UrlForm u up.upstreamUrl.scheme up.upstreamUrl.authority rest ∧
      up.basePath = (beforeQuery (withoutFragment rest)).rdropWhile (fun b => b = 0x2f)) ∧
    (up.originPathAndQuery lib p = none ↔
      up.basePath.length + p.length > 65534 ∨ ¬ lib.http.Accepts (up.basePath ++ p)) ∧
    (∀ pq, up.originPathAndQuery lib p = some pq → JoinedTarget up.basePath p pq) ∧
    (∀ uri, up.targetUri lib p = some uri ↔
      up.upstreamUrl.scheme.isSome = up.upstreamUrl.authority.isSome ∧
        ∃ pq, up.originPathAndQuery lib p = some pq ∧
          uri = ⟨up.upstreamUrl.scheme, up.upstreamUrl.authority, pq⟩) ∧
    (∀ env req bytes, requestedTarget req.uri = p →
      (sends (sendUpstream lib up env req bytes).log).map OutRequest.uri =
        (up.targetUri lib p).toList) ∧
    (∀ cfg env inner, inner.pathAndQuery = p →
      (sends (callUpstream lib up cfg env inner).log).map OutRequest.uri =
        (up.targetUri lib p).toList) := by
  obtain ⟨rest, hacc⟩ := accepted_of_new huri hup
  have hclean := hacc.basePath_clean
  have hjoin : withoutFragment (up.basePath ++ p) = up.basePath ++ p :=
    withoutFragment_eq_self (fun hb => (List.mem_append.mp hb).elim hclean.2 hfragment)
  refine ⟨⟨rest, hacc.form, hacc.basePath⟩, ?_, ?_, ?_, ?_, ?_⟩
  · rw [UpstreamClient.originPathAndQuery]
    by_cases hlen : up.basePath.length + p.length > maxPathAndQuery
    · exact iff_of_true (if_pos hlen) (Or.inl hlen)
    · rw [if_neg hlen, or_iff_right (show ¬ up.basePath.length + p.length > 65534 from hlen),
        HttpCrate.Accepts, Option.isSome_iff_ne_none, not_not]
  · intro pq hpq
    obtain ⟨hlen, hparsed⟩ := originPathAndQuery_eq_some.mp hpq
    rcases hacc.head_joined hslash with hhead | hhead
    · have hle : (up.basePath ++ p).length ≤ 65534 := by
        rw [List.length_append]
        exact hlen
      rw [htarget.keeps _ _ hhead hle hparsed, hjoin]
      exact joinedTarget_ofBytes hclean.1 hslash hlen
    · exact absurd (Option.isSome_of_eq_some hparsed) (htarget.refuses_joined hslash hhead)
  · intro uri
    rw [UpstreamClient.targetUri, Option.bind_eq_some_iff]
    simp only [UpstreamClient.originUri, hassemble _ _ _, Option.ite_none_right_eq_some,
      Option.some.injEq]
    constructor
    · rintro ⟨pq, hpq, hboth, rfl⟩
      exact ⟨hboth, pq, hpq, rfl⟩
    · rintro ⟨hboth, pq, hpq, rfl⟩
      exact ⟨pq, hpq, hboth, rfl⟩
  · rintro env req bytes rfl
    exact sentTo_sendUpstream hv
  · rintro cfg env inner rfl
    exact sentTo_callUpstream hv

open KnownAnswers in
/-- A base with trailing slashes and a query: the query is not used, and the offset is
that of the request's own `?`. -/
theorem upstream_target_exact_vector :
    ∃ up pq, UpstreamClient.new crates (ascii "http://127.0.0.1:9/api/v2//?q=1") none = some up ∧
      up.originPathAndQuery crates (ascii "/x?y=2") = some pq ∧
      pq.data = ascii "/api/v2/x?y=2" ∧ pq.path = ascii "/api/v2/x" ∧ pq.query.toNat = 9 := by
  obtain ⟨up, hup⟩ := Option.isSome_iff_exists.mp (by decide +kernel :
    (UpstreamClient.new crates (ascii "http://127.0.0.1:9/api/v2//?q=1") none).isSome = true)
  have hbase : (UpstreamClient.new crates (ascii "http://127.0.0.1:9/api/v2//?q=1") none).map
      UpstreamClient.basePath = some (ascii "/api/v2") := by decide +kernel
  rw [hup] at hbase
  have hbase : up.basePath = ascii "/api/v2" := Option.some.inj hbase
  obtain ⟨-, hnone, hjoined, -⟩ := upstream_target_exact crates http_values http_uris http_targets
    http_assembles _ none up hup (ascii "/x?y=2") (by decide) (by decide)
  rw [hbase] at hnone hjoined
  cases hpq : up.originPathAndQuery crates (ascii "/x?y=2") with
  | none => exact absurd (hnone.mp hpq) (by decide +kernel)
  | some pq =>
    have hj := hjoined pq hpq
    refine ⟨up, pq, hup, hpq, ?_, ?_, ?_⟩
    · rw [hj.data]
      decide
    · rw [hj.path]
      decide
    · rw [(hj.offset (by decide)).1]
      decide

/-! ## URLs that can serve requests -/

/-- A URL in absolute form, told by its text: it has `://` and does not start with a
slash. -/
def AbsoluteForm (u : Bytes) : Prop := u.head? ≠ some 0x2f ∧ ascii "://" <:+: u

instance (u : Bytes) : Decidable (AbsoluteForm u) := inferInstanceAs (Decidable (_ ∧ _))

/-- **A configured URL that serves requests**: behind its base path every target is accepted
that is one by itself and fits, and every accepted one gets a URI with a scheme and an
authority.  So no passthrough request for such a target is answered 500, and no inner call
fails as internal. -/
structure Serves (lib : Crates) (up : UpstreamClient) : Prop where
  targets : ∀ p, p.head? = some 0x2f → lib.http.Accepts p →
    up.basePath.length + p.length ≤ 65534 → up.originPathAndQuery lib p ≠ none
  uris : ∀ p pq, up.originPathAndQuery lib p = some pq → ∃ uri, up.originUri lib pq = some uri ∧
    uri.scheme.isSome = true ∧ uri.authority.isSome = true
  passthrough : ∀ env req bytes, (requestedTarget req.uri).head? = some 0x2f →
    lib.http.Accepts (requestedTarget req.uri) →
    up.basePath.length + (requestedTarget req.uri).length ≤ 65534 →
    (sendUpstream lib up env req bytes).result ≠
      some (.error StatusCode.internalServerError.intoResponse)
  confidential : ∀ cfg env inner,
    (callUpstream lib up cfg env inner).result ≠ some (.error .internal)

/-- **The absolute form is the one with a scheme**, and it has an authority. -/
theorem UrlForm.absolute_iff {u rest : Bytes} {scheme authority : Option Bytes}
    (h : UrlForm u scheme authority rest) :
    (AbsoluteForm u ↔ scheme.isSome = true) ∧
      (scheme.isSome = true → authority.isSome = true) := by
  have hslash : (0x2f : UInt8) ∈ ascii "://" := by decide
  cases h with
  | @absolute text _ authority rest _ hscheme _ _ _ =>
    refine ⟨iff_of_true ⟨?_, text, authority ++ rest, by simp⟩ rfl, fun _ => rfl⟩
    cases text with
    | nil =>
      show some (0x3a : UInt8) ≠ some 0x2f
      decide
    | cons b text =>
      rintro hb
      obtain rfl : b = 0x2f := Option.some.inj hb
      exact hscheme.2 List.mem_cons_self
  | authority _ hauthority =>
    refine ⟨iff_of_false ?_ Bool.false_ne_true, fun _ => rfl⟩
    rintro ⟨-, hwindow⟩
    exact hauthority.1 (hwindow.subset hslash)
  | origin => exact ⟨iff_of_false (fun h => h.1 rfl) Bool.false_ne_true, fun h => nomatch h⟩
  | asterisk => exact ⟨by decide, fun h => nomatch h⟩

section Serving
variable {lib : Crates} {u rest : Bytes} {up : UpstreamClient}

/-- **The base path of a URL with a scheme can be followed by any target.** -/
theorem Accepted.continues (hchars : lib.http.CharacterRule) (h : Accepted lib u up rest)
    (hscheme : up.upstreamUrl.scheme.isSome = true) {p : Bytes} (hp : p.head? = some 0x2f)
    (haccepted : lib.http.Accepts p) (hlen : up.basePath.length + p.length ≤ 65534) :
    lib.http.Accepts (up.basePath ++ p) := by
  cases hbase : up.basePath with
  | nil => exact haccepted
  | cons b base =>
    obtain ⟨hq, hf⟩ := h.basePath_clean
    obtain ⟨tail, htail⟩ := h.basePath_prefix.trans (List.takeWhile_prefix _)
    have hhead : rest.head? = some b := by rw [← htail, hbase]; rfl
    obtain rfl : b = 0x2f := by
      have hform := h.form
      generalize up.upstreamUrl.scheme = scheme at hform hscheme
      generalize up.upstreamUrl.authority = authority at hform
      rw [hbase] at hq hf
      cases hform with
      | absolute _ _ _ _ hrest =>
        rcases hrest b hhead with rfl | rfl | rfl
        · rfl
        · exact absurd List.mem_cons_self hq
        · exact absurd List.mem_cons_self hf
      | authority => cases hscheme
      | origin => cases hscheme
      | asterisk => cases hscheme
    rw [← hbase]
    refine hchars.continues up.basePath tail p (by rw [hbase]; rfl) hq hf ?_ ?_ hp haccepted ?_
    · exact fun c hc => h.head_tail htail hc
    · rw [htail]
      exact h.target hhead
    · rw [List.length_append]
      exact hlen

/-- Without a scheme, unless the URL is `*`, there is a path and query that is accepted: the
one that completes the base to the configured target, or `/` when there is none. -/
theorem Accepted.probe (hchars : lib.http.CharacterRule) (h : Accepted lib u up rest)
    (hscheme : up.upstreamUrl.scheme.isSome = false) (hstar : rest ≠ ascii "*") :
    ∃ p pq, up.originPathAndQuery lib p = some pq := by
  obtain ⟨tail, htail⟩ := h.basePath_prefix.trans (List.takeWhile_prefix _)
  have hlen : rest.length ≤ maxPathAndQuery := h.form.length_rest_le.trans h.length_le
  have hsum := congrArg List.length htail
  rw [List.length_append] at hsum
  cases hform : rest with
  | nil =>
    have hbase : up.basePath = [] := by rw [h.basePath, hform]; rfl
    obtain ⟨pq, hpq⟩ := Option.isSome_iff_exists.mp hchars.root
    refine ⟨ascii "/", pq, originPathAndQuery_eq_some.mpr ⟨?_, ?_⟩⟩
    · rw [hbase]
      decide
    · rw [hbase]
      exact hpq
  | cons b rest' =>
    have hhead : rest.head? = some 0x2f := by
      have hf := h.form
      generalize up.upstreamUrl.scheme = scheme at hf hscheme
      generalize up.upstreamUrl.authority = authority at hf
      cases hf with
      | absolute => cases hscheme
      | authority => cases hform
      | origin => rfl
      | asterisk => exact absurd rfl hstar
    obtain ⟨pq, hpq⟩ := Option.isSome_iff_exists.mp (h.target hhead)
    refine ⟨tail, pq, originPathAndQuery_eq_some.mpr ⟨hsum ▸ hlen, ?_⟩⟩
    rw [htail]
    exact hpq

theorem readUpstream_ne_internal (hstatus : lib.bhttp.StatusRule) {env : Env} {cap : Nat}
    {upReq : OutRequest} :
    (readUpstream lib env cap upReq).result ≠ some (.error .internal) := by
  intro h
  obtain ⟨o, -, h⟩ := Run.result_andThen_eq_some.mp h
  cases o with
  | none => cases h
  | some resp =>
    dsimp only at h
    split at h
    · cases h
    · rename_i hhead
      simp only [refusesHead, Bool.or_eq_true, Bool.not_eq_true', Bool.and_eq_false_iff, not_or,
        decide_eq_false_iff_not, not_not] at hhead
      rw [hstatus _ hhead.1.1.1 hhead.1.1.2] at h
      obtain ⟨r, hframes, h⟩ := Run.result_andThen_eq_some.mp h
      rw [result_readFrames, Option.some.injEq] at hframes
      split at hframes
      · subst hframes
        cases h
      · subst hframes
        cases h

/-- With a URI for every accepted path and query, no request fails for want of one. -/
theorem serves_of_uris (hv : lib.http.ValueRule) (hstatus : lib.bhttp.StatusRule)
    (htargets : ∀ p, p.head? = some 0x2f → lib.http.Accepts p →
      up.basePath.length + p.length ≤ 65534 → up.originPathAndQuery lib p ≠ none)
    (huris : ∀ p pq, up.originPathAndQuery lib p = some pq → ∃ uri,
      up.originUri lib pq = some uri ∧ uri.scheme.isSome = true ∧ uri.authority.isSome = true) :
    Serves lib up := by
  refine ⟨htargets, huris, ?_, ?_⟩
  · intro env req bytes hhead haccepted hlen hres
    obtain ⟨pq, hpq⟩ := Option.ne_none_iff_exists'.mp (htargets _ hhead haccepted hlen)
    obtain ⟨uri, huri, -⟩ := huris _ pq hpq
    have hup : up.upstreamUri lib req.uri = some uri := by
      show (up.originPathAndQuery lib (requestedTarget req.uri)).bind _ = _
      rw [hpq]
      exact huri
    rw [sendUpstream, hup] at hres
    dsimp only at hres
    rw [buildUpstreamRequest_eq hv] at hres
    obtain ⟨o, -, hres⟩ := Run.result_andThen_eq_some.mp hres
    cases o with
    | none =>
      have hsame : StatusCode.badGateway.intoResponse =
          StatusCode.internalServerError.intoResponse := Except.error.inj (Option.some.inj hres)
      exact absurd (congrArg Response.status hsame) (by decide)
    | some resp => cases hres
  · intro cfg env inner hres
    rcases callUpstream_cases lib up cfg env inner with ⟨e, hnone, hcall⟩ | ⟨upReq, -, hcall⟩
    · cases hpq : up.originPathAndQuery lib inner.pathAndQuery with
      | none =>
        rw [callUpstream, hpq] at hres
        cases hres
      | some pq =>
        obtain ⟨uri, huri, -⟩ := huris _ pq hpq
        have hsome := (innerUpstreamRequest_eq_some hv).mpr ⟨pq, uri, hpq, huri, rfl⟩
        rw [hnone] at hsome
        cases hsome
    · obtain ⟨r, hr⟩ := readUpstream_returns lib env cfg.maxResponseBytes upReq
      obtain ⟨o, ho, hcases⟩ := Run.timeout_returns (d := cfg.upstreamTimeout) hr
      rw [hcall, Run.result_andThen, ho] at hres
      rcases hcases with rfl | rfl
      · cases hres
      · obtain rfl : r = .error .internal := Option.some.inj hres
        exact readUpstream_ne_internal hstatus hr

end Serving

/-- **When an accepted URL serves requests**: exactly when it is in absolute form.  An
authority alone, a path and `*` parse as well: with the first, no URI can be assembled and
every request fails; with a path the URIs have neither scheme nor authority; and behind
`*` every target is refused. -/
theorem upstream_url_serves_iff (lib : Crates) (hv : lib.http.ValueRule) (huri : lib.http.UriRule)
    (htarget : lib.http.TargetRule) (hchars : lib.http.CharacterRule)
    (hassemble : lib.http.AssembleRule) (hstatus : lib.bhttp.StatusRule) (u : Bytes)
    (cap : Option Nat) (up : UpstreamClient) (hup : UpstreamClient.new lib u cap = some up) :
    Serves lib up ↔ AbsoluteForm u := by
  obtain ⟨rest, hacc⟩ := accepted_of_new huri hup
  obtain ⟨hform, hauthority⟩ := hacc.form.absolute_iff
  rw [hform]
  constructor
  · intro hserves
    by_contra hscheme
    rw [Bool.not_eq_true] at hscheme
    by_cases hstar : rest = ascii "*"
    · have hbase : up.basePath = ascii "*" := by
        rw [hacc.basePath, hstar]
        decide
      have hslash : [0x2f] <+: ascii "/" := by decide
      have hrefused : ¬ lib.http.Accepts (up.basePath ++ ascii "/") :=
        htarget.refuses_joined hslash (by rw [hbase]; rfl)
      obtain ⟨pq, hpq⟩ := Option.ne_none_iff_exists'.mp
        (hserves.targets (ascii "/") rfl hchars.root (by rw [hbase]; decide))
      exact hrefused (Option.isSome_of_eq_some (originPathAndQuery_eq_some.mp hpq).2)
    · obtain ⟨p, pq, hpq⟩ := hacc.probe hchars hscheme hstar
      obtain ⟨uri, horigin, hsome, -⟩ := hserves.uris p pq hpq
      rw [UpstreamClient.originUri, hassemble] at horigin
      split at horigin
      · cases horigin
        exact absurd hscheme (by simp [hsome])
      · cases horigin
  · intro hscheme
    apply serves_of_uris hv hstatus
    · intro p hp haccepted hlen
      obtain ⟨pq, hpq⟩ := Option.isSome_iff_exists.mp
        (hacc.continues hchars hscheme hp haccepted hlen)
      rw [originPathAndQuery_eq_some.mpr ⟨hlen, hpq⟩]
      exact Option.some_ne_none pq
    · intro p pq _
      refine ⟨⟨up.upstreamUrl.scheme, up.upstreamUrl.authority, pq⟩, ?_, hscheme,
        hauthority hscheme⟩
      rw [UpstreamClient.originUri, hassemble, if_pos (hscheme.trans (hauthority hscheme).symm)]

open KnownAnswers in
/-- The URL of the vector's node serves requests. -/
theorem upstream_url_serves_vector :
    ∃ up, UpstreamClient.new crates (ascii "http://127.0.0.1:8545") none = some up ∧
      Serves crates up := by
  obtain ⟨up, hup⟩ := Option.isSome_iff_exists.mp (by decide +kernel :
    (UpstreamClient.new crates (ascii "http://127.0.0.1:8545") none).isSome = true)
  exact ⟨up, hup, (upstream_url_serves_iff crates http_values http_uris http_targets
    http_characters http_assembles bhttp_statuses _ none up hup).mpr (by decide)⟩

open KnownAnswers in
/-- A URL without its scheme is accepted at boot, and then every request is answered
500. -/
theorem upstream_url_without_scheme :
    ∃ up pq, UpstreamClient.new crates (ascii "localhost:8545") none = some up ∧
      up.originPathAndQuery crates (ascii "/") = some pq ∧ up.originUri crates pq = none ∧
      (sendUpstream crates up env (post "/" rpcRequest) rpcRequest).result =
        some (.error StatusCode.internalServerError.intoResponse) ∧
      ¬ Serves crates up := by
  obtain ⟨up, hup⟩ := Option.isSome_iff_exists.mp (by decide +kernel :
    (UpstreamClient.new crates (ascii "localhost:8545") none).isSome = true)
  have hparsed : (UpstreamClient.new crates (ascii "localhost:8545") none).map
      UpstreamClient.upstreamUrl = some ⟨none, some (ascii "localhost:8545"), .ofBytes []⟩ := by
    decide +kernel
  rw [hup] at hparsed
  have hurl : up.upstreamUrl = ⟨none, some (ascii "localhost:8545"), .ofBytes []⟩ :=
    Option.some.inj hparsed
  have hbase : up.basePath = [] := by
    rw [UpstreamClient.basePath, hurl]
    decide
  have hpq : up.originPathAndQuery crates (ascii "/") = some (.ofBytes (ascii "/")) := by
    rw [UpstreamClient.originPathAndQuery, hbase]
    decide +kernel
  have hnone : up.originUri crates (.ofBytes (ascii "/")) = none := by
    rw [UpstreamClient.originUri, hurl]
    rfl
  refine ⟨up, _, hup, hpq, hnone, ?_, ?_⟩
  · have huri : up.upstreamUri crates (post "/" rpcRequest).uri = none := by
      show (up.originPathAndQuery crates (ascii "/")).bind (up.originUri crates) = none
      rw [hpq]
      exact hnone
    rw [sendUpstream, huri]
    rfl
  · intro hserves
    obtain ⟨uri, huri, -⟩ := hserves.uris (ascii "/") _ hpq
    rw [hnone] at huri
    cases huri

end VrpcSidecar
