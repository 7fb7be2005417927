import VrpcSidecar.Passthrough
import VrpcSidecar.Server

/-! # The client's check

The other end of a signature: `verify_signed_response` of the integration tests, which is
the procedure the README gives, step by step.  It reads the first value of each signing
header, rebuilds the pre-image from the request it sent, the decoded body it received and
the timestamp, and checks the signature.  It is written apart from the sidecar and builds
the pre-image in its own way (`verifierPreImage_eq`).

`sealed_iff_verifies` and `proxied_iff_verifies` say which responses pass: on the
confidential route exactly the sealed ones, and on the passthrough routes, behind the
compression layer, exactly those of a pipeline that reached its end, as long as the
upstream sends no signing header of its own.
-/
namespace VrpcSidecar

/-! ## Reading headers -/

/-- The bytes `HeaderValue::to_str` accepts. -/
def IsStr (v : Bytes) : Prop := ∀ b ∈ v, (0x20 ≤ b ∧ b < 0x7f) ∨ b = 0x09

instance (v : Bytes) : Decidable (IsStr v) := inferInstanceAs (Decidable (∀ b ∈ v, _))

/-- `header_str`: the first value, empty when there is none or it is no text. -/
def headerStr (headers : HeaderMap) (name : HeaderName) : Bytes :=
  match (headers.getAll name).head? with
  | none => []
  | some v => if IsStr v then v else []

/-- `trim_start_matches("0x")`. -/
def trimStart0x : Bytes → Bytes
  | 0x30 :: 0x78 :: rest => trimStart0x rest
  | s => s

/-- `decode_hex_0x`. -/
def decodeHex0x (s : Bytes) : Fallible Bytes :=
  match hexDecode (trimStart0x s) with
  | some bytes => .ok bytes
  | none => .error .panicked

/-! ## The check -/

section Check
variable (lib : Crates)

/-- `build_pre_image` of the tests: four copies into one array. -/
def verifierPreImage (chainId requestBody responseBody : Bytes) (timestampMs : UInt64) :
    Fallible (Block 104) := do
  let buf ← (Block.zero 104).copyInto 0 32 (lib.sha256 chainId).bytes
  let buf ← buf.copyInto 32 64 (lib.sha256 requestBody).bytes
  let buf ← buf.copyInto 64 96 (lib.sha256 responseBody).bytes
  buf.copyInto 96 104 (toLE timestampMs)

/-- `verify_signed_response`; decoding the key is part of `verify`. -/
def verifySignedResponse (chainId requestBody : Bytes) (resp : Response) : Fallible Unit := do
  let sigHex := headerStr resp.headers .vrpcSignature
  let tsHex := headerStr resp.headers .vrpcTimestamp
  let pkHex := headerStr resp.headers .vrpcPubkey
  if sigHex = [] ∨ tsHex = [] ∨ pkHex = [] then .error .refused
  else
    let sigBytes ← decodeHex0x sigHex
    let pkBytes ← decodeHex0x pkHex
    let ts ← orRefused (parseU64 tsHex)
    if hs : sigBytes.length = 64 then
      if hp : pkBytes.length = 32 then
        let pre ← verifierPreImage lib chainId requestBody resp.body ts
        if lib.ed25519.verify ⟨pkBytes, hp⟩ pre.bytes ⟨sigBytes, hs⟩ = true then .ok ()
        else .error .refused
      else .error .refused
    else .error .refused

/-- The body as the client reads it: decoded when it is marked as gzip. -/
def clientBody (gunzip : Bytes → Option Bytes) (resp : Response) : Option Bytes :=
  if resp.headers.getAll .contentEncoding = [ascii "gzip"] then gunzip resp.body
  else some resp.body

/-- What a client of the passthrough routes does with a response: decode, then verify. -/
def clientVerifies (gunzip : Bytes → Option Bytes) (chainId requestBody : Bytes)
    (resp : Response) : Fallible Unit := do
  let body ← orRefused (clientBody gunzip resp)
  verifySignedResponse lib chainId requestBody { resp with body := body }

end Check

/-! ## The texts of a signature read back -/

theorem hexDigit_ne_x : ∀ n : Fin 16, hexDigit n.val ≠ 0x78 := by decide

theorem trimStart0x_hexEncode (bs : Bytes) : trimStart0x (hexEncode bs) = hexEncode bs := by
  cases bs with
  | nil => rfl
  | cons b bs =>
    have hx : hexDigit (b.toNat % 16) ≠ 0x78 :=
      hexDigit_ne_x ⟨b.toNat % 16, Nat.mod_lt _ (by decide)⟩
    show trimStart0x (hexDigit (b.toNat / 16) :: hexDigit (b.toNat % 16) :: hexEncode bs) = _
    rw [trimStart0x.eq_def]
    split
    · rename_i heq
      exact absurd (List.cons.inj (List.cons.inj heq).2).1 hx
    · rfl

theorem decodeHex0x_prefixedHex (bs : Bytes) : decodeHex0x (prefixedHex bs) = .ok bs := by
  have htrim : trimStart0x (prefixedHex bs) = hexEncode bs := trimStart0x_hexEncode bs
  rw [decodeHex0x, htrim, hexDecode_hexEncode]

theorem prefixedHex_ne_nil (bs : Bytes) : prefixedHex bs ≠ [] := by
  intro h
  cases h

/-- Copying a part behind what was copied before. -/
theorem Block.copyInto_next {m lo : Nat} (dst : Block m) (hi : Nat) {front : Bytes} (src : Bytes)
    (hfront : dst.bytes.take lo = front) (hlo : front.length = lo)
    (h : lo ≤ hi ∧ hi ≤ m ∧ src.length = hi - lo) :
    ∃ b, dst.copyInto lo hi src = .ok b ∧ b.bytes.take hi = front ++ src :=
  ⟨_, dif_pos h, Block.take_copied dst h hfront hlo⟩

/-- **The client rebuilds the message that was signed.** -/
theorem verifierPreImage_eq (lib : Crates) (chainId requestBody responseBody : Bytes)
    (t : UInt64) :
    ∃ pre, verifierPreImage lib chainId requestBody responseBody t = .ok pre ∧
      pre.bytes = SigningState.signedMessage lib chainId requestBody responseBody t := by
  obtain ⟨b₁, h₁, hb₁⟩ := (Block.zero 104).copyInto_next 32 (lib.sha256 chainId).bytes
    (List.take_zero ..) rfl ⟨by decide, by decide, Block.size _⟩
  have hlen₁ : ([] ++ (lib.sha256 chainId).bytes).length = 32 := by simp
  obtain ⟨b₂, h₂, hb₂⟩ := b₁.copyInto_next 64 (lib.sha256 requestBody).bytes hb₁
    hlen₁ ⟨by decide, by decide, Block.size _⟩
  have hlen₂ : ([] ++ (lib.sha256 chainId).bytes ++ (lib.sha256 requestBody).bytes).length = 64 := by
    simp
  obtain ⟨b₃, h₃, hb₃⟩ := b₂.copyInto_next 96 (lib.sha256 responseBody).bytes hb₂
    hlen₂ ⟨by decide, by decide, Block.size _⟩
  have hlen₃ : ([] ++ (lib.sha256 chainId).bytes ++ (lib.sha256 requestBody).bytes ++
      (lib.sha256 responseBody).bytes).length = 96 := by simp
  obtain ⟨b₄, h₄, hb₄⟩ := b₃.copyInto_next 104 (toLE t) hb₃ hlen₃
    ⟨by decide, by decide, length_toLE t⟩
  refine ⟨b₄, ?_, ?_⟩
  · rw [verifierPreImage, h₁, ok_bind, h₂, ok_bind, h₃, ok_bind, h₄]
  · have hall : b₄.bytes.take 104 = b₄.bytes := List.take_of_length_le (Nat.le_of_eq b₄.size)
    rw [← hall, hb₄, SigningState.signedMessage]
    simp

/-! ## What the check accepts -/

section Accepts
variable {lib : Crates} {chainId requestBody : Bytes} {resp : Response}

theorem isStr_of_visible {v : Bytes} (h : Visible v) : IsStr v := by
  intro b hb
  obtain ⟨hge, hle⟩ := h b hb
  exact .inl ⟨hge, Nat.lt_succ_of_le hle⟩

theorem headerStr_of_head {headers : HeaderMap} {name : HeaderName} {v : Bytes}
    (h : (headers.getAll name).head? = some v) (hvisible : Visible v) :
    headerStr headers name = v := by
  rw [headerStr, h]
  exact if_pos (isStr_of_visible hvisible)

/-- The first value of each signing header is the one of `signed`. -/
def Response.SignedBy (resp : Response) (signed : SignedResponse) : Prop :=
  ∀ f ∈ signingFields signed, (resp.headers.getAll f.1).head? = some f.2

/-- The texts of a signature are what the client reads of them. -/
theorem Response.SignedBy.headerStr {signer : SigningState lib} {responseBody : Bytes} {t : UInt64}
    (h : resp.SignedBy (signer.signWithTimestamp requestBody responseBody t)) :
    let signed := signer.signWithTimestamp requestBody responseBody t
    VrpcSidecar.headerStr resp.headers .vrpcSignature = signed.signatureHex ∧
      VrpcSidecar.headerStr resp.headers .vrpcTimestamp = signed.timestampText ∧
      VrpcSidecar.headerStr resp.headers .vrpcPubkey = signer.pubkeyHex := by
  intro signed
  obtain ⟨hvsig, hvts, hvpk⟩ := signer.visible_texts requestBody responseBody t
  refine ⟨headerStr_of_head ?_ hvsig, headerStr_of_head ?_ hvts, headerStr_of_head ?_ hvpk⟩
  · exact h (.vrpcSignature, signed.signatureHex) List.mem_cons_self
  · exact h (.vrpcTimestamp, signed.timestampText) (List.mem_cons_of_mem _ List.mem_cons_self)
  · exact h (.vrpcPubkey, signed.pubkeyHex)
      (List.mem_cons_of_mem _ (List.mem_cons_of_mem _ List.mem_cons_self))

/-- **A response that carries the sidecar's signature first, over the body the client has,
is accepted.** -/
theorem verifySignedResponse_ok {signer : SigningState lib} (hed : lib.ed25519.SignRule)
    {t : UInt64} (h : resp.SignedBy (signer.signWithTimestamp requestBody resp.body t)) :
    verifySignedResponse lib signer.chainId requestBody resp = .ok () := by
  obtain ⟨hsig, hts, hpk⟩ := h.headerStr
  have hverify := (signer.signatureOver_signWithTimestamp requestBody resp.body t).verifies hed
  obtain ⟨pre, hpre, hmessage⟩ := verifierPreImage_eq lib signer.chainId requestBody resp.body t
  have hkey : signer.pubkeyHex = prefixedHex signer.pubkeyBytes.bytes := signer.pubkeyHex_eq
  have htime : parseU64 (signer.signWithTimestamp requestBody resp.body t).timestampText = some t :=
    parseU64_of_readU64 (readU64_decimal t)
  rw [verifySignedResponse, hsig, hts, hpk]
  rw [if_neg, SignedResponse.signatureHex, decodeHex0x_prefixedHex, ok_bind, hkey,
    decodeHex0x_prefixedHex, ok_bind, htime, orRefused_some, ok_bind, dif_pos (Block.size _),
    dif_pos (Block.size _), hpre, ok_bind, hmessage]
  · exact if_pos hverify
  · rintro (hnil | hnil | hnil)
    · exact prefixedHex_ne_nil _ hnil
    · exact decimal_ne_nil _ hnil
    · rw [hkey] at hnil
      exact prefixedHex_ne_nil _ hnil

/-- **What an accepted response proves**: its headers decode to a key, a timestamp and a
signature, and the signature is good for the chain id, the request and the body. -/
theorem verifySignedResponse_sound (h : verifySignedResponse lib chainId requestBody resp = .ok ()) :
    ∃ (signature : Block 64) (pubkey : Block 32) (t : UInt64),
      decodeHex0x (headerStr resp.headers .vrpcSignature) = .ok signature.bytes ∧
      decodeHex0x (headerStr resp.headers .vrpcPubkey) = .ok pubkey.bytes ∧
      parseU64 (headerStr resp.headers .vrpcTimestamp) = some t ∧
      lib.ed25519.verify pubkey
        (SigningState.signedMessage lib chainId requestBody resp.body t) signature = true := by
  rw [verifySignedResponse] at h
  split at h
  · cases h
  obtain ⟨sigBytes, hsig, h⟩ := bind_eq_ok.mp h
  obtain ⟨pkBytes, hpk, h⟩ := bind_eq_ok.mp h
  obtain ⟨t, ht, h⟩ := bind_eq_ok.mp h
  split at h
  · rename_i hs
    split at h
    · rename_i hp
      obtain ⟨pre, hpre, h⟩ := bind_eq_ok.mp h
      obtain ⟨pre', hpre', hmessage⟩ := verifierPreImage_eq lib chainId requestBody resp.body t
      cases Except.ok.inj (hpre.symm.trans hpre')
      split at h
      · rename_i hverify
        rw [hmessage] at hverify
        exact ⟨⟨sigBytes, hs⟩, ⟨pkBytes, hp⟩, t, hsig, hpk, orRefused_eq_ok.mp ht, hverify⟩
      · cases h
    · cases h
  · cases h

/-- A response without signing headers is refused. -/
theorem verifySignedResponse_unsigned (h : resp.Unsigned) :
    verifySignedResponse lib chainId requestBody resp = .error .refused := by
  have hnone : resp.headers.getAll .vrpcSignature = [] :=
    unsigned_iff_getAll.mp h .vrpcSignature (by decide)
  have hempty : headerStr resp.headers .vrpcSignature = [] := by
    rw [headerStr, hnone]
    rfl
  rw [verifySignedResponse, if_pos (.inl hempty)]

end Accepts

/-! ## The confidential route -/

section Sealed
variable {lib : Crates} {up : UpstreamClient} {signer : SigningState lib}
  {cfg : ConfidentialConfig} {env : Env} {req : Request}

/-- The response names the key of the signer. -/
def NamesKey (signer : SigningState lib) (resp : Response) : Prop :=
  decodeHex0x (headerStr resp.headers .vrpcPubkey) = .ok signer.pubkeyBytes.bytes

theorem Response.SignedBy.namesKey {resp : Response} {requestBody responseBody : Bytes}
    {t : UInt64} (h : resp.SignedBy (signer.signWithTimestamp requestBody responseBody t)) :
    NamesKey signer resp := by
  rw [NamesKey, h.headerStr.2.2, signer.pubkeyHex_eq]
  exact decodeHex0x_prefixedHex _

section Answer
variable {plaintext : Bytes} {ctx : ResponseContext} {nonce : Block 32} {call : InnerCall}
  {answer : Sealed} {signed : SignedResponse}

/-- The signing headers are among the fields of a sealed answer, each with one value. -/
theorem Answered.signedBy (hv : lib.http.ValueRule)
    (h : Answered lib up signer cfg env req plaintext ctx nonce call answer signed) :
    (buildConfidentialResponse lib answer.innerStatus call.batchSize answer.body signed).SignedBy
      signed := by
  intro f hf
  rw [buildConfidentialResponse_eq hv h.signed h.innerStatus_mem]
  refine congrArg List.head? (getAll_sealedFields ?_)
  simp only [signingFields, List.mem_cons, List.not_mem_nil, or_false] at hf
  rcases hf with rfl | rfl | rfl <;> simp [sealedFields]

/-- A sealed answer is accepted. -/
theorem Answered.verifies (hv : lib.http.ValueRule) (hed : lib.ed25519.SignRule)
    (h : Answered lib up signer cfg env req plaintext ctx nonce call answer signed) :
    let resp := buildConfidentialResponse lib answer.innerStatus call.batchSize answer.body signed
    verifySignedResponse lib signer.chainId req.body.content resp = .ok () ∧
      NamesKey signer resp := by
  intro resp
  have hsigned : resp.SignedBy signed := h.signedBy hv
  have hbody : resp.body = answer.body :=
    congrArg Response.body (buildConfidentialResponse_eq hv h.signed h.innerStatus_mem _)
  obtain ⟨t, -, rfl⟩ := signer.sign_eq_some.mp h.signed
  have hkey := hsigned.namesKey
  rw [← hbody] at hsigned
  exact ⟨verifySignedResponse_ok hed hsigned, hkey⟩

end Answer

/-- **Every ending passes the check or is refused by it**, as it is sealed or not. -/
theorem Ending.verifies (hv : lib.http.ValueRule) (hed : lib.ed25519.SignRule)
    {resp : Response} {out : Outcome} (h : Ending lib up signer cfg env req resp out) :
    (SealedAnswer lib up signer cfg env req resp ∧
      verifySignedResponse lib signer.chainId req.body.content resp = .ok () ∧
      NamesKey signer resp) ∨
    (¬ SealedAnswer lib up signer cfg env req resp ∧
      verifySignedResponse lib signer.chainId req.body.content resp = .error .refused) := by
  obtain ⟨c, -, hform⟩ := h.cause hv
  by_cases hc : c = .answered
  · subst hc
    have hsealed : SealedAnswer lib up signer cfg env req resp := hform
    cases h with
    | sealed hr hcall hs hsign => exact .inl ⟨hsealed, Answered.verifies hv hed ⟨hr, hcall, hs, hsign⟩⟩
    | requestTooLarge _ => exact absurd (StatusCode.intoResponse_unsigned _) hsealed.not_unsigned
    | requestReadFailed _ _ => exact absurd (StatusCode.intoResponse_unsigned _) hsealed.not_unsigned
    | notOpened _ _ => exact absurd preDecapsulationError_unsigned hsealed.not_unsigned
    | notReady _ _ _ => exact absurd (StatusCode.intoResponse_unsigned _) hsealed.not_unsigned
    | notSealed _ _ _ => exact absurd (StatusCode.intoResponse_unsigned _) hsealed.not_unsigned
    | notSigned _ _ _ _ => exact absurd (StatusCode.intoResponse_unsigned _) hsealed.not_unsigned
  · have hunsigned := unsigned_of_form hform hc
    exact .inr ⟨fun hsealed => hsealed.not_unsigned hunsigned,
      verifySignedResponse_unsigned hunsigned⟩

end Sealed

/-- **On the confidential route exactly the sealed answers verify.**  Every call answers,
and a client that posted the body accepts the answer, under the key of the signing state,
when it is sealed, and refuses it otherwise; its check never panics. -/
theorem sealed_iff_verifies (lib : Crates) (hv : lib.http.ValueRule) (hed : lib.ed25519.SignRule)
    (up : UpstreamClient) (signer : SigningState lib) (cfg : ConfidentialConfig) (env : Env)
    (req : Request) :
    ∃ resp, (confidentialExchange lib up signer cfg env req).result = some resp ∧
      (verifySignedResponse lib signer.chainId req.body.content resp = .ok () ↔
        SealedAnswer lib up signer cfg env req resp) ∧
      (verifySignedResponse lib signer.chainId req.body.content resp = .error .refused ↔
        ¬ SealedAnswer lib up signer cfg env req resp) ∧
      (SealedAnswer lib up signer cfg env req resp → NamesKey signer resp) := by
  obtain ⟨resp, out, hres, hend⟩ := exchange_ends lib up signer cfg env req
  refine ⟨resp, (confidentialExchange_eq hres).1, ?_⟩
  obtain ⟨hsealed, hok, hkey⟩ | ⟨hplain, hrefused⟩ := hend.verifies hv hed
  · rw [hok]
    refine ⟨iff_of_true rfl hsealed, ?_, fun _ => hkey⟩
    refine iff_of_false ?_ (not_not_intro hsealed)
    intro hne
    cases hne
  · rw [hrefused]
    refine ⟨?_, iff_of_true rfl hplain, fun hsealed => absurd hsealed hplain⟩
    refine iff_of_false ?_ hplain
    intro hne
    cases hne

open KnownAnswers in
/-- The answer to the vector's request verifies under the test key. -/
theorem sealed_iff_verifies_vector :
    ∃ resp, (confidentialExchange crates upstream signer config env
        (post "/confidential" encapsulatedRequest)).result = some resp ∧
      verifySignedResponse crates chainId (post "/confidential" encapsulatedRequest).body.content
        resp = .ok () ∧ NamesKey signer resp := by
  obtain ⟨resp, hresp, hok, -, hkey⟩ := sealed_iff_verifies crates http_values ed25519_signs
    upstream signer config env (post "/confidential" encapsulatedRequest)
  obtain ⟨ctx, hr, hs⟩ := opensAndSeals "/confidential"
  obtain ⟨ms, hc⟩ := called
  obtain ⟨t, ht⟩ : ∃ t, nowMs env.signClock = some t := Option.isSome_iff_exists.mp (by decide)
  obtain ⟨resp', out, hres, hend⟩ := exchange_ends crates upstream signer config env
    (post "/confidential" encapsulatedRequest)
  obtain rfl := Option.some.inj ((confidentialExchange_eq hres).1.symm.trans hresp)
  have hsealed := (hend.form_iff http_values .answered).mpr
    ⟨_, ctx, _, _, _, _, hr, hc, hs, signer.sign_eq_some.mpr ⟨t, ht, rfl⟩⟩
  exact ⟨resp', hresp, hok.mpr hsealed, hkey hsealed⟩

/-! ## The passthrough routes -/

section Proxied
variable {lib : Crates} {web : WebCrates} {gunzip : Bytes → Option Bytes} {app : AppState lib}
  {ce : CallEnv} {cap : Option Nat} {req : Request}

/-- What is served of a proxied request is what `forward` returned, behind the layer. -/
theorem serve_proxied (web : WebCrates) (ce : CallEnv) (cap : Option Nat)
    (hconf : req.uri.path ≠ ascii "/confidential")
    (hatt : req.uri.path ≠ ascii "/attestation") (hinfo : req.uri.path ≠ ascii "/info")
    (hmethod : req.method ≠ ascii "HEAD") {resp : Response}
    (h : (forward lib app.upstream app.signing ce.env req).result = some resp) :
    ((buildRouter lib web app ce cap).serve req).run.result =
      some (web.compress req.headers resp) := by
  have hproxy : (proxyHandler lib app ce req).run.result = some resp :=
    (Job.result_embed _ _).trans h
  have hbody : Router.withoutBody req.method (web.compress req.headers resp) =
      web.compress req.headers resp := if_neg hmethod
  rw [Router.serve, methods_buildRouter, if_neg hconf, if_neg hatt, if_neg hinfo,
    MethodRouter.call, MethodRouter.select_layer, MethodRouter.select_any, Job.result_map]
  show Option.map _ ((Handler.mapResponse web.compress (proxyHandler lib app ce) req).map _).run.result
    = _
  rw [Job.result_map, Handler.mapResponse, Job.result_map, hproxy]
  exact congrArg some hbody

/-- The client takes the coding of the layer off again. -/
theorem WebCrates.CompressionRule.clientBody (hcomp : web.CompressionRule gunzip)
    {resp : Response} (hplain : resp.headers.getAll .contentEncoding = []) (headers : HeaderMap) :
    VrpcSidecar.clientBody gunzip (web.compress headers resp) = some resp.body := by
  rw [VrpcSidecar.clientBody]
  obtain ⟨hnone, hbody⟩ | ⟨hgzip, hbody⟩ := hcomp.coding headers resp hplain
  · rw [hnone, if_neg (by simp), hbody]
  · rw [hgzip, if_pos rfl, hbody]

/-- The upstream sends no signing header of its own. -/
def Env.NoSignature (env : Env) : Prop :=
  ∀ upReq upResp, (env.upstream upReq).2 = some upResp →
    ∀ n ∈ [HeaderName.vrpcSignature, .vrpcTimestamp, .vrpcPubkey], upResp.headers.getAll n = []

/-- A response of the pipeline has the sidecar's signature behind the layer too. -/
theorem Pipelined.signedBy (hv : lib.http.ValueRule) (hcomp : web.CompressionRule gunzip)
    {limit : Nat} {upReq : OutRequest} {upResp : Incoming} {signed : SignedResponse}
    (h : Pipelined lib app.upstream app.signing ce.env req limit upReq upResp signed)
    (hplain : ce.env.NoSignature) (headers : HeaderMap) :
    (web.compress headers (buildSignedResponse lib upResp upResp.body.content signed)).SignedBy
      signed := by
  intro f hf
  have hname := name_of_mem_signingFields hf
  have hkept : HeaderName.describesTransfer f.1 = false := by
    have hnames : ∀ n ∈ [HeaderName.vrpcSignature, .vrpcTimestamp, .vrpcPubkey],
        HeaderName.describesTransfer n = false := by decide
    exact hnames f.1 hname
  rw [hcomp.kept _ _ _ hkept, h.signingValues hv hf, hplain _ _ h.answered f.1 hname]
  rfl

/-- A response of the pipeline is accepted behind the layer, when the upstream sent no
signing header. -/
theorem Pipelined.verifies (hv : lib.http.ValueRule) (hed : lib.ed25519.SignRule)
    (hcomp : web.CompressionRule gunzip) {limit : Nat} {upReq : OutRequest} {upResp : Incoming}
    {signed : SignedResponse}
    (h : Pipelined lib app.upstream app.signing ce.env req limit upReq upResp signed)
    (hplain : ce.env.NoSignature) :
    let resp := web.compress req.headers
      (buildSignedResponse lib upResp upResp.body.content signed)
    clientVerifies lib gunzip app.signing.chainId req.body.content resp = .ok () ∧
      NamesKey app.signing resp ∧
      VrpcSidecar.clientBody gunzip resp = some upResp.body.content := by
  intro resp
  have hbody : (buildSignedResponse lib upResp upResp.body.content signed).body =
      upResp.body.content := by rw [buildSignedResponse_eq hv h.signed]
  have hcoding : (buildSignedResponse lib upResp upResp.body.content signed).headers.getAll
      .contentEncoding = [] := by
    have hce : ¬ HeaderName.contentEncoding.IsVrpc := by decide
    rw [getAll_signedResponse hv h.signed, if_neg (by simp [passesResponse]),
      ownValues_signingFields hce]
    rfl
  have hread : VrpcSidecar.clientBody gunzip resp = some upResp.body.content := by
    rw [hcomp.clientBody hcoding, hbody]
  have hsigned := h.signedBy hv hcomp hplain req.headers
  obtain ⟨t, -, rfl⟩ := app.signing.sign_eq_some.mp h.signed
  have hdecoded : ({ resp with body := upResp.body.content } : Response).SignedBy
      (app.signing.signWithTimestamp req.body.content upResp.body.content t) := hsigned
  refine ⟨?_, hsigned.namesKey, hread⟩
  rw [clientVerifies, hread, orRefused_some, ok_bind]
  exact verifySignedResponse_ok hed hdecoded

/-- The status of a pipeline that ended early is refused behind the layer. -/
theorem clientVerifies_early (hcomp : web.CompressionRule gunzip) (s : StatusCode)
    (headers : HeaderMap) (chainId requestBody : Bytes) :
    clientVerifies lib gunzip chainId requestBody (web.compress headers s.intoResponse) =
      .error .refused := by
  have hunsigned : (web.compress headers s.intoResponse).Unsigned :=
    hcomp.unsigned s.intoResponse_unsigned headers
  rw [clientVerifies, hcomp.clientBody rfl, orRefused_some, ok_bind]
  exact verifySignedResponse_unsigned hunsigned

end Proxied

/-- **On the proxied routes exactly the finished pipelines verify**, when the upstream
sends no signing header of its own.  The client reads the body the upstream returned,
whether the layer compressed it or not. -/
theorem proxied_iff_verifies (lib : Crates) (hv : lib.http.ValueRule)
    (hed : lib.ed25519.SignRule) (web : WebCrates) (gunzip : Bytes → Option Bytes)
    (hcomp : web.CompressionRule gunzip) (app : AppState lib) (ce : CallEnv) (cap : Option Nat)
    (req : Request) (hconf : req.uri.path ≠ ascii "/confidential")
    (hatt : req.uri.path ≠ ascii "/attestation") (hinfo : req.uri.path ≠ ascii "/info")
    (hmethod : req.method ≠ ascii "HEAD")
    (hplain : ce.env.NoSignature) :
    ∃ r resp,
      (runPipeline lib app.upstream app.signing ce.env req
        (app.upstream.maxBodyBytes.getD usizeMax)).result = some r ∧
      ((buildRouter lib web app ce cap).serve req).run.result = some resp ∧
      (clientVerifies lib gunzip app.signing.chainId req.body.content resp = .ok () ↔
        ∃ served, r = .ok served) ∧
      (clientVerifies lib gunzip app.signing.chainId req.body.content resp = .error .refused ↔
        ∃ early, r = .error early) ∧
      ∀ served, r = .ok served →
        NamesKey app.signing resp ∧ clientBody gunzip resp = some served.body := by
  obtain ⟨r, hr⟩ := runPipeline_returns lib app.upstream app.signing ce.env req
    (app.upstream.maxBodyBytes.getD usizeMax)
  rcases r with early | served
  · have hfwd : (forward lib app.upstream app.signing ce.env req).result = some early :=
      Run.result_andThen_eq_some.mpr ⟨_, hr, rfl⟩
    obtain ⟨s, rfl⟩ := runPipeline_error hr
    refine ⟨_, _, hr, serve_proxied web ce cap hconf hatt hinfo hmethod hfwd, ?_⟩
    rw [clientVerifies_early hcomp]
    simp
  · obtain ⟨upReq, upResp, signed, hp, rfl⟩ := runPipeline_ok hr
    obtain ⟨hok, hkey, hread⟩ := hp.verifies hv hed hcomp hplain
    refine ⟨_, _, hr, serve_proxied web ce cap hconf hatt hinfo hmethod hp.forward, ?_, ?_, ?_⟩
    · rw [hok]
      simp
    · rw [hok]
      simp
    · rintro served hserved
      cases hserved
      refine ⟨hkey, ?_⟩
      rw [hread, buildSignedResponse_eq hv hp.signed]

theorem KnownAnswers.callEnv_plain : KnownAnswers.callEnv.env.NoSignature := by
  intro upReq upResp hans
  cases hans
  decide

open KnownAnswers in
/-- The node's answer to the vector's request verifies. -/
theorem proxied_iff_verifies_vector :
    ∃ resp, ((buildRouter crates web app callEnv none).serve (post "/" rpcRequest)).run.result =
        some resp ∧
      clientVerifies crates (fun _ => none) signer.chainId (post "/" rpcRequest).body.content
        resp = .ok () ∧ NamesKey signer resp := by
  obtain ⟨upReq, signed, hp⟩ := pipelined signer [(.contentType, ascii "application/json")]
    (by decide : rpcRequest.length ≤ usizeMax)
    (by decide : rpcResponse.length ≤ usizeMax)
  obtain ⟨r, resp, hr, hresp, hok, -, hkey⟩ := proxied_iff_verifies crates http_values
    ed25519_signs web _ web_compresses app callEnv none (post "/" rpcRequest) (by decide) (by decide)
    (by decide) (by decide) callEnv_plain
  obtain rfl := Option.some.inj (hr.symm.trans hp.result)
  exact ⟨resp, hresp, hok.mpr ⟨_, rfl⟩, (hkey _ rfl).1⟩

end VrpcSidecar
