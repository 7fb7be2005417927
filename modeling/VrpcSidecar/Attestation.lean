import VrpcSidecar.AsyncRuns
import VrpcSidecar.HttpTypes
import VrpcSidecar.Signing

/-! # Attestation

`attestation.rs` and the boot of `main.rs`: the sidecar asks dstack for its key and for
what it runs as, once, and then for one quote per request to `/attestation`, over the
signing key and the caller's nonce.  dstack is a parameter: how it answers each request
and after what time.  The requests made to it are the events of a run.

An error is the text its `to_string` gives, that of its outermost context.
-/
namespace VrpcSidecar

/-! ## dstack -/

/-- `GetQuoteResponse`. -/
structure GetQuoteResponse where
  quote : Bytes
  eventLog : Bytes
  reportData : Bytes
  vmConfig : Bytes
  deriving DecidableEq

/-- `InfoResponse`: the two fields the sidecar reads (`compose_hash` and
`tcb_info.app_compose`), and what `serde_json::to_vec` makes of the whole. -/
structure InfoResponse where
  composeHash : Bytes
  appCompose : Bytes
  json : Option Bytes

/-- A request to dstack. -/
inductive DstackCall where
  | getKey (path purpose : Option Bytes)
  | info
  | getQuote (reportData : Bytes)
  deriving DecidableEq

/-- How dstack answers, with the time it takes; `none` for an error. -/
structure DstackClient where
  /-- The key, in the hexadecimal text of `GetKeyResponse.key`. -/
  getKey : Option Bytes → Option Bytes → Nat × Option Bytes
  info : Nat × Option InfoResponse
  getQuote : Bytes → Nat × Option GetQuoteResponse

/-- Make the request and wait for the answer. -/
def ask {α : Type} (call : DstackCall) (answer : Nat × α) : Run DstackCall α := do
  Run.emitOne call
  Run.waitFor answer.1
  return answer.2

@[simp] theorem result_ask {α : Type} (call : DstackCall) (answer : Nat × α) :
    (ask call answer).result = some answer.2 := rfl

/-! ## The state -/

/-- `AttestationState`, less the client. -/
structure AttestationState where
  signingPubkey : Block 32
  composeHash : Bytes
  appCompose : Bytes
  infoJson : Bytes

/-- `resolve_compose_hash`. -/
def resolveComposeHash (infoComposeHash : Bytes) (allowEmpty : Bool) : Except Bytes Bytes :=
  if infoComposeHash ≠ [] then .ok infoComposeHash
  else if allowEmpty then .ok []
  else .error (ascii ("dstack info returned no compose_hash; refuse to boot. " ++
    "Pass --allow-empty-compose-hash to override (dev/test only)."))

/-- `AttestationState::bootstrap`. -/
def AttestationState.bootstrap (dstack : DstackClient) (signingPubkey : Block 32)
    (allowEmptyComposeHash : Bool) : Run DstackCall (Except Bytes AttestationState) := do
  match ← ask .info dstack.info with
  | none => return .error (ascii "dstack info")
  | some info =>
    match info.json with
    | none => return .error (ascii "serialise dstack info")
    | some infoJson =>
      match resolveComposeHash info.composeHash allowEmptyComposeHash with
      | .error e => return .error e
      | .ok composeHash => return .ok ⟨signingPubkey, composeHash, info.appCompose, infoJson⟩

/-- A state is made for the key it was given. -/
theorem AttestationState.signingPubkey_of_bootstrap {dstack : DstackClient} {pubkey : Block 32}
    {allowEmpty : Bool} {att : AttestationState}
    (h : (AttestationState.bootstrap dstack pubkey allowEmpty).result = some (.ok att)) :
    att.signingPubkey = pubkey := by
  rw [AttestationState.bootstrap, Run.bind_eq, Run.result_andThen_eq_some] at h
  obtain ⟨info, -, h⟩ := h
  split at h
  · cases h
  · split at h
    · cases h
    · split at h
      · cases h
      · cases h
        rfl

/-! ## Report data -/

/-- `REPORT_DATA_LEN`. -/
def reportDataLen : Nat := 64

/-- `REPORT_DATA_PUBKEY_OFFSET`. -/
def reportDataPubkeyOffset : Nat := 0

/-- `REPORT_DATA_NONCE_OFFSET`. -/
def reportDataNonceOffset : Nat := 32

/-- `build_report_data`. -/
def buildReportData (signingPubkey userNonce : Block 32) : Fallible (Block reportDataLen) := do
  let out ← (Block.zero reportDataLen).copyInto reportDataPubkeyOffset reportDataNonceOffset
    signingPubkey.bytes
  out.copyInto reportDataNonceOffset reportDataLen userNonce.bytes

/-- The two copies fill the array, the key first. -/
theorem buildReportData_eq (signingPubkey userNonce : Block 32) :
    buildReportData signingPubkey userNonce =
      .ok ⟨signingPubkey.bytes ++ userNonce.bytes, by simp [reportDataLen]⟩ := by
  have hkey : (Block.zero reportDataLen).copyInto reportDataPubkeyOffset reportDataNonceOffset
      signingPubkey.bytes = .ok (Block.padded 64 signingPubkey.bytes) :=
    Block.copyInto_zero (by decide) signingPubkey.size
  obtain ⟨b, hb, hbytes⟩ := Block.copyInto_ok (Block.padded 64 signingPubkey.bytes)
    reportDataNonceOffset reportDataLen userNonce.bytes
    ⟨by decide, by decide, userNonce.size⟩
  have hfront : (Block.padded 64 signingPubkey.bytes).bytes.take reportDataNonceOffset =
      signingPubkey.bytes := by
    have htake := Block.take_padded (by simp : signingPubkey.bytes.length ≤ 64)
    rwa [signingPubkey.size] at htake
  have hback : (Block.padded 64 signingPubkey.bytes).bytes.drop reportDataLen = [] :=
    List.drop_of_length_le (by simp [reportDataLen])
  rw [hfront, hback, List.append_nil] at hbytes
  rw [buildReportData, hkey]
  exact hb.trans (congrArg Except.ok (Block.ext hbytes))

/-! ## The nonce -/

/-- `parse_user_nonce`. -/
def parseUserNonce (s : Text) : Except Bytes (Block 32) :=
  let trimmed := trimStartMatches '0' 'X' (trimStartMatches '0' 'x' (trim s))
  match hexDecode (utf8 trimmed) with
  | none => .error (ascii "user_nonce must be hex")
  | some bytes =>
    if h : bytes.length = 32 then .ok ⟨bytes, h⟩
    else .error (ascii "user_nonce must be 32 bytes, got " ++ decimal bytes.length)

/-- `AttestationQuery`. -/
structure AttestationQuery where
  nonce : Option Text

/-- `extract_nonce`. -/
def extractNonce (query : AttestationQuery) : Except Bytes (Block 32) :=
  match query.nonce with
  | none => .error (ascii "missing required ?nonce=<32B hex>")
  | some raw => parseUserNonce raw

/-- The nonce is what the text decodes to. -/
theorem parseUserNonce_eq_ok {s : Text} {nonce : Block 32} :
    parseUserNonce s = .ok nonce ↔
      hexDecode (utf8 (trimStartMatches '0' 'X' (trimStartMatches '0' 'x' (trim s)))) =
        some nonce.bytes := by
  unfold parseUserNonce
  dsimp only
  split
  · rename_i h
    simp [h]
  · rename_i bytes h
    rw [h]
    split
    · rename_i hlen
      simp [Block.ext_iff]
    · rename_i hlen
      constructor
      · intro herr
        cases herr
      · intro hbytes
        exact absurd ((congrArg List.length (Option.some.inj hbytes)).trans nonce.size) hlen

/-! ## Quotes -/

/-- `AttestationResponse`. -/
structure AttestationResponse where
  quote : GetQuoteResponse
  pubkey : Bytes
  composeHash : Bytes
  appCompose : Bytes

/-- `AttestationState::get`. -/
def AttestationState.get (att : AttestationState) (dstack : DstackClient) (nonce : Block 32) :
    Run DstackCall (Except Bytes AttestationResponse) :=
  match buildReportData att.signingPubkey nonce with
  | .error _ => .panicked
  | .ok reportData => do
    match ← ask (.getQuote reportData.bytes) (dstack.getQuote reportData.bytes) with
    | none => return .error (ascii "dstack get_quote")
    | some quote =>
      return .ok ⟨quote, prefixedHex att.signingPubkey.bytes, att.composeHash, att.appCompose⟩

/-- `attestation_handler`. -/
def attestationHandler (att : AttestationState) (dstack : DstackClient) (query : AttestationQuery) :
    Run DstackCall (Except (StatusCode × Bytes) AttestationResponse) :=
  match extractNonce query with
  | .error e => return .error (.badRequest, e)
  | .ok nonce => do
    match ← att.get dstack nonce with
    | .error e => return .error (.badGateway, e)
    | .ok resp => return .ok resp

/-- `info_handler`. -/
def infoHandler (att : AttestationState) : Response :=
  ⟨.ok, MultiMap.empty.append .contentType (ascii "application/json"), att.infoJson⟩

section Quote
variable (att : AttestationState) (dstack : DstackClient)

/-- **What a request with a nonce does**: it asks dstack for one quote, over the key and
the nonce, and answers with the quote and the key's text, or with 502. -/
theorem attestationHandler_nonce {text : Text} {nonce : Block 32}
    (h : parseUserNonce text = .ok nonce) :
    (attestationHandler att dstack ⟨some text⟩).log =
        [.getQuote (att.signingPubkey.bytes ++ nonce.bytes)] ∧
      (attestationHandler att dstack ⟨some text⟩).result =
        some (match (dstack.getQuote (att.signingPubkey.bytes ++ nonce.bytes)).2 with
          | none => .error (.badGateway, ascii "dstack get_quote")
          | some quote => .ok ⟨quote, prefixedHex att.signingPubkey.bytes, att.composeHash,
              att.appCompose⟩) := by
  have hextract : extractNonce ⟨some text⟩ = .ok nonce := h
  rw [attestationHandler, hextract]
  dsimp only
  rw [AttestationState.get, buildReportData_eq]
  dsimp only
  generalize dstack.getQuote (att.signingPubkey.bytes ++ nonce.bytes) = answer
  obtain ⟨ms, quote⟩ := answer
  cases quote with
  | none => exact ⟨rfl, rfl⟩
  | some quote => exact ⟨rfl, rfl⟩

/-- A request without a nonce, or with one that does not parse, is answered with 400 and
does not reach dstack. -/
theorem attestationHandler_refused {query : AttestationQuery} {e : Bytes}
    (h : extractNonce query = .error e) :
    attestationHandler att dstack query = .ret (.error (.badRequest, e)) := by
  rw [attestationHandler, h]
  rfl

end Quote

/-! ## Boot -/

/-- `hex::decode_to_slice`, into a slice of the given length. -/
def decodeToSlice (data : Bytes) (len : Nat) : Option Bytes :=
  if data.length % 2 ≠ 0 then none
  else if data.length / 2 ≠ len then none
  else hexDecode data

/-- A slice of half the length of the text takes every key that decodes. -/
theorem decodeToSlice_half (data : Bytes) :
    decodeToSlice data (data.length / 2) = hexDecode data := by
  unfold decodeToSlice
  split
  · rename_i hodd
    cases hdec : hexDecode data with
    | none => rfl
    | some bytes =>
      have hlen := length_of_hexDecode hdec
      omega
  · rw [if_neg (not_not_intro rfl)]

/-- What the boot reads of `Config`. -/
structure IdentityConfig where
  keyPath : Bytes
  keyPurpose : Option Bytes
  chainId : Bytes
  allowEmptyComposeHash : Bool

/-- `bootstrap_tdx_identity`. -/
def bootstrapTdxIdentity (lib : Crates) (config : IdentityConfig) (dstack : DstackClient) :
    Run DstackCall (Except Bytes (SigningState lib × AttestationState)) := do
  match ← ask (.getKey (some config.keyPath) config.keyPurpose)
      (dstack.getKey (some config.keyPath) config.keyPurpose) with
  | none => return .error (ascii "dstack get_key")
  | some keyHex =>
    match decodeToSlice keyHex (keyHex.length / 2) with
    | none => return .error (ascii "hex-decode dstack key")
    | some keyBytes =>
      match SigningState.fromDstackBytes lib keyBytes config.chainId with
      | .error _ => return .error (ascii "derive signing key")
      | .ok signing =>
        match ← AttestationState.bootstrap dstack signing.pubkeyBytes
            config.allowEmptyComposeHash with
        | .error _ => return .error (ascii "bootstrap attestation cache")
        | .ok attestation => return .ok (signing, attestation)

end VrpcSidecar
