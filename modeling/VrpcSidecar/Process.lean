import VrpcSidecar.Server
import VrpcSidecar.Identity
import VrpcSidecar.SignatureBinding

/-! # The process

`main.rs` and `config.rs`: what the options of the command line give, and what the process
does with them.  A `Config` cannot hold a chain id that was not validated, a batch limit
outside 1 to 1000 or a timeout of zero.  The boot asks dstack for the key and for its
info, parses the upstream's URL and binds the address, in that order; a failure of the
first three is answered with a pause and exit code 2.

`boot_serves_iff` says when the process gets to serve, and how it ends otherwise.
-/
namespace VrpcSidecar

/-! ## The configuration -/

/-- What was given for each option, as a flag or in the environment. -/
structure Options where
  upstreamUrl : Option Text
  chainId : Option Text
  keyPath : Option Text
  keyPurpose : Option Text
  maxBodyBytes : Option Text
  confidentialMaxBodyBytes : Option Text
  confidentialMaxResponseBytes : Option Text
  confidentialMaxBatchSize : Option Text
  confidentialUpstreamTimeoutSecs : Option Text
  allowEmptyComposeHash : Bool

/-- `Config`, less the address and the endpoint, which go to the listener and to the
client of dstack. -/
structure Config where
  upstreamUrl : Text
  chainId : Text
  chainId_valid : IsChainId chainId chainId
  keyPath : Text
  keyPurpose : Option Text
  maxBodyBytes : Option Nat
  confidentialMaxBodyBytes : Nat
  confidentialMaxResponseBytes : Nat
  confidentialMaxBatchSize : Nat
  batchSize_mem : 1 ≤ confidentialMaxBatchSize ∧ confidentialMaxBatchSize ≤ 1000
  confidentialUpstreamTimeoutSecs : Nat
  timeout_pos : 1 ≤ confidentialUpstreamTimeoutSecs
  allowEmptyComposeHash : Bool

/-- A `usize` of a text. -/
def parseUsize (s : Text) : Option Nat := (parseU64 (utf8 s)).map UInt64.toNat

/-- An integer in a range.  What the parser of the range reads beyond a `u64`, signs
included, is outside of every range used here. -/
def parseRanged (lo hi : Nat) (s : Text) : Option { n : Nat // lo ≤ n ∧ n ≤ hi } :=
  (parseUsize s).bind (fun n => if h : lo ≤ n ∧ n ≤ hi then some ⟨n, h⟩ else none)

/-- `validate_chain_id` as the parser of the option. -/
def parseChainId (s : Text) : Option { t : Text // IsChainId t t } :=
  match h : validateChainId s with
  | .error _ => none
  | .ok t => some ⟨t, (validateChainId_ok_iff.mp h).idempotent⟩

/-- The value of an option that has a default. -/
def orDefault {α : Type} (parse : Text → Option α) (default : α) : Option Text → Option α
  | none => some default
  | some s => parse s

/-- `Config::parse`; `none` when an option is missing or its value is refused. -/
def Config.parse (o : Options) : Option Config := do
  let upstreamUrl ← o.upstreamUrl
  let chainId ← o.chainId.bind parseChainId
  let maxBodyBytes ← match o.maxBodyBytes with
    | none => some none
    | some s => (parseUsize s).map some
  let maxRequest ← orDefault parseUsize (8 * 1024 * 1024) o.confidentialMaxBodyBytes
  let maxResponse ← orDefault parseUsize (128 * 1024 * 1024) o.confidentialMaxResponseBytes
  let batch ← orDefault (parseRanged 1 1000) ⟨1000, by decide⟩ o.confidentialMaxBatchSize
  let timeout ← orDefault (parseRanged 1 (2 ^ 64 - 1)) ⟨25, by decide⟩
    o.confidentialUpstreamTimeoutSecs
  return {
    upstreamUrl := upstreamUrl
    chainId := chainId.val
    chainId_valid := chainId.property
    keyPath := o.keyPath.getD "rpc-sign/v1".toList
    keyPurpose := o.keyPurpose
    maxBodyBytes := maxBodyBytes
    confidentialMaxBodyBytes := maxRequest
    confidentialMaxResponseBytes := maxResponse
    confidentialMaxBatchSize := batch.val
    batchSize_mem := batch.property
    confidentialUpstreamTimeoutSecs := timeout.val
    timeout_pos := timeout.property.1
    allowEmptyComposeHash := o.allowEmptyComposeHash }

namespace Config
variable (config : Config)

/-- What the boot of the identity reads. -/
def identity : IdentityConfig :=
  ⟨utf8 config.keyPath, config.keyPurpose.map utf8, utf8 config.chainId,
    config.allowEmptyComposeHash⟩

/-- The `ConfidentialConfig` that `main` builds. -/
def confidential : ConfidentialConfig :=
  ⟨config.confidentialMaxBodyBytes, config.confidentialMaxResponseBytes,
    config.confidentialMaxBatchSize, config.confidentialUpstreamTimeoutSecs * 1000⟩

end Config

/-! ## The boot -/

/-- `FAIL_FAST_DEADLINE`. -/
def failFastDeadline : Nat := 5000

/-- What the process finds when it starts: dstack, and whether the address can be bound. -/
structure BootEnv where
  dstack : DstackClient
  bound : Bool

section Boot
variable (lib : Crates) (config : Config) (benv : BootEnv)

/-- The state the router is built with. -/
def bootedState (up : UpstreamClient) (signing : SigningState lib) (attestation : AttestationState) :
    AppState lib :=
  ⟨up, signing, attestation, config.confidential⟩

/-- `main` up to the listener: the state it serves with, or the code it exits with. -/
def boot : Run DstackCall (Except Nat (AppState lib)) := do
  match ← bootstrapTdxIdentity lib config.identity benv.dstack with
  | .error _ =>
    Run.waitFor failFastDeadline
    return .error 2
  | .ok (signing, attestation) =>
    match UpstreamClient.new lib (utf8 config.upstreamUrl) config.maxBodyBytes with
    | none =>
      Run.waitFor failFastDeadline
      return .error 2
    | some up =>
      if benv.bound then return .ok (bootedState lib config up signing attestation)
      else return .error 1

end Boot

/-! ### When it gets to serve -/

/-- Dstack returns a key of 32 bytes. -/
def KeyGiven (config : IdentityConfig) (dstack : DstackClient) : Prop :=
  ∃ keyHex bytes, (dstack.getKey (some config.keyPath) config.keyPurpose).2 = some keyHex ∧
    hexDecode keyHex = some bytes ∧ bytes.length = 32

/-- Dstack returns its info, with a compose hash unless the operator does without. -/
def InfoGiven (config : IdentityConfig) (dstack : DstackClient) : Prop :=
  ∃ info json, dstack.info.2 = some info ∧ info.json = some json ∧
    (info.composeHash ≠ [] ∨ config.allowEmptyComposeHash = true)

section Identity
variable {lib : Crates} {curve : KeyCurve} {sha512 : Bytes → Block 64}

theorem resolveComposeHash_ok_iff {hash : Bytes} {allowEmpty : Bool} :
    (∃ resolved, resolveComposeHash hash allowEmpty = .ok resolved) ↔
      hash ≠ [] ∨ allowEmpty = true := by
  unfold resolveComposeHash
  by_cases hhash : hash ≠ []
  · rw [if_pos hhash]
    exact iff_of_true ⟨_, rfl⟩ (.inl hhash)
  · rw [if_neg hhash]
    cases allowEmpty with
    | true => exact iff_of_true ⟨_, rfl⟩ (.inr rfl)
    | false => simpa using hhash

/-- **The attestation state is the key and what dstack says of the program.** -/
theorem bootstrap_eq_ok {dstack : DstackClient} {pubkey : Block 32} {allowEmpty : Bool}
    {att : AttestationState} :
    (AttestationState.bootstrap dstack pubkey allowEmpty).result = some (.ok att) ↔
      ∃ info json composeHash, dstack.info.2 = some info ∧ info.json = some json ∧
        resolveComposeHash info.composeHash allowEmpty = .ok composeHash ∧
          att = ⟨pubkey, composeHash, info.appCompose, json⟩ := by
  rw [AttestationState.bootstrap, Run.bind_eq, Run.result_andThen, result_ask, Option.bind_some]
  cases hinfo : dstack.info.2 with
  | none => simp
  | some info =>
    cases hjson : info.json with
    | none => simp [hjson]
    | some json =>
      cases hhash : resolveComposeHash info.composeHash allowEmpty with
      | error e => simp [hjson, hhash]
      | ok composeHash =>
        constructor
        · intro h
          dsimp only at h
          rw [hjson] at h
          dsimp only at h
          rw [hhash] at h
          cases h
          exact ⟨info, json, composeHash, rfl, hjson, hhash, rfl⟩
        · rintro ⟨info', json', hash', hinfo', hjson', hhash', rfl⟩
          cases hinfo'
          cases hjson.symm.trans hjson'
          cases hhash.symm.trans hhash'
          dsimp only
          rw [hjson]
          dsimp only
          rw [hhash]
          rfl

/-- The attestation state is made from one request for the info. -/
theorem bootstrap_returns (dstack : DstackClient) (pubkey : Block 32) (allowEmpty : Bool) :
    ∃ r, (AttestationState.bootstrap dstack pubkey allowEmpty).result = some r ∧
      (AttestationState.bootstrap dstack pubkey allowEmpty).log = [.info] ∧
      ((∃ att, r = .ok att) ↔ ∃ info json, dstack.info.2 = some info ∧ info.json = some json ∧
        (info.composeHash ≠ [] ∨ allowEmpty = true)) := by
  have hask : (ask .info dstack.info).result = some dstack.info.2 := rfl
  rw [AttestationState.bootstrap, Run.bind_eq, Run.result_andThen, Run.log_andThen hask, hask,
    Option.bind_some]
  cases hinfo : dstack.info.2 with
  | none => exact ⟨_, rfl, rfl, by simp⟩
  | some info =>
    dsimp only
    cases hjson : info.json with
    | none => exact ⟨_, rfl, rfl, by simp [hjson]⟩
    | some json =>
      dsimp only
      have hiff := @resolveComposeHash_ok_iff info.composeHash allowEmpty
      cases hhash : resolveComposeHash info.composeHash allowEmpty with
      | error e =>
        refine ⟨_, rfl, rfl, ?_⟩
        rw [hhash] at hiff
        simpa [hjson] using hiff
      | ok hash =>
        refine ⟨_, rfl, rfl, ?_⟩
        rw [hhash] at hiff
        simpa [hjson] using hiff

/-- **What the boot of the identity asks and when it succeeds.** -/
theorem bootstrapTdxIdentity_returns (hcurve : CurveRule lib curve sha512)
    (config : IdentityConfig) (dstack : DstackClient) :
    ∃ r, (bootstrapTdxIdentity lib config dstack).result = some r ∧
      (bootstrapTdxIdentity lib config dstack).log <+:
        [.getKey (some config.keyPath) config.keyPurpose, .info] ∧
      ((∃ identity, r = .ok identity) ↔ KeyGiven config dstack ∧ InfoGiven config dstack) := by
  have hask : (ask (.getKey (some config.keyPath) config.keyPurpose)
      (dstack.getKey (some config.keyPath) config.keyPurpose)).result =
      some (dstack.getKey (some config.keyPath) config.keyPurpose).2 := rfl
  have hfront : ∀ es : List DstackCall, es <+: [.info] →
      (ask (.getKey (some config.keyPath) config.keyPurpose)
        (dstack.getKey (some config.keyPath) config.keyPurpose)).log ++ es <+:
        [.getKey (some config.keyPath) config.keyPurpose, .info] :=
    fun es hes => List.cons_prefix_cons.mpr ⟨rfl, hes⟩
  rw [bootstrapTdxIdentity, Run.bind_eq, Run.result_andThen, Run.log_andThen hask, hask,
    Option.bind_some]
  cases hkey : (dstack.getKey (some config.keyPath) config.keyPurpose).2 with
  | none => exact ⟨_, rfl, hfront _ List.nil_prefix, by simp [KeyGiven, hkey]⟩
  | some keyHex =>
    dsimp only
    rw [decodeToSlice_half]
    cases hdec : hexDecode keyHex with
    | none => exact ⟨_, rfl, hfront _ List.nil_prefix, by simp [KeyGiven, hkey, hdec]⟩
    | some bytes =>
      have hgiven : KeyGiven config dstack ↔ bytes.length = 32 := by simp [KeyGiven, hkey, hdec]
      have hlen := fromDstackBytes_ok_iff hcurve bytes config.chainId
      dsimp only
      cases hstate : SigningState.fromDstackBytes lib bytes config.chainId with
      | error e =>
        rw [hstate] at hlen
        exact ⟨_, rfl, hfront _ List.nil_prefix, by simp [hgiven, ← hlen]⟩
      | ok signing =>
        rw [hstate] at hlen
        obtain ⟨r, hr, hlog, hok⟩ := bootstrap_returns dstack signing.pubkeyBytes
          config.allowEmptyComposeHash
        dsimp only
        rw [Run.bind_eq, Run.result_andThen, Run.log_andThen hr, hr, Option.bind_some, hlog]
        rw [hgiven, ← hlen, InfoGiven, ← hok]
        cases r with
        | error e => exact ⟨_, rfl, hfront _ (List.prefix_refl _), by simp⟩
        | ok att => exact ⟨_, rfl, hfront _ (List.prefix_refl _), by simp⟩

end Identity

/-- **What the process serves with**: the state that its configuration and the key and info
of dstack give. -/
structure Booted {lib : Crates} (config : Config) (dstack : DstackClient) (app : AppState lib) :
    Prop where
  /-- It signs with the key dstack returned for the configured path. -/
  signing : ∃ keyHex bytes,
    (dstack.getKey (some config.identity.keyPath) config.identity.keyPurpose).2 = some keyHex ∧
      hexDecode keyHex = some bytes ∧
      SigningState.fromDstackBytes lib bytes (utf8 config.chainId) = .ok app.signing
  /-- It attests to that key, with the info dstack returned. -/
  attestation : ∃ info json composeHash, dstack.info.2 = some info ∧ info.json = some json ∧
    resolveComposeHash info.composeHash config.allowEmptyComposeHash = .ok composeHash ∧
      app.attestation = ⟨app.signing.pubkeyBytes, composeHash, info.appCompose, json⟩
  upstream : UpstreamClient.new lib (utf8 config.upstreamUrl) config.maxBodyBytes =
    some app.upstream
  confidential : app.confidential = config.confidential

namespace Booted
variable {lib : Crates} {config : Config} {dstack : DstackClient} {app : AppState lib}

/-- The key that is quoted is the key that signs. -/
theorem key (h : Booted config dstack app) :
    app.attestation.signingPubkey = app.signing.pubkeyBytes := by
  obtain ⟨info, json, composeHash, -, -, -, hatt⟩ := h.attestation
  rw [hatt]

theorem chain (h : Booted config dstack app) : app.signing.chainId = utf8 config.chainId := by
  obtain ⟨keyHex, bytes, -, -, hsigning⟩ := h.signing
  obtain ⟨hlen, hseed⟩ := (SigningState.fromDstackBytes_eq_ok lib).mp hsigning
  exact (SigningState.fromSeedRef_eq_some lib hseed).2

end Booted

section Outcome
variable {lib : Crates} {config : Config} {benv : BootEnv}

/-- Everything the boot needs before it binds the address. -/
def Provided (lib : Crates) (config : Config) (dstack : DstackClient) : Prop :=
  KeyGiven config.identity dstack ∧ InfoGiven config.identity dstack ∧
    (lib.http.uriFromStr (utf8 config.upstreamUrl)).isSome = true

/-- How a boot ends: serving, or with an exit code. -/
inductive BootEnds (lib : Crates) (config : Config) (benv : BootEnv) :
    Except Nat (AppState lib) → Prop where
  | serves {app : AppState lib} (h : Provided lib config benv.dstack) (hbound : benv.bound = true)
      (hbooted : Booted config benv.dstack app) : BootEnds lib config benv (.ok app)
  | unbound (h : Provided lib config benv.dstack) (hbound : benv.bound = false) :
      BootEnds lib config benv (.error 1)
  | refused (h : ¬ Provided lib config benv.dstack)
      (hslow : failFastDeadline ≤ (boot lib config benv).elapsed) :
      BootEnds lib config benv (.error 2)

/-- What a boot that succeeds has read of its configuration. -/
theorem booted_of_identity {signing : SigningState lib} {att : AttestationState}
    {up : UpstreamClient}
    (h : (bootstrapTdxIdentity lib config.identity benv.dstack).result = some (.ok (signing, att)))
    (hup : UpstreamClient.new lib (utf8 config.upstreamUrl) config.maxBodyBytes = some up) :
    Booted config benv.dstack (bootedState lib config up signing att) := by
  obtain ⟨keyHex, bytes, hkey, hdec, hsigning, hatt⟩ := bootstrapTdxIdentity_ok_iff.mp h
  exact ⟨⟨keyHex, bytes, hkey, hdec, hsigning⟩, bootstrap_eq_ok.mp hatt, hup, rfl⟩

/-- A process serves with what its boot gave. -/
theorem booted_of_boot {app : AppState lib} (h : (boot lib config benv).result = some (.ok app)) :
    Booted config benv.dstack app := by
  obtain ⟨r, hr, h⟩ := Run.result_andThen_eq_some.mp h
  rcases r with e | ⟨signing, att⟩
  · cases h
  dsimp only at h
  cases hurl : UpstreamClient.new lib (utf8 config.upstreamUrl) config.maxBodyBytes with
  | none =>
    rw [hurl] at h
    cases h
  | some up =>
    rw [hurl] at h
    dsimp only at h
    split at h
    · cases h
      exact booted_of_identity hr hurl
    · cases h

/-- **Every boot ends**, and how. -/
theorem boot_ends {curve : KeyCurve} {sha512 : Bytes → Block 64}
    (hcurve : CurveRule lib curve sha512) (config : Config) (benv : BootEnv) :
    ∃ r, (boot lib config benv).result = some r ∧ BootEnds lib config benv r ∧
      (boot lib config benv).log <+:
        [.getKey (some config.identity.keyPath) config.identity.keyPurpose, .info] := by
  obtain ⟨r, hr, hlog, hok⟩ := bootstrapTdxIdentity_returns hcurve config.identity benv.dstack
  -- the boot does nothing that dstack sees after the identity
  have hrest : ∀ k : Except Bytes (SigningState lib × AttestationState) →
      Run DstackCall (Except Nat (AppState lib)), (k r).log = [] →
      ((bootstrapTdxIdentity lib config.identity benv.dstack).andThen k).log <+:
        [.getKey (some config.identity.keyPath) config.identity.keyPurpose, .info] := by
    intro k hk
    rwa [Run.log_andThen hr, hk, List.append_nil]
  rcases r with e | ⟨signing, att⟩
  · refine ⟨.error 2, Run.result_andThen_eq_some.mpr ⟨_, hr, rfl⟩, .refused ?_ ?_, hrest _ rfl⟩
    · rintro ⟨hkey, hinfo, -⟩
      obtain ⟨identity, hidentity⟩ := hok.mpr ⟨hkey, hinfo⟩
      cases hidentity
    · rw [boot, Run.bind_eq, Run.elapsed_andThen hr]
      exact Nat.le_add_left _ _
  obtain ⟨hkey, hinfo⟩ := hok.mp ⟨_, rfl⟩
  cases hurl : UpstreamClient.new lib (utf8 config.upstreamUrl) config.maxBodyBytes with
  | none =>
    refine ⟨.error 2, Run.result_andThen_eq_some.mpr ⟨_, hr, ?_⟩, .refused ?_ ?_, hrest _ ?_⟩
    · dsimp only
      rw [hurl]
      rfl
    · rintro ⟨-, -, hsome⟩
      obtain ⟨uri, huri⟩ := Option.isSome_iff_exists.mp hsome
      rw [UpstreamClient.new, huri] at hurl
      cases hurl
    · rw [boot, Run.bind_eq, Run.elapsed_andThen hr]
      dsimp only
      rw [hurl]
      exact Nat.le_add_left _ _
    · dsimp only
      rw [hurl]
      rfl
  | some up =>
    have hsome : (lib.http.uriFromStr (utf8 config.upstreamUrl)).isSome = true := by
      obtain ⟨uri, huri, -⟩ := Option.map_eq_some_iff.mp hurl
      rw [huri]
      rfl
    have hprovided : Provided lib config benv.dstack := ⟨hkey, hinfo, hsome⟩
    cases hbound : benv.bound with
    | true =>
      refine ⟨.ok (bootedState lib config up signing att),
        Run.result_andThen_eq_some.mpr ⟨_, hr, ?_⟩,
        .serves hprovided hbound (booted_of_identity hr hurl), hrest _ ?_⟩
      · dsimp only
        rw [hurl]
        simp [hbound]
      · dsimp only
        rw [hurl]
        simp [hbound]
    | false =>
      refine ⟨.error 1, Run.result_andThen_eq_some.mpr ⟨_, hr, ?_⟩, .unbound hprovided hbound,
        hrest _ ?_⟩
      · dsimp only
        rw [hurl]
        simp [hbound]
      · dsimp only
        rw [hurl]
        simp [hbound]

end Outcome

namespace KnownAnswers

end KnownAnswers

end VrpcSidecar
