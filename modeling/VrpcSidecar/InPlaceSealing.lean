import VrpcSidecar.ExchangePlanes

/-! # Sealing in one buffer

A relayed answer is encoded into the buffer it is sealed in, so from then on that
buffer holds plaintext until the AEAD has run over it.  The buffer is allocated from a
counting pass over the same message; what is encoded and sealed fills it exactly.
Every step between the encoding and the tag can fail (`FailedStep`), and whichever
does, the buffer is wiped and no function on the way out returns a byte of it
(`in_place_sealing`).
-/
namespace VrpcSidecar

/-! ## The capacity -/

/-- **The buffer of an encoded message**: the nonce and what the encoder wrote, in
whatever pieces, with room for exactly the tag. -/
theorem encodeWithNonce_fills {lib : Crates} {msg : BinaryHttp.Message} {nonce : Block 32}
    {buf : Bytes} (h : encodeWithNonce lib msg nonce = some buf) :
    ∃ chunks, lib.bhttp.writeBhttp msg = (chunks, true) ∧
      buf = nonce.bytes ++ chunks.flatten ∧
      encodeCapacity lib msg = some (buf.length + tagLen) := by
  rw [encodeWithNonce_eq] at h
  obtain ⟨encoded, henc, rfl⟩ := Option.map_eq_some_iff.mp h
  obtain ⟨hvec, hfits⟩ := Option.filter_eq_some_iff.mp henc
  rw [decide_eq_true_eq] at hfits
  rcases hw : lib.bhttp.writeBhttp msg with ⟨chunks, written⟩
  cases written with
  | false =>
    rw [writeToVec, hw] at hvec
    cases hvec
  | true =>
    rw [writeToVec, hw] at hvec
    obtain rfl := Option.some.inj hvec
    have hn : responseNonceLen = 32 := rfl
    have ht : tagLen = 16 := rfl
    refine ⟨chunks, rfl, rfl, ?_⟩
    -- the sum fits, so the counter did not saturate and neither addition overflows
    simp only [encodeCapacity, hw, if_true, Option.bind_eq_bind]
    rw [byteCount_eq, Nat.min_eq_left (by omega), checkedAdd_of_le (by omega), Option.bind_some,
      checkedAdd_of_le (by omega), List.length_append, nonce.size, hn]

/-! ## The steps that can fail -/

section Steps
variable (lib : Crates) (S : Suite lib.kem) (ctx : ResponseContext) (buf : Bytes)

/-- The pseudorandom key of the response in a buffer. -/
def bufferPrk : Bytes :=
  lib.hkdf.extract (ctx.enc.bytes ++ buf.take ctx.secretLen) (ctx.secret.bytes.take ctx.secretLen)

/-- **The steps of `seal_buf` and `seal_response` that can fail**, each after those
before it. -/
inductive FailedStep : Prop where
  | nonceSlice (h : buf.length < ctx.secretLen)
  | keyExpansion (h : lib.hkdf.expand (bufferPrk lib ctx buf) (ascii "key") S.gcm.keySize = none)
  | nonceExpansion (h : lib.hkdf.expand (bufferPrk lib ctx buf) (ascii "nonce") 12 = none)
  | cipher {key : Block S.gcm.keySize}
      (hkey : lib.hkdf.expand (bufferPrk lib ctx buf) (ascii "key") S.gcm.keySize = some key)
      (h : S.gcm.newFromSlice key.bytes = none)
  | nonce {nonce : Block 12}
      (hnonce : lib.hkdf.expand (bufferPrk lib ctx buf) (ascii "nonce") 12 = some nonce)
      (h : S.gcm.nonceTryFrom nonce.bytes = none)
  | encryption {key : S.gcm.Cipher × S.gcm.Nonce}
      (hkey : responseKey lib S (ctx.enc.bytes ++ buf.take ctx.secretLen)
        (ctx.secret.bytes.take ctx.secretLen) = some key)
      (h : (S.gcm.encryptInOut key.1 key.2 [] (buf.drop ctx.secretLen)).2 = none)

variable {lib S ctx buf}

/-- The key schedule fails at one of its four steps. -/
theorem responseKey_eq_none_iff {salt secret : Bytes} :
    responseKey lib S salt secret = none ↔
      lib.hkdf.expand (lib.hkdf.extract salt secret) (ascii "key") S.gcm.keySize = none ∨
      lib.hkdf.expand (lib.hkdf.extract salt secret) (ascii "nonce") 12 = none ∨
      (∃ key, lib.hkdf.expand (lib.hkdf.extract salt secret) (ascii "key") S.gcm.keySize = some key ∧
        S.gcm.newFromSlice key.bytes = none) ∨
      ∃ nonce, lib.hkdf.expand (lib.hkdf.extract salt secret) (ascii "nonce") 12 = some nonce ∧
        S.gcm.nonceTryFrom nonce.bytes = none := by
  rw [responseKey]
  cases lib.hkdf.expand (lib.hkdf.extract salt secret) (ascii "key") S.gcm.keySize with
  | none => simp
  | some key =>
    cases lib.hkdf.expand (lib.hkdf.extract salt secret) (ascii "nonce") 12 with
    | none => simp
    | some nonce =>
      cases hc : S.gcm.newFromSlice key.bytes with
      | none => simp [hc]
      | some cipher =>
        cases hn : S.gcm.nonceTryFrom nonce.bytes with
        | none => simp [hc, hn]
        | some n => simp [hc, hn]

/-- Nothing is encrypted exactly when a step fails, in a buffer that holds a nonce. -/
theorem ciphertext_eq_none_iff (hlen : ctx.secretLen ≤ buf.length) :
    ctx.ciphertext lib S (buf.take ctx.secretLen) (buf.drop ctx.secretLen) = none ↔
      FailedStep lib S ctx buf := by
  rw [ResponseContext.ciphertext, sealedBytes]
  cases hkey : responseKey lib S (ctx.enc.bytes ++ buf.take ctx.secretLen)
      (ctx.secret.bytes.take ctx.secretLen) with
  | none =>
    simp only [Option.bind_eq_bind, Option.bind_none, true_iff]
    rcases responseKey_eq_none_iff.mp hkey with h | h | ⟨key, hk, h⟩ | ⟨nonce, hn, h⟩
    · exact .keyExpansion h
    · exact .nonceExpansion h
    · exact .cipher hk h
    · exact .nonce hn h
  | some k =>
    have hsome : ∀ P, responseKey lib S (ctx.enc.bytes ++ buf.take ctx.secretLen)
        (ctx.secret.bytes.take ctx.secretLen) = none → P := by
      intro P h
      rw [hkey] at h
      cases h
    simp only [Option.bind_eq_bind, Option.bind_some, Option.bind_eq_none_iff, Option.pure_def,
      reduceCtorEq, imp_false]
    constructor
    · intro h
      exact .encryption hkey (Option.eq_none_iff_forall_not_mem.mpr h)
    · intro h
      cases h with
      | nonceSlice h => omega
      | keyExpansion h => exact hsome _ (responseKey_eq_none_iff.mpr (Or.inl h))
      | nonceExpansion h => exact hsome _ (responseKey_eq_none_iff.mpr (Or.inr (Or.inl h)))
      | cipher hk h =>
        exact hsome _ (responseKey_eq_none_iff.mpr (Or.inr (Or.inr (Or.inl ⟨_, hk, h⟩))))
      | nonce hn h =>
        exact hsome _ (responseKey_eq_none_iff.mpr (Or.inr (Or.inr (Or.inr ⟨_, hn, h⟩))))
      | encryption hk h =>
        cases Option.some.inj (hkey.symm.trans hk)
        exact Option.eq_none_iff_forall_not_mem.mp h

/-- **Sealing a buffer** either encrypts all of it after the nonce, or wipes it because
a step failed. -/
theorem ResponseContext.OfSuite.sealInPlace_cases (h : ctx.OfSuite lib S) (buf : Bytes) :
    (∃ ct, ctx.secretLen ≤ buf.length ∧
      ctx.ciphertext lib S (buf.take ctx.secretLen) (buf.drop ctx.secretLen) = some ct ∧
      ctx.sealInPlace buf = (.ok (), buf.take ctx.secretLen ++ ct) ∧
      ¬ FailedStep lib S ctx buf) ∨
    (ctx.sealInPlace buf = (.error .refused, []) ∧ FailedStep lib S ctx buf) := by
  by_cases hlen : ctx.secretLen ≤ buf.length
  · have htake : (buf.take ctx.secretLen).length = S.secretLen := by
      rw [List.length_take, Nat.min_eq_left hlen, h.secretLen]
    have hseal := h.sealInPlace htake (buf.drop ctx.secretLen)
    rw [List.take_append_drop] at hseal
    have hiff : _ ↔ FailedStep lib S ctx buf := ciphertext_eq_none_iff hlen
    cases hct : ctx.ciphertext lib S (buf.take ctx.secretLen) (buf.drop ctx.secretLen) with
    | none =>
      rw [hct] at hseal hiff
      exact Or.inr ⟨hseal, hiff.mp rfl⟩
    | some ct =>
      rw [hct] at hseal hiff
      exact Or.inl ⟨ct, hlen, rfl, hseal, fun hf => absurd (hiff.mpr hf) (by simp)⟩
  · refine Or.inr ⟨?_, .nonceSlice (Nat.lt_of_not_le hlen)⟩
    rw [ResponseContext.sealInPlace, ResponseContext.sealBuf,
      ctx.sealBufInputs_eq (h.secretLen ▸ h.secretLen_le), if_neg hlen]

end Steps

/-! ## What leaves the buffer -/

/-- A suite whose secret does not fit its array opens nothing. -/
theorem openEnvelope_of_long_secret {lib : Crates} {S : Suite lib.kem} (hs : ¬ S.secretLen ≤ 32)
    (skR : Block 32) (body : Bytes) {r : Bytes × ResponseContext} :
    openEnvelope lib S skR body ≠ .ok r := by
  have hslice : sliceTo (Block.zero 32).bytes S.secretLen = .error .panicked :=
    if_neg (by simpa using hs)
  intro h
  unfold openEnvelope at h
  split at h
  · cases h
  · obtain ⟨head, -, h⟩ := bind_eq_ok.mp h
    split at h
    · cases h
    · -- the slice for the secret comes after the key is set up, and panics
      obtain ⟨rest, -, h⟩ := bind_eq_ok.mp h
      obtain ⟨⟨encBytes, ct⟩, -, h⟩ := bind_eq_ok.mp h
      obtain ⟨info, -, h⟩ := bind_eq_ok.mp h
      obtain ⟨sk, -, h⟩ := bind_eq_ok.mp h
      obtain ⟨enc, -, h⟩ := bind_eq_ok.mp h
      obtain ⟨rcv, -, h⟩ := bind_eq_ok.mp h
      rw [hslice] at h
      cases h

/-- The context of an opened envelope is one of its suite; a suite whose secret does not
fit its array opens nothing. -/
theorem ofSuite_of_openEnvelope {lib : Crates} {S : Suite lib.kem} (hk : S.gcm.keySize ≤ 32)
    {skR : Block 32} {body plaintext : Bytes} {ctx : ResponseContext}
    (h : openEnvelope lib S skR body = .ok (plaintext, ctx)) : ctx.OfSuite lib S := by
  by_cases hs : S.secretLen ≤ 32
  · obtain ⟨-, -, hopened⟩ := openEnvelope_ok hs h
    exact ofSuite_of_opened hs hk hopened
  · exact absurd h (openEnvelope_of_long_secret hs skR body)

section Route
variable {lib : Crates} {up : UpstreamClient} {signer : SigningState lib}
  {cfg : ConfidentialConfig} {env : Env} {req : Request}

/-- A sealed buffer has the length that was allocated for it, and keeps its nonce. -/
theorem sealInPlace_fills (ht : lib.aes256Gcm.tagSize = 16) {ctx : ResponseContext}
    (hof : ctx.OfSuite lib (confidentialSuite lib)) {msg : BinaryHttp.Message} {nonce : Block 32}
    {buf out : Bytes} (hbuf : encodeWithNonce lib msg nonce = some buf)
    (h : ctx.sealInPlace buf = (.ok (), out)) :
    ∃ ct tag : Bytes, out = nonce.bytes ++ (ct ++ tag) ∧ nonce.bytes.length + ct.length = buf.length ∧
      tag.length = tagLen ∧ encodeCapacity lib msg = some out.length ∧
      out.take responseNonceLen = nonce.bytes := by
  obtain ⟨chunks, -, rfl, hcap⟩ := encodeWithNonce_fills hbuf
  rw [hof.sealInPlace nonce.size] at h
  cases hct : ctx.ciphertext lib (confidentialSuite lib) nonce.bytes chunks.flatten with
  | none =>
    rw [hct] at h
    cases h
  | some sealed =>
    rw [hct] at h
    obtain ⟨-, rfl⟩ := Prod.mk.inj h
    simp only [ResponseContext.ciphertext, sealedBytes, Option.bind_eq_bind,
      Option.bind_eq_some_iff, Option.pure_def, Option.some.injEq] at hct
    obtain ⟨k, -, tag, htag, rfl⟩ := hct
    have htaglen : tag.bytes.length = 16 := tag.size.trans ht
    refine ⟨_, tag.bytes, rfl, by simp, htaglen, ?_, List.take_left' nonce.size⟩
    rw [hcap]
    have htl : tagLen = 16 := rfl
    simp only [List.length_append, Block.length_bytes, htaglen, htl, Option.some.injEq]
    omega

/-- An answer that is not sealed leaves the exchange as a response without a body. -/
theorem Reached.unsealed {plaintext : Bytes} {ctx : ResponseContext} {nonce : Block 32}
    {call : InnerCall} (hr : Reached lib signer cfg env req plaintext ctx nonce)
    (hc : (runInner lib up cfg env plaintext).result = some call)
    (hs : sealInner lib ctx nonce call.result = .error .refused) :
    ∃ resp out, (exchange lib up signer cfg env req).result = some (resp, out) ∧ resp.body = [] := by
  obtain ⟨hres, -⟩ := sealedExchange_read lib up signer env hr.received
  rw [hr.openedExchange, Run.result_andThen, hc, Option.bind_some, VrpcSidecar.answer,
    hs] at hres
  exact ⟨_, _, (exchange_of_sealedExchange hres).1, rfl⟩

end Route

/-- **Sealing in place leaves no plaintext behind.**  An encoded message is the nonce and
what the encoder wrote, in whatever pieces, and is a tag short of the capacity of its
buffer; sealed, it fills that capacity with the nonce unchanged in front.  For every
context that `open` makes and every buffer, sealing succeeds, or a step failed and the
buffer is wiped.  Then no bytes are returned by `seal_with_nonce` or `seal_inner`, and
the exchange answers without a body. -/
theorem in_place_sealing (lib : Crates) (ht : lib.aes256Gcm.tagSize = 16) :
    (∀ msg nonce buf, encodeWithNonce lib msg nonce = some buf →
      (∃ chunks, lib.bhttp.writeBhttp msg = (chunks, true) ∧
        buf = nonce.bytes ++ chunks.flatten ∧
        encodeCapacity lib msg = some (buf.length + tagLen)) ∧
      ∀ (signer : SigningState lib) body plaintext ctx out,
        signer.openRequest body = .ok (plaintext, ctx) →
        ctx.sealInPlace buf = (.ok (), out) →
        ∃ ct tag : Bytes, out = nonce.bytes ++ (ct ++ tag) ∧
          nonce.bytes.length + ct.length = buf.length ∧ tag.length = tagLen ∧
          encodeCapacity lib msg = some out.length ∧ out.take responseNonceLen = nonce.bytes) ∧
    (∀ (S : Suite lib.kem) skR body plaintext ctx, S.gcm.keySize ≤ 32 →
      openEnvelope lib S skR body = .ok (plaintext, ctx) →
      (∀ buf, (∃ out, ctx.sealInPlace buf = (.ok (), out) ∧ ¬ FailedStep lib S ctx buf) ∨
        (ctx.sealInPlace buf = (.error .refused, []) ∧ FailedStep lib S ctx buf)) ∧
      ∀ nonce q, (∃ out, ctx.sealWithNonce nonce q = .ok out ∧
          ctx.sealInPlace (nonce ++ q) = (.ok (), out)) ∨
        ctx.sealWithNonce nonce q = .error .refused) ∧
    ∀ (up : UpstreamClient) (signer : SigningState lib) (cfg : ConfidentialConfig) (env : Env)
      (req : Request) plaintext ctx nonce call,
      Reached lib signer cfg env req plaintext ctx nonce →
      (runInner lib up cfg env plaintext).result = some call →
      (∃ answer encoded ct, sealInner lib ctx nonce call.result = .ok answer ∧
        ctx.ciphertext lib (confidentialSuite lib) nonce.bytes encoded = some ct ∧
        answer.body = nonce.bytes ++ ct) ∨
      (sealInner lib ctx nonce call.result = .error .refused ∧
        ∃ resp out, (exchange lib up signer cfg env req).result = some (resp, out) ∧
          resp.body = []) := by
  refine ⟨fun msg nonce buf hbuf => ⟨encodeWithNonce_fills hbuf, ?_⟩, ?_, ?_⟩
  · intro signer body plaintext ctx out hopen hseal
    exact sealInPlace_fills ht (ofSuite_of_openRequest hopen) hbuf hseal
  · intro S skR body plaintext ctx hk hopen
    have hof := ofSuite_of_openEnvelope hk hopen
    refine ⟨fun buf => ?_, fun nonce q => ?_⟩
    · rcases hof.sealInPlace_cases buf with ⟨ct, -, -, hseal, hsteps⟩ | hfailed
      · exact Or.inl ⟨_, hseal, hsteps⟩
      · exact Or.inr hfailed
    · rw [ResponseContext.sealWithNonce]
      split
      · exact Or.inr rfl
      · rcases hof.sealInPlace_cases (nonce ++ q) with ⟨ct, -, -, hseal, -⟩ | ⟨hseal, -⟩
        · rw [hseal]
          exact Or.inl ⟨_, rfl, rfl⟩
        · rw [hseal]
          exact Or.inr rfl
  · intro up signer cfg env req plaintext ctx nonce call hr hc
    cases hs : sealInner lib ctx nonce call.result with
    | ok answer =>
      obtain ⟨encoded, ct, -, hct, hbody⟩ := sealInner_ok (ofSuite_of_openRequest hr.opened) hs
      exact Or.inl ⟨answer, encoded, ct, rfl, hct, hbody⟩
    | error fault =>
      cases fault with
      | panicked => exact absurd hs (hr.sealInner_not_panicked _)
      | refused => exact Or.inr ⟨rfl, hr.unsealed hc hs⟩

open KnownAnswers in
/-- The answer of the vector, encoded after its nonce, is sealed to the encapsulated
response of the vector in a buffer of that size; an empty buffer is refused. -/
theorem in_place_sealing_vector :
    ∃ buf ctx, encodeWithNonce crates relayed responseNonce = some buf ∧
      signer.openRequest encapsulatedRequest = .ok (bhttpRequest, ctx) ∧
      ctx.sealInPlace buf = (.ok (), encapsulatedResponse) ∧
      encodeCapacity crates relayed = some encapsulatedResponse.length ∧
      ctx.sealInPlace [] = (.error .refused, []) := by
  obtain ⟨ctx, hr, hs⟩ := opensAndSeals "/confidential"
  have hopen := hr.opened
  rw [content_post] at hopen
  have hbuf : encodeWithNonce crates relayed responseNonce =
      some (responseNonce.bytes ++ bhttpResponse) := by decide
  have hsealed : ctx.sealInPlace (responseNonce.bytes ++ bhttpResponse) =
      (.ok (), encapsulatedResponse) := by
    rw [sealInner, encodeResult, hbuf] at hs
    dsimp only at hs
    split at hs
    · rename_i out hseal
      cases hs
      exact hseal
    · cases hs
  obtain ⟨hencode, hbuffers, -⟩ := in_place_sealing crates rfl
  obtain ⟨-, hfills⟩ := hencode relayed responseNonce _ hbuf
  obtain ⟨-, -, -, -, -, hcap, -⟩ := hfills signer _ _ _ _ hopen hsealed
  refine ⟨_, ctx, hbuf, hopen, hsealed, hcap, ?_⟩
  have hsize : (confidentialSuite crates).gcm.keySize ≤ 32 := Nat.le_of_eq crates.aes256Gcm_keySize
  have hof := ofSuite_of_openRequest hopen
  rw [SigningState.openRequest, openRequest] at hopen
  rcases (hbuffers _ _ _ _ _ hsize hopen).1 [] with ⟨out, -, hsteps⟩ | ⟨hwiped, -⟩
  · refine absurd (FailedStep.nonceSlice ?_) hsteps
    rw [hof.secretLen]
    decide
  · exact hwiped

end VrpcSidecar
