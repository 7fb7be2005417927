import VrpcSidecar.Crates

/-! # The encapsulation of requests and responses

`envelope.rs`: RFC 9458 §4.3 and §4.4 composed from `hpke`, `hkdf` and `aes-gcm`.
An encapsulated request is a seven-byte header, a 32-byte encapsulated key and a
ciphertext; the sealed response is a nonce and a ciphertext with its tag, built in
one buffer whose first bytes are the nonce and are read back out of it.

The functions index and copy into fixed arrays, which panics when a length is
wrong, so they return in `Fallible`, which keeps a panic apart from a refusal.
`openEnvelope_eq` and `sealBufInputs_eq` say once what the two sides compute when the
suite's sizes fit the arrays; everything else about envelopes follows from them.
-/
namespace VrpcSidecar

/-! ## Fallible code over fixed arrays -/

/-- How a function fails: with `EnvelopeError` (or `None`), or by a panic. -/
inductive Fault where
  | refused
  | panicked
  deriving DecidableEq

/-- A computation that can be refused or panic. -/
abbrev Fallible := Except Fault

/-- `opt.ok_or(EnvelopeError)`, and `map_err(|_| EnvelopeError)`. -/
def orRefused {α : Type} : Option α → Fallible α
  | some a => .ok a
  | none => .error .refused

/-- `&bs[..n]`. -/
def sliceTo (bs : Bytes) (n : Nat) : Fallible Bytes :=
  if n ≤ bs.length then .ok (bs.take n) else .error .panicked

/-- `&bs[n..]`. -/
def sliceFrom (bs : Bytes) (n : Nat) : Fallible Bytes :=
  if n ≤ bs.length then .ok (bs.drop n) else .error .panicked

/-- `bs.split_at(n)`. -/
def splitAt (bs : Bytes) (n : Nat) : Fallible (Bytes × Bytes) :=
  if n ≤ bs.length then .ok (bs.take n, bs.drop n) else .error .panicked

/-- `dst[lo..hi].copy_from_slice(src)` where the slices are known to fit. -/
def Block.copied {m : Nat} (dst : Block m) (lo hi : Nat) (src : Bytes)
    (h : lo ≤ hi ∧ hi ≤ m ∧ src.length = hi - lo) : Block m :=
  ⟨dst.bytes.take lo ++ (src ++ dst.bytes.drop hi), by
    simp only [List.length_append, List.length_take, List.length_drop, dst.size]
    omega⟩

/-- `dst[lo..hi].copy_from_slice(src)`. -/
def Block.copyInto {m : Nat} (dst : Block m) (lo hi : Nat) (src : Bytes) : Fallible (Block m) :=
  if h : lo ≤ hi ∧ hi ≤ m ∧ src.length = hi - lo then .ok (dst.copied lo hi src h)
  else .error .panicked

section Slices
variable {α β : Type}

@[simp] theorem ok_bind {ε : Type} (a : α) (f : α → Except ε β) :
    ((.ok a : Except ε α) >>= f) = f a := rfl

/-- A sequence succeeds exactly when each part does. -/
theorem bind_eq_ok {ε : Type} {x : Except ε α} {f : α → Except ε β} {b : β} :
    (x >>= f) = .ok b ↔ ∃ a, x = .ok a ∧ f a = .ok b := by
  cases x with
  | error e => simp [bind, Except.bind]
  | ok a => simp

theorem exists_ok {ε : Type} {x : Except ε α} (h : x.toOption.isSome = true) : ∃ a, x = .ok a := by
  cases x with
  | error e => cases h
  | ok a => exact ⟨a, rfl⟩

@[simp] theorem orRefused_some (a : α) : orRefused (some a) = .ok a := rfl
@[simp] theorem orRefused_none : orRefused (none : Option α) = .error .refused := rfl

theorem orRefused_eq_ok {o : Option α} {a : α} : orRefused o = .ok a ↔ o = some a := by
  cases o <;> simp

theorem orRefused_not_panicked (o : Option α) : orRefused o ≠ .error .panicked := by
  cases o <;> simp

theorem sliceTo_of_le {bs : Bytes} {n : Nat} (h : n ≤ bs.length) :
    sliceTo bs n = .ok (bs.take n) := if_pos h

theorem sliceFrom_of_le {bs : Bytes} {n : Nat} (h : n ≤ bs.length) :
    sliceFrom bs n = .ok (bs.drop n) := if_pos h

theorem splitAt_of_le {bs : Bytes} {n : Nat} (h : n ≤ bs.length) :
    splitAt bs n = .ok (bs.take n, bs.drop n) := if_pos h

/-- Copying into a range of the right length. -/
theorem Block.copyInto_ok {m : Nat} (dst : Block m) (lo hi : Nat) (src : Bytes)
    (h : lo ≤ hi ∧ hi ≤ m ∧ src.length = hi - lo) :
    ∃ b, dst.copyInto lo hi src = .ok b ∧ b.bytes = dst.bytes.take lo ++ (src ++ dst.bytes.drop hi) :=
  ⟨_, dif_pos h, rfl⟩

/-- Copying behind what has been copied. -/
theorem Block.take_copied {m lo hi : Nat} (dst : Block m) {front src : Bytes}
    (h : lo ≤ hi ∧ hi ≤ m ∧ src.length = hi - lo) (hfront : dst.bytes.take lo = front)
    (hlo : front.length = lo) : (dst.copied lo hi src h).bytes.take hi = front ++ src := by
  have hlen : (front ++ src).length = hi := by
    rw [List.length_append, hlo, h.2.2]
    omega
  show (dst.bytes.take lo ++ (src ++ dst.bytes.drop hi)).take hi = _
  rw [hfront, ← List.append_assoc]
  exact List.take_left' hlen

/-- Copying into the front of a zeroed array. -/
theorem Block.copyInto_zero {m k : Nat} {src : Bytes} (h : k ≤ m) (hsrc : src.length = k) :
    (Block.zero m).copyInto 0 k src = .ok (Block.padded m src) := by
  subst hsrc
  obtain ⟨b, hb, hbytes⟩ :=
    Block.copyInto_ok (Block.zero m) 0 src.length src ⟨Nat.zero_le _, h, rfl⟩
  rw [hb]
  congr 1
  apply Block.ext
  rw [hbytes]
  simp [Block.padded, Block.zero, List.take_append, h]

end Slices

/-! ## Suites and contexts -/

/-- `RESPONSE_NONCE_LEN`. -/
def responseNonceLen : Nat := 32

/-- `HDR_LEN`. -/
def hdrLen : Nat := 7

/-- `ENC_LEN`. -/
def encLen : Nat := 32

/-- `TAG_LEN`. -/
def tagLen : Nat := 16

/-- `REQUEST_LABEL`. -/
def requestLabel : Bytes := ascii "message/bhttp request"

/-- `RESPONSE_LABEL`. -/
def responseLabel : Bytes := ascii "message/bhttp response"

/-- The trait `Suite`: HPKE with the suite's AEAD, the AEAD of responses, the
header, and `SECRET_LEN`. -/
structure Suite (kem : Kem) where
  hpke : Hpke kem
  gcm : Gcm
  hdr : Block 7
  secretLen : Nat

/-- `ConfidentialSuite`. -/
def confidentialSuite (lib : Crates) : Suite lib.kem where
  hpke := lib.hpkeAesGcm256
  gcm := lib.aes256Gcm
  hdr := ⟨[0x00, 0x00, 0x20, 0x00, 0x01, 0x00, 0x02], rfl⟩
  secretLen := 32

/-- `ResponseContext`: what sealing the one response to a request needs. -/
structure ResponseContext where
  enc : Block 32
  secret : Block 32
  secretLen : Nat
  /-- The suite's `seal_response`, taking the salt, the secret, the buffer and the
  offset of the plaintext in it; it gives the buffer back. -/
  sealFn : Bytes → Bytes → Bytes → Nat → Fallible Unit × Bytes

/-! ## Sealing -/

section Sealing
variable (lib : Crates) (S : Suite lib.kem)

/-- The cipher, the nonce and the plaintext of `seal_response`, up to the call that
encrypts. -/
def sealResponseInputs (salt secret buf : Bytes) (offset : Nat) :
    Fallible (S.gcm.Cipher × S.gcm.Nonce × Bytes) := do
  let prk := lib.hkdf.extract salt secret
  -- the key is expanded into a slice of a 32-byte array, which panics for a longer key
  let _ ← sliceTo (Block.zero 32).bytes S.gcm.keySize
  let key ← orRefused (lib.hkdf.expand prk (ascii "key") S.gcm.keySize)
  let nonce ← orRefused (lib.hkdf.expand prk (ascii "nonce") 12)
  let cipher ← orRefused (S.gcm.newFromSlice key.bytes)
  let nonce ← orRefused (S.gcm.nonceTryFrom nonce.bytes)
  let plaintext ← orRefused (if offset ≤ buf.length then some (buf.drop offset) else none)
  return (cipher, nonce, plaintext)

/-- `seal_response`: encrypt `buf[offset..]` in place and append the tag. -/
def sealResponse (salt secret buf : Bytes) (offset : Nat) : Fallible Unit × Bytes :=
  match sealResponseInputs lib S salt secret buf offset with
  | .error e => (.error e, buf)
  | .ok (cipher, nonce, plaintext) =>
    let out := S.gcm.encryptInOut cipher nonce [] plaintext
    match out.2 with
    -- a failed encryption leaves whatever it wrote in the buffer
    | none => (.error .refused, buf.take offset ++ out.1.bytes)
    | some tag => (.ok (), buf.take offset ++ (out.1.bytes ++ tag.bytes))

end Sealing

namespace ResponseContext
variable (ctx : ResponseContext)

/-- The salt and the secret of `seal_buf`. -/
def sealBufInputs (buf : Bytes) : Fallible (Bytes × Bytes) := do
  let responseNonce ← orRefused
    (if ctx.secretLen ≤ buf.length then some (buf.take ctx.secretLen) else none)
  let salt ← (Block.zero (encLen + 32)).copyInto 0 encLen ctx.enc.bytes
  let salt ← salt.copyInto encLen (encLen + ctx.secretLen) responseNonce
  let salt ← sliceTo salt.bytes (encLen + ctx.secretLen)
  let secret ← sliceTo ctx.secret.bytes ctx.secretLen
  return (salt, secret)

/-- `seal_buf`. -/
def sealBuf (buf : Bytes) : Fallible Unit × Bytes :=
  match ctx.sealBufInputs buf with
  | .error e => (.error e, buf)
  | .ok (salt, secret) => ctx.sealFn salt secret buf ctx.secretLen

/-- `seal_in_place`: on an error the buffer is wiped. -/
def sealInPlace (buf : Bytes) : Fallible Unit × Bytes :=
  match ctx.sealBuf buf with
  | (.error .refused, _) => (.error .refused, [])
  | r => r

/-- `seal_with_nonce`. -/
def sealWithNonce (responseNonce plaintext : Bytes) : Fallible Bytes :=
  if responseNonce.length ≠ ctx.secretLen then .error .refused
  else
    match ctx.sealInPlace (responseNonce ++ plaintext) with
    | (.ok (), out) => .ok out
    | (.error e, _) => .error e

/-- `ResponseContext::seal`. -/
def sealPlaintext (responseNonce : Block 32) (plaintext : Bytes) : Fallible Bytes :=
  ctx.sealWithNonce responseNonce.bytes plaintext

end ResponseContext

/-! ## Opening -/

/-- The HPKE `info` of a request: the label, a zero byte and the header, copied
into one array. -/
def requestInfo {kem : Kem} (S : Suite kem) : Fallible (Block 29) := do
  let info ← (Block.zero 29).copyInto 0 21 requestLabel
  info.copyInto 22 29 S.hdr.bytes

section Opening
variable (lib : Crates) (S : Suite lib.kem)

/-- `open` once the header is accepted. -/
def openAccepted (skR : Block 32) (body : Bytes) : Fallible (Bytes × ResponseContext) := do
  let rest ← sliceFrom body hdrLen
  let (encBytes, ct) ← splitAt rest encLen
  let info ← requestInfo S
  let sk ← orRefused (lib.kem.privateKeyFromBytes skR.bytes)
  let enc ← orRefused (lib.kem.encappedKeyFromBytes encBytes)
  let ctx ← orRefused (S.hpke.setupReceiver sk enc info.bytes)
  -- the secret is exported before the ciphertext is opened
  let _ ← sliceTo (Block.zero 32).bytes S.secretLen
  let exported ← orRefused (ctx.exportSecret responseLabel S.secretLen)
  let secret ← (Block.zero 32).copyInto 0 S.secretLen exported.bytes
  let plaintext ← orRefused (ctx.openFirst ct [])
  let encArr ← (Block.zero 32).copyInto 0 32 encBytes
  return (plaintext, ⟨encArr, secret, S.secretLen, sealResponse lib S⟩)

/-- `open`: the header is compared only when the length check has passed. -/
def openEnvelope (skR : Block 32) (body : Bytes) : Fallible (Bytes × ResponseContext) :=
  if body.length < hdrLen + encLen + tagLen then .error .refused
  else do
    let head ← sliceTo body hdrLen
    if head ≠ S.hdr.bytes then .error .refused else openAccepted lib S skR body

/-- `public_key`. -/
def publicKey (skR : Block 32) : Option (Block 32) :=
  (lib.kem.privateKeyFromBytes skR.bytes).map (fun sk => lib.kem.publicKeyToBytes (lib.kem.skToPk sk))

/-- `envelope::open_request`. -/
def openRequest (skR : Block 32) (body : Bytes) : Fallible (Bytes × ResponseContext) :=
  openEnvelope lib (confidentialSuite lib) skR body

end Opening

/-! ## What they compute -/

theorem requestInfo_eq {kem : Kem} (S : Suite kem) :
    ∃ info, requestInfo S = .ok info ∧ info.bytes = requestLabel ++ 0 :: S.hdr.bytes := by
  have hlabel : requestLabel.length = 21 := by decide
  obtain ⟨info, h, hbytes⟩ :=
    Block.copyInto_ok (Block.zero 29) 0 21 requestLabel ⟨by decide, by decide, hlabel⟩
  obtain ⟨info', h', hbytes'⟩ :=
    Block.copyInto_ok info 22 29 S.hdr.bytes ⟨by decide, by decide, S.hdr.size⟩
  refine ⟨info', ?_, ?_⟩
  · rw [requestInfo, h]
    exact h'
  · have hfill : info.bytes = requestLabel ++ List.replicate 8 0 := by
      rw [hbytes]
      rfl
    rw [hbytes', hfill, List.take_append, List.take_of_length_le (by omega), hlabel,
      List.drop_of_length_le (by simp [hlabel])]
    simp

section Spec
variable (lib : Crates) (S : Suite lib.kem)

/-- What opening an encapsulated request computes once its header is accepted. -/
def opened (skR : Block 32) (encBytes ct : Bytes) : Option (Bytes × ResponseContext) := do
  let sk ← lib.kem.privateKeyFromBytes skR.bytes
  let enc ← lib.kem.encappedKeyFromBytes encBytes
  let ctx ← S.hpke.setupReceiver sk enc (requestLabel ++ 0 :: S.hdr.bytes)
  let exported ← ctx.exportSecret responseLabel S.secretLen
  let plaintext ← ctx.openFirst ct []
  return (plaintext,
    ⟨Block.padded 32 encBytes, Block.padded 32 exported.bytes, S.secretLen, sealResponse lib S⟩)

theorem openAccepted_eq (hs : S.secretLen ≤ 32) (skR : Block 32) {body : Bytes}
    (hlen : 55 ≤ body.length) :
    openAccepted lib S skR body =
      orRefused (opened lib S skR ((body.drop 7).take 32) (body.drop 39)) := by
  have hdrop : 32 ≤ (body.drop 7).length := by
    rw [List.length_drop]
    omega
  have henc : ((body.drop 7).take 32).length = 32 := by
    rw [List.length_take]
    omega
  obtain ⟨info, hinfo, hbytes⟩ := requestInfo_eq S
  rw [openAccepted, opened, ← hbytes, hdrLen, sliceFrom_of_le (by omega), ok_bind, encLen,
    splitAt_of_le hdrop, ok_bind, List.drop_drop, hinfo]
  dsimp only
  rw [ok_bind]
  -- Each HPKE step refuses on both sides or hands its value to the next one.
  rcases lib.kem.privateKeyFromBytes skR.bytes with - | sk
  · rfl
  rcases lib.kem.encappedKeyFromBytes ((body.drop 7).take 32) with - | enc
  · rfl
  simp only [orRefused_some, ok_bind, Option.bind_eq_bind, Option.bind_some]
  rcases S.hpke.setupReceiver sk enc info.bytes with - | ctx
  · rfl
  rw [sliceTo_of_le (by simpa using hs)]
  simp only [orRefused_some, ok_bind, Option.bind_some]
  rcases ctx.exportSecret responseLabel S.secretLen with - | exported
  · rfl
  simp only [orRefused_some, ok_bind, Option.bind_some]
  rw [Block.copyInto_zero hs exported.size]
  rcases ctx.openFirst (body.drop 39) [] with - | plaintext
  · rfl
  simp only [orRefused_some, ok_bind, Option.bind_some]
  rw [Block.copyInto_zero (Nat.le_refl 32) henc]
  rfl

/-- **Opening an envelope**: a length and header check, then HPKE; nothing is
indexed out of bounds. -/
theorem openEnvelope_eq (hs : S.secretLen ≤ 32) (skR : Block 32) (body : Bytes) :
    openEnvelope lib S skR body =
      if 55 ≤ body.length ∧ body.take 7 = S.hdr.bytes then
        orRefused (opened lib S skR ((body.drop 7).take 32) (body.drop 39))
      else .error .refused := by
  by_cases hlen : 55 ≤ body.length
  · rw [openEnvelope, if_neg (by simp only [hdrLen, encLen, tagLen]; omega), hdrLen,
      sliceTo_of_le (by omega), ok_bind]
    by_cases hhdr : body.take 7 = S.hdr.bytes
    · rw [if_neg (not_not_intro hhdr), if_pos ⟨hlen, hhdr⟩, openAccepted_eq lib S hs skR hlen]
    · rw [if_pos hhdr, if_neg (fun h => hhdr h.2)]
  · rw [openEnvelope, if_pos (by simp only [hdrLen, encLen, tagLen]; omega),
      if_neg (fun h => hlen h.1)]

/-- The key schedule of a response: the cipher and the nonce it is sealed under. -/
def responseKey (salt secret : Bytes) : Option (S.gcm.Cipher × S.gcm.Nonce) := do
  let prk := lib.hkdf.extract salt secret
  let key ← lib.hkdf.expand prk (ascii "key") S.gcm.keySize
  let nonce ← lib.hkdf.expand prk (ascii "nonce") 12
  let cipher ← S.gcm.newFromSlice key.bytes
  let nonce ← S.gcm.nonceTryFrom nonce.bytes
  return (cipher, nonce)

theorem sealResponseInputs_eq (hk : S.gcm.keySize ≤ 32) (salt secret : Bytes) {buf : Bytes}
    {offset : Nat} (h : offset ≤ buf.length) :
    sealResponseInputs lib S salt secret buf offset =
      orRefused ((responseKey lib S salt secret).map (fun k => (k.1, k.2, buf.drop offset))) := by
  rw [sealResponseInputs, responseKey, sliceTo_of_le (by simpa using hk), ok_bind, if_pos h]
  rcases lib.hkdf.expand (lib.hkdf.extract salt secret) (ascii "key") S.gcm.keySize with - | key
  · rfl
  rcases lib.hkdf.expand (lib.hkdf.extract salt secret) (ascii "nonce") 12 with - | nonce
  · rfl
  simp only [orRefused_some, ok_bind, Option.bind_eq_bind, Option.bind_some]
  rcases S.gcm.newFromSlice key.bytes with - | cipher
  · rfl
  rcases S.gcm.nonceTryFrom nonce.bytes with - | nonce
  · rfl
  · rfl

/-- What sealing `plaintext` under a salt and a secret computes: the ciphertext with
its tag. -/
def sealedBytes (salt secret plaintext : Bytes) : Option Bytes := do
  let (cipher, nonce) ← responseKey lib S salt secret
  let out := S.gcm.encryptInOut cipher nonce [] plaintext
  let tag ← out.2
  return out.1.bytes ++ tag.bytes

/-- `seal_response` on a buffer that holds its offset. -/
theorem sealResponse_eq (hk : S.gcm.keySize ≤ 32) (salt secret : Bytes) {buf : Bytes}
    {offset : Nat} (h : offset ≤ buf.length) :
    (∃ ct, sealedBytes lib S salt secret (buf.drop offset) = some ct ∧
      sealResponse lib S salt secret buf offset = (.ok (), buf.take offset ++ ct)) ∨
    (sealedBytes lib S salt secret (buf.drop offset) = none ∧
      (sealResponse lib S salt secret buf offset).1 = .error .refused) := by
  rw [sealResponse, sealedBytes, sealResponseInputs_eq lib S hk salt secret h]
  rcases responseKey lib S salt secret with - | ⟨cipher, nonce⟩
  · exact Or.inr ⟨rfl, rfl⟩
  simp only [Option.map_some, orRefused_some, Option.bind_eq_bind, Option.bind_some]
  rcases (S.gcm.encryptInOut cipher nonce [] (buf.drop offset)).2 with - | tag
  · exact Or.inr ⟨rfl, rfl⟩
  · exact Or.inl ⟨_, rfl, rfl⟩

end Spec

namespace ResponseContext
variable (ctx : ResponseContext)

/-- The salt of a response: the encapsulated key and the response nonce. -/
theorem sealBufInputs_eq (hs : ctx.secretLen ≤ 32) (buf : Bytes) :
    ctx.sealBufInputs buf =
      if ctx.secretLen ≤ buf.length then
        .ok (ctx.enc.bytes ++ buf.take ctx.secretLen, ctx.secret.bytes.take ctx.secretLen)
      else .error .refused := by
  by_cases h : ctx.secretLen ≤ buf.length
  · have hnonce : (buf.take ctx.secretLen).length = ctx.secretLen := by
      rw [List.length_take]
      omega
    have henc : encLen = 32 := rfl
    obtain ⟨salt, hsalt, hb⟩ := Block.copyInto_ok (Block.zero (encLen + 32)) 0 encLen ctx.enc.bytes
      ⟨by decide, by decide, ctx.enc.size⟩
    obtain ⟨salt', hsalt', hb'⟩ := Block.copyInto_ok salt encLen (encLen + ctx.secretLen)
      (buf.take ctx.secretLen) ⟨by omega, by omega, by omega⟩
    have htake : salt'.bytes.take (encLen + ctx.secretLen) =
        ctx.enc.bytes ++ buf.take ctx.secretLen := by
      have hpre : salt.bytes.take encLen = ctx.enc.bytes := by
        rw [hb, List.take_zero, List.nil_append]
        exact List.take_left' ctx.enc.size
      rw [hb', hpre, ← List.append_assoc]
      exact List.take_left' (by simp [hnonce, henc])
    rw [sealBufInputs, if_pos h, if_pos h, orRefused_some, ok_bind, hsalt, ok_bind, hsalt', ok_bind,
      sliceTo_of_le (by rw [salt'.size]; omega), ok_bind, sliceTo_of_le (by simpa using hs), ok_bind,
      htake]
    rfl
  · rw [sealBufInputs, if_neg h, if_neg h]
    rfl

/-- The context is one that `open` makes for the suite, whose sizes fit the arrays. -/
structure OfSuite (lib : Crates) (S : Suite lib.kem) : Prop where
  sealFn : ctx.sealFn = sealResponse lib S
  secretLen : ctx.secretLen = S.secretLen
  secretLen_le : S.secretLen ≤ 32
  keySize_le : S.gcm.keySize ≤ 32

/-- What sealing `plaintext` under `nonce` appends to the nonce. -/
def ciphertext (lib : Crates) (S : Suite lib.kem) (nonce plaintext : Bytes) : Option Bytes :=
  sealedBytes lib S (ctx.enc.bytes ++ nonce) (ctx.secret.bytes.take ctx.secretLen) plaintext

variable {ctx} {lib : Crates} {S : Suite lib.kem}

/-- **Sealing in place**: the nonce stays, the plaintext becomes ciphertext and tag;
when a step is refused the buffer is wiped. -/
theorem OfSuite.sealInPlace (h : ctx.OfSuite lib S) {nonce : Bytes}
    (hn : nonce.length = S.secretLen) (plaintext : Bytes) :
    ctx.sealInPlace (nonce ++ plaintext) =
      match ctx.ciphertext lib S nonce plaintext with
      | some ct => (.ok (), nonce ++ ct)
      | none => (.error .refused, []) := by
  have hlen : ctx.secretLen = nonce.length := h.secretLen.trans hn.symm
  have hle : nonce.length ≤ (nonce ++ plaintext).length := by simp
  have hkey := h.keySize_le
  rw [ResponseContext.sealInPlace, sealBuf, ctx.sealBufInputs_eq (h.secretLen ▸ h.secretLen_le),
    hlen, if_pos hle]
  dsimp only
  rw [h.sealFn, List.take_left, ciphertext, hlen]
  rcases sealResponse_eq lib S hkey (ctx.enc.bytes ++ nonce) (ctx.secret.bytes.take nonce.length)
    hle with ⟨ct, hct, heq⟩ | ⟨hct, heq⟩
  · rw [List.drop_left] at hct
    rw [heq, hct, List.take_left]
  · rw [List.drop_left] at hct
    rw [hct]
    rcases hr : sealResponse lib S (ctx.enc.bytes ++ nonce) (ctx.secret.bytes.take nonce.length)
      (nonce ++ plaintext) nonce.length with ⟨r, buf⟩
    rw [hr] at heq
    dsimp only at heq
    rw [heq]

/-- Sealing into a new buffer gives the same bytes as sealing in place. -/
theorem OfSuite.sealWithNonce (h : ctx.OfSuite lib S) {nonce : Bytes}
    (hn : nonce.length = S.secretLen) (plaintext : Bytes) :
    ctx.sealWithNonce nonce plaintext =
      orRefused ((ctx.ciphertext lib S nonce plaintext).map (fun ct => nonce ++ ct)) := by
  rw [ResponseContext.sealWithNonce, if_neg (by rw [h.secretLen]; exact not_not_intro hn),
    h.sealInPlace hn]
  cases ctx.ciphertext lib S nonce plaintext <;> rfl

end ResponseContext

section Opened
variable {lib : Crates} {S : Suite lib.kem} {skR : Block 32} {body plaintext : Bytes}
  {ctx : ResponseContext}

/-- What an accepted envelope contains, and the context it leaves. -/
theorem openEnvelope_ok (hs : S.secretLen ≤ 32)
    (h : openEnvelope lib S skR body = .ok (plaintext, ctx)) :
    55 ≤ body.length ∧ body.take 7 = S.hdr.bytes ∧
      opened lib S skR ((body.drop 7).take 32) (body.drop 39) = some (plaintext, ctx) := by
  rw [openEnvelope_eq lib S hs] at h
  split at h
  · rename_i hc
    exact ⟨hc.1, hc.2, orRefused_eq_ok.mp h⟩
  · cases h

/-- What HPKE did for an envelope that was opened. -/
theorem opened_iff {encBytes ct : Bytes} :
    opened lib S skR encBytes ct = some (plaintext, ctx) ↔
      ∃ sk enc rcv exported, lib.kem.privateKeyFromBytes skR.bytes = some sk ∧
        lib.kem.encappedKeyFromBytes encBytes = some enc ∧
        S.hpke.setupReceiver sk enc (requestLabel ++ 0 :: S.hdr.bytes) = some rcv ∧
        rcv.exportSecret responseLabel S.secretLen = some exported ∧
        rcv.openFirst ct [] = some plaintext ∧
        ctx = ⟨Block.padded 32 encBytes, Block.padded 32 exported.bytes, S.secretLen,
          sealResponse lib S⟩ := by
  simp only [opened, Option.bind_eq_bind, Option.bind_eq_some_iff, Option.pure_def,
    Option.some.injEq, Prod.mk.injEq]
  constructor
  · rintro ⟨sk, hsk, enc, henc, rcv, hrcv, exported, hexp, pt, hpt, rfl, rfl⟩
    exact ⟨sk, enc, rcv, exported, hsk, henc, hrcv, hexp, hpt, rfl⟩
  · rintro ⟨sk, enc, rcv, exported, hsk, henc, hrcv, hexp, hpt, rfl⟩
    exact ⟨sk, hsk, enc, henc, rcv, hrcv, exported, hexp, plaintext, hpt, rfl, rfl⟩

/-- The context of an opened envelope is one of its suite. -/
theorem ofSuite_of_opened {encBytes ct : Bytes} (hs : S.secretLen ≤ 32)
    (hk : S.gcm.keySize ≤ 32) (h : opened lib S skR encBytes ct = some (plaintext, ctx)) :
    ctx.OfSuite lib S := by
  obtain ⟨sk, enc, rcv, exported, -, -, -, -, -, rfl⟩ := opened_iff.mp h
  exact ⟨rfl, rfl, hs, hk⟩

/-- Opening never panics. -/
theorem openEnvelope_not_panicked (hs : S.secretLen ≤ 32) (skR : Block 32) (body : Bytes) :
    openEnvelope lib S skR body ≠ .error .panicked := by
  rw [openEnvelope_eq lib S hs]
  split
  · exact orRefused_not_panicked _
  · simp

end Opened

end VrpcSidecar
