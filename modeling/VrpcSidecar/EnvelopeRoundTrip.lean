import VrpcSidecar.KnownAnswers

/-! # The envelope round trip

The client of RFC 9458 is a different program.  `encapsulate` and `clientOpen` are
its two sides: how it builds an encapsulated request from a plaintext, and how it
opens the sealed response, from the labels and layouts of §4.3 and §4.4 alone.  For
every suite whose sizes fit the sidecar's arrays, the sidecar opens what the client
encapsulated and the client opens what the sidecar sealed; and nothing but such an
envelope is opened, at any length of input.
-/
namespace VrpcSidecar

section Client
variable (lib : Crates) (S : Suite lib.kem)

/-- **The client's request**: the header, the encapsulated key and the ciphertext, and
the context it keeps. -/
def encapsulate (pk : lib.kem.PublicKey) (rng plaintext : Bytes) :
    Option (Bytes × lib.kem.EncappedKey × SenderContext) := do
  let info := ascii "message/bhttp request" ++ 0x00 :: S.hdr.bytes
  let (enc, snd) ← S.hpke.setupSender pk info rng
  let ct ← snd.sealFirst plaintext []
  return (S.hdr.bytes ++ ((lib.kem.encappedKeyToBytes enc).bytes ++ ct), enc, snd)

/-- **The client's reading of a response**: split off the response nonce, derive the
key and the nonce of the AEAD, open the rest. -/
def clientOpen (enc : lib.kem.EncappedKey) (snd : SenderContext) (response : Bytes) :
    Option Bytes := do
  let responseNonce := response.take S.secretLen
  let secret ← snd.exportSecret (ascii "message/bhttp response") S.secretLen
  let prk := lib.hkdf.extract ((lib.kem.encappedKeyToBytes enc).bytes ++ responseNonce) secret.bytes
  let key ← (lib.hkdf.expand prk (ascii "key") S.gcm.keySize).map Block.bytes
  let nonce ← (lib.hkdf.expand prk (ascii "nonce") S.gcm.nonceSize).map Block.bytes
  let cipher ← S.gcm.newFromSlice key
  let nonce ← S.gcm.nonceTryFrom nonce
  S.gcm.decrypt cipher nonce [] (response.drop S.secretLen)

end Client

section Response
variable {lib : Crates} {S : Suite lib.kem}

/-- The client's key schedule is the sidecar's. -/
theorem clientOpen_eq (hn : S.gcm.nonceSize = 12) {enc : lib.kem.EncappedKey} {snd : SenderContext}
    {secret : Block S.secretLen} (hs : snd.exportSecret responseLabel S.secretLen = some secret)
    {nonce ct : Bytes} (hlen : nonce.length = S.secretLen) :
    clientOpen lib S enc snd (nonce ++ ct) =
      (responseKey lib S ((lib.kem.encappedKeyToBytes enc).bytes ++ nonce) secret.bytes).bind
        (fun k => S.gcm.decrypt k.1 k.2 [] ct) := by
  have hnonce : ∀ prk, (lib.hkdf.expand prk (ascii "nonce") S.gcm.nonceSize).map Block.bytes =
      (lib.hkdf.expand prk (ascii "nonce") 12).map Block.bytes := by
    intro prk
    rw [hn]
  have hs' : snd.exportSecret (ascii "message/bhttp response") S.secretLen = some secret := hs
  simp only [clientOpen, responseKey, hs', hnonce, List.take_left' hlen, List.drop_left' hlen,
    Option.bind_eq_bind, Option.bind_some, Option.pure_def, Option.bind_assoc, Option.bind_map,
    Function.comp_def]

/-- Under the rules of HKDF and the AEAD the key schedule succeeds. -/
theorem responseKey_some (hkdf : lib.hkdf.ExpandRule) (hgcm : S.gcm.AeadRule)
    (hk : S.gcm.keySize ≤ 32) (hn : S.gcm.nonceSize = 12) (salt secret : Bytes) :
    ∃ k, responseKey lib S salt secret = some k := by
  obtain ⟨key, hkey⟩ := hkdf (lib.hkdf.extract salt secret) (ascii "key") S.gcm.keySize (by omega)
  obtain ⟨nonce, hnonce⟩ := hkdf (lib.hkdf.extract salt secret) (ascii "nonce") 12 (by omega)
  obtain ⟨c, hc⟩ := hgcm.key key.bytes key.size
  obtain ⟨n, hn'⟩ := hgcm.nonce nonce.bytes (nonce.size.trans hn.symm)
  exact ⟨(c, n), by simp [responseKey, hkey, hnonce, hc, hn']⟩

/-- What was sealed is opened under the same key schedule, and is a tag longer. -/
theorem sealedBytes_spec (hgcm : S.gcm.AeadRule) {salt secret q ct : Bytes}
    (h : sealedBytes lib S salt secret q = some ct) :
    (responseKey lib S salt secret).bind (fun k => S.gcm.decrypt k.1 k.2 [] ct) = some q ∧
      ct.length = q.length + S.gcm.tagSize := by
  simp only [sealedBytes, Option.bind_eq_bind, Option.bind_eq_some_iff, Option.pure_def,
    Option.some.injEq] at h
  obtain ⟨⟨c, n⟩, hkey, tag, htag, rfl⟩ := h
  rw [hkey, Option.bind_some]
  exact ⟨hgcm.undone c n [] q tag htag, by simp⟩

theorem sealedBytes_some (hkdf : lib.hkdf.ExpandRule) (hgcm : S.gcm.AeadRule)
    (hk : S.gcm.keySize ≤ 32) (hn : S.gcm.nonceSize = 12) (salt secret : Bytes) {q : Bytes}
    (hq : q.length ≤ S.gcm.limit) : ∃ ct, sealedBytes lib S salt secret q = some ct := by
  obtain ⟨⟨c, n⟩, hkey⟩ := responseKey_some hkdf hgcm hk hn salt secret
  obtain ⟨tag, htag⟩ := hgcm.succeeds c n [] q hq
  exact ⟨_, by simp only [sealedBytes, hkey, Option.bind_eq_bind, Option.bind_some, htag]; rfl⟩

end Response

section RoundTrip
variable {lib : Crates} {S : Suite lib.kem}

/-- The sidecar opens what the receiver of its key opens; the context it gets holds the
encapsulated key and the receiver's secret. -/
theorem openEnvelope_of_receiver (hs : S.secretLen ≤ 32) {skR enc : Block 32}
    {sk : lib.kem.PrivateKey} {e : lib.kem.EncappedKey} {rcv : ReceiverContext}
    {secret : Block S.secretLen} {plaintext ct : Bytes}
    (hsk : lib.kem.privateKeyFromBytes skR.bytes = some sk)
    (henc : lib.kem.encappedKeyFromBytes enc.bytes = some e)
    (hrcv : S.hpke.setupReceiver sk e
      (ascii "message/bhttp request" ++ 0x00 :: S.hdr.bytes) = some rcv)
    (hsecret : rcv.exportSecret responseLabel S.secretLen = some secret)
    (hopen : rcv.openFirst ct [] = some plaintext) (hct : ct.length = plaintext.length + 16) :
    openEnvelope lib S skR (S.hdr.bytes ++ (enc.bytes ++ ct)) = .ok (plaintext,
      ⟨enc, Block.padded 32 secret.bytes, S.secretLen, sealResponse lib S⟩) := by
  have hhdr : S.hdr.bytes.length = 7 := S.hdr.size
  have henclen : enc.bytes.length = 32 := enc.size
  rw [openEnvelope_eq lib S hs, if_pos]
  · rw [List.drop_left' hhdr, List.take_left' henclen, ← List.append_assoc,
      List.drop_left' (by simp), orRefused_eq_ok, opened_iff]
    refine ⟨sk, e, rcv, secret, hsk, henc, hrcv, hsecret, hopen, ?_⟩
    congr 1
    exact Block.ext (Block.padded_bytes henclen).symm
  · refine ⟨?_, List.take_left' hhdr⟩
    simp only [List.length_append, hhdr, henclen]
    omega

/-- The sidecar opens what a client encapsulated to its key; the context it gets holds
the client's encapsulated key and the client's secret. -/
theorem openEnvelope_encapsulate (hmatch : S.hpke.MatchRule) (hs : S.secretLen ≤ 32)
    {skR : Block 32} {sk : lib.kem.PrivateKey} (hsk : lib.kem.privateKeyFromBytes skR.bytes = some sk)
    {rng plaintext body : Bytes} {enc : lib.kem.EncappedKey} {snd : SenderContext}
    (h : encapsulate lib S (lib.kem.skToPk sk) rng plaintext = some (body, enc, snd)) :
    ∃ secret, snd.exportSecret responseLabel S.secretLen = some secret ∧
      openEnvelope lib S skR body = .ok (plaintext,
        ⟨lib.kem.encappedKeyToBytes enc, Block.padded 32 secret.bytes, S.secretLen,
          sealResponse lib S⟩) := by
  simp only [encapsulate, Option.bind_eq_bind, Option.bind_eq_some_iff, Option.pure_def,
    Option.some.injEq, Prod.mk.injEq] at h
  obtain ⟨⟨enc', snd'⟩, hsetup, ct, hct, rfl, rfl, rfl⟩ := h
  obtain ⟨rcv, hrcv, hexp, hopen, hsize, hsecret⟩ := hmatch.setup sk _ rng enc' snd' hsetup
  obtain ⟨secret, hsec⟩ := hsecret responseLabel S.secretLen hs
  exact ⟨secret, hsec, openEnvelope_of_receiver hs hsk (hmatch.encapped enc') hrcv
    (by rw [hexp]; exact hsec) (hopen plaintext [] ct hct) (hsize plaintext [] ct hct)⟩

/-- The client opens what the sidecar sealed under the context of its request. -/
theorem clientOpen_sealWithNonce (hgcm : S.gcm.AeadRule) (hs : S.secretLen ≤ 32)
    (hk : S.gcm.keySize ≤ 32) (hn : S.gcm.nonceSize = 12) (ht : S.gcm.tagSize = 16)
    {enc : lib.kem.EncappedKey} {snd : SenderContext} {secret : Block S.secretLen}
    (hsec : snd.exportSecret responseLabel S.secretLen = some secret) {nonce q response : Bytes}
    (hlen : nonce.length = S.secretLen)
    (h : (⟨lib.kem.encappedKeyToBytes enc, Block.padded 32 secret.bytes, S.secretLen,
      sealResponse lib S⟩ : ResponseContext).sealWithNonce nonce q = .ok response) :
    clientOpen lib S enc snd response = some q ∧
      response.length = S.secretLen + q.length + 16 := by
  have hof : ResponseContext.OfSuite ⟨lib.kem.encappedKeyToBytes enc, Block.padded 32 secret.bytes,
      S.secretLen, sealResponse lib S⟩ lib S := ⟨rfl, rfl, hs, hk⟩
  rw [hof.sealWithNonce hlen, orRefused_eq_ok] at h
  obtain ⟨ct, hct, rfl⟩ := Option.map_eq_some_iff.mp h
  have hsecret : (Block.padded 32 secret.bytes).bytes.take S.secretLen = secret.bytes := by
    have := Block.take_padded (by rw [secret.size]; exact hs : secret.bytes.length ≤ 32)
    rwa [secret.size] at this
  rw [ResponseContext.ciphertext, hsecret] at hct
  obtain ⟨hopen, hctlen⟩ := sealedBytes_spec hgcm hct
  refine ⟨(clientOpen_eq hn hsec hlen).trans hopen, ?_⟩
  rw [List.length_append, hlen, hctlen, ht, Nat.add_assoc]

/-- **The envelope round trip, for every suite whose sizes fit.**  The sidecar opens a
client's request to exactly its plaintext, and the client opens the sealed response
to exactly what was sealed; sealing succeeds on every plaintext the AEAD takes.
Conversely, opening never panics, and opens only a body of at least 55 bytes that
starts with the header and whose rest HPKE opens under its encapsulated key. -/
theorem envelope_round_trip (lib : Crates) (S : Suite lib.kem) (hmatch : S.hpke.MatchRule)
    (hkdf : lib.hkdf.ExpandRule) (hgcm : S.gcm.AeadRule) (hs : S.secretLen ≤ 32)
    (hk : S.gcm.keySize ≤ 32) (hn : S.gcm.nonceSize = 12) (ht : S.gcm.tagSize = 16) :
    (∀ (skR : Block 32) (sk : lib.kem.PrivateKey) (rng p body : Bytes) (enc : lib.kem.EncappedKey)
        (snd : SenderContext), lib.kem.privateKeyFromBytes skR.bytes = some sk →
        encapsulate lib S (lib.kem.skToPk sk) rng p = some (body, enc, snd) →
        ∃ ctx, openEnvelope lib S skR body = .ok (p, ctx) ∧
          ∀ responseNonce q : Bytes, responseNonce.length = S.secretLen →
            (q.length ≤ S.gcm.limit → ∃ response, ctx.sealWithNonce responseNonce q = .ok response) ∧
            ∀ response, ctx.sealWithNonce responseNonce q = .ok response →
              response.take S.secretLen = responseNonce ∧
              clientOpen lib S enc snd response = some q ∧
              response.length = S.secretLen + q.length + 16) ∧
    (∀ (skR : Block 32) (body : Bytes), openEnvelope lib S skR body ≠ .error .panicked) ∧
    (∀ (skR : Block 32) (body plaintext : Bytes) (ctx : ResponseContext),
        openEnvelope lib S skR body = .ok (plaintext, ctx) →
        7 + 32 + 16 ≤ body.length ∧ S.hdr.bytes <+: body ∧
          ∃ sk enc rcv, lib.kem.privateKeyFromBytes skR.bytes = some sk ∧
            lib.kem.encappedKeyFromBytes ((body.drop 7).take 32) = some enc ∧
            S.hpke.setupReceiver sk enc (ascii "message/bhttp request" ++ 0x00 :: S.hdr.bytes) =
              some rcv ∧
            rcv.openFirst (body.drop 39) [] = some plaintext) := by
  refine ⟨?_, fun skR body => openEnvelope_not_panicked hs skR body, ?_⟩
  · intro skR sk rng p body enc snd hsk henc
    obtain ⟨secret, hsec, hopen⟩ := openEnvelope_encapsulate hmatch hs hsk henc
    have hof : ResponseContext.OfSuite ⟨lib.kem.encappedKeyToBytes enc,
        Block.padded 32 secret.bytes, S.secretLen, sealResponse lib S⟩ lib S := ⟨rfl, rfl, hs, hk⟩
    refine ⟨_, hopen, fun responseNonce q hlen => ⟨fun hq => ?_, fun response hresp => ?_⟩⟩
    · obtain ⟨ct, hct⟩ := sealedBytes_some hkdf hgcm hk hn
        ((lib.kem.encappedKeyToBytes enc).bytes ++ responseNonce)
        ((Block.padded 32 secret.bytes).bytes.take S.secretLen) hq
      refine ⟨responseNonce ++ ct, ?_⟩
      rw [hof.sealWithNonce hlen, ResponseContext.ciphertext, hct]
      rfl
    · refine ⟨?_, clientOpen_sealWithNonce hgcm hs hk hn ht hsec hlen hresp⟩
      rw [hof.sealWithNonce hlen, orRefused_eq_ok] at hresp
      obtain ⟨ct, -, rfl⟩ := Option.map_eq_some_iff.mp hresp
      exact List.take_left' hlen
  · intro skR body plaintext ctx h
    obtain ⟨hlen, hhdr, hopened⟩ := openEnvelope_ok hs h
    obtain ⟨sk, enc, rcv, exported, hsk, henc, hrcv, -, hopen, -⟩ := opened_iff.mp hopened
    exact ⟨hlen, hhdr ▸ List.take_prefix 7 body, sk, enc, rcv, hsk, henc, hrcv, hopen⟩

namespace KnownAnswers

/-- The client of the vector encapsulates its request. -/
theorem encapsulated :
    encapsulate crates (confidentialSuite crates) (kem.skToPk skR) enc.bytes bhttpRequest =
      some (encapsulatedRequest, enc, sender) := by
  have hwrap : requestAead.wrap bhttpRequest = requestCiphertext := if_pos rfl
  have henc : Block.padded 32 enc.bytes = enc := Block.ext (Block.padded_bytes enc.size)
  show some (_ ++ ((Block.padded 32 enc.bytes).bytes ++ requestAead.wrap bhttpRequest),
    Block.padded 32 enc.bytes, sender) = _
  rw [hwrap, henc]
  rfl

end KnownAnswers

open KnownAnswers in
/-- The round trip on the known-answer vector. -/
theorem envelope_round_trip_vector :
    encapsulate crates (confidentialSuite crates) (kem.skToPk skR) enc.bytes bhttpRequest =
        some (encapsulatedRequest, enc, sender) ∧
      ∃ ctx, openEnvelope crates (confidentialSuite crates) skR encapsulatedRequest =
          .ok (bhttpRequest, ctx) ∧
        ∃ response, ctx.sealWithNonce responseNonce.bytes bhttpResponse = .ok response ∧
          clientOpen crates (confidentialSuite crates) enc sender response = some bhttpResponse := by
  obtain ⟨hround, -, -⟩ := envelope_round_trip crates (confidentialSuite crates) hpke_matches
    hkdf_expands aes256Gcm_aead (by decide) (by decide) rfl rfl
  obtain ⟨ctx, hopen, hresp⟩ := hround skR skR enc.bytes bhttpRequest encapsulatedRequest enc sender
    (keyFromBytes_bytes skR) encapsulated
  obtain ⟨hsome, hall⟩ := hresp responseNonce.bytes bhttpResponse responseNonce.size
  obtain ⟨response, hresponse⟩ := hsome (by decide)
  exact ⟨encapsulated, ctx, hopen, response, hresponse, (hall response hresponse).2.1⟩

end RoundTrip
end VrpcSidecar
