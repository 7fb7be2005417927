import VrpcSidecar.KnownAnswers

/-! # What a signature is bound to

The 104 bytes that are signed are three hashes and a timestamp at fixed offsets, so they
determine the four parts (`readPreImage_buildPreImage`), and the parts determine the
chain id, the two bodies and the time as far as SHA-256 tells inputs apart.  Chain ids
are compared after trimming: a validated id is its own trimmed text, and its bytes
determine it.
-/
namespace VrpcSidecar

/-! ## Validated chain ids -/

/-- **What `validate_chain_id` returns for an input**: the trimmed input, when it is not
empty, has at most 64 bytes and is printable ASCII without white space. -/
structure IsChainId (raw t : Text) : Prop where
  trimmed : t = trim raw
  nonempty : t ≠ []
  bounded : (utf8 t).length ≤ chainIdMaxLen
  graphic : ∀ c ∈ t, isAsciiGraphic c = true

theorem find?_not_graphic {s : Text} :
    s.find? (fun c => !isAsciiGraphic c) = none ↔ ∀ c ∈ s, isAsciiGraphic c = true := by
  simp [List.find?_eq_none]

theorem validateChainId_ok_iff {raw t : Text} :
    validateChainId raw = .ok t ↔ IsChainId raw t := by
  unfold validateChainId
  dsimp only
  constructor
  · intro h
    split at h
    · cases h
    · rename_i hne
      split at h
      · cases h
      · rename_i hlen
        split at h
        · cases h
        · rename_i hfind
          cases h
          exact ⟨rfl, hne, Nat.le_of_not_gt hlen, find?_not_graphic.mp hfind⟩
  · rintro ⟨rfl, hne, hlen, hgraphic⟩
    rw [if_neg hne, if_neg (Nat.not_lt.mpr hlen), find?_not_graphic.mpr hgraphic]

/-- A validated chain id is its own trimmed text. -/
theorem IsChainId.trim_eq {raw t : Text} (h : IsChainId raw t) : trim t = t :=
  trim_eq_self (fun c hc => isWhitespace_of_graphic (h.graphic c hc))

theorem IsChainId.idempotent {raw t : Text} (h : IsChainId raw t) : IsChainId t t :=
  ⟨h.trim_eq.symm, h.nonempty, h.bounded, h.graphic⟩

/-! ## Reading a pre-image -/

/-- `u64::from_le_bytes`. -/
def readLE (bs : Bytes) : UInt64 := UInt64.ofNat (ofBE 0 bs.reverse)

/-- The four parts of a pre-image, read at the published offsets. -/
def readPreImage (p : Block 104) : Bytes × Bytes × Bytes × UInt64 :=
  (p.bytes.take reqHashOffset,
    (p.bytes.drop reqHashOffset).take (respHashOffset - reqHashOffset),
    (p.bytes.drop respHashOffset).take (timestampOffset - respHashOffset),
    readLE (p.bytes.drop timestampOffset))

theorem readLE_toLE (t : UInt64) : readLE (toLE t) = t := by
  rw [readLE, toLE, List.reverse_reverse, ofBE_toBE t.toNat_lt, UInt64.ofNat_toNat]

/-- **The four parts read back**, whatever they are. -/
theorem readPreImage_buildPreImage (chain request response : Block 32) (t : UInt64) :
    readPreImage (buildPreImage chain request response t) =
      (chain.bytes, request.bytes, response.bytes, t) := by
  have hbytes := bytes_buildPreImage chain request response t
  have hrequest : (buildPreImage chain request response t).bytes.drop 32 =
      request.bytes ++ (response.bytes ++ toLE t) := by
    rw [hbytes]
    exact List.drop_left' chain.length_bytes
  have hresponse : (buildPreImage chain request response t).bytes.drop 64 =
      response.bytes ++ toLE t := by
    rw [hbytes, ← List.append_assoc]
    exact List.drop_left' (by simp)
  have htime : (buildPreImage chain request response t).bytes.drop 96 = toLE t := by
    rw [hbytes, ← List.append_assoc, ← List.append_assoc]
    exact List.drop_left' (by simp)
  rw [readPreImage]
  dsimp only [reqHashOffset, respHashOffset, timestampOffset]
  rw [hrequest, hresponse, htime, readLE_toLE, List.take_left' request.length_bytes,
    List.take_left' response.length_bytes]
  rw [hbytes, List.take_left' chain.length_bytes]

/-! ## The signed message -/

/-- The message `sign_with_timestamp` signs. -/
def SigningState.preImage {lib : Crates} (signer : SigningState lib)
    (requestBody responseBody : Bytes) (timestampMs : UInt64) : Block 104 :=
  buildPreImage signer.chainIdHash (lib.sha256 requestBody) (lib.sha256 responseBody) timestampMs

/-- The hash tells two inputs apart. -/
def NoCollision (hash : Bytes → Block 32) (x y : Bytes) : Prop := hash x = hash y → x = y

/-- Pre-images are equal exactly when their parts are. -/
theorem buildPreImage_eq_iff {chain request response chain' request' response' : Block 32}
    {t t' : UInt64} :
    buildPreImage chain request response t = buildPreImage chain' request' response' t' ↔
      chain = chain' ∧ request = request' ∧ response = response' ∧ t = t' := by
  constructor
  · intro h
    have hparts := congrArg readPreImage h
    simp only [readPreImage_buildPreImage, Prod.mk.injEq] at hparts
    obtain ⟨hc, hq, hs, ht⟩ := hparts
    exact ⟨Block.ext hc, Block.ext hq, Block.ext hs, ht⟩
  · rintro ⟨rfl, rfl, rfl, rfl⟩
    rfl

/-- **A signature is bound to the chain, the two bodies and the time.**  A raw chain id
is accepted exactly when its trimmed text is a chain id, which is then accepted as it
is.  The four parts of every pre-image read back at the published offsets.  So for
states built from two validated ids, and as far as SHA-256 tells the compared inputs
apart, the messages that are signed are equal exactly when the trimmed ids, the bodies
and the timestamps are. -/
theorem signature_binding (lib : Crates) :
    (∀ raw t, validateChainId raw = .ok t ↔ IsChainId raw t) ∧
    (∀ raw t, validateChainId raw = .ok t → validateChainId t = .ok t) ∧
    (∀ chain request response t, readPreImage (buildPreImage chain request response t) =
      (chain.bytes, request.bytes, response.bytes, t)) ∧
    ∀ (raw raw' id id' : Text) (seed seed' : Block 32) (signer signer' : SigningState lib)
      (requestBody requestBody' responseBody responseBody' : Bytes) (t t' : UInt64),
      validateChainId raw = .ok id → validateChainId raw' = .ok id' →
      SigningState.fromSeedRef lib seed (utf8 id) = some signer →
      SigningState.fromSeedRef lib seed' (utf8 id') = some signer' →
      NoCollision lib.sha256 (utf8 id) (utf8 id') →
      NoCollision lib.sha256 requestBody requestBody' →
      NoCollision lib.sha256 responseBody responseBody' →
      (signer.signWithTimestamp requestBody responseBody t).signature =
        lib.ed25519.sign seed (signer.preImage requestBody responseBody t).bytes ∧
      (signer.preImage requestBody responseBody t = signer'.preImage requestBody' responseBody' t' ↔
        trim raw = trim raw' ∧ requestBody = requestBody' ∧ responseBody = responseBody' ∧ t = t') ∧
      readPreImage (signer.preImage requestBody responseBody t) =
        ((lib.sha256 (utf8 (trim raw))).bytes, (lib.sha256 requestBody).bytes,
          (lib.sha256 responseBody).bytes, t) := by
  refine ⟨fun raw t => validateChainId_ok_iff, ?_, readPreImage_buildPreImage, ?_⟩
  · intro raw t h
    exact validateChainId_ok_iff.mpr (validateChainId_ok_iff.mp h).idempotent
  · intro raw raw' id id' seed seed' signer signer' requestBody requestBody' responseBody
      responseBody' t t' hid hid' hsigner hsigner' hchain hrequest hresponse
    have htrim : id = trim raw := (validateChainId_ok_iff.mp hid).trimmed
    have htrim' : id' = trim raw' := (validateChainId_ok_iff.mp hid').trimmed
    obtain ⟨hseed, hch⟩ := SigningState.fromSeedRef_eq_some lib hsigner
    obtain ⟨-, hch'⟩ := SigningState.fromSeedRef_eq_some lib hsigner'
    have hhash : signer.chainIdHash = lib.sha256 (utf8 id) := by rw [signer.chainIdHash_eq, hch]
    have hhash' : signer'.chainIdHash = lib.sha256 (utf8 id') := by
      rw [signer'.chainIdHash_eq, hch']
    refine ⟨?_, ?_, ?_⟩
    · rw [← hseed]
      rfl
    · rw [SigningState.preImage, SigningState.preImage, buildPreImage_eq_iff, hhash, hhash',
        ← htrim, ← htrim']
      constructor
      · rintro ⟨hc, hq, hs, ht⟩
        exact ⟨utf8_injective (hchain hc), hrequest hq, hresponse hs, ht⟩
      · rintro ⟨rfl, rfl, rfl, rfl⟩
        exact ⟨rfl, rfl, rfl, rfl⟩
    · rw [SigningState.preImage, readPreImage_buildPreImage, hhash, htrim]

open KnownAnswers in
/-- The test seed on the vector's chain: the same id with blanks around it gives the
same message, and another time another one. -/
theorem signature_binding_vector :
    ∃ signer, SigningState.fromSeedRef crates testSeed (utf8 "42161".toList) = some signer ∧
      validateChainId " 42161\n".toList = .ok "42161".toList ∧
      trim " 42161\n".toList = trim "42161".toList ∧
      signer.preImage rpcRequest rpcResponse 1 ≠ signer.preImage rpcRequest rpcResponse 2 := by
  obtain ⟨signer, hsigner⟩ := Option.isSome_iff_exists.mp
    (by decide : (SigningState.fromSeedRef crates testSeed (utf8 "42161".toList)).isSome = true)
  have hraw : validateChainId " 42161\n".toList = .ok "42161".toList := by decide
  have hid : validateChainId "42161".toList = .ok "42161".toList := by decide
  obtain ⟨-, -, -, hbound⟩ := signature_binding crates
  obtain ⟨-, hiff, -⟩ := hbound _ _ _ _ testSeed testSeed signer signer rpcRequest rpcRequest
    rpcResponse rpcResponse 1 1 hraw hid hsigner hsigner (fun _ => rfl) (fun _ => rfl) (fun _ => rfl)
  obtain ⟨-, hother, -⟩ := hbound _ _ _ _ testSeed testSeed signer signer rpcRequest rpcRequest
    rpcResponse rpcResponse 1 2 hid hid hsigner hsigner (fun _ => rfl) (fun _ => rfl) (fun _ => rfl)
  refine ⟨signer, hsigner, hraw, (hiff.mp rfl).1, ?_⟩
  intro hsame
  exact absurd (hother.mp hsame).2.2.2 (by decide)

end VrpcSidecar
