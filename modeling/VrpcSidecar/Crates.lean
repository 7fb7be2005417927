import VrpcSidecar.HttpTypes
import VrpcSidecar.BinaryHttp
import VrpcSidecar.JsonGrammar
import VrpcSidecar.Clamping

/-! # The crates the sidecar is built from

The sidecar composes `http`, `bhttp`, `serde_json`, `hpke`, `hkdf`, `aes-gcm`,
`sha2` and `ed25519-dalek`.  Each appears here as a structure of the functions the
sidecar calls, so that every result holds whatever these functions compute; what a
result needs of a crate's documented behaviour is a named rule (`…Rule`), taken as
a hypothesis by the results that use it and by no other.

The rules for parsers and encoders are stated against the grammars of
`BinaryHttp` and `JsonText`; those for the cryptographic crates say that a receiver
opens what a sender sealed.  Buffers of a fixed size are `Block`s, so that the
lengths Rust's types fix need no rule.
-/
namespace VrpcSidecar

/-! ## `http` -/

/-- The bytes of a token, RFC 9110 §5.6.2. -/
def isTchar (b : UInt8) : Bool :=
  (0x30 ≤ b && b ≤ 0x39) || (0x41 ≤ b && b ≤ 0x5a) || (0x61 ≤ b && b ≤ 0x7a) ||
    ((ascii "!#$%&'*+-.^_|~").contains b || b = 0x60)

/-- A token: one or more of its bytes. -/
def IsToken (bs : Bytes) : Prop := bs ≠ [] ∧ ∀ b ∈ bs, isTchar b = true

instance (bs : Bytes) : Decidable (IsToken bs) :=
  inferInstanceAs (Decidable (_ ∧ _))

/-- The bytes a header value may hold: no control character but the tab. -/
def IsHeaderValue (bs : Bytes) : Prop := ∀ b ∈ bs, (0x20 ≤ b ∧ b ≠ 0x7f) ∨ b = 0x09

instance (bs : Bytes) : Decidable (IsHeaderValue bs) :=
  inferInstanceAs (Decidable (∀ b ∈ bs, _))

/-- A text up to its fragment. -/
def withoutFragment (bs : Bytes) : Bytes := bs.takeWhile (fun b => b ≠ 0x23)

/-- A text up to its first `?`. -/
def beforeQuery (bs : Bytes) : Bytes := bs.takeWhile (fun b => b ≠ 0x3f)

/-- **The forms of a URL that parses**, with its scheme, its authority and what follows:
absolute, an authority alone, a path, or `*`. -/
inductive UrlForm : Bytes → Option Bytes → Option Bytes → Bytes → Prop where
  | absolute {text scheme authority rest : Bytes} (hcase : eqIgnoreCase text scheme = true)
      (hscheme : 0x3a ∉ text ∧ 0x2f ∉ text) (hne : authority ≠ [])
      (hauthority : 0x2f ∉ authority ∧ 0x3f ∉ authority ∧ 0x23 ∉ authority)
      (hrest : ∀ b, rest.head? = some b → b = 0x2f ∨ b = 0x3f ∨ b = 0x23) :
      UrlForm (text ++ (ascii "://" ++ (authority ++ rest))) (some scheme) (some authority) rest
  | authority {authority : Bytes} (hne : authority ≠ [])
      (hauthority : 0x2f ∉ authority ∧ 0x3f ∉ authority ∧ 0x23 ∉ authority) :
      UrlForm authority none (some authority) []
  | origin {rest : Bytes} : UrlForm (0x2f :: rest) none none (0x2f :: rest)
  | asterisk : UrlForm (ascii "*") none none (ascii "*")

/-- The conversions of the `http` crate that can fail. -/
structure HttpCrate where
  /-- `Method::from_bytes`; a method is its text. -/
  methodFromBytes : Bytes → Option Bytes
  /-- `HeaderValue::from_bytes`, `from_str` and the conversions of `builder.header`. -/
  headerValueFromBytes : Bytes → Option HeaderValue
  /-- `PathAndQuery::try_from(Vec<u8>)`. -/
  pathAndQueryTryFrom : Bytes → Option PathAndQuery
  /-- `Uri::from_parts`, the path and query present. -/
  uriFromParts : Option Bytes → Option Bytes → PathAndQuery → Option Uri
  /-- `str::parse::<Uri>`. -/
  uriFromStr : Bytes → Option Uri

namespace HttpCrate
variable (http : HttpCrate)

/-- The methods are the tokens, kept as they are. -/
def MethodRule : Prop :=
  ∀ bs m, http.methodFromBytes bs = some m ↔ m = bs ∧ IsToken bs

/-- The header values are the strings of permitted bytes, kept as they are. -/
def ValueRule : Prop :=
  ∀ bs v, http.headerValueFromBytes bs = some v ↔ v = bs ∧ IsHeaderValue bs

/-- An accepted path and query is the input up to a fragment, and has no byte below
`0x21`. -/
def PathRule : Prop :=
  ∀ bs pq, http.pathAndQueryTryFrom bs = some pq →
    pq.data = bs.takeWhile (fun b => b ≠ 0x23) ∧ ∀ b ∈ pq.data, 0x21 ≤ b

/-- A URI assembled from parts has these parts. -/
def PartsRule : Prop :=
  ∀ scheme authority pq u, http.uriFromParts scheme authority pq = some u →
    u = ⟨scheme, authority, pq⟩

/-- The texts the crate takes as a path and query. -/
def Accepts (bs : Bytes) : Prop := (http.pathAndQueryTryFrom bs).isSome = true

instance (bs : Bytes) : Decidable (http.Accepts bs) := inferInstanceAs (Decidable (_ = true))

/-- **What a target becomes.**  A text that starts with a slash, if it is accepted, is kept
up to its fragment with the offset of its first `?`, cut to a `u16`; of those that start
with an asterisk at most `*` itself is accepted. -/
structure TargetRule : Prop where
  keeps : ∀ bs pq, bs.head? = some 0x2f → bs.length ≤ 65534 →
    http.pathAndQueryTryFrom bs = some pq → pq = .ofBytes (withoutFragment bs)
  asterisk : ∀ bs, bs.head? = some 0x2a → http.Accepts bs → bs = ascii "*"

/-- **Targets are checked character by character**: the root is one, and what an accepted
text has before a slash, a query, a fragment or its end can be followed by any other that
starts with a slash. -/
structure CharacterRule : Prop where
  root : http.Accepts (ascii "/")
  continues : ∀ path rest bs, path.head? = some 0x2f → 0x3f ∉ path → 0x23 ∉ path →
    (∀ b, rest.head? = some b → b = 0x2f ∨ b = 0x3f ∨ b = 0x23) → http.Accepts (path ++ rest) →
    bs.head? = some 0x2f → http.Accepts bs → (path ++ bs).length ≤ 65534 →
    http.Accepts (path ++ bs)

/-- A path is taken with both a scheme and an authority, or with neither. -/
def AssembleRule : Prop :=
  ∀ scheme authority pq, http.uriFromParts scheme authority pq =
    if scheme.isSome = authority.isSome then some ⟨scheme, authority, pq⟩ else none

/-- A text that parses has one of the four forms and at most 65534 bytes; what follows its
authority becomes the path and query, and is accepted as one when it starts with a slash. -/
def UriRule : Prop :=
  ∀ u uri, http.uriFromStr u = some uri → u.length ≤ 65534 ∧
    ∃ rest, UrlForm u uri.scheme uri.authority rest ∧
      (rest.head? = some 0x2f → http.Accepts rest) ∧
      uri.target = .ofBytes (withoutFragment rest)

end HttpCrate

/-! ## `bhttp` -/

/-- The fields other than cookies, which `bhttp` joins into one. -/
def withoutCookies (fs : List BinaryHttp.Field) : List BinaryHttp.Field :=
  fs.filter (fun f => lower f.name ≠ ascii "cookie")

/-- Two messages with the same control data, content and fields, cookies aside. -/
structure SameUpToCookies (m m' : BinaryHttp.Message) : Prop where
  control : m.control = m'.control
  content : m.content = m'.content
  header : withoutCookies m.header = withoutCookies m'.header

/-- The functions of the `bhttp` crate. -/
structure BhttpCrate where
  /-- `bhttp::StatusCode::try_from(u16)`. -/
  statusTryFrom : Nat → Option Nat
  /-- `Message::read_bhttp` on a cursor over the bytes. -/
  readBhttp : Bytes → Option BinaryHttp.Message
  /-- `Message::write_bhttp(Mode::KnownLength, w)`: the buffers passed to `w.write_all`
  one after the other, and whether it returned `Ok`. -/
  writeBhttp : BinaryHttp.Message → List Bytes × Bool

namespace BhttpCrate
variable (bhttp : BhttpCrate)

/-- The codes of final responses are accepted. -/
def StatusRule : Prop := ∀ n, 200 ≤ n → n ≤ 599 → bhttp.statusTryFrom n = some n

/-- On a known-length request the reader accepts what RFC 9292 allows. -/
structure ReadRule : Prop where
  refuses : ∀ s, BinaryHttp.readRequest s = none → bhttp.readBhttp (0 :: s) = none
  reads : ∀ s m, BinaryHttp.readRequest s = some m →
    ∃ m', bhttp.readBhttp (0 :: s) = some m' ∧ SameUpToCookies m' m

/-- What the writer produces for a response without trailers is an encoding of it,
and it fails only on lengths no varint holds. -/
structure WriteRule : Prop where
  sound : ∀ status header content chunks,
    bhttp.writeBhttp ⟨.response status, header, content, []⟩ = (chunks, true) →
    (∀ f ∈ header, f.name ≠ []) →
    BinaryHttp.IsResponse chunks.flatten status header content []
  complete : ∀ status header content, status < 2 ^ 62 → BinaryHttp.Representable header content →
    (bhttp.writeBhttp ⟨.response status, header, content, []⟩).2 = true

end BhttpCrate

/-! ## `serde_json` -/

/-- `serde_json`'s sequence access over a slice, with `IgnoredAny` elements.  The
state is the input that is left. -/
structure SerdeJson where
  /-- The start of `deserialize_seq`: whitespace and the opening bracket. -/
  beginSeq : Bytes → Option Bytes
  /-- `SeqAccess::next_element`; the flag says that no element was read before.
  Reading an element takes at least one byte. -/
  nextElement : Bool → (s : Bytes) → Except Unit (Option { r : Bytes // r.length < s.length })
  /-- The end of `deserialize_seq`: whitespace and the closing bracket. -/
  endSeq : Bytes → Option Bytes

namespace SerdeJson
open JsonText
variable (json : SerdeJson)

/-- What stands before an element: whitespace, and a comma unless it is the first. -/
def Separator (first : Bool) (sep : Bytes) : Prop :=
  if first then Spaces sep else ∃ w w', Spaces w ∧ Spaces w' ∧ sep = w ++ 0x2c :: w'

/-- `IgnoredAny` elements are the values of the JSON grammar, skipped one at a time;
a value that is delimited is skipped as a whole. -/
structure SeqRule : Prop where
  begins : ∀ s r, json.beginSeq s = some r ↔ ∃ w, Spaces w ∧ s = w ++ 0x5b :: r
  ended : ∀ first s, json.nextElement first s = .ok none ↔
    ∃ w r, Spaces w ∧ s = w ++ 0x5d :: r
  sound : ∀ first s r, json.nextElement first s = .ok (some r) →
    ∃ sep v, Separator first sep ∧ Json .value v ∧ s = sep ++ (v ++ r.1)
  complete : ∀ first sep v r, Separator first sep → Json .value v → Delimited r →
    ∃ h, json.nextElement first (sep ++ (v ++ r)) = .ok (some ⟨r, h⟩)
  ends : ∀ s r, json.endSeq s = some r ↔ ∃ w, Spaces w ∧ s = w ++ 0x5d :: r

end SerdeJson

/-! ## `hpke` -/

/-- The KEM `X25519HkdfSha256` of the `hpke` crate. -/
structure Kem where
  PrivateKey : Type
  PublicKey : Type
  EncappedKey : Type
  /-- `PrivateKey::from_bytes`. -/
  privateKeyFromBytes : Bytes → Option PrivateKey
  /-- `EncappedKey::from_bytes`. -/
  encappedKeyFromBytes : Bytes → Option EncappedKey
  /-- `EncappedKey::to_bytes`. -/
  encappedKeyToBytes : EncappedKey → Block 32
  /-- `Kem::sk_to_pk`. -/
  skToPk : PrivateKey → PublicKey
  /-- `PublicKey::to_bytes`. -/
  publicKeyToBytes : PublicKey → Block 32

/-- The receiver's side of an HPKE context, before its first message. -/
structure ReceiverContext where
  /-- `export(exporter_ctx, out)` for an `out` of `n` bytes. -/
  exportSecret : Bytes → (n : Nat) → Option (Block n)
  /-- `open(ciphertext, aad)`. -/
  openFirst : Bytes → Bytes → Option Bytes

/-- The sender's side. -/
structure SenderContext where
  exportSecret : Bytes → (n : Nat) → Option (Block n)
  /-- `seal(plaintext, aad)`. -/
  sealFirst : Bytes → Bytes → Option Bytes

/-- HPKE in base mode with HKDF-SHA256 and one AEAD. -/
structure Hpke (kem : Kem) where
  /-- `setup_receiver(OpModeR::Base, sk, enc, info)`. -/
  setupReceiver : kem.PrivateKey → kem.EncappedKey → Bytes → Option ReceiverContext
  /-- `setup_sender(OpModeS::Base, pk, info, rng)`, the randomness explicit. -/
  setupSender : kem.PublicKey → Bytes → Bytes → Option (kem.EncappedKey × SenderContext)

namespace Hpke
variable {kem : Kem} (hpke : Hpke kem)

/-- **RFC 9180, base mode**: the receiver with the matching secret key sets up the
sender's context: both export the same secrets, and it opens what the sender
sealed.  An encapsulated key reads back, a ciphertext is 16 bytes longer than its
plaintext, and a secret of at most 32 bytes can be exported. -/
structure MatchRule : Prop where
  setup : ∀ sk info rng enc snd, hpke.setupSender (kem.skToPk sk) info rng = some (enc, snd) →
    ∃ rcv, hpke.setupReceiver sk enc info = some rcv ∧ rcv.exportSecret = snd.exportSecret ∧
      (∀ pt aad ct, snd.sealFirst pt aad = some ct → rcv.openFirst ct aad = some pt) ∧
      (∀ pt aad ct, snd.sealFirst pt aad = some ct → ct.length = pt.length + 16) ∧
      (∀ label n, n ≤ 32 → ∃ s, snd.exportSecret label n = some s)
  encapped : ∀ enc, kem.encappedKeyFromBytes (kem.encappedKeyToBytes enc).bytes = some enc

end Hpke

/-! ## `hkdf`, `aes-gcm` -/

/-- `Hkdf<Sha256>`. -/
structure Hkdf where
  /-- `Hkdf::new(Some(salt), ikm)`: the pseudorandom key. -/
  extract : Bytes → Bytes → Bytes
  /-- `expand(info, okm)` for an `okm` of `n` bytes. -/
  expand : Bytes → Bytes → (n : Nat) → Option (Block n)

/-- `expand` fills outputs of up to 255 hash lengths. -/
def Hkdf.ExpandRule (hkdf : Hkdf) : Prop :=
  ∀ prk info n, n ≤ 255 * 32 → ∃ okm, hkdf.expand prk info n = some okm

/-- An AEAD cipher of `aes-gcm`. -/
structure Gcm where
  Cipher : Type
  Nonce : Type
  keySize : Nat
  nonceSize : Nat
  tagSize : Nat
  /-- The longest plaintext it encrypts. -/
  limit : Nat
  /-- `KeyInit::new_from_slice`. -/
  newFromSlice : Bytes → Option Cipher
  /-- `Nonce::try_from(&[u8])`. -/
  nonceTryFrom : Bytes → Option Nonce
  /-- `encrypt_inout_detached(nonce, aad, buf)`: the buffer afterwards, and the tag. -/
  encryptInOut : Cipher → Nonce → Bytes → (buf : Bytes) →
    Block buf.length × Option (Block tagSize)
  /-- The decryption of a ciphertext with the tag at its end. -/
  decrypt : Cipher → Nonce → Bytes → Bytes → Option Bytes

namespace Gcm
variable (gcm : Gcm)

/-- A key and a nonce of the right size are accepted; encrypting up to the limit
succeeds and is undone by decrypting. -/
structure AeadRule : Prop where
  key : ∀ k, k.length = gcm.keySize → ∃ c, gcm.newFromSlice k = some c
  nonce : ∀ n, n.length = gcm.nonceSize → ∃ c, gcm.nonceTryFrom n = some c
  succeeds : ∀ c n aad p, p.length ≤ gcm.limit → ∃ tag, (gcm.encryptInOut c n aad p).2 = some tag
  undone : ∀ c n aad p tag, (gcm.encryptInOut c n aad p).2 = some tag →
    gcm.decrypt c n aad ((gcm.encryptInOut c n aad p).1.bytes ++ tag.bytes) = some p

end Gcm

/-! ## `ed25519-dalek` -/

/-- The signing functions of `ed25519-dalek`; a signing key is its seed. -/
structure Ed25519 where
  /-- `SigningKey::verifying_key`. -/
  verifyingKey : Block 32 → Block 32
  /-- `Signer::sign`. -/
  sign : Block 32 → Bytes → Block 64
  /-- `Verifier::verify`. -/
  verify : Block 32 → Bytes → Block 64 → Bool
  /-- `SigningKey::to_scalar_bytes`. -/
  toScalarBytes : Block 32 → Block 32
  /-- `VerifyingKey::to_montgomery`. -/
  toMontgomery : Block 32 → Block 32

/-- A signature verifies under the key of the seed that made it. -/
def Ed25519.SignRule (ed : Ed25519) : Prop :=
  ∀ seed msg, ed.verify (ed.verifyingKey seed) msg (ed.sign seed msg) = true

/-- **The crates of one build.**  `hpkeAesGcm256` is HPKE with `AesGcm256`, and
`aes256Gcm` the cipher of the same name, whose keys are 32 bytes. -/
structure Crates where
  http : HttpCrate
  bhttp : BhttpCrate
  json : SerdeJson
  kem : Kem
  hpkeAesGcm256 : Hpke kem
  hkdf : Hkdf
  aes256Gcm : Gcm
  aes256Gcm_keySize : aes256Gcm.keySize = 32
  sha256 : Bytes → Block 32
  ed25519 : Ed25519

/-- **The keys of one seed on the two forms of the curve.**  Both keys are the clamped
scalar times the base point: the verifying key, from the first half of the SHA-512 of the
seed, compressed, and the X25519 key, from any 32 bytes, as a `u`-coordinate; a public
key of the KEM is its bytes. -/
structure CurveRule (lib : Crates) (curve : KeyCurve) (sha512 : Bytes → Block 64) : Prop where
  scalarBytes : ∀ seed, (lib.ed25519.toScalarBytes seed).bytes = (sha512 seed.bytes).bytes.take 32
  verifyingKey : ∀ seed, lib.ed25519.verifyingKey seed =
    curve.compress (curve.publicPoint ((sha512 seed.bytes).bytes.take 32))
  toMontgomery : ∀ point, lib.ed25519.toMontgomery (curve.compress point) = curve.uCoord point
  privateKey : ∀ secret : Block 32, ∃ sk, lib.kem.privateKeyFromBytes secret.bytes = some sk ∧
    lib.kem.publicKeyToBytes (lib.kem.skToPk sk) = curve.uCoord (curve.publicPoint secret.bytes)
  publicKey : Function.Injective lib.kem.publicKeyToBytes

end VrpcSidecar
