import VrpcSidecar.Proxy

/-! # The inner request and response

`confidential/inner.rs`: the rules for the request inside an envelope, the batch
count, and the encoding of the response.  The plaintext is walked twice: a
hand-written pass over the lengths bounds the field sections (`checkFieldSections`)
before `bhttp` builds them, and the message `bhttp` returns is then reduced to the
parts that may reach the node (`decodeInner`).
-/
namespace VrpcSidecar

/-! ## Errors -/

/-- `InnerError`: the errors a client gets inside a sealed response. -/
inductive InnerError where
  | badRequest
  | unsupportedMediaType
  | batchTooLarge
  | upstream
  | upstreamTimeout
  | internal
  deriving DecidableEq

namespace InnerError

/-- `InnerError::status`. -/
def status : InnerError → Nat
  | badRequest => 400
  | unsupportedMediaType => 415
  | batchTooLarge => 413
  | upstream => 502
  | upstreamTimeout => 504
  | internal => 500

/-- The problem type and the title of an error. -/
def problem : InnerError → String × String
  | badRequest => ("bad-request", "Bad request")
  | unsupportedMediaType => ("unsupported-media-type", "Unsupported media type")
  | batchTooLarge => ("batch-too-large", "Batch too large")
  | upstream => ("upstream", "Upstream error")
  | upstreamTimeout => ("upstream-timeout", "Upstream timeout")
  | internal => ("internal", "Internal error")

/-- `InnerError::body`: a problem document. -/
def body (e : InnerError) : Bytes :=
  ascii ("\x7b\"type\":\"urn:vrpc:error:" ++ e.problem.1 ++ "\",\"title\":\"" ++ e.problem.2 ++
    "\"\x7d")

/-- `InnerError::class`. -/
def outcome : InnerError → OutcomeClass
  | badRequest => .badRequest
  | unsupportedMediaType => .unsupportedMediaType
  | batchTooLarge => .batchTooLarge
  | upstream => .upstream
  | upstreamTimeout => .upstreamTimeout
  | internal => .internal

end InnerError

/-- `InnerRequest`. -/
structure InnerRequest where
  method : Bytes
  pathAndQuery : Bytes
  contentType : Option HeaderValue
  accept : List HeaderValue
  body : Bytes
  deriving DecidableEq

/-- `InnerResponse`. -/
structure InnerResponse where
  status : Nat
  contentType : List HeaderValue
  body : Bytes

/-- `InnerResponse::from(InnerError)`. -/
def InnerResponse.ofError (e : InnerError) : InnerResponse :=
  ⟨e.status, [ascii "application/problem+json"], e.body⟩

/-! ## The walk over the sections -/

/-- `MAX_FIELD_SECTION_BYTES`. -/
def maxFieldSectionBytes : UInt64 := 64 * 1024

/-- `take_varint`: the value, `none` at the end of the input, and what is left. -/
def takeVarint (rest : Bytes) : Except InnerError (Option UInt64 × Bytes) :=
  match rest with
  | [] => .ok (none, [])
  | first :: _ =>
    let n := 1 <<< (first >>> 6).toNat
    if n ≤ rest.length then
      let value := ((rest.take n).drop 1).foldl (fun (v : UInt64) b => (v <<< 8) ||| b.toUInt64)
        (first &&& 0x3f).toUInt64
      .ok (some value, rest.drop n)
    else .error .badRequest

/-- `skip`. -/
def skip (rest : Bytes) (len : UInt64) : Except InnerError Bytes :=
  if len.toNat ≤ rest.length then .ok (rest.drop len.toNat) else .error .badRequest

/-- The first loop of `check_field_sections`: mandatory strings. -/
def skipStrings : Nat → Bytes → Except InnerError Bytes
  | 0, rest => .ok rest
  | n + 1, rest => do
    match ← takeVarint rest with
    | (none, _) => .error .badRequest
    | (some len, rest) => skipStrings n (← skip rest len)

/-- The second loop: sections of limited length, which may be missing at the end. -/
def skipSections : List UInt64 → Bytes → Except InnerError Unit
  | [], _ => .ok ()
  | limit :: limits, rest => do
    match ← takeVarint rest with
    -- the input ends here: this section and the later ones are empty
    | (none, _) => .ok ()
    | (some len, rest) =>
      if len > limit then .error .badRequest else skipSections limits (← skip rest len)

/-- `check_field_sections`. -/
def checkFieldSections (rest : Bytes) : Except InnerError Unit := do
  let rest ← skipStrings 4 rest
  skipSections [maxFieldSectionBytes, 0xffffffffffffffff, maxFieldSectionBytes] rest

/-! ## Decoding -/

section Decoding
variable (lib : Crates)
open BinaryHttp

/-- `inner_method`. -/
def innerMethod : Control → Except InnerError Bytes
  | .request method _ _ _ =>
    match lib.http.methodFromBytes method with
    | none => .error .badRequest
    | some method => if method = ascii "CONNECT" then .error .badRequest else .ok method
  | .response _ => .error .badRequest

/-- `inner_path`. -/
def innerPath : Control → Except InnerError Bytes
  | .request _ _ _ path =>
    if ¬ [0x2f] <+: path ∨ [0x2f, 0x2f] <+: path ∨ 0x23 ∈ path ∨ path.length > maxPathAndQuery then
      .error .badRequest
    else .ok path
  | .response _ => .error .badRequest

/-- `InnerFields`. -/
structure InnerFields where
  contentType : Option HeaderValue
  accept : List HeaderValue

/-- `field_value`. -/
def fieldValue (field : Field) : Except InnerError HeaderValue :=
  match lib.http.headerValueFromBytes field.value with
  | none => .error .badRequest
  | some v => .ok v

/-- The loop of `inner_fields`. -/
def innerFieldsLoop : InnerFields → List Field → Except InnerError InnerFields
  | fields, [] => .ok fields
  | fields, field :: rest =>
    -- a pseudo-field, `:authority` for instance
    if field.name.head? = some 0x3a then .error .badRequest
    else if eqIgnoreCase field.name (ascii "content-type") then
      if fields.contentType.isSome then .error .badRequest
      else do
        let v ← fieldValue lib field
        innerFieldsLoop { fields with contentType := some v } rest
    else if eqIgnoreCase field.name (ascii "accept") then do
      let v ← fieldValue lib field
      innerFieldsLoop { fields with accept := fields.accept ++ [v] } rest
    else innerFieldsLoop fields rest

/-- `inner_fields`. -/
def innerFields (header : List Field) : Except InnerError InnerFields :=
  innerFieldsLoop lib ⟨none, []⟩ header

/-- `decode_inner` once `bhttp` has read the message. -/
def decodeMessage (msg : Message) : Except InnerError InnerRequest := do
  let method ← innerMethod lib msg.control
  let path ← innerPath msg.control
  let fields ← innerFields lib msg.header
  if msg.content ≠ [] ∧ fields.contentType = none then .error .unsupportedMediaType
  else return ⟨method, path, fields.contentType, fields.accept, msg.content⟩

/-- `decode_inner`. -/
def decodeInner (plaintext : Bytes) : Except InnerError InnerRequest :=
  match plaintext with
  | 0x00 :: framed => do
    checkFieldSections framed
    match lib.bhttp.readBhttp plaintext with
    | none => .error .badRequest
    | some msg => decodeMessage lib msg
  | _ => .error .badRequest

end Decoding

/-! ## The batch count -/

section BatchSize
variable (lib : Crates)

/-- `CountElements::visit_seq`, after `n` elements. -/
def visitSeq (first : Bool) (n : Nat) (s : Bytes) : Option (Nat × Bytes) :=
  match lib.json.nextElement first s with
  | .error _ => none
  | .ok none => some (n, s)
  | .ok (some r) => visitSeq false (n + 1) r.1
termination_by s.length
decreasing_by exact r.2

/-- `deserialize_seq(&mut de, CountElements)`. -/
def deserializeSeq (body : Bytes) : Option Nat := do
  let rest ← lib.json.beginSeq body
  let (n, rest) ← visitSeq lib true 0 rest
  let _ ← lib.json.endSeq rest
  return n

/-- `batch_size`. -/
def batchSize (body : Bytes) : Nat :=
  if body.find? (fun b => !(b = 0x20 || b = 0x09 || b = 0x0a || b = 0x0d)) ≠ some 0x5b then 1
  else
    -- no check for the end of the input: the node ignores what follows the array
    match deserializeSeq lib body with
    | none => 1
    | some 0 => 1
    | some n => n

end BatchSize

/-! ## Encoding -/

section Encoding
variable (lib : Crates)
open BinaryHttp

/-- `usize::saturating_add`. -/
def saturatingAdd (a b : Nat) : Nat := min (a + b) usizeMax

/-- `usize::checked_add`. -/
def checkedAdd (a b : Nat) : Option Nat := if a + b ≤ usizeMax then some (a + b) else none

/-- The bytes counted by a `ByteCount` that was given the buffers. -/
def byteCount (chunks : List Bytes) : Nat :=
  chunks.foldl (fun n chunk => saturatingAdd n chunk.length) 0

/-- `write_bhttp` into a vector. -/
def writeToVec (msg : Message) : Option Bytes :=
  let (chunks, written) := lib.bhttp.writeBhttp msg
  if written then some chunks.flatten else none

/-- The capacity of `encode_with_nonce`, from what the counting pass saw. -/
def encodeCapacity (msg : Message) : Option Nat := do
  let (chunks, written) := lib.bhttp.writeBhttp msg
  if written then
    let capacity ← checkedAdd responseNonceLen (byteCount chunks)
    checkedAdd capacity tagLen
  else none

/-- `encode_with_nonce`: a counting pass, then the nonce and the message in one
buffer. -/
def encodeWithNonce (msg : Message) (nonce : Block 32) : Option Bytes := do
  let _ ← encodeCapacity lib msg
  let encoded ← writeToVec lib msg
  return nonce.bytes ++ encoded

/-- A response message with the given content types, as `put_header` and
`write_content` build it. -/
def responseMessage (status : Nat) (contentType : List HeaderValue) (content : Bytes) : Message :=
  ⟨.response status, contentType.map (fun v => ⟨ascii "content-type", v⟩), content, []⟩

/-- `encode_response`. -/
def encodeResponse (r : InnerResponse) : Option Bytes := do
  let status ← lib.bhttp.statusTryFrom r.status
  writeToVec lib (responseMessage status r.contentType r.body)

theorem checkedAdd_of_le {a b : Nat} (h : a + b ≤ usizeMax) : checkedAdd a b = some (a + b) :=
  if_pos h

theorem checkedAdd_of_gt {a b : Nat} (h : ¬ a + b ≤ usizeMax) : checkedAdd a b = none :=
  if_neg h

theorem foldl_saturatingAdd (chunks : List Bytes) {n : Nat} (h : n ≤ usizeMax) :
    chunks.foldl (fun n chunk => saturatingAdd n chunk.length) n =
      min (n + chunks.flatten.length) usizeMax := by
  induction chunks generalizing n with
  | nil => simp [h]
  | cons chunk chunks ih =>
    have hle : saturatingAdd n chunk.length ≤ usizeMax := Nat.min_le_right _ _
    rw [List.foldl_cons, ih hle, List.flatten_cons, List.length_append, saturatingAdd]
    omega

/-- The counting pass counts the bytes of the message, however they are split. -/
theorem byteCount_eq (chunks : List Bytes) :
    byteCount chunks = min chunks.flatten.length usizeMax := by
  rw [byteCount, foldl_saturatingAdd chunks (Nat.zero_le _), Nat.zero_add]

/-- The encoding of a message that a vector can hold between a nonce and a tag. -/
def encoding (msg : Message) : Option Bytes :=
  (writeToVec lib msg).filter (fun encoded => 32 + encoded.length + 16 ≤ usizeMax)

/-- **Encoding after the nonce** puts the nonce before the encoding. -/
theorem encodeWithNonce_eq (msg : Message) (nonce : Block 32) :
    encodeWithNonce lib msg nonce =
      (encoding lib msg).map (fun encoded => nonce.bytes ++ encoded) := by
  rcases hw : lib.bhttp.writeBhttp msg with ⟨chunks, written⟩
  cases written with
  | false => simp [encodeWithNonce, encodeCapacity, encoding, writeToVec, hw]
  | true =>
    have hvec : writeToVec lib msg = some chunks.flatten := by simp [writeToVec, hw]
    have hn : responseNonceLen = 32 := rfl
    have ht : tagLen = 16 := rfl
    simp only [encodeWithNonce, encodeCapacity, encoding, hw, hvec, byteCount_eq, if_true,
      Option.bind_eq_bind, Option.bind_some, Option.pure_def, Option.filter_some,
      decide_eq_true_eq]
    -- When the sum fits, nothing saturates; when not, one of the two additions fails.
    by_cases h : 32 + chunks.flatten.length + 16 ≤ usizeMax
    · rw [if_pos h, Nat.min_eq_left (by omega), checkedAdd_of_le (by omega), Option.bind_some,
        checkedAdd_of_le (by omega), Option.bind_some, Option.map_some]
    · rw [if_neg h]
      by_cases h' : responseNonceLen + min chunks.flatten.length usizeMax ≤ usizeMax
      · rw [checkedAdd_of_le h', Option.bind_some, checkedAdd_of_gt (by omega)]
        rfl
      · rw [checkedAdd_of_gt h']
        rfl

end Encoding

end VrpcSidecar
