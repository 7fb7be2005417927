import VrpcSidecar.FieldMaps
import VrpcSidecar.BodyStreams

/-! # HTTP messages as the sidecar handles them

The data types of the `http` crate that the two routes read and build: header
names (kept lowercase, so that comparing them ignores case), header maps, status
codes, URIs, and the messages on the four sides of the sidecar: the request a
client sends, the request handed to the node, what the node answers, and the
response served.
-/
namespace VrpcSidecar

/-- A header name, kept in lowercase as `http::HeaderName` keeps it. -/
structure HeaderName where
  /-- The bytes of the name. -/
  bytes : Bytes
  /-- They are lowercase. -/
  normal : lower bytes = bytes
  deriving DecidableEq

namespace HeaderName

/-- A name is its bytes. -/
theorem ext_bytes {n n' : HeaderName} (h : n.bytes = n'.bytes) : n = n' := by
  cases n
  cases n'
  cases h
  rfl

/-- The name written as `s`, in any case. -/
def of (s : String) : HeaderName := ⟨lower (ascii s), lower_lower _⟩

def accept : HeaderName := of "accept"
def acceptEncoding : HeaderName := of "accept-encoding"
def connection : HeaderName := of "connection"
def contentEncoding : HeaderName := of "content-encoding"
def contentType : HeaderName := of "content-type"
def host : HeaderName := of "host"
def keepAlive : HeaderName := of "keep-alive"
def proxyAuthenticate : HeaderName := of "proxy-authenticate"
def proxyAuthorization : HeaderName := of "proxy-authorization"
def te : HeaderName := of "te"
def trailer : HeaderName := of "trailer"
def trailers : HeaderName := of "trailers"
def transferEncoding : HeaderName := of "transfer-encoding"
def upgrade : HeaderName := of "upgrade"
def vrpcSignature : HeaderName := of "vRPC-Signature"
def vrpcTimestamp : HeaderName := of "vRPC-Timestamp"
def vrpcPubkey : HeaderName := of "vRPC-Pubkey"
def vrpcBatchSize : HeaderName := of "vRPC-Batch-Size"

/-- The name starts with `vrpc-`. -/
def IsVrpc (n : HeaderName) : Prop := lower (ascii "vRPC-") <+: n.bytes

instance (n : HeaderName) : Decidable n.IsVrpc :=
  inferInstanceAs (Decidable (_ <+: _))

end HeaderName

/-- A header value, as the bytes `HeaderValue::as_bytes` returns. -/
abbrev HeaderValue := Bytes

/-- `http::HeaderMap`: names with their values in the order they were appended. -/
abbrev HeaderMap := MultiMap HeaderName HeaderValue

/-- A status code of three digits. -/
structure StatusCode where
  /-- The number. -/
  code : Nat
  /-- `http` keeps no code below 100. -/
  ge : 100 ≤ code
  /-- `http` keeps no code above 999. -/
  le : code ≤ 999
  deriving DecidableEq

namespace StatusCode

/-- `StatusCode::try_from(u16)`. -/
def tryFrom (n : Nat) : Option StatusCode :=
  if h : 100 ≤ n ∧ n ≤ 999 then some ⟨n, h.1, h.2⟩ else none

def ok : StatusCode := ⟨200, by decide, by decide⟩
def badRequest : StatusCode := ⟨400, by decide, by decide⟩
def methodNotAllowed : StatusCode := ⟨405, by decide, by decide⟩
def payloadTooLarge : StatusCode := ⟨413, by decide, by decide⟩
def internalServerError : StatusCode := ⟨500, by decide, by decide⟩
def badGateway : StatusCode := ⟨502, by decide, by decide⟩

theorem tryFrom_of_le {n : Nat} (h₁ : 100 ≤ n) (h₂ : n ≤ 999) :
    tryFrom n = some ⟨n, h₁, h₂⟩ := dif_pos ⟨h₁, h₂⟩

end StatusCode

/-! ## URIs -/

/-- `http::uri::PathAndQuery`: the bytes, and the offset of the `?` as a `u16`,
`0xffff` when there is none. -/
structure PathAndQuery where
  data : Bytes
  query : UInt16
  deriving DecidableEq

namespace PathAndQuery

/-- The offset that stands for "no query". -/
def noQuery : UInt16 := 0xffff

/-- The path and query with the given bytes: the offset of the first `?`, cut to a
`u16`. -/
def ofBytes (data : Bytes) : PathAndQuery :=
  ⟨data, if 0x3f ∈ data then UInt16.ofNat (data.idxOf 0x3f) else noQuery⟩

/-- `PathAndQuery::as_str`. -/
def asStr (pq : PathAndQuery) : Bytes := if pq.data = [] then ascii "/" else pq.data

/-- `PathAndQuery::path`. -/
def path (pq : PathAndQuery) : Bytes :=
  let ret := if pq.query = noQuery then pq.data else pq.data.take pq.query.toNat
  if ret = [] then ascii "/" else ret

/-- `PathAndQuery::query`. -/
def queryStr (pq : PathAndQuery) : Option Bytes :=
  if pq.query = noQuery then none else some (pq.data.drop (pq.query.toNat + 1))

end PathAndQuery

/-- `http::Uri`. -/
structure Uri where
  scheme : Option Bytes
  authority : Option Bytes
  target : PathAndQuery
  deriving DecidableEq

namespace Uri

/-- `Uri::path_and_query`: absent in authority form. -/
def pathAndQuery (u : Uri) : Option PathAndQuery :=
  if u.scheme.isSome ∨ u.authority = none then some u.target else none

/-- `Uri::path`: empty when the URI has neither a scheme nor a path. -/
def path (u : Uri) : Bytes :=
  if u.target.data = [] ∧ u.scheme = none then [] else u.target.path

/-- `Uri::query`. -/
def query (u : Uri) : Option Bytes := u.target.queryStr

end Uri

/-! ## Messages -/

/-- A request as the router hands it to a handler. -/
structure Request where
  method : Bytes
  uri : Uri
  headers : HeaderMap
  body : BodyStream

/-- A request handed to the hyper client. -/
structure OutRequest where
  method : Bytes
  uri : Uri
  headers : HeaderMap
  body : Bytes

/-- A response as the hyper client returns it, its body not yet read. -/
structure Incoming where
  status : StatusCode
  headers : HeaderMap
  body : BodyStream

/-- A response served to the client. -/
structure Response where
  status : StatusCode
  headers : HeaderMap
  body : Bytes

/-- `StatusCode::into_response`: no header, no body. -/
def StatusCode.intoResponse (s : StatusCode) : Response := ⟨s, .empty, []⟩

/-- The response has no `vRPC-*` header. -/
def Response.Unsigned (r : Response) : Prop := ∀ p ∈ r.headers.toList, ¬ p.1.IsVrpc

/-- A bare status response carries no `vRPC-*` header. -/
theorem StatusCode.intoResponse_unsigned (s : StatusCode) : s.intoResponse.Unsigned :=
  fun _ hp => absurd hp List.not_mem_nil

end VrpcSidecar
