import VrpcSidecar.HttpTypes

/-! # What an exchange observes, and what is observed of it

One call of a handler runs against an environment: how the upstream answers each
request, what the random generator and the two readings of the clock give.  What
others can see of the call while it runs are its events: the requests handed to the
upstream client, and the outcome line it logs.
-/
namespace VrpcSidecar

/-- `OutcomeClass`: what became of a call to `/confidential`. -/
inductive OutcomeClass where
  | ok
  | badRequest
  | unsupportedMediaType
  | batchTooLarge
  | upstream
  | upstreamTimeout
  | internal
  | preDecapsulation
  | requestTooLarge
  | requestReadFailed
  | methodNotAllowed
  | unsealable
  | cancelled
  deriving DecidableEq

/-- `OutcomeClass::as_str`. -/
def OutcomeClass.asStr : OutcomeClass → String
  | ok => "ok"
  | badRequest => "bad-request"
  | unsupportedMediaType => "unsupported-media-type"
  | batchTooLarge => "batch-too-large"
  | upstream => "upstream"
  | upstreamTimeout => "upstream-timeout"
  | internal => "internal"
  | preDecapsulation => "pre-decapsulation"
  | requestTooLarge => "request-too-large"
  | requestReadFailed => "request-read-failed"
  | methodNotAllowed => "method-not-allowed"
  | unsealable => "unsealable"
  | cancelled => "cancelled"

/-- The line `log_outcome` writes. -/
structure OutcomeLine where
  outcome : String
  status : Nat
  innerStatus : Nat
  batchSize : Nat
  requestBytes : Nat
  responseBytes : Nat
  upstreamMs : Nat
  totalMs : Nat
  deriving DecidableEq

/-- What others see of a running call. -/
inductive Event where
  /-- `Client::request` was called with the request. -/
  | send (req : OutRequest)
  /-- An outcome line was logged. -/
  | logged (line : OutcomeLine)

/-- The requests among the events. -/
def sends : List Event → List OutRequest
  | [] => []
  | .send req :: evs => req :: sends evs
  | .logged _ :: evs => sends evs

@[simp] theorem sends_append (xs ys : List Event) : sends (xs ++ ys) = sends xs ++ sends ys := by
  induction xs with
  | nil => rfl
  | cons e xs ih =>
    cases e with
    | send req => simp [sends, ih]
    | logged line => simp [sends, ih]

theorem sends_toList (o : Option OutRequest) : sends (o.map Event.send).toList = o.toList := by
  cases o <;> rfl

/-- What is sent in a prefix of a run is sent in the run. -/
theorem sends_prefix {xs ys : List Event} (h : xs <+: ys) : sends xs <+: sends ys := by
  obtain ⟨zs, rfl⟩ := h
  rw [sends_append]
  exact List.prefix_append _ _

/-- **The environment of one call.** -/
structure Env where
  /-- How the upstream answers a request: the milliseconds until its response head
  arrives or the connection fails, and the response, `none` on a transport error.  A node
  that does neither is not described; a call on one is dropped or meets its deadline. -/
  upstream : OutRequest → Nat × Option Incoming
  /-- The response nonce `getrandom::fill` draws, `none` when it fails. -/
  nonce : Option (Block 32)
  /-- The clock as the check before the upstream call reads it. -/
  preCheckClock : Int
  /-- The clock as signing reads it. -/
  signClock : Int

end VrpcSidecar
