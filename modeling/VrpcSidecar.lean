import VrpcSidecar.ByteStrings
import VrpcSidecar.AsyncRuns
import VrpcSidecar.FieldMaps
import VrpcSidecar.VarintFraming
import VrpcSidecar.BinaryHttp
import VrpcSidecar.JsonGrammar
import VrpcSidecar.JsonScanner
import VrpcSidecar.BodyStreams
import VrpcSidecar.Clamping
import VrpcSidecar.HttpTypes
import VrpcSidecar.Crates
import VrpcSidecar.Envelope
import VrpcSidecar.Signing
import VrpcSidecar.Attestation
import VrpcSidecar.Environment
import VrpcSidecar.Proxy
import VrpcSidecar.Inner
import VrpcSidecar.Upstream
import VrpcSidecar.Confidential
import VrpcSidecar.ExchangeEndings
import VrpcSidecar.ExchangePlanes
import VrpcSidecar.KnownAnswers
import VrpcSidecar.EnvelopeRoundTrip
import VrpcSidecar.Passthrough
import VrpcSidecar.InnerLanguage
import VrpcSidecar.UpstreamGuard
import VrpcSidecar.BatchCount
import VrpcSidecar.InnerIsolation
import VrpcSidecar.Relay
import VrpcSidecar.FramedSlices
import VrpcSidecar.HeaderForwarding
import VrpcSidecar.Precheck
import VrpcSidecar.SignatureBinding
import VrpcSidecar.UpstreamTargets
import VrpcSidecar.ResponseCap
import VrpcSidecar.InPlaceSealing
import VrpcSidecar.ResponseKeys
import VrpcSidecar.Identity
import VrpcSidecar.NonceFormat
import VrpcSidecar.VarintCursor
import VrpcSidecar.OutcomeRecords
import VrpcSidecar.TaskPools
import VrpcSidecar.Routing
import VrpcSidecar.QueryStrings
import VrpcSidecar.JsonObjects
import VrpcSidecar.AttestationWire
import VrpcSidecar.Server
import VrpcSidecar.Verifier
import VrpcSidecar.Process
import VrpcSidecar.Serving
import VrpcSidecar.Authenticity
import VrpcSidecar.AttestationCalls
import VrpcSidecar.Deadlines
import VrpcSidecar.ClientMessages
import VrpcSidecar.ClientCalls
import VrpcSidecar.EndToEnd
import VrpcSidecar.NodeTraffic
import VrpcSidecar.VectorGenerator
