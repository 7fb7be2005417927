import VrpcSidecar.Authenticity
import VrpcSidecar.UpstreamTargets

/-! # Asking for a quote

A request to `/attestation`, from the URL a client writes to the quote dstack is asked for.
`attestation_quoted_iff` says that over whole runs the requests that ask for a nonce are the
ones that get a quote, and which status each of the others gets.

All quotes of a process and all its responses that a client accepts are about one key
(`one_key_per_process`), and a client that wants to verify responses first fetches it this
way (`fetched_key_verifies`).
-/
namespace VrpcSidecar
open QueryStrings

/-! ## How a request ends -/

/-- The attestation with a quote in it. -/
def AttestationState.withQuote (att : AttestationState) (quote : GetQuoteResponse) :
    AttestationResponse :=
  ⟨quote, prefixedHex att.signingPubkey.bytes, att.composeHash, att.appCompose⟩

/-- What a client is answered with a quote: 200, and the attestation as JSON. -/
def AttestationState.quotedAnswer (att : AttestationState) (json : JsonCrate)
    (quote : GetQuoteResponse) : Response :=
  ⟨.ok, MultiMap.empty.append .contentType (ascii "application/json"),
    (att.withQuote quote).toJson json⟩

theorem AttestationState.quotedAnswer_plain (att : AttestationState) (json : JsonCrate)
    (quote : GetQuoteResponse) :
    (att.quotedAnswer json quote).headers.getAll .contentEncoding = [] := by
  have hne : HeaderName.contentType ≠ .contentEncoding := by decide
  show (MultiMap.empty.append HeaderName.contentType (ascii "application/json")).getAll
    .contentEncoding = []
  rw [MultiMap.getAll_append, if_neg hne, MultiMap.getAll_empty, List.append_nil]

/-- **How a request to `/attestation` ends**: with a quote, or with the status of what was
missing. -/
inductive AttestationEnds {lib : Crates} (web : WebCrates) (app : AppState lib) (call : Call) :
    Response → List ServiceEvent → Prop where
  | quoted {nonce : Block 32} {quote : GetQuoteResponse}
      (hread : MethodRouter.IsRead call.req.method)
      (hasks : AsksFor (call.req.uri.query.getD []) nonce)
      (hquote : (call.ce.dstack.getQuote
        (app.attestation.signingPubkey.bytes ++ nonce.bytes)).2 = some quote) :
      AttestationEnds web app call
        (Router.withoutBody call.req.method (web.compress call.req.headers
          (app.attestation.quotedAnswer web.json quote)))
        [.dstack (.getQuote (app.attestation.signingPubkey.bytes ++ nonce.bytes))]
  | unavailable {nonce : Block 32} {resp : Response}
      (hread : MethodRouter.IsRead call.req.method)
      (hasks : AsksFor (call.req.uri.query.getD []) nonce)
      (hquote : (call.ce.dstack.getQuote
        (app.attestation.signingPubkey.bytes ++ nonce.bytes)).2 = none)
      (hstatus : resp.status = .badGateway) :
      AttestationEnds web app call resp
        [.dstack (.getQuote (app.attestation.signingPubkey.bytes ++ nonce.bytes))]
  | refused {resp : Response} (hread : MethodRouter.IsRead call.req.method)
      (hasks : ∀ nonce, ¬ AsksFor (call.req.uri.query.getD []) nonce)
      (hstatus : resp.status = .badRequest) : AttestationEnds web app call resp []
  | notAllowed {resp : Response} (hread : ¬ MethodRouter.IsRead call.req.method)
      (hstatus : resp.status = .methodNotAllowed) : AttestationEnds web app call resp []

section Ends
variable {lib : Crates} {web : WebCrates} {gunzip : Bytes → Option Bytes}
  {app : AppState lib} {call : Call} {resp : Response} {es : List ServiceEvent}

theorem status_withoutBody (method : Bytes) (resp : Response) :
    (Router.withoutBody method resp).status = resp.status := by
  unfold Router.withoutBody
  split
  · rfl
  · rfl

theorem status_addAllow (methods : Bytes) (resp : Response) :
    (MethodRouter.addAllow (some methods) resp).status = resp.status := by
  unfold MethodRouter.addAllow
  dsimp only
  split
  · rfl
  · rfl

/-- What is around a handler keeps its status. -/
theorem WebCrates.CompressionRule.status_served (hcomp : web.CompressionRule gunzip)
    (method : Bytes) (headers : HeaderMap) (resp : Response) :
    (Router.withoutBody method (web.compress headers resp)).status = resp.status := by
  rw [status_withoutBody, hcomp.status]

/-- A request to `/attestation` ends in one of the four ways. -/
theorem Served.attestationEnds (hcomp : web.CompressionRule gunzip)
    (hpath : call.req.uri.path = ascii "/attestation")
    (h : Served lib web app call.ce call.req (some resp) es) :
    AttestationEnds web app call resp es := by
  generalize ho : some resp = o at h
  cases h with
  | confidential hconf _ _ => exact absurd (hpath.symm.trans hconf) (by decide)
  | refused hconf _ => exact absurd (hpath.symm.trans hconf) (by decide)
  | info hinfo _ => exact absurd (hpath.symm.trans hinfo) (by decide)
  | proxied _ hatt _ _ => exact absurd hpath hatt
  | notAllowed _ hmethod =>
    cases ho
    refine .notAllowed hmethod ?_
    rw [status_withoutBody, status_addAllow, hcomp.status]
    rfl
  | rejected _ hread hquery =>
    cases ho
    refine .refused hread (fun nonce hasks => ?_) ?_
    · obtain ⟨q, hq, -⟩ := web.query_asks_iff.mpr hasks
      cases hq.symm.trans hquery
    · rw [hcomp.status_served, WebCrates.query_error hquery]
      rfl
  | @attested query o' evs _ hread hquery hleaves =>
    obtain ⟨r, rfl, rfl⟩ := Option.map_eq_some_iff.mp ho.symm
    have hresult := hleaves.result_eq
    have hlog := hleaves.log_eq
    dsimp only at hresult hlog
    cases hextract : extractNonce query with
    | error e =>
      rw [attestationHandler_refused _ _ hextract] at hresult hlog
      cases hresult
      subst hlog
      refine .refused hread (fun nonce hasks => ?_) (hcomp.status_served _ _ _)
      obtain ⟨q, hq, hnonce⟩ := web.query_asks_iff.mpr hasks
      cases Except.ok.inj (hq.symm.trans hquery)
      cases hextract.symm.trans hnonce
    | ok nonce =>
      have hasks := web.query_asks_iff.mp ⟨query, hquery, hextract⟩
      obtain ⟨_ | text⟩ := query
      · cases hextract
      obtain ⟨hlog', hresult'⟩ := attestationHandler_nonce app.attestation call.ce.dstack hextract
      rw [hlog'] at hlog
      rw [hresult'] at hresult
      subst hlog
      obtain rfl := (Option.some.inj hresult).symm
      cases hquote : (call.ce.dstack.getQuote
          (app.attestation.signingPubkey.bytes ++ nonce.bytes)).2 with
      | none => exact .unavailable hread hasks hquote (hcomp.status_served _ _ _)
      | some quote => exact .quoted hread hasks hquote

end Ends

/-- **What a request to `/attestation` did and got**, by its method and query string. -/
structure AttestationAccount {lib : Crates} (web : WebCrates) (app : AppState lib) (call : Call)
    (resp : Response) (es : List ServiceEvent) : Prop where
  quotes : ∀ c, ServiceEvent.dstack c ∈ es ↔ MethodRouter.IsRead call.req.method ∧
    ∃ nonce, AsksFor (call.req.uri.query.getD []) nonce ∧
      c = .getQuote (app.signing.pubkeyBytes.bytes ++ nonce.bytes)
  /-- A read with a quote is answered with 200 and the quote, with what the boot made. -/
  answer : ∀ nonce quote, MethodRouter.IsRead call.req.method →
    AsksFor (call.req.uri.query.getD []) nonce →
    (call.ce.dstack.getQuote (app.signing.pubkeyBytes.bytes ++ nonce.bytes)).2 = some quote →
    resp = Router.withoutBody call.req.method (web.compress call.req.headers
      (app.attestation.quotedAnswer web.json quote))
  ok_iff : resp.status = .ok ↔ MethodRouter.IsRead call.req.method ∧
    ∃ nonce quote, AsksFor (call.req.uri.query.getD []) nonce ∧
      (call.ce.dstack.getQuote (app.signing.pubkeyBytes.bytes ++ nonce.bytes)).2 = some quote
  badGateway_iff : resp.status = .badGateway ↔ MethodRouter.IsRead call.req.method ∧
    ∃ nonce, AsksFor (call.req.uri.query.getD []) nonce ∧
      (call.ce.dstack.getQuote (app.signing.pubkeyBytes.bytes ++ nonce.bytes)).2 = none
  badRequest_iff : resp.status = .badRequest ↔ MethodRouter.IsRead call.req.method ∧
    ∀ nonce, ¬ AsksFor (call.req.uri.query.getD []) nonce
  notAllowed_iff : resp.status = .methodNotAllowed ↔ ¬ MethodRouter.IsRead call.req.method

/-- One quote is the quote over the one nonce that is asked for. -/
theorem AsksFor.mem_quote_iff {query method : Bytes} {nonce : Block 32} (h : AsksFor query nonce)
    (hread : MethodRouter.IsRead method) (key : Bytes) (c : DstackCall) :
    ServiceEvent.dstack c ∈ [ServiceEvent.dstack (.getQuote (key ++ nonce.bytes))] ↔
      MethodRouter.IsRead method ∧ ∃ nonce, AsksFor query nonce ∧
        c = .getQuote (key ++ nonce.bytes) := by
  rw [List.mem_singleton]
  constructor
  · intro hc
    cases hc
    exact ⟨hread, nonce, h, rfl⟩
  · rintro ⟨-, nonce', h', rfl⟩
    rw [h'.unique h]

theorem AttestationEnds.account {lib : Crates} {web : WebCrates} {gunzip : Bytes → Option Bytes}
    {app : AppState lib} {call : Call} {resp : Response} {es : List ServiceEvent}
    (hcomp : web.CompressionRule gunzip)
    (hkey : app.attestation.signingPubkey = app.signing.pubkeyBytes)
    (h : AttestationEnds web app call resp es) : AttestationAccount web app call resp es := by
  cases h with
  | @quoted nonce quote hread hasks hquote =>
    rw [hkey] at hquote
    have hstatus : (Router.withoutBody call.req.method (web.compress call.req.headers
        (app.attestation.quotedAnswer web.json quote))).status = .ok :=
      hcomp.status_served _ _ _
    constructor
    · rw [hkey]
      exact hasks.mem_quote_iff hread _
    · intro nonce' quote' _ hasks' hsome
      rw [hasks'.unique hasks, hquote] at hsome
      rw [Option.some.inj hsome]
    · exact iff_of_true hstatus ⟨hread, nonce, quote, hasks, hquote⟩
    · refine iff_of_false (by rw [hstatus]; decide) ?_
      rintro ⟨-, nonce', hasks', hnone⟩
      rw [hasks'.unique hasks, hquote] at hnone
      cases hnone
    · exact iff_of_false (by rw [hstatus]; decide) (fun hno => hno.2 nonce hasks)
    · exact iff_of_false (by rw [hstatus]; decide) (not_not_intro hread)
  | @unavailable nonce _ hread hasks hquote hstatus =>
    rw [hkey] at hquote
    constructor
    · rw [hkey]
      exact hasks.mem_quote_iff hread _
    · intro nonce' quote _ hasks' hsome
      rw [hasks'.unique hasks, hquote] at hsome
      cases hsome
    · refine iff_of_false (by rw [hstatus]; decide) ?_
      rintro ⟨-, nonce', quote, hasks', hsome⟩
      rw [hasks'.unique hasks, hquote] at hsome
      cases hsome
    · exact iff_of_true hstatus ⟨hread, nonce, hasks, hquote⟩
    · exact iff_of_false (by rw [hstatus]; decide) (fun hno => hno.2 nonce hasks)
    · exact iff_of_false (by rw [hstatus]; decide) (not_not_intro hread)
  | refused hread hasks hstatus =>
    constructor
    · intro c
      refine iff_of_false List.not_mem_nil ?_
      rintro ⟨-, nonce, h, -⟩
      exact hasks nonce h
    · exact fun nonce _ _ h => absurd h (hasks nonce)
    · refine iff_of_false (by rw [hstatus]; decide) ?_
      rintro ⟨-, nonce, -, h, -⟩
      exact hasks nonce h
    · refine iff_of_false (by rw [hstatus]; decide) ?_
      rintro ⟨-, nonce, h, -⟩
      exact hasks nonce h
    · exact iff_of_true hstatus ⟨hread, hasks⟩
    · exact iff_of_false (by rw [hstatus]; decide) (not_not_intro hread)
  | notAllowed hread hstatus =>
    constructor
    · intro c
      exact iff_of_false List.not_mem_nil (fun h => hread h.1)
    · exact fun _ _ h => absurd h hread
    · exact iff_of_false (by rw [hstatus]; decide) (fun h => hread h.1)
    · exact iff_of_false (by rw [hstatus]; decide) (fun h => hread h.1)
    · exact iff_of_false (by rw [hstatus]; decide) (fun h => hread h.1)
    · exact iff_of_true hstatus hread

/-! ## The client -/

/-- The query of `format!("…/attestation?nonce=0x…")`. -/
def Client.nonceQuery (nonce : Block 32) : Bytes := ascii "nonce" ++ 0x3d :: prefixedHex nonce.bytes

/-- The target of that URL. -/
def Client.attestationTarget (nonce : Block 32) : PathAndQuery :=
  .ofBytes (ascii "/attestation" ++ 0x3f :: Client.nonceQuery nonce)

/-- `fetch_pubkey_from_attestation`, on the response. -/
def Client.fetchPubkey (json : JsonCrate) (resp : Response) : Fallible (Block 32) := do
  if 200 ≤ resp.status.code ∧ resp.status.code < 300 then
    let pkStr ← orRefused (json.strAt "pubkey".toList resp.body)
    let bytes ← decodeHex0x pkStr
    if h : bytes.length = 32 then .ok ⟨bytes, h⟩ else .error .refused
  else .error .refused

section Client
variable (nonce : Block 32)

theorem Client.joinedTarget : JoinedTarget [] (ascii "/attestation" ++ 0x3f :: Client.nonceQuery nonce)
    (Client.attestationTarget nonce) := by
  have hlen : (hexEncode nonce.bytes).length = 2 * nonce.bytes.length :=
    length_of_hexDecode (hexDecode_hexEncode _)
  rw [nonce.size] at hlen
  refine joinedTarget_ofBytes List.not_mem_nil ⟨_, rfl⟩ ?_
  have hnames : (ascii "/attestation").length = 12 ∧ (ascii "nonce").length = 5 ∧
      (ascii "0x").length = 2 := by decide
  simp only [Client.nonceQuery, prefixedHex, maxPathAndQuery, List.length_append, List.length_cons,
    List.length_nil, hnames, hlen]
  omega

/-- The URL leads to the route, with its query. -/
theorem Client.target_eq : (Client.attestationTarget nonce).path = ascii "/attestation" ∧
    (Client.attestationTarget nonce).queryStr = some (Client.nonceQuery nonce) := by
  have hjoined := Client.joinedTarget nonce
  have hclean : 0x3f ∉ ascii "/attestation" := by decide
  constructor
  · rw [hjoined.path, beforeQuery_append hclean]
    rfl
  · obtain ⟨hoffset, hsome⟩ := hjoined.offset (List.mem_append_right _ List.mem_cons_self)
    rw [PathAndQuery.queryStr, if_neg hsome, hjoined.data, hoffset,
      List.idxOf_append_of_notMem hclean]
    rfl

theorem hexText_asciiText (bs : Bytes) : HexText (asciiText (hexEncode bs)) bs := by
  rw [← hexDecode_utf8_iff, utf8_asciiText (visible_hexEncode _), hexDecode_hexEncode]

/-- The text of a nonce has no white space around it. -/
theorem trim_prefixedHex (bs : Bytes) :
    trim (asciiText (prefixedHex bs)) = asciiText (prefixedHex bs) := by
  apply trim_eq_self
  intro c hc
  apply isWhitespace_of_graphic
  have hc : c ∈ ['0', 'x'] ++ asciiText (hexEncode bs) := hc
  have hzero : ∀ c ∈ ['0', 'x'], isAsciiGraphic c = true := by simp [isAsciiGraphic]
  rcases List.mem_append.mp hc with hc | hc
  · exact hzero c hc
  · obtain ⟨v, hv⟩ := (hexText_asciiText bs).hexDigit_of_mem hc
    exact hv.graphic

theorem ne_of_mem_hexEncode {b c : UInt8} {bs : Bytes} (hb : b ∈ hexEncode bs)
    (hc : hexValue c = none) : b ≠ c := by
  obtain ⟨v, hv⟩ := hexValue_of_hexDecode (hexDecode_hexEncode _) b hb
  rintro rfl
  cases hc.symm.trans hv

/-- No byte of it separates pairs or is decoded. -/
theorem plain_prefixedHex (bs : Bytes) :
    ∀ b ∈ prefixedHex bs, b ≠ 0x26 ∧ b ≠ 0x25 ∧ b ≠ 0x2b := by
  have hzero : ∀ b ∈ ascii "0x", b ≠ 0x26 ∧ b ≠ 0x25 ∧ b ≠ 0x2b := by decide +kernel
  intro b hb
  rcases List.mem_append.mp hb with hb | hb
  · exact hzero b hb
  · exact ⟨ne_of_mem_hexEncode hb rfl, ne_of_mem_hexEncode hb rfl, ne_of_mem_hexEncode hb rfl⟩

/-- **A client asks for the nonce it writes.** -/
theorem Client.asksFor_nonceQuery : AsksFor (Client.nonceQuery nonce) nonce := by
  have hname : ∀ b ∈ ascii "nonce", b ≠ 0x3d ∧ b ≠ 0x26 ∧ b ≠ 0x25 ∧ b ≠ 0x2b := by decide +kernel
  refine ⟨asciiText (prefixedHex nonce.bytes), ?_, 1, 0, _, trim_prefixedHex _,
    hexText_asciiText _⟩
  rw [utf8_asciiText (visible_prefixedHex _), Client.nonceQuery]
  exact valuesOf_joined hname (plain_prefixedHex _)

variable {nonce} {uri : Uri}

theorem Client.path_of_target (h : uri.target = Client.attestationTarget nonce) :
    uri.path = ascii "/attestation" := by
  rw [Uri.path, h, if_neg (fun hnil => by cases hnil.1)]
  exact (Client.target_eq nonce).1

theorem Client.asks_of_target (h : uri.target = Client.attestationTarget nonce) :
    AsksFor (uri.query.getD []) nonce := by
  rw [Uri.query, h, (Client.target_eq nonce).2]
  exact Client.asksFor_nonceQuery nonce

end Client

/-! ## Every run -/

/-- **Which requests get a quote.**  In every state of every run, a request to `/attestation`
that has been answered asked for a quote over the key and a nonce exactly when it is a read
whose query string asks for that nonce.  It is then answered with 200 and the quote or, when
dstack fails, with 502; every other read is answered with 400 and every other method with
405. -/
theorem attestation_quoted_iff {I : Type} [DecidableEq I] (lib : Crates) (web : WebCrates)
    (gunzip : Bytes → Option Bytes) (hcomp : web.CompressionRule gunzip) (config : Config)
    (benv : BootEnv) (calls : I → Call) (s : Service (AppState lib) I ServiceEvent Response)
    (h : ProcessReaches lib web config benv calls s) (app : AppState lib)
    (happ : bootOutcome lib config benv = .ok app) (i : I)
    (hpath : (calls i).req.uri.path = ascii "/attestation") (resp : Response)
    (hphase : s.pool.phase i = .returned resp) :
    AttestationAccount web app (calls i) resp (s.pool.eventsOf i) :=
  ((h.served happ hphase).attestationEnds hcomp hpath).account hcomp
    (booted_of_bootOutcome happ).key

namespace KnownAnswers

/-- A client fetches `/attestation` with a nonce. -/
def fetch (nonce : Block 32) : Request :=
  ⟨ascii "GET", ⟨none, none, Client.attestationTarget nonce⟩, .empty, bodyOf []⟩

end KnownAnswers

open KnownAnswers in
/-- A client of the vector's process gets the quote it asks for. -/
theorem attestation_quoted_vector :
    ∃ app s resp quote, bootOutcome crates sidecarConfig ⟨dstack, true⟩ = .ok app ∧
      ProcessReaches crates web sidecarConfig ⟨dstack, true⟩
        (fun _ : Unit => ⟨fetch (Block.zero 32), callEnv⟩) s ∧
      s.pool.phase () = .returned resp ∧ resp.status = .ok ∧
      resp = web.compress .empty (app.attestation.quotedAnswer structJson quote) ∧
      ServiceEvent.dstack (.getQuote (app.signing.pubkeyBytes.bytes ++ (Block.zero 32).bytes)) ∈
        s.pool.eventsOf () := by
  obtain ⟨app, s, resp, happ, -, hs, -, hphase⟩ := drained ⟨fetch (Block.zero 32), callEnv⟩
  have haccount := attestation_quoted_iff crates web _ web_compresses sidecarConfig
    ⟨dstack, true⟩ _ s hs app happ () (Client.path_of_target rfl) resp hphase
  have hasks : AsksFor ((fetch (Block.zero 32)).uri.query.getD []) (Block.zero 32) :=
    Client.asks_of_target rfl
  exact ⟨app, s, resp, _, happ, hs, hphase,
    haccount.ok_iff.mpr ⟨.inl rfl, _, _, hasks, rfl⟩,
    haccount.answer _ _ (.inl rfl) hasks rfl,
    (haccount.quotes _).mpr ⟨.inl rfl, _, hasks, rfl⟩⟩

/-- **One key per process.**  Every quote the process asks for is over the key its boot
derived, and every response it gives that a client accepts, for whatever request, names
that key, as long as the upstream sends no signing header of its own. -/
theorem one_key_per_process {I : Type} [DecidableEq I] (lib : Crates) (web : WebCrates)
    (gunzip : Bytes → Option Bytes) (hv : lib.http.ValueRule) (hcomp : web.CompressionRule gunzip)
    (config : Config) (benv : BootEnv) (calls : I → Call)
    (s : Service (AppState lib) I ServiceEvent Response)
    (h : ProcessReaches lib web config benv calls s) (app : AppState lib)
    (happ : bootOutcome lib config benv = .ok app) :
    (∀ i c, (i, ServiceEvent.dstack c) ∈ s.pool.log →
      ∃ nonce : Block 32, c = .getQuote (app.signing.pubkeyBytes.bytes ++ nonce.bytes)) ∧
    (∀ i resp requestBody, s.pool.phase i = .returned resp → (calls i).ce.env.NoSignature →
      clientVerifies lib gunzip (utf8 config.chainId) requestBody resp = .ok () →
      NamesKey app.signing resp) := by
  have hpool := h.pool happ
  constructor
  · intro i c hmem
    obtain ⟨o, all, hleaves, hpre⟩ := accounted_prefix (Pool.accounted hpool i)
    have hquote : c ∈ dstackCalls all :=
      List.mem_filterMap.mpr ⟨_, hpre.subset (Pool.mem_eventsOf.mpr hmem), rfl⟩
    obtain ⟨-, -, query, nonce, -, -, rfl⟩ :=
      ((serve_leaves hleaves).keepsApart hcomp).quotes c hquote
    rw [(booted_of_bootOutcome happ).key]
    exact ⟨nonce, rfl⟩
  · intro i resp requestBody hphase hplain haccept
    exact h.namesKey happ hv hcomp hphase hplain haccept

namespace KnownAnswers

/-- One client fetches `/attestation`, and another posts the vector's request. -/
def fetchAndPost : Bool → Call
  | false => ⟨fetch (Block.zero 32), callEnv⟩
  | true => ⟨post "/" rpcRequest, callEnv⟩

end KnownAnswers

open KnownAnswers in
/-- The quote and the answer of the vector's process are about one key. -/
theorem one_key_per_process_vector :
    ∃ app s resp c, bootOutcome crates sidecarConfig ⟨dstack, true⟩ = .ok app ∧
      ProcessReaches crates web sidecarConfig ⟨dstack, true⟩ fetchAndPost s ∧
      (false, ServiceEvent.dstack c) ∈ s.pool.log ∧
      (∃ nonce : Block 32, c = .getQuote (app.signing.pubkeyBytes.bytes ++ nonce.bytes)) ∧
      s.pool.phase true = .returned resp ∧
      clientVerifies crates (fun _ => none) (utf8 sidecarConfig.chainId) rpcRequest resp = .ok () ∧
      NamesKey app.signing resp := by
  obtain ⟨app, s, happ, hbooted, hs, -, hall⟩ := drained_all fetchAndPost [false, true]
  obtain ⟨answer, hanswer⟩ := hall false (by decide)
  obtain ⟨resp, hphase⟩ := hall true (by decide)
  obtain ⟨hquotes, hkey⟩ := one_key_per_process crates web _ http_values web_compresses
    sidecarConfig ⟨dstack, true⟩ _ s hs app happ
  -- the fetch has asked for a quote
  have hends := (hs.served happ hanswer).attestationEnds web_compresses (Client.path_of_target rfl)
  have hquote := Pool.mem_eventsOf.mp (((hends.account web_compresses hbooted.key).quotes _).mpr
    ⟨.inl rfl, _, Client.asks_of_target rfl, rfl⟩)
  have hverifies : clientVerifies crates (fun _ => none) (utf8 sidecarConfig.chainId) rpcRequest
      resp = .ok () := by
    have hreturned := (Pool.leaves_returned (hs.pool happ) hphase).result_eq
    rw [← hbooted.chain]
    exact (forwarded hbooted hreturned).1
  exact ⟨app, s, resp, _, happ, hs, hquote, hquotes false _ hquote, hphase, hverifies,
    hkey true resp _ hphase callEnv_plain hverifies⟩

section Fetch
variable {json : JsonCrate} {resp : Response}

/-- What is answered with 200 and the JSON of an attestation gives its key. -/
theorem Client.fetchPubkey_ok (hjson : json.FieldRule) {r : AttestationResponse} {key : Block 32}
    (hstatus : resp.status = .ok) (hbody : resp.body = r.toJson json)
    (hpubkey : r.pubkey = prefixedHex key.bytes) :
    Client.fetchPubkey json resp = .ok key := by
  have hsuccess : 200 ≤ resp.status.code ∧ resp.status.code < 300 := by
    rw [hstatus]
    decide
  have htext := utf8_asciiText (visible_prefixedHex key.bytes)
  have hfield : ("pubkey".toList, .string (utf8 (asciiText (prefixedHex key.bytes)))) ∈ r.fields := by
    rw [htext, ← hpubkey]
    exact List.mem_cons_of_mem _ List.mem_cons_self
  rw [Client.fetchPubkey, if_pos hsuccess, hbody, AttestationResponse.strAt_toJson hjson hfield,
    htext, orRefused_some, ok_bind, decodeHex0x_prefixedHex, ok_bind, dif_pos key.size]

/-- What is answered with another status gives none. -/
theorem Client.fetchPubkey_refused (hstatus : resp.status = .badGateway) :
    Client.fetchPubkey json resp = .error .refused := by
  apply if_neg
  rw [hstatus]
  decide

/-- An attestation that the server did not encode gives the key it is about. -/
theorem Client.fetchPubkey_served {web : WebCrates} {gunzip : Bytes → Option Bytes}
    (hjson : web.json.FieldRule) (hcomp : web.CompressionRule gunzip) (headers : HeaderMap)
    {att : AttestationState} {quote : GetQuoteResponse}
    (hplain : (web.compress headers (att.quotedAnswer web.json quote)).headers.getAll
      .contentEncoding = []) :
    Client.fetchPubkey web.json (web.compress headers (att.quotedAnswer web.json quote)) =
      .ok att.signingPubkey := by
  refine Client.fetchPubkey_ok (r := att.withQuote quote) hjson (hcomp.status _ _) ?_ rfl
  obtain ⟨-, hsame⟩ | ⟨hcoded, -⟩ := hcomp.coding headers _ (att.quotedAnswer_plain web.json quote)
  · exact hsame
  · rw [hcoded] at hplain
    cases hplain

theorem withoutBody_get (resp : Response) : Router.withoutBody (ascii "GET") resp = resp :=
  if_neg (by decide)

end Fetch

/-- **The key a client fetches is the one it then sees.**  Take a client that fetches
`/attestation` with a nonce of its own.  It gets a key exactly when dstack quotes, and then
dstack was asked for a quote over that key and that nonce, and every response of the process
that the client accepts names that key, as long as the upstream sends no signing header of
its own. -/
theorem fetched_key_verifies {I : Type} [DecidableEq I] (lib : Crates) (web : WebCrates)
    (gunzip : Bytes → Option Bytes) (hv : lib.http.ValueRule) (hjson : web.json.FieldRule)
    (hcomp : web.CompressionRule gunzip) (config : Config) (benv : BootEnv)
    (calls : I → Call) (s : Service (AppState lib) I ServiceEvent Response)
    (h : ProcessReaches lib web config benv calls s) (app : AppState lib)
    (happ : bootOutcome lib config benv = .ok app) (i : I) (nonce : Block 32)
    (hget : (calls i).req.method = ascii "GET")
    (htarget : (calls i).req.uri.target = Client.attestationTarget nonce) (resp : Response)
    (hphase : s.pool.phase i = .returned resp)
    (hplain : resp.headers.getAll .contentEncoding = []) :
    ((∃ key, Client.fetchPubkey web.json resp = .ok key) ↔
      ∃ quote, ((calls i).ce.dstack.getQuote
        (app.signing.pubkeyBytes.bytes ++ nonce.bytes)).2 = some quote) ∧
    ∀ key, Client.fetchPubkey web.json resp = .ok key →
      (i, ServiceEvent.dstack (.getQuote (key.bytes ++ nonce.bytes))) ∈ s.pool.log ∧
      ∀ j served requestBody, s.pool.phase j = .returned served →
        (calls j).ce.env.NoSignature →
        clientVerifies lib gunzip (utf8 config.chainId) requestBody served = .ok () →
        decodeHex0x (headerStr served.headers .vrpcPubkey) = .ok key.bytes := by
  have hasks := Client.asks_of_target htarget
  have hkey := (booted_of_bootOutcome happ).key
  have hends := (h.served happ hphase).attestationEnds hcomp (Client.path_of_target htarget)
  have hevents : ∀ c, ServiceEvent.dstack c ∈ s.pool.eventsOf i →
      (i, ServiceEvent.dstack c) ∈ s.pool.log := fun c hc => Pool.mem_eventsOf.mp hc
  generalize s.pool.eventsOf i = es at hends hevents
  cases hends with
  | @quoted nonce' quote hread hasks' hquote =>
    obtain rfl := hasks.unique hasks'
    rw [hkey] at hquote
    rw [hget, withoutBody_get] at hplain ⊢
    rw [Client.fetchPubkey_served hjson hcomp _ hplain, hkey]
    refine ⟨iff_of_true ⟨_, rfl⟩ ⟨quote, hquote⟩, ?_⟩
    intro key hok
    obtain rfl := Except.ok.inj hok
    refine ⟨?_, ?_⟩
    · apply hevents
      rw [hkey]
      exact List.mem_singleton_self _
    · intro j served requestBody hserved hunsigned haccept
      exact h.namesKey happ hv hcomp hserved hunsigned haccept
  | @unavailable nonce' _ hread hasks' hquote hstatus =>
    obtain rfl := hasks.unique hasks'
    rw [hkey] at hquote
    rw [Client.fetchPubkey_refused hstatus, hquote]
    refine ⟨iff_of_false ?_ ?_, ?_⟩
    · rintro ⟨key, hok⟩
      cases hok
    · rintro ⟨quote, hsome⟩
      cases hsome
    · intro key hok
      cases hok
  | refused hread hno hstatus => exact absurd hasks (hno nonce)
  | notAllowed hread hstatus => exact absurd (.inl hget) hread

namespace KnownAnswers

/-- What the client gets is not coded. -/
theorem fetch_plain {app : AppState crates} {nonce : Block 32} {resp : Response}
    {es : List ServiceEvent}
    (h : AttestationEnds web app ⟨fetch nonce, callEnv⟩ resp es) :
    resp.headers.getAll .contentEncoding = [] := by
  cases h with
  | @quoted nonce' quote _ _ _ =>
    obtain ⟨hplain, -⟩ | ⟨-, hgunzip⟩ := web_compresses.coding (fetch nonce).headers _
      (app.attestation.quotedAnswer_plain web.json quote)
    · exact (congrArg (fun r => r.headers.getAll .contentEncoding) (withoutBody_get _)).trans hplain
    · cases hgunzip
  | unavailable _ _ hquote _ => cases hquote
  | refused _ hasks _ => exact absurd (Client.asks_of_target rfl) (hasks nonce)
  | notAllowed hread _ => exact absurd (.inl rfl) hread

end KnownAnswers

open KnownAnswers in
/-- A client of the vector's process fetches its key. -/
theorem fetched_key_vector :
    ∃ app s resp, bootOutcome crates sidecarConfig ⟨dstack, true⟩ = .ok app ∧
      ProcessReaches crates web sidecarConfig ⟨dstack, true⟩
        (fun _ : Unit => ⟨fetch (Block.zero 32), callEnv⟩) s ∧
      s.pool.phase () = .returned resp ∧ ∃ key,
        Client.fetchPubkey structJson resp = .ok key ∧
        ((), ServiceEvent.dstack (.getQuote (key.bytes ++ (Block.zero 32).bytes))) ∈ s.pool.log := by
  obtain ⟨app, s, resp, happ, -, hs, -, hphase⟩ := drained ⟨fetch (Block.zero 32), callEnv⟩
  have hplain := fetch_plain ((hs.served happ hphase).attestationEnds web_compresses
    (Client.path_of_target rfl))
  obtain ⟨hfetched, hkey⟩ := fetched_key_verifies crates web _ http_values structJson_fields
    web_compresses sidecarConfig ⟨dstack, true⟩ _ s hs app happ () (Block.zero 32) rfl rfl resp
    hphase hplain
  obtain ⟨key, hok⟩ := hfetched.mpr ⟨_, rfl⟩
  exact ⟨app, s, resp, happ, hs, hphase, key, hok, (hkey key hok).1⟩

end VrpcSidecar
