import VrpcSidecar.Process
import VrpcSidecar.Verifier

/-! # The process while it serves

What holds over a whole run of the process, from its boot to its exit, with any number of
calls side by side.  The life of the process is a `Service` over the boot of `main` and the
router's tasks: any call may be polled next, any call that waits may lose its client, and a
signal may come at any time.

`every_call_accounted` relates every state a run reaches to what each call has left in the
log.  `shutdown_answers` says that a drain can end with all calls answered.
-/
namespace VrpcSidecar

/-- A call: what the client sends, and what the sidecar observes while it serves it. -/
structure Call where
  req : Request
  ce : CallEnv

section Process
variable {I : Type} [DecidableEq I]
variable (lib : Crates) (web : WebCrates) (config : Config) (benv : BootEnv) (calls : I → Call)

/-- The task that serves a call. -/
def serveCall (app : AppState lib) (call : Call) : Job ServiceEvent Response :=
  (buildRouter lib web app call.ce config.maxBodyBytes).serve call.req

/-- What `main` boots into; a panic would exit with 101. -/
def bootOutcome : Except Nat (AppState lib) := (boot lib config benv).result.getD (.error 101)

/-- A step of the process.  That it stops when no call runs any more is what the documentation
of `axum` says of `with_graceful_shutdown`. -/
def ProcessStep : Service (AppState lib) I ServiceEvent Response →
    Service (AppState lib) I ServiceEvent Response → Prop :=
  Service.Step (bootOutcome lib config benv) (fun app i => serveCall lib web config app (calls i))

/-- **The states of a process**, for the calls it gets. -/
def ProcessReaches (s : Service (AppState lib) I ServiceEvent Response) : Prop :=
  Service.Reachable (bootOutcome lib config benv)
    (fun app i => serveCall lib web config app (calls i)) s

end Process

/-! ## What a waiting call holds -/

section Calls
variable {lib : Crates} {web : WebCrates} {config : Config} {app : AppState lib} {call : Call}

/-- A call that is served under confidentiality. -/
def IsConfidential (req : Request) : Prop :=
  req.uri.path = ascii "/confidential" ∧ req.method = ascii "POST"

/-- What is served under confidentiality is what `confidential_exchange` leaves. -/
theorem Served.of_confidential {o : Option Response} {es : List ServiceEvent}
    (h : Served lib web app call.ce call.req o es) (hconf : IsConfidential call.req) :
    ∃ evs, (confidentialJob lib app call.ce call.req).Leaves o evs ∧ es = evs.map .call := by
  cases h with
  | confidential _ _ hleaves => exact ⟨_, hleaves, rfl⟩
  | refused _ hmethod => exact absurd hconf.2 hmethod
  | attested hpath _ _ _ => exact absurd (hconf.1.symm.trans hpath) (by decide)
  | rejected hpath _ _ => exact absurd (hconf.1.symm.trans hpath) (by decide)
  | info hpath _ => exact absurd (hconf.1.symm.trans hpath) (by decide)
  | notAllowed hpath _ =>
    rcases hpath with hpath | hpath
    · exact absurd (hconf.1.symm.trans hpath) (by decide)
    · exact absurd (hconf.1.symm.trans hpath) (by decide)
  | proxied hpath _ _ _ => exact absurd hconf.1 hpath

/-- What is proxied is what `forward` leaves. -/
theorem Served.of_proxied {o : Option Response} {es : List ServiceEvent}
    (h : Served lib web app call.ce call.req o es)
    (hpath : call.req.uri.path ≠ ascii "/confidential") (hlocal : ¬ IsLocal call.req) :
    ∃ o' evs, (⟨forward lib app.upstream app.signing call.ce.env call.req, fun _ => []⟩ :
        Job Event Response).Leaves o' evs ∧ es = evs.map .call ∧
      o = o'.map (fun resp => Router.withoutBody call.req.method
        (web.compress call.req.headers resp)) := by
  cases h with
  | confidential hconf _ _ => exact absurd hconf hpath
  | refused hconf _ => exact absurd hconf hpath
  | attested hatt _ _ _ => exact absurd (.inl hatt) hlocal
  | rejected hatt _ _ => exact absurd (.inl hatt) hlocal
  | info hinfo _ => exact absurd (.inr (.inl hinfo)) hlocal
  | notAllowed hroute _ => exact absurd (hroute.imp id .inl) hlocal
  | proxied _ _ _ hleaves => exact ⟨_, _, hleaves, rfl, rfl⟩

theorem mem_sends {upReq : OutRequest} {evs : List Event} : upReq ∈ sends evs ↔ .send upReq ∈ evs := by
  induction evs with
  | nil => simp [sends]
  | cons e evs ih =>
    cases e with
    | send r => simp [sends, ih]
    | logged line => simp [sends, ih]

/-- **Which calls send**, and what: a confidential one what its exchange sends, and a
proxied one what its pipeline sends. -/
theorem Served.sends_cases {o : Option Response} {es : List ServiceEvent} {upReq : OutRequest}
    (h : Served lib web app call.ce call.req o es) (hmem : ServiceEvent.call (.send upReq) ∈ es) :
    (IsConfidential call.req ∧ upReq ∈ sends (exchange lib app.upstream app.signing
      app.confidential call.ce.env call.req).log) ∨
    (call.req.uri.path ≠ ascii "/confidential" ∧ ¬ IsLocal call.req ∧
      upReq ∈ sends (runPipeline lib app.upstream app.signing call.ce.env call.req
        (app.upstream.maxBodyBytes.getD usizeMax)).log) := by
  cases h with
  | confidential hpath hmethod hleaves =>
    obtain ⟨ev, hev, heq⟩ := List.mem_map.mp hmem
    cases heq
    obtain ⟨-, -, hsends⟩ := confidentialJob_effects hleaves
    exact .inl ⟨⟨hpath, hmethod⟩, hsends.subset (mem_sends.mpr hev)⟩
  | refused _ _ => cases List.mem_singleton.mp hmem
  | attested _ _ _ _ =>
    obtain ⟨c, -, heq⟩ := List.mem_map.mp hmem
    cases heq
  | rejected _ _ _ => cases hmem
  | info _ _ => cases hmem
  | notAllowed _ _ => cases hmem
  | proxied hconf hatt hinfo hleaves =>
    obtain ⟨ev, hev, heq⟩ := List.mem_map.mp hmem
    cases heq
    have hpre := hleaves.log_prefix (fun _ => rfl)
    rw [forward_eq, Run.log_andThen_ret] at hpre
    refine .inr ⟨hconf, ?_, mem_sends.mpr (hpre.subset hev)⟩
    rintro (hpath | hpath | ⟨hpath, -⟩)
    · exact hatt hpath
    · exact hinfo hpath
    · exact hconf hpath

/-- Dropping a call to the confidential route logs a line, and only that. -/
theorem serveCall_onDrop (hconf : IsConfidential call.req) (t : Nat) :
    (serveCall lib web config app call).onDrop t =
      [.call (.logged (OutcomeGuard.drop ⟨none⟩ t))] := by
  obtain ⟨hpath, hmethod⟩ := hconf
  rw [serveCall, Router.serve, methods_buildRouter, if_pos hpath, MethodRouter.call,
    MethodRouter.select_post, if_pos hmethod]
  rfl

/-- A call that waits on the confidential route has logged nothing. -/
theorem suspended_lines {es : List ServiceEvent} {t : Nat} (hconf : IsConfidential call.req)
    (h : (serveCall lib web config app call).Leaves none
      (es ++ (serveCall lib web config app call).onDrop t)) :
    loggedLines (callEvents es) = [] := by
  obtain ⟨evs, hleaves, hevs⟩ := (serve_leaves h).of_confidential hconf
  obtain ⟨hone, -, -⟩ := confidentialJob_effects hleaves
  have hcalls := congrArg callEvents hevs
  rw [serveCall_onDrop hconf, callEvents_append, callEvents_map_call] at hcalls
  rw [← hcalls, loggedLines_append, List.length_append] at hone
  have hline : (loggedLines (callEvents
      [.call (.logged (OutcomeGuard.drop ⟨none⟩ t))])).length = 1 := rfl
  exact List.length_eq_zero_iff.mp (by omega)

end Calls

/-! ## The account of a call -/

/-- **What a call has left in the log**, by what has become of it. -/
structure CallAccount (lib : Crates) (web : WebCrates) (config : Config) (app : AppState lib)
    (call : Call) (ph : Phase ServiceEvent Response) (es : List ServiceEvent) : Prop where
  /-- A call that has not started has done nothing. -/
  unstarted : ph = .idle → es = []
  /-- A call that waits has logged no outcome. -/
  suspended : ∀ ms k t, ph = .running (.wait ms k) t → loggedLines (callEvents es) = []
  /-- What a call returned is what it returns on its own, and so is what it did. -/
  returned : ∀ resp, ph = .returned resp →
    (serveCall lib web config app call).run.result = some resp ∧
      es = (serveCall lib web config app call).run.log
  /-- An answer under confidentiality is logged once, truly. -/
  recorded : IsConfidential call.req → ∀ resp, ph = .returned resp →
    ∃ line, loggedLines (callEvents es) = [line] ∧ line.outcome ≠ "cancelled" ∧
      TrueRecord lib app.upstream app.signing app.confidential call.ce.env call.req resp line
  /-- A call that lost its client is logged once, as cancelled. -/
  cancelled : IsConfidential call.req → ph = .dropped →
    ∃ line, loggedLines (callEvents es) = [line] ∧ line.outcome = "cancelled" ∧ line.status = 0
  /-- The other routes log no outcome. -/
  unlogged : call.req.uri.path ≠ ascii "/confidential" → loggedLines (callEvents es) = []
  /-- One request at most reaches the upstream, and none of a local route. -/
  sent : (sends (callEvents es)).length ≤ 1
  sent_local : IsLocal call.req → sends (callEvents es) = []

section Account
variable {lib : Crates} {web : WebCrates} {gunzip : Bytes → Option Bytes} {config : Config}
  {app : AppState lib} {call : Call}

theorem callEvents_prefix {xs ys : List ServiceEvent} (h : xs <+: ys) :
    callEvents xs <+: callEvents ys := by
  obtain ⟨zs, rfl⟩ := h
  rw [callEvents_append]
  exact List.prefix_append _ _

/-- What a call has done at any time, it does when it returns, or it has ended. -/
theorem accounted_prefix {ph : Phase ServiceEvent Response} {es : List ServiceEvent}
    (h : Accounted (serveCall lib web config app call) ph es) :
    ∃ o all, (serveCall lib web config app call).Leaves o all ∧ es <+: all := by
  obtain ⟨resp, hresp⟩ := serve_returns lib web app call.ce config.maxBodyBytes call.req
  have hreturned : (serveCall lib web config app call).Leaves (some resp) _ := .returned hresp
  cases h with
  | idle => exact ⟨_, _, hreturned, List.nil_prefix⟩
  | running hreach => exact ⟨_, _, hreturned, ⟨_, hreach.log_eq.symm⟩⟩
  | returned hres => exact ⟨_, _, .returned hres, List.prefix_refl _⟩
  | dropped hd => exact ⟨_, _, .dropped hd, List.prefix_refl _⟩
  | unwound hreach =>
    -- no call panics
    have hnone := hreach.result_eq
    rw [show (serveCall lib web config app call).run.result = some resp from hresp] at hnone
    cases hnone

/-- The refusal of a method waits for nothing. -/
theorem confidential_of_suspended {es : List ServiceEvent}
    (h : (serveCall lib web config app call).Leaves none es)
    (hpath : call.req.uri.path = ascii "/confidential") : IsConfidential call.req := by
  refine ⟨hpath, ?_⟩
  by_contra hmethod
  have hserved := serve_leaves h
  generalize ho : (none : Option Response) = o at hserved
  cases hserved with
  | confidential _ hpost _ => exact hmethod hpost
  | refused _ _ => cases ho
  | attested hatt _ _ _ => exact absurd (hpath.symm.trans hatt) (by decide)
  | rejected hatt _ _ => exact absurd (hpath.symm.trans hatt) (by decide)
  | info hinfo _ => exact absurd (hpath.symm.trans hinfo) (by decide)
  | notAllowed _ _ => cases ho
  | proxied hconf _ _ _ => exact hconf hpath

/-- **The account holds of every call in every state of the pool.** -/
theorem callAccount {I : Type} [DecidableEq I] {calls : I → Call}
    {p : Pool I ServiceEvent Response} (hv : lib.http.ValueRule) (hstatus : lib.bhttp.StatusRule)
    (hwrite : lib.bhttp.WriteRule) (hcomp : web.CompressionRule gunzip)
    (h : Pool.Reachable (fun i => serveCall lib web config app (calls i)) p) (i : I) :
    CallAccount lib web config app (calls i) (p.phase i) (p.eventsOf i) := by
  obtain ⟨o, all, hleaves, hpre⟩ := accounted_prefix (Pool.accounted h i)
  have hroutes : KeepsApart lib web app (calls i).ce (calls i).req o all :=
    (serve_leaves hleaves).keepsApart hcomp
  have hpre' := callEvents_prefix hpre
  have hunlogged : (calls i).req.uri.path ≠ ascii "/confidential" →
      loggedLines (callEvents (p.eventsOf i)) = [] := by
    intro hpath
    have hlines := hroutes.lines
    rw [if_neg hpath] at hlines
    exact loggedLines_of_prefix hpre' (List.length_eq_zero_iff.mp hlines)
  constructor
  · exact Pool.eventsOf_idle h
  · intro ms k t hphase
    have hsuspended := Pool.leaves_suspended h hphase
    by_cases hpath : (calls i).req.uri.path = ascii "/confidential"
    · exact suspended_lines (confidential_of_suspended hsuspended hpath) hsuspended
    · exact hunlogged hpath
  · intro resp hphase
    have hreturned := Pool.leaves_returned h hphase
    exact ⟨hreturned.result_eq, hreturned.log_eq⟩
  · intro hconf resp hphase
    obtain ⟨evs, hjob, hevs⟩ :=
      (serve_leaves (Pool.leaves_returned h hphase)).of_confidential hconf
    obtain ⟨line, hline, -, hrecord⟩ := confidentialJob_record hv hstatus hwrite hjob
    rw [hevs, callEvents_map_call]
    exact ⟨line, hline, hrecord resp rfl⟩
  · intro hconf hphase
    obtain ⟨resp, hresp⟩ := serve_returns lib web app (calls i).ce config.maxBodyBytes (calls i).req
    obtain ⟨evs, hjob, hevs⟩ :=
      (serve_leaves (Pool.leaves_dropped h hresp hphase)).of_confidential hconf
    obtain ⟨line, hline, hcancelled, -⟩ := confidentialJob_record hv hstatus hwrite hjob
    rw [hevs, callEvents_map_call]
    exact ⟨line, hline, hcancelled rfl⟩
  · exact hunlogged
  · have hsent := sends_prefix hpre'
    exact hsent.length_le.trans hroutes.sends_le
  · intro hlocal
    have hnone := sends_prefix hpre'
    rw [hroutes.sends_local hlocal] at hnone
    exact List.prefix_nil.mp hnone

end Account

namespace KnownAnswers

/-- The default size of a batch is in its range. -/
theorem maxBatchSize_mem : 1 ≤ 1000 ∧ 1000 ≤ 1000 := by decide

/-- The configuration of the vector's sidecar. -/
def sidecarConfig : Config where
  upstreamUrl := "http://127.0.0.1:8545/".toList
  chainId := "42161".toList
  chainId_valid := validateChainId_ok_iff.mp (by decide)
  keyPath := "rpc-sign/v1".toList
  keyPurpose := none
  maxBodyBytes := none
  confidentialMaxBodyBytes := 8 * 1024 * 1024
  confidentialMaxResponseBytes := 128 * 1024 * 1024
  confidentialMaxBatchSize := 1000
  batchSize_mem := maxBatchSize_mem
  confidentialUpstreamTimeoutSecs := 25
  timeout_pos := by decide
  allowEmptyComposeHash := false

theorem post_confidential (body : Bytes) : IsConfidential (post "/confidential" body) :=
  ⟨(by decide : (post "/confidential" []).uri.path = ascii "/confidential"), rfl⟩

/-- The process gets to serve. -/
theorem serving : ∃ app, bootOutcome crates sidecarConfig ⟨dstack, true⟩ = .ok app ∧
    Booted sidecarConfig dstack app := by
  have hkey : KeyGiven sidecarConfig.identity dstack :=
    ⟨_, testSeed.bytes, rfl, hexDecode_hexEncode _, testSeed.size⟩
  have hinfo : InfoGiven sidecarConfig.identity dstack := ⟨_, _, rfl, rfl, .inl (by decide)⟩
  have hprovided : Provided crates sidecarConfig dstack := ⟨hkey, hinfo, by decide +kernel⟩
  obtain ⟨r, hr, hends, -⟩ := boot_ends curve_keys sidecarConfig ⟨dstack, true⟩
  cases hends with
  | serves _ _ hbooted => exact ⟨_, by rw [bootOutcome, hr]; rfl, hbooted⟩
  | unbound _ hbound => cases hbound
  | refused hmissing _ => exact absurd hprovided hmissing

section Drain
variable {I : Type} [DecidableEq I] (calls : I → Call) (is : List I)

/-- The process runs these calls, and no others. -/
theorem running_all {app : AppState crates}
    (happ : bootOutcome crates sidecarConfig ⟨dstack, true⟩ = .ok app) : ∃ s,
    ProcessReaches crates web sidecarConfig ⟨dstack, true⟩ calls s ∧ s.stage = .accepting app ∧
    ∀ i, if i ∈ is then (s.pool.phase i).IsRunning else s.pool.phase i = .idle := by
  induction is with
  | nil => exact ⟨_, .single (.up happ), rfl, fun i => rfl⟩
  | cons i is ih =>
    obtain ⟨⟨stage, pool⟩, hs, rfl, hphase⟩ := ih
    by_cases hi : i ∈ is
    · -- the call runs already
      refine ⟨_, hs, rfl, fun j => ?_⟩
      have hj := hphase j
      by_cases hji : j = i
      · rw [hji, if_pos hi] at hj
        rw [hji, if_pos List.mem_cons_self]
        exact hj
      · simpa [hji] using hj
    · have hidle := hphase i
      rw [if_neg hi] at hidle
      have hstart : Pool.Step (fun i => serveCall crates web sidecarConfig app (calls i)) pool
          (pool.put i (.running (serveCall crates web sidecarConfig app (calls i)).run 0) []) :=
        Pool.starts hidle
      refine ⟨_, hs.tail (.serve hstart), rfl, fun j => ?_⟩
      by_cases hji : j = i
      · rw [hji, if_pos List.mem_cons_self]
        exact ⟨_, _, Pool.phase_put_self ..⟩
      · have hj := hphase j
        dsimp only at hj ⊢
        rw [Pool.phase_put_other _ hji]
        simpa [hji] using hj

/-- A signal comes while these calls run. -/
theorem draining_all : ∃ app s,
    bootOutcome crates sidecarConfig ⟨dstack, true⟩ = .ok app ∧ Booted sidecarConfig dstack app ∧
    ProcessReaches crates web sidecarConfig ⟨dstack, true⟩ calls s ∧
    s.stage = .draining app ∧ ∀ i ∈ is, (s.pool.phase i).IsRunning := by
  obtain ⟨app, happ, hbooted⟩ := serving
  obtain ⟨⟨stage, pool⟩, hs, rfl, hphase⟩ := running_all calls is happ
  refine ⟨app, _, happ, hbooted, hs.tail .signal, rfl, fun i hi => ?_⟩
  have hrunning := hphase i
  rwa [if_pos hi] at hrunning

/-- They are answered before the process exits. -/
theorem drained_all : ∃ app s,
    bootOutcome crates sidecarConfig ⟨dstack, true⟩ = .ok app ∧ Booted sidecarConfig dstack app ∧
    ProcessReaches crates web sidecarConfig ⟨dstack, true⟩ calls s ∧ s.stage = .stopped 0 ∧
    ∀ i ∈ is, ∃ resp, s.pool.phase i = .returned resp := by
  obtain ⟨app, s, happ, hbooted, hs, hstage, hrunning⟩ := draining_all calls is
  obtain ⟨s', hsteps, hstopped, hfinished⟩ := Service.drain_completes hs hstage
    (fun i => serve_returns crates web app (calls i).ce sidecarConfig.maxBodyBytes (calls i).req)
  refine ⟨app, s', happ, hbooted, hs.trans hsteps, hstopped, fun i hi => ?_⟩
  obtain ⟨rest, t, hphase⟩ := hrunning i hi
  have hfin := hfinished i
  rw [hphase] at hfin
  generalize s'.pool.phase i = ph at hfin ⊢
  cases hfin with
  | kept hnot => exact absurd ⟨_, _, rfl⟩ hnot
  | answered _ => exact ⟨_, rfl⟩

end Drain

/-- One call is answered before the process exits. -/
theorem drained (call : Call) : ∃ app s resp,
    bootOutcome crates sidecarConfig ⟨dstack, true⟩ = .ok app ∧ Booted sidecarConfig dstack app ∧
    ProcessReaches crates web sidecarConfig ⟨dstack, true⟩ (fun _ : Unit => call) s ∧
    s.stage = .stopped 0 ∧ s.pool.phase () = .returned resp := by
  obtain ⟨app, s, happ, hbooted, hs, hstopped, hall⟩ := drained_all (fun _ : Unit => call) [()]
  obtain ⟨resp, hphase⟩ := hall () List.mem_cons_self
  exact ⟨app, s, resp, happ, hbooted, hs, hstopped, hphase⟩

end KnownAnswers

/-! ## Every run of the process -/

/-- **Every call of a process is accounted for**, in every state it reaches, whatever the
order in which its calls are polled and lose their clients.  A process whose boot failed
has served nothing, and one that has stopped has no call left. -/
theorem every_call_accounted {I : Type} [DecidableEq I] (lib : Crates) (web : WebCrates)
    (gunzip : Bytes → Option Bytes) (hv : lib.http.ValueRule) (hstatus : lib.bhttp.StatusRule)
    (hwrite : lib.bhttp.WriteRule) (hcomp : web.CompressionRule gunzip)
    (config : Config) (benv : BootEnv) (calls : I → Call)
    (s : Service (AppState lib) I ServiceEvent Response)
    (h : ProcessReaches lib web config benv calls s) :
    (∀ app, bootOutcome lib config benv = .ok app →
      ∀ i, CallAccount lib web config app (calls i) (s.pool.phase i) (s.pool.eventsOf i)) ∧
    (∀ code, bootOutcome lib config benv = .error code →
      s.pool.log = [] ∧ (∀ i, s.pool.phase i = .idle) ∧
        (s.stage = .booting ∨ s.stage = .stopped code)) ∧
    (∀ code, s.stage = .stopped code → ∀ i, ¬ (s.pool.phase i).IsRunning) := by
  have hsound := Service.sound h
  refine ⟨fun app happ i => ?_, fun code hcode => ?_, fun code hstage i => hsound.ended hstage i⟩
  · exact callAccount hv hstatus hwrite hcomp (hsound.of_ok happ) i
  · obtain ⟨hpool, hstage⟩ := hsound.of_error hcode
    rw [hpool]
    exact ⟨rfl, fun i => rfl, hstage⟩

open KnownAnswers in
/-- The vector's request, served by a process that then exits, is logged once. -/
theorem every_call_accounted_vector :
    ∃ s resp line,
      ProcessReaches crates web sidecarConfig ⟨dstack, true⟩
        (fun _ : Unit => ⟨post "/confidential" encapsulatedRequest, callEnv⟩) s ∧
      s.stage = .stopped 0 ∧ s.pool.phase () = .returned resp ∧
      loggedLines (callEvents (s.pool.eventsOf ())) = [line] ∧ line.outcome ≠ "cancelled" := by
  obtain ⟨app, s, resp, happ, -, hs, hstage, hphase⟩ :=
    drained ⟨post "/confidential" encapsulatedRequest, callEnv⟩
  obtain ⟨haccount, -, -⟩ := every_call_accounted crates web _ http_values bhttp_statuses
    bhttp_writes web_compresses sidecarConfig ⟨dstack, true⟩ _ s hs
  obtain ⟨line, hline, hnot, -⟩ :=
    (haccount app happ ()).recorded (post_confidential _) resp hphase
  exact ⟨s, resp, line, hs, hstage, hphase, hline, hnot⟩

/-- **A drain can end with every call answered.**  From every state in which a process
drains, steps of its own take it to exit code 0 without dropping a call, and every call that
ran then has the response it gives on its own: the node answers or fails, and bodies end. -/
theorem shutdown_answers {I : Type} [DecidableEq I] (lib : Crates) (web : WebCrates)
    (config : Config) (benv : BootEnv) (calls : I → Call) (app : AppState lib)
    (s : Service (AppState lib) I ServiceEvent Response)
    (h : ProcessReaches lib web config benv calls s) (hstage : s.stage = .draining app) :
    ∃ s', Relation.ReflTransGen (ProcessStep lib web config benv calls) s s' ∧
      s'.stage = .stopped 0 ∧ ∀ i, (¬ (s.pool.phase i).IsRunning → s'.pool.phase i = s.pool.phase i) ∧
        ((s.pool.phase i).IsRunning → ∃ resp, s'.pool.phase i = .returned resp ∧
          (serveCall lib web config app (calls i)).run.result = some resp) := by
  obtain ⟨s', hsteps, hstopped, hfinished⟩ := Service.drain_completes h hstage
    (fun i => serve_returns lib web app (calls i).ce config.maxBodyBytes (calls i).req)
  refine ⟨s', hsteps, hstopped, fun i => ?_⟩
  have hfin := hfinished i
  generalize s.pool.phase i = ph at hfin ⊢
  generalize s'.pool.phase i = ph' at hfin ⊢
  cases hfin with
  | kept hnot => exact ⟨fun _ => rfl, fun hrun => absurd hrun hnot⟩
  | answered hres => exact ⟨fun hnot => absurd ⟨_, _, rfl⟩ hnot, fun _ => ⟨_, rfl, hres⟩⟩

open KnownAnswers in
/-- A signal that comes while the vector's request is served does not cost it its answer. -/
theorem shutdown_answers_vector :
    ∃ s s' resp,
      ProcessReaches crates web sidecarConfig ⟨dstack, true⟩
        (fun _ : Unit => ⟨post "/confidential" encapsulatedRequest, callEnv⟩) s ∧
      (s.pool.phase ()).IsRunning ∧
      Relation.ReflTransGen (ProcessStep crates web sidecarConfig ⟨dstack, true⟩
        (fun _ : Unit => ⟨post "/confidential" encapsulatedRequest, callEnv⟩)) s s' ∧
      s'.stage = .stopped 0 ∧ s'.pool.phase () = .returned resp := by
  obtain ⟨app, s, -, -, hs, hstage, hrunning⟩ :=
    draining_all (fun _ : Unit => ⟨post "/confidential" encapsulatedRequest, callEnv⟩) [()]
  obtain ⟨s', hsteps, hstopped, hcalls⟩ := shutdown_answers crates web sidecarConfig ⟨dstack, true⟩ _
    app s hs hstage
  have hrun := hrunning () List.mem_cons_self
  obtain ⟨resp, hresp, -⟩ := (hcalls ()).2 hrun
  exact ⟨s, s', resp, hs, hrun, hsteps, hstopped, hresp⟩

end VrpcSidecar
