import KalshiAutotrader.App.EndToEnd
import KalshiAutotrader.Core.Signing

/-!
What becomes of the private key.

It goes to the signer and nowhere else. A signing that fails is in the log with its
reason.
-/

namespace KalshiAutotrader.App

open Kit KalshiAutotrader.Core Logging Md Simdjson

variable {host : Host} {fs : FileSystem} {file : Option Bytes} {moment : Moment}
  {options : AsyncJsonLoggerOptions} {s s' : ProgramState}

def Host.loadAuth (host : Host) : Except AuthError AuthConfig :=
  loadAuthFromEnv host.getenv host.readFile

theorem Host.loadAuth_eq (host : Host) :
    loadAuthFromEnv host.getenv host.readFile = host.loadAuth := rfl

/-! ### Failures -/

/-- The event gives the reason why a signing with the key of the host has failed. -/
def GivesReason {σ : Type} (lib : SslLibrary σ) (host : Host) (event : LogEvent) : Prop :=
  event.message = signingFailed → ∃ auth text, host.loadAuth = .ok auth ∧
    SignReason lib auth.privateKeyPem text ∧ event.level = .error ∧ event.fields =
      [⟨ascii "error", .string (ascii "signing failed")⟩, ⟨ascii "openssl_error", .string text⟩]

section Failures

variable {σ : Type} {lib : SslLibrary σ} {states : Moment → SignState σ}

theorem givesReason_logEvent {level : LogLevel} {component message : Bytes} {fields : LogFields}
    (h : message ≠ signingFailed) :
    GivesReason lib host (logEvent level component message fields) :=
  fun hmessage => absurd hmessage h

/-- The handler does not talk about signing. -/
theorem givesReason_of_said {output : Output} (h : Says output) {event : LogEvent}
    (hevent : event ∈ Output.event output) : GivesReason lib host event :=
  fun hmessage => absurd hmessage (unsigned_of_said h hevent).2

/-- The event that `build_headers` logs gives the reason of the failure it is about. -/
theorem givesReason_of_buildHeaders {auth : AuthConfig} {e : AppError} {event : LogEvent}
    (htexts : ∀ text, Gave lib .getError text → text ≠ [])
    (hsign : host.sign = sslSigner lib states)
    (hauth : host.loadAuth = .ok auth)
    (h : buildHeaders host.sign auth moment = .error (e, .log event)) :
    GivesReason lib host event := by
  unfold buildHeaders at h
  split at h
  · cases h
  · next failure hbuilt =>
    obtain ⟨-, hevent⟩ := Prod.mk.inj (Except.error.inj h)
    obtain rfl := Diagnostic.log.inj hevent
    unfold buildWsHeaders at hbuilt
    simp only [hsign] at hbuilt
    split at hbuilt
    · next e' hfailed =>
      obtain rfl := Except.error.inj hbuilt
      obtain ⟨herror, hreason⟩ := reason_of_sslSigner htexts hfailed
      refine fun _ => ⟨auth, e'.lastSignError, hauth, hreason, rfl, ?_⟩
      rw [herror]
      rfl
    · cases hbuilt

theorem givesReason_refreshEvents {ctx : AppContext}
    (htexts : ∀ text, Gave lib .getError text → text ≠ [])
    (hsign : host.sign = sslSigner lib states)
    (hauth : host.loadAuth = .ok ctx.auth) (a : FeedAct) :
    ∀ event ∈ ctx.refreshEvents host.sign a, GivesReason lib host event := by
  unfold AppContext.refreshEvents
  cases a with
  | waited moment =>
      intro event hevent
      simp only at hevent
      split at hevent
      · next hbuilt =>
        obtain rfl := List.mem_singleton.mp hevent
        exact givesReason_of_buildHeaders htexts hsign hauth hbuilt
      · cases hevent
  | _ => simp

theorem givesReason_build {e : AppError} {event : LogEvent}
    (htexts : ∀ text, Gave lib .getError text → text ≠ [])
    (hsign : host.sign = sslSigner lib states)
    (h : AppContext.build host file moment = .error (e, .log event)) :
    GivesReason lib host event := by
  unfold AppContext.build at h
  rcases bind_eq_error.mp h with hload | ⟨config, -, h⟩
  · obtain ⟨err, -, heq⟩ := mapError_eq_error.mp hload
    cases (Prod.mk.inj heq).2
  rcases bind_eq_error.mp h with hlogger | ⟨logger, -, h⟩
  · obtain ⟨line, heq⟩ := stderr_of_buildLoggerOptions hlogger
    cases heq
  rcases bind_eq_error.mp h with hauth | ⟨auth, hauth, h⟩
  · obtain ⟨err, -, heq⟩ := mapError_eq_error.mp hauth
    obtain rfl := Diagnostic.log.inj (Prod.mk.inj heq).2
    exact givesReason_logEvent (by decide +kernel)
  rcases bind_eq_error.mp h with hsubscription | ⟨subscription, -, h⟩
  · obtain ⟨err, -, heq⟩ := mapError_eq_error.mp hsubscription
    obtain rfl := Diagnostic.log.inj (Prod.mk.inj heq).2
    exact givesReason_logEvent (by decide +kernel)
  rcases bind_eq_error.mp h with hheaders | ⟨headers, -, h⟩
  · exact givesReason_of_buildHeaders htexts hsign (mapError_eq_ok.mp hauth) hheaders
  · cases h

theorem auth_of_build {ctx : AppContext} (h : AppContext.build host file moment = .ok ctx) :
    host.loadAuth = .ok ctx.auth := by
  unfold AppContext.build at h
  simp only [bind_eq_ok, mapError_eq_ok] at h
  obtain ⟨config, -, logger, -, auth, hauth, subscription, -, headers, -, hctx⟩ := h
  obtain rfl := Except.ok.inj hctx
  exact hauth

/-- The loop has the credentials of the host, and the reasons are given. -/
structure Reasoned (lib : SslLibrary σ) (host : Host) (loop : Option (AppContext × RunState))
    (said : List LogEvent) : Prop where
  auth : ∀ ctx feed, loop = some (ctx, feed) → host.loadAuth = .ok ctx.auth
  reason : ∀ event ∈ said, GivesReason lib host event

theorem givesReason_logConfig (ctx : AppContext) :
    ∀ event ∈ ctx.logConfig, GivesReason lib host event := by
  rw [AppContext.logConfig, List.forall_mem_cons, List.forall_mem_singleton]
  exact ⟨givesReason_logEvent (by decide +kernel), givesReason_logEvent (by decide +kernel)⟩

theorem reasoned_main (fs : FileSystem) (htexts : ∀ text, Gave lib .getError text → text ≠ [])
    (hsign : host.sign = sslSigner lib states) :
    Reasoned lib host (main host fs file moment).loop (main host fs file moment).calls := by
  unfold main
  cases hbuild : AppContext.build host file moment with
  | error failure =>
      obtain ⟨e, diagnostic⟩ := failure
      refine ⟨by simp, fun event hevent => ?_⟩
      cases diagnostic with
      | stderr line => cases hevent
      | log event' =>
          obtain rfl := List.mem_singleton.mp hevent
          exact givesReason_build htexts hsign hbuild
  | ok ctx =>
      cases hrun : FeedHandler.run fs (ctx.buildRunOptions host.sign) with
      | error failure =>
          obtain ⟨e, event⟩ := failure
          simp only [hrun]
          refine ⟨by simp, List.forall_mem_append.mpr ⟨givesReason_logConfig ctx, ?_⟩⟩
          rw [List.forall_mem_cons, List.forall_mem_singleton]
          refine ⟨?_, givesReason_logEvent (by decide +kernel)⟩
          unfold FeedHandler.run at hrun
          split at hrun
          · obtain ⟨-, rfl⟩ := Prod.mk.inj (Except.error.inj hrun)
            exact givesReason_logEvent (by decide +kernel)
          · cases hrun
      | ok state =>
          have hstart : (ctx.feed host).start = state := start_of_run hrun
          simp only [hrun, ← hstart]
          refine ⟨fun ctx' feed heq => ?_, List.forall_mem_append.mpr
            ⟨givesReason_logConfig ctx, fun event hevent => ?_⟩⟩
          · obtain ⟨rfl, -⟩ := Prod.mk.inj (Option.some.inj heq)
            exact auth_of_build hbuild
          · obtain ⟨output, houtput, hevent⟩ := List.mem_filterMap.mp hevent
            exact givesReason_of_said (says_of_reachable .start output houtput) hevent

theorem reasoned_next {a : ProgramAct} (htexts : ∀ text, Gave lib .getError text → text ≠ [])
    (hsign : host.sign = sslSigner lib states) (hs : Reasoned lib host s.loop s.said)
    (h : s.next host options a = some s') : Reasoned lib host s'.loop s'.said := by
  rcases next_cases h with
    ⟨b, ctx, feed, feed', rfl, hloop, hfeed, hloop', hsaid'⟩ | ⟨-, hloop', hsaid'⟩
  · have hauth := hs.auth ctx feed hloop
    rw [hloop', hsaid']
    refine ⟨fun ctx' feed'' heq => ?_, List.forall_mem_append.mpr ⟨hs.reason, ?_⟩⟩
    · obtain ⟨rfl, -⟩ := Prod.mk.inj (Option.some.inj heq)
      exact hauth
    · refine List.forall_mem_append.mpr ⟨givesReason_refreshEvents htexts hsign hauth b, ?_⟩
      intro event hevent
      obtain ⟨outputs, htrace, hspoken⟩ := speaks_of_next hfeed
      rw [htrace, List.drop_left] at hevent
      obtain ⟨output, houtput, hevent⟩ := List.mem_filterMap.mp hevent
      exact givesReason_of_said (hspoken output houtput) hevent
  · rwa [hloop', hsaid']

/-- A signing that fails is never without a reason in the log: in every run, over any
library that has a text for each of its errors, what is said and what is written about it
names the wrong format of the key or what the library has said. -/
theorem signing_failures_explained {σ : Type} (lib : SslLibrary σ)
    (states : Moment → SignState σ) (htexts : ∀ text, Gave lib .getError text → text ≠ [])
    (host : Host) (hsign : host.sign = sslSigner lib states) (fs : FileSystem)
    (file : Option Bytes) (moment : Moment) (options : AsyncJsonLoggerOptions)
    (hoptions : (main host fs file moment).logger = some options) (s : ProgramState)
    (h : (program host options (main host fs file moment)).Reachable s) :
    ∀ event ∈ s.said ++ s.logger.events, GivesReason lib host event := by
  have hs : Reasoned lib host s.loop s.said :=
    h.invariant (I := fun s => Reasoned lib host s.loop s.said) (reasoned_main fs htexts hsign)
      fun hs _ hnext => reasoned_next htexts hsign hs hnext
  refine List.forall_mem_append.mpr ⟨hs.reason, fun event hevent hmessage => ?_⟩
  have hsaid := said_of_mem_events (launched_main host fs file moment) hoptions h hevent
  exact hs.reason (unstamped event) hsaid hmessage

/-- A library that cannot read the key. -/
def unreadable : SslLibrary Unit := fun call _ =>
  match call with
  | .readPrivateKey => (none, ())
  | .getError => (some (ascii "error:1E08010C:DECODER routines::unsupported"), ())
  | _ => (some [], ())

theorem texts_unreadable (text : Bytes) (h : Gave unreadable .getError text) : text ≠ [] := by
  obtain ⟨_, hanswer⟩ := h
  obtain rfl := Option.some.inj hanswer
  decide +kernel

def unreadableHost : Host :=
  { localHost with sign := sslSigner unreadable fun _ => .initial () }

def unreadableLaunch : Launch :=
  main unreadableHost ⟨fun _ => true, fun _ => true⟩ (some (fileAt (ascii "wss://localhost")))
    ⟨1700000000000, 0⟩

theorem signing_failures_explained_unreadable :
    ∃ event ∈ (program unreadableHost {} unreadableLaunch).start.said,
      event.message = signingFailed ∧ GivesReason unreadable unreadableHost event := by
  obtain ⟨event, hevent, hmessage⟩ := List.any_eq_true.mp
    (show (program unreadableHost {} unreadableLaunch).start.said.any
      (fun event => event.message = signingFailed) = true by decide +kernel)
  have hreach : (program unreadableHost {} unreadableLaunch).Reachable
    (program unreadableHost {} unreadableLaunch).start := .start
  refine ⟨event, hevent, of_decide_eq_true hmessage, ?_⟩
  have hsign : unreadableHost.sign = sslSigner unreadable fun _ => .initial () := rfl
  have hall := signing_failures_explained unreadable _ texts_unreadable unreadableHost hsign
    ⟨fun _ => true, fun _ => true⟩ (some (fileAt (ascii "wss://localhost"))) ⟨1700000000000, 0⟩ {}
    (show unreadableLaunch.logger = some {} by decide +kernel) _ hreach
  exact hall event (List.mem_append_left _ hevent)

end Failures

/-! ### Secrecy -/

/-- Two hosts that differ in the private key, and whose signers make up for it. -/
structure SameButKey (host host' : Host) : Prop where
  iterate : host'.iterate = host.iterate
  keyId : host'.loadAuth.map AuthConfig.keyId = host.loadAuth.map AuthConfig.keyId
  sign : ∀ auth auth', host.loadAuth = .ok auth → host'.loadAuth = .ok auth' →
    ∀ moment message, host'.sign moment auth'.privateKeyPem message =
      host.sign moment auth.privateKeyPem message

variable {host' : Host} {t : ProgramState}

theorem buildHeaders_congr {sign sign' : Signer} {auth auth' : AuthConfig}
    (hkeyId : auth'.keyId = auth.keyId) (hsign : ∀ moment message,
      sign' moment auth'.privateKeyPem message = sign moment auth.privateKeyPem message) :
    buildHeaders sign' auth' = buildHeaders sign auth := by
  funext moment
  unfold buildHeaders buildWsHeaders
  simp only [hkeyId, hsign]

/-- The start-up comes to the same failure, or to contexts that differ in the key. -/
theorem build_sameButKey (h : SameButKey host host') (file : Option Bytes) (moment : Moment) :
    (∃ failure, AppContext.build host file moment = .error failure ∧
      AppContext.build host' file moment = .error failure) ∨
    ∃ ctx auth', AppContext.build host file moment = .ok ctx ∧
      AppContext.build host' file moment = .ok { ctx with auth := auth' } ∧
      buildHeaders host'.sign auth' = buildHeaders host.sign ctx.auth := by
  have hkeyId := h.keyId
  have hsign := h.sign
  simp only [AppContext.build, h.iterate, Host.loadAuth_eq, bind, Except.bind]
  cases loadConfig (host.iterate 0) file with
  | error e => exact .inl ⟨_, rfl, rfl⟩
  | ok config =>
  simp only [Except.mapError]
  cases buildLoggerOptions config with
  | error e => exact .inl ⟨_, rfl, rfl⟩
  | ok logger =>
  simp only
  cases hauth : host.loadAuth with
  | error e =>
      cases hauth' : host'.loadAuth with
      | error e' =>
          rw [hauth, hauth'] at hkeyId
          obtain rfl := Except.error.inj hkeyId
          exact .inl ⟨_, rfl, rfl⟩
      | ok auth' => rw [hauth, hauth'] at hkeyId; cases hkeyId
  | ok auth =>
  cases hauth' : host'.loadAuth with
  | error e' => rw [hauth, hauth'] at hkeyId; cases hkeyId
  | ok auth' =>
  rw [hauth, hauth'] at hkeyId
  have hbuild : buildHeaders host'.sign auth' = buildHeaders host.sign auth :=
    buildHeaders_congr (Except.ok.inj hkeyId) (hsign auth auth' hauth hauth')
  simp only [hbuild]
  cases SubscriptionCommand.fromConfig config 1 with
  | error e => exact .inl ⟨_, rfl, rfl⟩
  | ok subscription =>
  simp only
  cases buildHeaders host.sign auth moment with
  | error e => exact .inl ⟨_, rfl, rfl⟩
  | ok headers => exact .inr ⟨_, auth', rfl, rfl, hbuild⟩

/-- A state without the key: of the context, what the closure makes of a moment. -/
def ProgramState.keyless (host : Host) (s : ProgramState) :
    Option ((Moment → Except (AppError × Diagnostic) SignedHeaders) × RunState) ×
      LoggerState × List LogEvent × List LogEvent :=
  (s.loop.map fun (ctx, feed) => (buildHeaders host.sign ctx.auth, feed), s.logger, s.pending,
    s.said)

theorem refreshEvents_congr {sign sign' : Signer} {ctx ctx' : AppContext}
    (h : buildHeaders sign ctx.auth = buildHeaders sign' ctx'.auth) :
    ctx.refreshEvents sign = ctx'.refreshEvents sign' := by
  funext a
  unfold AppContext.refreshEvents
  rw [h]

/-- A step of the logger does not look at the loop. -/
theorem keyless_withLogger (hst : s.keyless host = t.keyless host')
    (outcome : Option LoggerState) :
    (outcome.map s.withLogger).map (·.keyless host) =
      (outcome.map t.withLogger).map (·.keyless host') := by
  simp only [ProgramState.keyless, Prod.mk.injEq] at hst
  obtain ⟨hloop, -, hpending, hsaid⟩ := hst
  cases outcome with
  | none => rfl
  | some logger => simp [ProgramState.keyless, ProgramState.withLogger, hloop, hpending, hsaid]

theorem atEnd_of_keyless (hst : s.keyless host = t.keyless host') : s.atEnd = t.atEnd := by
  simp only [ProgramState.keyless, Prod.mk.injEq] at hst
  obtain ⟨hloop, -, hpending, -⟩ := hst
  have hfeed := congrArg (Option.map Prod.snd) hloop
  rw [Option.map_map, Option.map_map] at hfeed
  unfold ProgramState.atEnd
  rw [hpending]
  cases hs : s.loop <;> cases ht : t.loop <;> simp_all

/-- Steps that look alike. -/
theorem keyless_next (hiterate : host'.iterate = host.iterate)
    (hst : s.keyless host = t.keyless host') (a : ProgramAct) :
    (s.next host options a).map (·.keyless host) =
      (t.next host' options a).map (·.keyless host') := by
  have hparts := hst
  simp only [ProgramState.keyless, Prod.mk.injEq] at hparts
  obtain ⟨hloop, hlogger, hpending, hsaid⟩ := hparts
  cases a with
  | handle a =>
      simp only [ProgramState.next, hiterate, hlogger, hpending]
      split
      · cases hs : s.loop with
        | none => cases ht : t.loop with
          | none => rfl
          | some pair' => rw [hs, ht] at hloop; cases hloop
        | some pair => cases ht : t.loop with
          | none => rw [hs, ht] at hloop; cases hloop
          | some pair' =>
              obtain ⟨ctx, feed⟩ := pair
              obtain ⟨ctx', feed'⟩ := pair'
              rw [hs, ht] at hloop
              obtain ⟨hheaders, rfl⟩ := Prod.mk.inj (Option.some.inj hloop)
              simp only [Option.bind_some]
              cases FeedHandler.next host.iterate feed a with
              | none => rfl
              | some next =>
                  simp [ProgramState.keyless, handlerEvents, refreshEvents_congr hheaders,
                    hheaders, hsaid]
      · rfl
  | call now =>
      simp only [ProgramState.next, hlogger, hpending]
      cases t.pending with
      | nil => rfl
      | cons event rest =>
          simp only
          cases log options t.logger event now with
          | none => rfl
          | some logger => simp [ProgramState.keyless, hloop, hsaid]
  | work now =>
      simp only [ProgramState.next, hlogger]
      exact keyless_withLogger hst _
  | wakeup =>
      simp only [ProgramState.next, hlogger]
      exact keyless_withLogger hst _
  | destroy =>
      simp only [ProgramState.next, atEnd_of_keyless hst, hlogger]
      split
      · exact keyless_withLogger hst _
      · rfl

theorem buildRunOptions_congr {sign sign' : Signer} {ctx : AppContext} {auth' : AuthConfig}
    (h : buildHeaders sign' auth' = buildHeaders sign ctx.auth) :
    ({ ctx with auth := auth' } : AppContext).buildRunOptions sign' = ctx.buildRunOptions sign := by
  have hrefresh : ({ ctx with auth := auth' } : AppContext).refresh sign' = ctx.refresh sign := by
    funext moment
    unfold AppContext.refresh
    simp only [h]
  unfold AppContext.buildRunOptions
  simp only [hrefresh]

/-- Launches that differ in the key. -/
theorem main_sameButKey (h : SameButKey host host') (fs : FileSystem) (file : Option Bytes)
    (moment : Moment) : ∃ loop', main host' fs file moment =
      { main host fs file moment with loop := loop' } ∧
    (main host fs file moment).loop.map
        (fun (ctx, feed) => (buildHeaders host.sign ctx.auth, feed)) =
      loop'.map fun (ctx, feed) => (buildHeaders host'.sign ctx.auth, feed) := by
  have hlogger : buildLogger host' file = buildLogger host file := by
    unfold buildLogger
    rw [h.iterate]
  unfold main
  rcases build_sameButKey h file moment with
    ⟨⟨e, diagnostic⟩, hbuild, hbuild'⟩ | ⟨ctx, auth', hbuild, hbuild', hheaders⟩
  · rw [hbuild, hbuild']
    simp only [hlogger]
    exact ⟨none, rfl, rfl⟩
  · rw [hbuild, hbuild']
    simp only [buildRunOptions_congr hheaders]
    cases FeedHandler.run fs (ctx.buildRunOptions host.sign) with
    | error failure => exact ⟨none, rfl, rfl⟩
    | ok state => exact ⟨some ({ ctx with auth := auth' }, state), rfl, by simp [hheaders]⟩

/-- The key is for the signer only. On two hosts that differ in the key, with signers that
make up for it, the program launches in the same way and is run by the same schedules: it
sends the same, hands the same to its sinks, and writes the same file. -/
theorem private_key_only_signs (host host' : Host) (hosts : SameButKey host host')
    (fs : FileSystem) (file : Option Bytes) (moment : Moment) :
    let launch := main host fs file moment
    let launch' := main host' fs file moment
    launch'.stderr = launch.stderr ∧ launch'.logger = launch.logger ∧
      launch'.exitCode = launch.exitCode ∧ ∀ options acts,
        ((program host options launch).exec (program host options launch).start acts).map
            (·.keyless host) =
          ((program host' options launch').exec (program host' options launch').start acts).map
            (·.keyless host') := by
  intro launch launch'
  obtain ⟨loop', heq, hloop⟩ := main_sameButKey hosts fs file moment
  have hlaunch' : launch' = { launch with loop := loop' } := heq
  rw [hlaunch']
  refine ⟨rfl, rfl, rfl, fun options acts => ?_⟩
  refine Machine.exec_lockstep (fun {s t a} hst => keyless_next hosts.iterate hst a) ?_
  have hstart : launch.loop.map (fun (ctx, feed) => (buildHeaders host.sign ctx.auth, feed)) =
    loop'.map fun (ctx, feed) => (buildHeaders host'.sign ctx.auth, feed) := hloop
  simp only [program, ProgramState.keyless, hstart]

def rekeyedHost : Host :=
  { localHost with
    getenv := fun name =>
      if name = ascii "KALSHI_PRIVATE_KEY" then some (ascii "other") else localHost.getenv name }

def rekeyedLaunch : Launch :=
  main rekeyedHost ⟨fun _ => true, fun _ => true⟩
    (some (fileAt (ascii "wss://localhost/trade-api/ws/v2"))) ⟨1700000000000, 0⟩

theorem private_key_only_signs_rekeyed :
    localHost.loadAuth ≠ rekeyedHost.loadAuth ∧
      ((program localHost {} localLaunch).exec (program localHost {} localLaunch).start
        oneMessage).map (·.keyless localHost) =
      ((program rekeyedHost {} rekeyedLaunch).exec (program rekeyedHost {} rekeyedLaunch).start
        oneMessage).map (·.keyless rekeyedHost) := by
  have hosts : SameButKey localHost rekeyedHost := by
    refine ⟨rfl, ?_, fun _ _ _ _ _ _ => rfl⟩
    have hloads : localHost.loadAuth = .ok ⟨ascii "key", ascii "pem"⟩ ∧
        rekeyedHost.loadAuth = .ok ⟨ascii "key", ascii "other"⟩ := by decide +kernel
    rw [hloads.1, hloads.2]
    rfl
  obtain ⟨-, -, -, hruns⟩ := private_key_only_signs localHost rekeyedHost hosts
    ⟨fun _ => true, fun _ => true⟩ (some (fileAt (ascii "wss://localhost/trade-api/ws/v2")))
    ⟨1700000000000, 0⟩
  exact ⟨by decide +kernel, hruns {} oneMessage⟩

end KalshiAutotrader.App
