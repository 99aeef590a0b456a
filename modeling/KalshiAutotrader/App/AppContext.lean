import KalshiAutotrader.Core.Auth
import KalshiAutotrader.Logging.AsyncJsonLogger
import KalshiAutotrader.Md.FeedSteps
import KalshiAutotrader.Md.Subscribe

/-!
The application: what it builds from its configuration and its environment, and
the options it runs the feed handler with.

The headers of a connection are signed for the path `WS_PATH`. The target of its
request comes out of the configured URL. Nothing compares the two.
-/

namespace KalshiAutotrader.App

open Kit KalshiAutotrader.Core Logging Md Simdjson

inductive AppError
  | configLoadFailed
  | invalidLogLevel
  | invalidDropPolicy
  | authLoadFailed
  | signingFailed
  | subscriptionInvalid
  deriving DecidableEq

/-- What is said about an error: a line on `stderr`, or an event of the logger. -/
inductive Diagnostic
  | stderr (line : Bytes)
  | log (event : LogEvent)
  deriving DecidableEq

/-- What the program asks of the world around it. -/
structure Host where
  iterate : ℕ → Bytes → Except SimdError Document
  getenv : Bytes → Option Bytes
  readFile : Bytes → Bytes
  sign : Signer

/-- The context. The logger is given by its options. -/
structure AppContext where
  config : Config
  logger : AsyncJsonLoggerOptions
  auth : AuthConfig
  headers : SignedHeaders
  subscription : SubscriptionCommand
  wsUrl : Bytes

def buildLoggerOptions (config : Config) :
    Except (AppError × Diagnostic) AsyncJsonLoggerOptions :=
  match parseLogLevel config.logging.level with
  | none => .error (.invalidLogLevel, .stderr (ascii "invalid log level in config.json"))
  | some level =>
      match parseDropPolicy config.logging.dropPolicy with
      | none => .error (.invalidDropPolicy, .stderr (ascii "invalid drop policy in config.json"))
      | some dropPolicy =>
          .ok { level := level, queueSize := config.logging.queueSize.toNat,
                dropPolicy := dropPolicy, outputPath := config.logging.outputPath }

def buildHeaders (sign : Signer) (auth : AuthConfig) (moment : Moment) :
    Except (AppError × Diagnostic) SignedHeaders :=
  match buildWsHeaders sign auth wsPath moment with
  | .ok headers => .ok headers
  | .error e =>
      let fields := LogFields.addString [] (ascii "error") e.error.toString
      let fields := fields.addString (ascii "openssl_error") e.lastSignError
      .error (.signingFailed, .log (logEvent .error (ascii "core.auth") (ascii "signing_failed")
        fields))

/-- `AppContext::build`, given what is in the configuration file. -/
def AppContext.build (host : Host) (file : Option Bytes) (moment : Moment) :
    Except (AppError × Diagnostic) AppContext := do
  let config ← (loadConfig (host.iterate 0) file).mapError fun _ =>
    (.configLoadFailed, .stderr (ascii "config load failed"))
  let loggerOptions ← buildLoggerOptions config
  let auth ← (loadAuthFromEnv host.getenv host.readFile).mapError fun e =>
    (.authLoadFailed, .log (logEvent .error (ascii "core.auth") (ascii "auth_error")
      (LogFields.addString [] (ascii "error") e.toString)))
  let wsUrl := resolveWsUrl config
  let subscription ← (SubscriptionCommand.fromConfig config 1).mapError fun _ =>
    (.subscriptionInvalid, .log (logEvent .error (ascii "core.config")
      (ascii "orderbook_delta_requires_market_tickers") []))
  let headers ← buildHeaders host.sign auth moment
  pure { config := config, logger := loggerOptions, auth := auth, headers := headers,
         subscription := subscription, wsUrl := wsUrl }

/-- The closure `build_run_options` passes as `refresh_headers`. -/
def AppContext.refresh (ctx : AppContext) (sign : Signer) (moment : Moment) :
    Option SignedHeaders :=
  match buildHeaders sign ctx.auth moment with
  | .ok refreshed => some refreshed
  | .error _ => none

def AppContext.buildRunOptions (ctx : AppContext) (sign : Signer) : RunOptions where
  wsUrl := ctx.wsUrl
  headers := ctx.headers
  refreshHeaders := some (ctx.refresh sign)
  subscribeCmd := ctx.subscription.json
  outputPath := ctx.config.output.rawMessagesPath
  includeRawOnParseError := ctx.config.logging.includeRawOnParseError
  logRawMessages := ctx.config.logging.logRawMessages
  autoReconnect := ctx.config.ws.autoReconnect
  reconnectInitialDelay := ctx.config.ws.reconnectInitialDelayMs
  reconnectMaxDelay := ctx.config.ws.reconnectMaxDelayMs
  handshakeTimeout := ctx.config.ws.handshakeTimeoutMs
  idleTimeout := ctx.config.ws.idleTimeoutMs
  keepAlivePings := ctx.config.ws.keepAlivePings
  maxMessages := 0

/-- The event loop of the program. -/
def AppContext.feed (host : Host) (ctx : AppContext) : Machine RunState FeedAct :=
  Md.feed host.iterate (ctx.buildRunOptions host.sign)

/-! ### Signing -/

/-- The request that is sent is the one that is signed. -/
def SignsTarget (sign : Signer) (auth : AuthConfig) (req : HandshakeRequest) : Prop :=
  SignedFor sign auth req.target req.headers

theorem signedFor_of_buildHeaders {sign : Signer} {auth : AuthConfig} {moment : Moment}
    {signed : SignedHeaders} (h : buildHeaders sign auth moment = .ok signed) :
    SignedFor sign auth wsPath signed := by
  unfold buildHeaders at h
  split at h
  · next hbuilt =>
    obtain rfl := Except.ok.inj h
    exact signedFor_of_buildWsHeaders hbuilt
  · cases h

theorem signedFor_of_refresh {sign : Signer} {ctx : AppContext} {moment : Moment}
    {signed : SignedHeaders} (h : ctx.refresh sign moment = some signed) :
    SignedFor sign ctx.auth wsPath signed := by
  unfold AppContext.refresh at h
  split at h
  · next hbuilt =>
    obtain rfl := Option.some.inj h
    exact signedFor_of_buildHeaders hbuilt
  · cases h

theorem signedFor_of_build {host : Host} {file : Option Bytes} {moment : Moment}
    {ctx : AppContext} (h : AppContext.build host file moment = .ok ctx) :
    SignedFor host.sign ctx.auth wsPath ctx.headers := by
  unfold AppContext.build at h
  simp only [bind_eq_ok] at h
  obtain ⟨config, -, logger, -, auth, -, subscription, -, headers, hheaders, hctx⟩ := h
  obtain rfl := Except.ok.inj hctx
  exact signedFor_of_buildHeaders hheaders

/-! ### Every connection of a run -/

/-- Everything the handler may send, and has sent, has good headers, and is sent to the
target of the URL. -/
structure Sends (good : SignedHeaders → Prop) (target : Bytes) (s : RunState) : Prop where
  headers : good s.options.headers
  request : ∀ req ∈ s.request, req.target = target ∧ good req.headers
  handshakes : ∀ req ∈ s.handshakes, req.target = target ∧ good req.headers

variable {iterate : ℕ → Bytes → Except SimdError Document} {options : RunOptions} {url : WsUrl}
  {good : SignedHeaders → Prop}

theorem sends_connectClient {s : RunState} (hurl : parseWsUrl s.options.wsUrl = .ok url)
    (hheaders : good s.options.headers)
    (hsent : ∀ req ∈ s.handshakes, req.target = url.target ∧ good req.headers) :
    Sends good url.target (FeedHandler.connectClient s) := by
  rcases FeedHandler.connectClient_cases s with ⟨url', hurl', heq⟩ | ⟨err, herr, -⟩
  · obtain rfl := Except.ok.inj (hurl.symm.trans hurl')
    rw [heq]
    refine ⟨hheaders, ?_, hsent⟩
    intro req hreq
    obtain rfl := Option.some.inj hreq
    exact ⟨rfl, hheaders⟩
  · rw [hurl] at herr
    cases herr

theorem sends_of_proceeds {s s' : RunState} {op : Op} (hs : Sends good url.target s)
    (h : Proceeds op s s') : Sends good url.target s' := by
  refine ⟨h.options ▸ hs.headers, h.request ▸ hs.request, fun req hreq => ?_⟩
  rcases h.handshakes req hreq with hold | hnew
  · exact hs.handshakes req hold
  · exact hs.request req hnew

theorem sends_step {s s' : RunState} {a : FeedAct} (hruns : RunsWith options s)
    (hurl : parseWsUrl options.wsUrl = .ok url)
    (hrefresh : ∀ refresh ∈ options.refreshHeaders, ∀ moment, ∀ signed ∈ refresh moment,
      good signed)
    (hs : Sends good url.target s) (h : Step iterate s a s') : Sends good url.target s' := by
  cases h with
  | failed _ hop =>
      refine ⟨by simpa using hs.headers, fun req hreq => ?_, by simpa using hs.handshakes⟩
      rw [FeedHandler.fail_request] at hreq
      apply hs.request req
      obtain ⟨client, hclient, -⟩ := exists_client_of_mem hop
      simpa [RunState.request, RunState.updateClient, hclient] using hreq
  | proceeded _ _ _ hproceeds => exact sends_of_proceeds hs hproceeds
  | received _ hproceeds => exact sends_of_proceeds hs hproceeds
  | @waited moment =>
      obtain ⟨headers, logs, heq, hheaders, -⟩ := FeedHandler.onWait_eq
        { s with timer := { s.timer with expired := s.timer.expired - 1 } } moment
      obtain ⟨headers', hoptions⟩ := hruns.configured
      rw [heq]
      refine sends_connectClient ?_ ?_ hs.handshakes
      · simpa [hoptions] using hurl
      · rcases hheaders with rfl | ⟨refresh, hsome, hmoment⟩
        · exact hs.headers
        · exact hrefresh refresh (by simpa [hoptions] using hsome) moment headers hmoment
  | _ => exact ⟨hs.headers, hs.request, hs.handshakes⟩

theorem sends_of_reachable {s : RunState} (h : (Md.feed iterate options).Reachable s)
    (hurl : parseWsUrl options.wsUrl = .ok url) (hheaders : good options.headers)
    (hrefresh : ∀ refresh ∈ options.refreshHeaders, ∀ moment, ∀ signed ∈ refresh moment,
      good signed) : Sends good url.target s := by
  have hstart : RunsWith options (Md.feed iterate options).start ∧
      Sends good url.target (Md.feed iterate options).start := by
    refine ⟨FeedHandler.runsWith_connectClient ⟨⟨options.headers, rfl⟩, rfl⟩,
      sends_connectClient hurl hheaders ?_⟩
    exact fun req hreq => absurd hreq List.not_mem_nil
  have hinv : RunsWith options s ∧ Sends good url.target s := by
    refine h.invariant (I := fun s => RunsWith options s ∧ Sends good url.target s) hstart
      fun hs _ hnext => ?_
    obtain ⟨-, hstep⟩ := FeedHandler.step_of_next hnext
    exact ⟨FeedHandler.runsWith_step hs.1 hstep, sends_step hs.1 hurl hrefresh hs.2 hstep⟩
  exact hinv.2

/-- The completions up to the start of the websocket handshake. -/
def handshaking : List FeedAct := [.resolved none, .connected none none, .sslHandshaken none]

/-- A URL that parses leads to a websocket handshake with its target. -/
theorem exec_handshaking (hurl : parseWsUrl options.wsUrl = .ok url) :
    ∃ s, (Md.feed iterate options).exec (Md.feed iterate options).start handshaking = some s ∧
      s.handshakes = [⟨url.host, url.target, options.headers⟩] := by
  have hstart : (Md.feed iterate options).start = { RunState.initial options with
      client := some ((FeedHandler.newClient options).connectTo url options.headers) } := by
    simp [Md.feed, FeedHandler.connectClient, RunState.initial, hurl, RunState.updateClient,
      RunState.inFlight]
  rw [hstart]
  refine ⟨_, by simp [Machine.exec, Md.feed, handshaking, FeedHandler.next, RunState.finish,
    RunState.inFlight, RunState.initial, RunState.updateClient, WsClient.connectTo,
    WsClient.configureTimeouts, WsClient.begin, WsClient.finish, FeedHandler.newClient,
    WsClient.setTimeouts, FeedHandler.onResolve, FeedHandler.onConnect,
    FeedHandler.onSslHandshake]; rfl, ?_⟩
  rfl

/-- Every websocket handshake of every run sends the request that was signed exactly
when the URL ends in `WS_PATH`, after a host and a port. -/
theorem signs_target_iff (host : Host) (file : Option Bytes) (moment : Moment)
    (ctx : AppContext) (url : WsUrl) (hctx : AppContext.build host file moment = .ok ctx)
    (hurl : parseWsUrl ctx.wsUrl = .ok url) :
    (∀ s, (ctx.feed host).Reachable s → ∀ req ∈ s.handshakes,
      SignsTarget host.sign ctx.auth req) ↔
      ∃ authority, slash ∉ authority ∧ ctx.wsUrl = wssPrefix ++ authority ++ wsPath := by
  have hheaders := signedFor_of_build hctx
  have hpath : wsPath = slash :: ascii "trade-api/ws/v2" := rfl
  rw [hpath, ← target_eq_iff hurl (by decide), ← hpath]
  constructor
  -- one handshake is enough: what is signed determines the path
  · intro h
    have hurl' : parseWsUrl (ctx.buildRunOptions host.sign).wsUrl = .ok url := hurl
    obtain ⟨s, hexec, hsent⟩ := exec_handshaking hurl'
    have hsigns := h s (Machine.reachable_of_exec hexec) _ (hsent ▸ List.mem_singleton_self _)
    exact hsigns.path_unique hheaders
  · intro htarget s hs req hreq
    have hsends : Sends (SignedFor host.sign ctx.auth wsPath) url.target s := by
      apply sends_of_reachable hs hurl hheaders
      rintro refresh hrefresh moment signed hmoment
      obtain rfl := Option.some.inj hrefresh
      exact signedFor_of_refresh hmoment
    obtain ⟨hsent, hfor⟩ := hsends.handshakes req hreq
    rw [SignsTarget, hsent, htarget]
    exact hfor

/-! ### Two URLs -/

/-- A host with credentials in its environment. -/
def localHost : Host where
  iterate := eager
  getenv := fun name =>
    if name = ascii "KALSHI_API_KEY" then some (ascii "key")
    else if name = ascii "KALSHI_PRIVATE_KEY" then some (ascii "pem")
    else none
  readFile := fun _ => []
  sign := fun _ _ _ => .ok (ascii "c2lnbmF0dXJl")

/-- A configuration file with the mandatory fields. -/
def fileAt (wsUrl : Bytes) : Bytes :=
  Json.render (.obj [
    (ascii "env", .str (ascii "prod")),
    (ascii "ws_url", .str wsUrl),
    (ascii "subscription", .obj [
      (ascii "channels", .arr [.str (ascii "trade")]),
      (ascii "market_tickers", .arr [])])])

def localContext (wsUrl : Bytes) : Option AppContext :=
  (AppContext.build localHost (some (fileAt wsUrl)) ⟨1700000000000, 0⟩).toOption

theorem build_of_localContext {wsUrl : Bytes} {ctx : AppContext}
    (h : localContext wsUrl = some ctx) :
    AppContext.build localHost (some (fileAt wsUrl)) ⟨1700000000000, 0⟩ = .ok ctx := by
  unfold localContext at h
  cases hbuild : AppContext.build localHost (some (fileAt wsUrl)) ⟨1700000000000, 0⟩ with
  | error e => simp [hbuild, Except.toOption] at h
  | ok ctx' => simpa [hbuild, Except.toOption] using h

/-- The URL is accepted, its first request goes to `/`, and what is signed for it is
a request of `WS_PATH`. -/
theorem bareUrl_signs_other : ∃ ctx,
    AppContext.build localHost (some (fileAt (ascii "wss://localhost"))) ⟨1700000000000, 0⟩ =
      .ok ctx ∧
    parseWsUrl ctx.wsUrl = .ok ⟨ascii "localhost", ascii "443", ascii "/"⟩ ∧
    ∃ s, (ctx.feed localHost).Reachable s ∧ ∃ req ∈ s.handshakes, req.target = ascii "/" ∧
      req.headers.message = ascii "1700000000000GET/trade-api/ws/v2" ∧
      ¬ SignsTarget localHost.sign ctx.auth req := by
  have hparts : (localContext (ascii "wss://localhost")).map
      (fun ctx => (parseWsUrl ctx.wsUrl, ctx.headers)) =
        some (.ok ⟨ascii "localhost", ascii "443", ascii "/"⟩,
          ⟨[(accessKey, ascii "key"), (accessSignature, ascii "c2lnbmF0dXJl"),
            (accessTimestamp, ascii "1700000000000")],
            ascii "1700000000000GET/trade-api/ws/v2"⟩) := by decide +kernel
  obtain ⟨ctx, hctx, hparts⟩ := Option.map_eq_some_iff.mp hparts
  obtain ⟨hurl, hheaders⟩ := Prod.mk.inj hparts
  have hurl' : parseWsUrl (ctx.buildRunOptions localHost.sign).wsUrl =
    .ok ⟨ascii "localhost", ascii "443", ascii "/"⟩ := hurl
  obtain ⟨s, hexec, hsent⟩ := exec_handshaking hurl'
  refine ⟨ctx, build_of_localContext hctx, hurl, s, Machine.reachable_of_exec hexec, _,
    hsent ▸ List.mem_singleton_self _, rfl, by rw [AppContext.buildRunOptions, hheaders], ?_⟩
  intro hsigns
  have hmessage : (ctx.headers.value accessTimestamp).map (· ++ ascii "GET" ++ ascii "/") =
    some ctx.headers.message := hsigns.message_eq
  rw [hheaders] at hmessage
  exact absurd hmessage (by decide +kernel)

theorem signs_target_local : ∃ ctx,
    AppContext.build localHost (some (fileAt (ascii "wss://localhost/trade-api/ws/v2")))
      ⟨1700000000000, 0⟩ = .ok ctx ∧
    ∀ s, (ctx.feed localHost).Reachable s → ∀ req ∈ s.handshakes,
      SignsTarget localHost.sign ctx.auth req := by
  have hparts : (localContext (ascii "wss://localhost/trade-api/ws/v2")).map
      (fun ctx => (ctx.wsUrl, parseWsUrl ctx.wsUrl)) =
        some (ascii "wss://localhost/trade-api/ws/v2",
          .ok ⟨ascii "localhost", ascii "443", wsPath⟩) := by decide +kernel
  obtain ⟨ctx, hctx, hurl⟩ := Option.map_eq_some_iff.mp hparts
  obtain ⟨hurl, hparse⟩ := Prod.mk.inj hurl
  have hbuild := build_of_localContext hctx
  exact ⟨ctx, hbuild, (signs_target_iff localHost _ _ ctx _ hbuild hparse).mpr
    ⟨ascii "localhost", by decide +kernel, by rw [hurl]; decide +kernel⟩⟩

end KalshiAutotrader.App
