import KalshiAutotrader.Kit.Machine
import KalshiAutotrader.Logging.Event
import KalshiAutotrader.Md.Dispatcher
import KalshiAutotrader.Md.Reconnect
import KalshiAutotrader.Md.WsClient

/-!
The feed handler as a machine.

A state is what there is between two handlers of the event loop; an action is
one handler, or the expiry of the timer. Which handler comes next, and with what
result, is left open. Handlers of a client that has been replaced find their
operation among the orphans and do nothing.
-/

namespace KalshiAutotrader.Md

open Kit KalshiAutotrader.Core Logging Simdjson

structure RunOptions where
  wsUrl : Bytes
  headers : SignedHeaders
  refreshHeaders : Option (Moment → Option SignedHeaders)
  subscribeCmd : Bytes
  outputPath : Bytes
  includeRawOnParseError : Bool := true
  logRawMessages : Bool := false
  autoReconnect : Bool := true
  reconnectInitialDelay : Milliseconds := 500
  reconnectMaxDelay : Milliseconds := 30000
  handshakeTimeout : Milliseconds := 30000
  idleTimeout : Milliseconds := 60000
  keepAlivePings : Bool := true
  /-- Zero is no limit. -/
  maxMessages : ℕ := 0

/-- What the handler does to the outside: it writes to the capture file, it logs
and it calls the sink. -/
inductive Output
  | capture (bytes : Bytes)
  | log (event : LogEvent)
  | sink (call : SinkCall)
  deriving DecidableEq

structure RunState where
  options : RunOptions
  remaining : ℕ
  seen : ℕ
  client : Option WsClient
  timer : ReconnectTimer
  reconnect : ReconnectState
  /-- `ioc.stop()` has been called. -/
  stopped : Bool
  /-- The operations of replaced clients that are still in flight. -/
  orphans : List Op
  /-- History: everything done to the outside, in order. -/
  trace : List Output
  /-- History: the errors reported. -/
  errors : List WsError
  /-- History: the delays scheduled since the last open. -/
  delays : List Milliseconds
  /-- History: the websocket handshakes started. -/
  handshakes : List HandshakeRequest

namespace RunState

def emit (s : RunState) (output : Output) : RunState := { s with trace := s.trace ++ [output] }

def log (s : RunState) (level : LogLevel) (component message : Bytes) (fields : LogFields := []) :
    RunState :=
  s.emit (.log (logEvent level component message fields))

def updateClient (s : RunState) (f : WsClient → WsClient) : RunState :=
  { s with client := s.client.map f }

@[simp] theorem updateClient_options (s : RunState) (f : WsClient → WsClient) :
    (s.updateClient f).options = s.options := rfl

@[simp] theorem updateClient_handshakes (s : RunState) (f : WsClient → WsClient) :
    (s.updateClient f).handshakes = s.handshakes := rfl

/-- What the current client has in flight. -/
def inFlight (s : RunState) : List Op := (s.client.map WsClient.inFlight).getD []

/-- The errors the current client has reported. -/
def reported (s : RunState) : List WsError := (s.client.map WsClient.reported).getD []

/-- The state in which the handler of `op` is called. -/
def finish (s : RunState) (op : Op) : Option RunState :=
  if op ∈ s.inFlight then some (s.updateClient (·.finish op)) else none

/-- The state `init_state` builds. -/
def initial (options : RunOptions) : RunState where
  options := options
  remaining := options.maxMessages
  seen := 0
  client := none
  timer := {}
  reconnect := .make options.autoReconnect options.reconnectInitialDelay options.reconnectMaxDelay
  stopped := false
  orphans := []
  trace := []
  errors := []
  delays := []
  handshakes := []

end RunState

namespace FeedHandler

/-! ### Errors -/

def reconnectScheduledEvent (delay : Milliseconds) : LogEvent :=
  logEvent .warn (ascii "md.ws_client") (ascii "reconnect_scheduled")
    (LogFields.addInt [] (ascii "delay_ms") delay)

def scheduleReconnect (s : RunState) : RunState :=
  let (delay, reconnect) := s.reconnect.nextDelay
  let s := { s with reconnect := reconnect, delays := s.delays ++ [delay] }
  let s := s.emit (.log (reconnectScheduledEvent delay))
  -- a wait that has expired already is not cancelled
  { s with timer := (s.timer.expiresAfter (toNanoseconds delay)).asyncWait }

def wsErrorEvent (err : WsError) (msg : Bytes) : LogEvent :=
  logEvent .error (ascii "md.ws_client") (ascii "ws_error")
    (LogFields.addString (LogFields.addInt [] (ascii "code") err.toInt64) (ascii "message") msg)

def onError (s : RunState) (err : WsError) (msg : Bytes) : RunState :=
  let s := s.emit (.log (wsErrorEvent err msg))
  if !s.reconnect.enabled then { s with stopped := true }
  else scheduleReconnect s

/-- `WsClient::fail`. -/
def fail (s : RunState) (err : WsError) (msg : Bytes) : RunState :=
  let s := { s.updateClient (·.report err) with errors := s.errors ++ [err] }
  onError s err msg

/-! ### Connecting -/

/-- The client `connect_client` makes and `configure_callbacks` sets up. -/
def newClient (options : RunOptions) : WsClient :=
  WsClient.setTimeouts {} (options.handshakeTimeout / 1000) (options.idleTimeout / 1000)
    options.keepAlivePings

def connectClient (s : RunState) : RunState :=
  -- the old client goes, whatever it has in flight
  let s := { s with client := some (newClient s.options), orphans := s.orphans ++ s.inFlight }
  match parseWsUrl s.options.wsUrl with
  | .error err => fail s err (ascii "invalid url")
  | .ok url => s.updateClient (·.connectTo url s.options.headers)

def wsOpenEvent : LogEvent := logEvent .info (ascii "md.ws_client") (ascii "ws_open") []

def onOpen (s : RunState) : RunState :=
  let s := s.emit (.log wsOpenEvent)
  let s := { s with reconnect := s.reconnect.reset, delays := [] }
  if s.options.subscribeCmd ≠ [] then s.updateClient (·.sendText s.options.subscribeCmd)
  else s

/-! ### Messages -/

/-- The event of `log_parse_error`. -/
def parseErrorEvent (error : ParseError) (raw : Bytes) (includeRaw : Bool) : LogEvent :=
  let fields := LogFields.addInt [] (ascii "parse_error") error.toInt64
  if includeRaw then
    logRawEvent .warn (ascii "md.dispatcher") (ascii "parse_error") fields raw
  else logEvent .warn (ascii "md.dispatcher") (ascii "parse_error") fields

/-- The event of a message logged as it came, the `count`-th one. -/
def wsMessageEvent (msg : Bytes) (count : ℕ) : LogEvent :=
  let fields := LogFields.addUint [] (ascii "bytes") (UInt64.ofNat msg.length)
  let fields := fields.addUint (ascii "count") (UInt64.ofNat count)
  logRawEvent .debug (ascii "md.ws_client") (ascii "ws_message") fields msg

def firstMessageEvent : LogEvent :=
  logEvent .info (ascii "md.feed_handler") (ascii "first_message_received") []

def unsupportedEvent : LogEvent :=
  logEvent .debug (ascii "md.dispatcher") (ascii "unsupported_message_type") []

def maxMessagesEvent : LogEvent :=
  logEvent .info (ascii "md.feed_handler") (ascii "max_messages_reached") []

def logRawMessage (s : RunState) (msg : Bytes) : RunState :=
  if s.options.logRawMessages then s.emit (.log (wsMessageEvent msg s.seen)) else s

def logFirstMessage (s : RunState) : RunState :=
  if s.seen = 0 then s.emit (.log firstMessageEvent) else s

variable (iterate : ℕ → Bytes → Except SimdError Document)

def dispatchMessage (s : RunState) (msg : Bytes) (includeRaw : Bool) :
    Except ParseError Unit × RunState :=
  let (dispatched, calls) := Md.onMessage iterate msg
  let s := { s with trace := s.trace ++ calls.map .sink }
  match dispatched with
  | .error error =>
      -- an unsupported type is logged by `on_message`
      if error ≠ .unsupportedType then
        (dispatched, s.emit (.log (parseErrorEvent error msg includeRaw)))
      else (dispatched, s)
  | .ok () => (dispatched, s)

/-- The end of `on_message`: the countdown to the last message. -/
def countDown (s : RunState) : RunState :=
  if 0 < s.remaining then
    let s := { s with remaining := s.remaining - 1 }
    if s.remaining = 0 then
      let s := s.emit (.log maxMessagesEvent)
      { s.updateClient WsClient.close with stopped := true }
    else s
  else s

def onMessage (s : RunState) (msg : Bytes) : RunState :=
  let s := s.emit (.capture (msg ++ [newline]))
  let s := logFirstMessage (logRawMessage s msg)
  let s := { s with seen := s.seen + 1 }
  match dispatchMessage iterate s msg s.options.includeRawOnParseError with
  | (.error .unsupportedType, s) => countDown (s.emit (.log unsupportedEvent))
  | (_, s) => countDown s

/-- What a control frame is, `frame_type`. -/
inductive FrameType | close | ping | pong
  deriving DecidableEq

/-- What the arrival of a control frame is logged as. -/
def controlMessage : FrameType → Bytes
  | .ping => ascii "ws_ping"
  | .pong => ascii "ws_pong"
  | .close => ascii "ws_control"

def onControl (s : RunState) (kind : FrameType) (payload : Bytes) : RunState :=
  s.log .info (ascii "md.ws_client") (controlMessage kind)
    (LogFields.addString [] (ascii "payload") payload)

/-! ### The handlers of the client -/

def onResolve (s : RunState) (ec : ErrorCode) : RunState :=
  match ec with
  | some msg => fail s .resolveFailed msg
  | none =>
      s.updateClient fun client => { client with deadline := some connectTimeout }.begin .connect

/-- `sni` is what is left on the error queue if `SSL_set_tlsext_host_name` fails. -/
def onConnect (s : RunState) (ec sni : ErrorCode) : RunState :=
  match ec with
  | some msg => fail s .connectFailed msg
  | none =>
      match sni with
      | some msg => fail s .sslHandshakeFailed msg
      | none => s.updateClient (·.begin .sslHandshake)

def onSslHandshake (s : RunState) (ec : ErrorCode) : RunState :=
  match ec with
  | some msg => fail s .sslHandshakeFailed msg
  | none =>
      { s.updateClient (·.begin .wsHandshake) with
        handshakes := s.handshakes ++ (s.client.map WsClient.handshakeRequest).toList }

def doRead (s : RunState) : RunState := s.updateClient (·.begin .read)

def onWsHandshake (s : RunState) (ec : ErrorCode) : RunState :=
  match ec with
  | some msg => fail s .wsHandshakeFailed msg
  | none => doRead (onOpen (s.updateClient fun client => { client with opened := true }))

/-- The handler of a read that has failed, or has read a message. -/
def onRead (s : RunState) (result : Except Bytes Bytes) : RunState :=
  match result with
  | .error msg => fail s .readFailed msg
  | .ok msg =>
      doRead (onMessage iterate
        (s.updateClient fun client => { client with dispatched := client.dispatched + 1 }) msg)

def onWrite (s : RunState) (ec : ErrorCode) : RunState :=
  match ec with
  | some msg => fail s .writeFailed msg
  | none => s

/-- The handler of a wait that has expired. -/
def onWait (s : RunState) (moment : Moment) : RunState :=
  let s := match s.options.refreshHeaders with
    | none => s
    | some refresh =>
        match refresh moment with
        | some refreshed => { s with options := { s.options with headers := refreshed } }
        | none => s.log .error (ascii "md.ws_client") (ascii "refresh_headers_failed")
  connectClient s

end FeedHandler

/-! ### The machine -/

inductive FeedAct
  | resolved (ec : ErrorCode)
  | connected (ec sni : ErrorCode)
  | sslHandshaken (ec : ErrorCode)
  | wsHandshaken (ec : ErrorCode)
  | read (result : Except Bytes Bytes)
  | written (ec : ErrorCode)
  /-- A control frame arrives, while a read is in flight. -/
  | control (kind : FeedHandler.FrameType) (payload : Bytes)
  /-- The timer expires. -/
  | expire
  /-- The handler of an expired wait is called. -/
  | waited (moment : Moment)
  /-- The handler of a cancelled wait is called. -/
  | waitAborted
  /-- An operation of a replaced client completes. -/
  | discarded (op : Op)

/-- What `FeedHandler::init_state` asks the file system. -/
structure FileSystem where
  /-- `create_directories` of the path's parent. -/
  createParent : Bytes → Bool
  openOutput : Bytes → Bool

namespace FeedHandler

inductive RunError | outputOpenFailed
  deriving DecidableEq

def initState (fs : FileSystem) (options : RunOptions) : Except RunError RunState :=
  if options.outputPath.contains slash && !fs.createParent options.outputPath then
    .error .outputOpenFailed
  else if !fs.openOutput options.outputPath then .error .outputOpenFailed
  else .ok (.initial options)

/-- `run` before it enters the event loop: an error and the event logged for it, or the
state the loop starts in. -/
def run (fs : FileSystem) (options : RunOptions) : Except (RunError × LogEvent) RunState :=
  match initState fs options with
  | .error e =>
      .error (e, logEvent .error (ascii "md.feed_handler") (ascii "output_open_failed") [])
  | .ok state => .ok (connectClient state)

variable (iterate : ℕ → Bytes → Except SimdError Document)

def next (s : RunState) (a : FeedAct) : Option RunState :=
  if s.stopped then none
  else match a with
    | .resolved ec => (s.finish .resolve).map (onResolve · ec)
    | .connected ec sni => (s.finish .connect).map (onConnect · ec sni)
    | .sslHandshaken ec => (s.finish .sslHandshake).map (onSslHandshake · ec)
    | .wsHandshaken ec => (s.finish .wsHandshake).map (onWsHandshake · ec)
    | .read result => (s.finish .read).map (onRead iterate · result)
    | .written ec => (s.finish .write).map (onWrite · ec)
    | .control kind payload => if .read ∈ s.inFlight then some (onControl s kind payload) else none
    | .expire => if s.timer.armed then some { s with timer := s.timer.expire } else none
    | .waited moment =>
        if 0 < s.timer.expired then
          some (onWait { s with timer := { s.timer with expired := s.timer.expired - 1 } } moment)
        else none
    | .waitAborted =>
        if 0 < s.timer.aborted then
          some { s with timer := { s.timer with aborted := s.timer.aborted - 1 } }
        else none
    | .discarded op =>
        if op ∈ s.orphans then some { s with orphans := s.orphans.erase op } else none

end FeedHandler

/-- The event loop of `FeedHandler::run`. -/
def feed (iterate : ℕ → Bytes → Except SimdError Document) (options : RunOptions) :
    Machine RunState FeedAct where
  start := FeedHandler.connectClient (.initial options)
  next := FeedHandler.next iterate

/-- The loop of a run starts where `run` gets to. -/
theorem start_of_run {iterate : ℕ → Bytes → Except SimdError Document} {fs : FileSystem}
    {options : RunOptions} {s : RunState} (h : FeedHandler.run fs options = .ok s) :
    (feed iterate options).start = s := by
  unfold FeedHandler.run FeedHandler.initState at h
  split at h
  · cases h
  · next state hinit =>
    obtain rfl := Except.ok.inj h
    split at hinit
    · cases hinit
    · split at hinit
      · cases hinit
      · rw [feed, Except.ok.inj hinit]

/-- The completions that open a connection. -/
def opening : List FeedAct :=
  [.resolved none, .connected none none, .sslHandshaken none, .wsHandshaken none]

/-- Options for the runs that are given as examples. -/
def localOptions : RunOptions where
  wsUrl := ascii "wss://localhost"
  headers := ⟨[], []⟩
  refreshHeaders := none
  subscribeCmd := ascii "\x7b\x7d"
  outputPath := ascii "logs/ws_messages.json"

end KalshiAutotrader.Md
