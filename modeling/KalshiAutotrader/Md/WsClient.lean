import KalshiAutotrader.Core.Auth
import KalshiAutotrader.Md.WsUrl

/-!
The websocket client.

A client is a chain of asynchronous operations: resolve, connect, the two
handshakes, then reads. A write runs beside the reads. What the client has in
flight is a list; an operation enters it when it is started and leaves it when
its handler is called.
-/

namespace KalshiAutotrader.Md

open Kit KalshiAutotrader.Core

inductive Op | resolve | connect | sslHandshake | wsHandshake | read | write
  deriving DecidableEq

/-- `error_code`: nothing, or the message of an error. -/
abbrev ErrorCode := Option Bytes

/-- A duration in seconds, `std::chrono::seconds`. -/
abbrev Seconds := Int64

def connectTimeout : Seconds := 30
def idleTimeoutDefault : Seconds := 60

/-- `stream_base::timeout`, in nanoseconds. -/
structure StreamTimeout where
  handshakeTimeout : Int64
  idleTimeout : Int64
  keepAlivePings : Bool
  deriving DecidableEq

/-- What the websocket handshake asks for. -/
structure HandshakeRequest where
  host : Bytes
  target : Bytes
  headers : SignedHeaders
  deriving DecidableEq

structure WsClient where
  headers : SignedHeaders := ⟨[], []⟩
  host : Bytes := []
  target : Bytes := []
  handshakeTimeout : Seconds := connectTimeout
  idleTimeout : Seconds := idleTimeoutDefault
  keepAlivePings : Bool := true
  /-- The timeout option of the websocket stream, once it is set. -/
  streamTimeout : Option StreamTimeout := none
  /-- The deadline of the lowest layer, once it is set. -/
  deadline : Option Seconds := none
  inFlight : List Op := []
  closed : Bool := false
  /-- History: the websocket handshake has succeeded. -/
  opened : Bool := false
  /-- History: the texts sent. -/
  sent : List Bytes := []
  /-- History: how many messages were dispatched. -/
  dispatched : ℕ := 0
  /-- History: the errors reported. -/
  reported : List WsError := []
  deriving DecidableEq

namespace WsClient

def setTimeouts (client : WsClient) (handshakeTimeout idleTimeout : Seconds)
    (keepAlivePings : Bool) : WsClient :=
  { client with
    handshakeTimeout := handshakeTimeout
    idleTimeout := idleTimeout
    keepAlivePings := keepAlivePings }

/-- Starts an operation. -/
def begin (client : WsClient) (op : Op) : WsClient :=
  { client with inFlight := client.inFlight ++ [op] }

/-- `configure_timeouts`: seconds become nanoseconds. -/
def configureTimeouts (client : WsClient) : WsClient :=
  { client with streamTimeout := some {
      handshakeTimeout := client.handshakeTimeout * 1000000000
      idleTimeout := client.idleTimeout * 1000000000
      keepAlivePings := client.keepAlivePings } }

/-- `connect`, for a URL that has been parsed. -/
def connectTo (client : WsClient) (url : WsUrl) (headers : SignedHeaders) : WsClient :=
  { client with headers := headers, host := url.host, target := url.target }
    |>.configureTimeouts |>.begin .resolve

def sendText (client : WsClient) (payload : Bytes) : WsClient :=
  { client with sent := client.sent ++ [payload] }.begin .write

def close (client : WsClient) : WsClient := { client with closed := true }

/-- The request `on_ssl_handshake` sends. -/
def handshakeRequest (client : WsClient) : HandshakeRequest :=
  { host := client.host, target := client.target, headers := client.headers }

/-- The client when the handler of `op` is called. -/
def finish (client : WsClient) (op : Op) : WsClient :=
  { client with inFlight := client.inFlight.erase op }

@[simp] theorem finish_handshakeRequest (client : WsClient) (op : Op) :
    (client.finish op).handshakeRequest = client.handshakeRequest := rfl

/-- Notes an error reported. -/
def report (client : WsClient) (err : WsError) : WsClient :=
  { client with reported := client.reported ++ [err] }

end WsClient

end KalshiAutotrader.Md
