import KalshiAutotrader.Kit.Bytes

/-!
Authentication: the credentials, and the headers that sign a request.

Signing is a parameter. It is randomised, so one call is described by what the
call finds: the clock and the random source.
-/

namespace KalshiAutotrader.Core

open Kit

structure AuthConfig where
  keyId : Bytes
  privateKeyPem : Bytes
  deriving DecidableEq

inductive AuthError | missingKeyId | missingPrivateKey | signingFailed
  deriving DecidableEq

def AuthError.toString : AuthError → Bytes
  | .missingKeyId => ascii "missing key id"
  | .missingPrivateKey => ascii "missing private key"
  | .signingFailed => ascii "signing failed"

abbrev Header := Bytes × Bytes

/-- `load_auth_from_env`, given the environment and what `read_file` returns,
which is empty for a file that cannot be opened. -/
def loadAuthFromEnv (getenv : Bytes → Option Bytes) (readFile : Bytes → Bytes) :
    Except AuthError AuthConfig :=
  match getenv (ascii "KALSHI_API_KEY") with
  | none => .error .missingKeyId
  | some keyId =>
      let privateKeyPem :=
        match getenv (ascii "KALSHI_PRIVATE_KEY"), getenv (ascii "KALSHI_PRIVATE_KEY_PATH") with
        | some keyPem, _ => keyPem
        | none, some keyPath => readFile keyPath
        | none, none => []
      if privateKeyPem = [] then .error .missingPrivateKey
      else .ok { keyId := keyId, privateKeyPem := privateKeyPem }

/-- What a call finds: `now_ms`, and what it draws from the random source. -/
structure Moment where
  nowMs : Int64
  salt : ℕ
  deriving DecidableEq

/-- Why a message was not signed; `lastSignError` is what `last_sign_error()`
returns afterwards. -/
structure SignFailure where
  error : AuthError
  lastSignError : Bytes
  deriving DecidableEq

/-- `sign_ws_message(private_key_pem, message)` at a moment. -/
abbrev Signer := Moment → Bytes → Bytes → Except SignFailure Bytes

/-- The headers of a request. `message` is history: the text that the signer was given. -/
structure SignedHeaders where
  headers : List Header
  message : Bytes
  deriving DecidableEq

/-- `WS_PATH`, the websocket path used for signing and connection. -/
def wsPath : Bytes := ascii "/trade-api/ws/v2"

def accessKey : Bytes := ascii "KALSHI-ACCESS-KEY"
def accessSignature : Bytes := ascii "KALSHI-ACCESS-SIGNATURE"
def accessTimestamp : Bytes := ascii "KALSHI-ACCESS-TIMESTAMP"

/-- The value of a header. -/
def SignedHeaders.value (signed : SignedHeaders) (name : Bytes) : Option Bytes :=
  signed.headers.lookup name

def buildWsHeaders (sign : Signer) (auth : AuthConfig) (path : Bytes) (moment : Moment) :
    Except SignFailure SignedHeaders :=
  let msg := decimalInt moment.nowMs.toInt ++ ascii "GET" ++ path
  match sign moment auth.privateKeyPem msg with
  | .error e => .error e
  | .ok signature =>
      .ok {
        headers := [
          (accessKey, auth.keyId),
          (accessSignature, signature),
          (accessTimestamp, decimalInt moment.nowMs.toInt)]
        message := msg }

/-- The headers sign a request for a path: at some moment the signer has made the signature
header of a text, with the private key, and that text is the timestamp header, the decimal
time of the moment, followed by the method and the path. -/
def SignedFor (sign : Signer) (auth : AuthConfig) (path : Bytes) (signed : SignedHeaders) : Prop :=
  ∃ moment signature, signed.value accessSignature = some signature ∧
    sign moment auth.privateKeyPem signed.message = .ok signature ∧
    signed.value accessTimestamp = some (decimalInt moment.nowMs.toInt) ∧
    signed.message = decimalInt moment.nowMs.toInt ++ ascii "GET" ++ path

variable {sign : Signer} {auth : AuthConfig} {path path' : Bytes} {moment : Moment}
  {signed : SignedHeaders}

theorem signedFor_of_buildWsHeaders (h : buildWsHeaders sign auth path moment = .ok signed) :
    SignedFor sign auth path signed := by
  unfold buildWsHeaders at h
  simp only at h
  split at h
  · cases h
  · next signature hsigned =>
    obtain rfl := Except.ok.inj h
    exact ⟨moment, signature, rfl, hsigned, rfl, rfl⟩

/-- What is signed is what the timestamp header and the path make it. -/
theorem SignedFor.message_eq (h : SignedFor sign auth path signed) :
    (signed.value accessTimestamp).map (· ++ ascii "GET" ++ path) = some signed.message := by
  obtain ⟨moment, signature, -, -, hvalue, hmessage⟩ := h
  rw [hvalue, hmessage]
  rfl

/-- The headers sign for one path only. -/
theorem SignedFor.path_unique (h : SignedFor sign auth path signed)
    (h' : SignedFor sign auth path' signed) : path = path' := by
  obtain ⟨timestamp, hvalue, hmessage⟩ := Option.map_eq_some_iff.mp h.message_eq
  obtain ⟨timestamp', hvalue', hmessage'⟩ := Option.map_eq_some_iff.mp h'.message_eq
  obtain rfl : timestamp = timestamp' := Option.some.inj (hvalue.symm.trans hvalue')
  exact List.append_cancel_left (hmessage.trans hmessage'.symm)

end KalshiAutotrader.Core
