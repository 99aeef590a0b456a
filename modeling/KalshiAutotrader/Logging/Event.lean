import KalshiAutotrader.Kit.Bytes

/-!
Log events: the severity levels, the overflow policy, the structured fields and
the event the logger queues.

`double` fields are kept as the 64 bits of the number. No part of the logger
looks inside one except to print it.
-/

namespace KalshiAutotrader.Logging

open Kit

inductive LogLevel | trace | debug | info | warn | error
  deriving DecidableEq

/-- `static_cast<int>` of a level. -/
def LogLevel.toInt : LogLevel → ℤ
  | .trace => 0
  | .debug => 1
  | .info => 2
  | .warn => 3
  | .error => 4

def LogLevel.toString : LogLevel → Bytes
  | .trace => ascii "trace"
  | .debug => ascii "debug"
  | .info => ascii "info"
  | .warn => ascii "warn"
  | .error => ascii "error"

def parseLogLevel (text : Bytes) : Option LogLevel :=
  if text = ascii "trace" then some .trace
  else if text = ascii "debug" then some .debug
  else if text = ascii "info" then some .info
  else if text = ascii "warn" then some .warn
  else if text = ascii "error" then some .error
  else none

def shouldLog (messageLevel minLevel : LogLevel) : Bool :=
  minLevel.toInt ≤ messageLevel.toInt

inductive DropPolicy | dropOldest | dropNewest
  deriving DecidableEq

def parseDropPolicy (text : Bytes) : Option DropPolicy :=
  if text = ascii "drop_oldest" then some .dropOldest
  else if text = ascii "drop_newest" then some .dropNewest
  else none

inductive LogFieldValue
  | string (val : Bytes)
  | int64 (val : Int64)
  | uint64 (val : UInt64)
  | double (bits : UInt64)
  | bool (val : Bool)
  | stringList (val : List Bytes)
  deriving DecidableEq

structure LogField where
  key : Bytes
  value : LogFieldValue
  deriving DecidableEq

/-- The fields in the order they were added. -/
abbrev LogFields := List LogField

def LogFields.addString (fields : LogFields) (key value : Bytes) : LogFields :=
  fields ++ [⟨key, .string value⟩]

def LogFields.addInt (fields : LogFields) (key : Bytes) (value : Int64) : LogFields :=
  fields ++ [⟨key, .int64 value⟩]

def LogFields.addUint (fields : LogFields) (key : Bytes) (value : UInt64) : LogFields :=
  fields ++ [⟨key, .uint64 value⟩]

def LogFields.addStringList (fields : LogFields) (key : Bytes) (value : List Bytes) : LogFields :=
  fields ++ [⟨key, .stringList value⟩]

structure LogEvent where
  tsMs : UInt64
  level : LogLevel
  component : Bytes
  message : Bytes
  fields : LogFields
  raw : Bytes
  includeRaw : Bool
  deriving DecidableEq

/-- The event `Logger::log` builds from a message and its fields. -/
def logEvent (level : LogLevel) (component message : Bytes) (fields : LogFields) : LogEvent where
  tsMs := 0
  level := level
  component := component
  message := message
  fields := fields
  raw := []
  includeRaw := false

/-- The event `Logger::log_raw` builds: the payload goes along. -/
def logRawEvent (level : LogLevel) (component message : Bytes) (fields : LogFields)
    (raw : Bytes) : LogEvent :=
  { logEvent level component message fields with raw := raw, includeRaw := true }

end KalshiAutotrader.Logging
