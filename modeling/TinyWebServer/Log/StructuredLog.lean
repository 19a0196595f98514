import TinyWebServer.Http.PosixTime

/-!
# Structured log entries

What a log entry holds and how it is printed as JSON. Every string member of the record has its
own way to it: some are put in as they are, two are escaped, each by rules of its own.
-/

namespace TinyWebServer

inductive StructuredLogLevel where
  | debug
  | info
  | warn
  | error
  | fatal
  deriving DecidableEq

def StructuredLogLevel.levelStr : StructuredLogLevel → Bytes
  | debug => bytes "DEBUG"
  | info => bytes "INFO"
  | warn => bytes "WARN"
  | error => bytes "ERROR"
  | fatal => bytes "FATAL"

structure StructuredLogEntry where
  /-- Nanoseconds since the epoch. -/
  timestamp : ℤ
  level : StructuredLogLevel
  message : Bytes
  file : Bytes
  line : ℤ
  function : Bytes
  requestId : Option Bytes
  connectionId : Option ℤ
  clientIp : Option Bytes
  userAgent : Option Bytes
  responseStatus : Option ℤ

namespace StructuredLogEntry

/-- A null pointer stands for a year that is no `int`. -/
def gmtimeR (time : ℤ) : Option Tm :=
  let tm := Posix.gmtime time
  if -2 ^ 31 ≤ tm.year ∧ tm.year < 2 ^ 31 then some tm else none

/-- `std::put_time` with `%Y-%m-%dT%H:%M:%SZ`. -/
def putTime (tm : Tm) : Bytes :=
  Bytes.ofInt (tm.year + 1900) ++ bytes "-" ++ Posix.padded (tm.mon + 1) ++ bytes "-" ++
    Posix.padded tm.mday ++ bytes "T" ++ Posix.padded tm.hour ++ bytes ":" ++
    Posix.padded tm.min ++ bytes ":" ++ Posix.padded tm.sec ++ bytes "Z"

def timestampText (entry : StructuredLogEntry) : Bytes :=
  match gmtimeR (ConditionalRequestHandler.toSeconds entry.timestamp) with
  | some tmBuf => putTime tmBuf
  | none => bytes "1970-01-01T00:00:00Z"

/-- A byte of `escaped_message`. -/
def escapeMessage (c : UInt8) : Bytes :=
  if c = 34 then bytes "\\\""
  else if c = 92 then bytes "\\\\"
  else if c = 8 then bytes "\\b"
  else if c = 12 then bytes "\\f"
  else if c = 10 then bytes "\\n"
  else if c = 13 then bytes "\\r"
  else if c = 9 then bytes "\\t"
  else [c]

/-- A byte of `escaped_ua`. -/
def escapeUa (c : UInt8) : Bytes :=
  if c = 34 then bytes "\\\"" else if c = 92 then bytes "\\\\" else [c]

/-- A part of the record that is there if the value is. -/
def ifPresent {α : Type} (value : Option α) (print : α → Bytes) : Bytes :=
  match value with
  | some value => print value
  | none => []

def toJson (entry : StructuredLogEntry) : Bytes :=
  bytes "\x7b" ++
  (bytes "\"timestamp\": \"" ++ entry.timestampText ++ bytes "\", ") ++
  (bytes "\"level\": \"" ++ entry.level.levelStr ++ bytes "\", ") ++
  (bytes "\"file\": \"" ++ entry.file ++ bytes "\", ") ++
  (bytes "\"line\": " ++ Bytes.ofInt entry.line ++ bytes ", ") ++
  (bytes "\"function\": \"" ++ entry.function ++ bytes "\", ") ++
  (bytes "\"message\": \"" ++ entry.message.flatMap escapeMessage ++ bytes "\"") ++
  (ifPresent entry.requestId fun requestId =>
    bytes ", \"request_id\": \"" ++ requestId ++ bytes "\"") ++
  (ifPresent entry.connectionId fun connectionId =>
    bytes ", \"connection_id\": " ++ Bytes.ofInt connectionId) ++
  (ifPresent entry.clientIp fun clientIp =>
    bytes ", \"client_ip\": \"" ++ clientIp ++ bytes "\"") ++
  (ifPresent entry.userAgent fun userAgent =>
    bytes ", \"user_agent\": \"" ++ userAgent.flatMap escapeUa ++ bytes "\"") ++
  (ifPresent entry.responseStatus fun responseStatus =>
    bytes ", \"response_status\": " ++ Bytes.ofInt responseStatus) ++
  bytes "\x7d"

end StructuredLogEntry

end TinyWebServer
