import TinyWebServer.Library.Lines
import TinyWebServer.Log.Durability
import TinyWebServer.Log.FaithfulRecord

/-!
# The structured logger

Entries become lines, the lines go through the asynchronous logger, and the manager passes the
entries of all threads to the logger that is installed. A logger that is replaced is stopped while
the manager's mutex is held, so that its file is complete before the new one gets an entry.
-/

namespace TinyWebServer

open AsyncLogger Runs

namespace StructuredLogEntry

/-! ### Entries as text -/

/-- `std::put_time` with `%Y-%m-%d %H:%M:%S`. -/
def putLocalTime (tm : Tm) : Bytes :=
  Bytes.ofInt (tm.year + 1900) ++ bytes "-" ++ Posix.padded (tm.mon + 1) ++ bytes "-" ++
    Posix.padded tm.mday ++ bytes " " ++ Posix.padded tm.hour ++ bytes ":" ++
    Posix.padded tm.min ++ bytes ":" ++ Posix.padded tm.sec

variable (localtimeR : ℤ → Option Tm)

def toText (entry : StructuredLogEntry) : Bytes :=
  (match localtimeR (ConditionalRequestHandler.toSeconds entry.timestamp) with
    | some tmBuf => putLocalTime tmBuf
    | none => bytes "1970-01-01 00:00:00") ++
  (bytes " [" ++ entry.level.levelStr ++ bytes "] ") ++
  (bytes "[" ++ entry.file ++ bytes ":" ++ Bytes.ofInt entry.line ++ bytes ":" ++
    entry.function ++ bytes "] ") ++
  entry.message ++
  (ifPresent entry.requestId fun requestId => bytes " [req_id=" ++ requestId ++ bytes "]") ++
  (ifPresent entry.connectionId fun connectionId =>
    bytes " [conn_id=" ++ Bytes.ofInt connectionId ++ bytes "]") ++
  (ifPresent entry.clientIp fun clientIp => bytes " [client_ip=" ++ clientIp ++ bytes "]") ++
  (ifPresent entry.responseStatus fun responseStatus =>
    bytes " [status=" ++ Bytes.ofInt responseStatus ++ bytes "]")

def colorCode : StructuredLogLevel → Bytes
  | .debug => bytes "\x1b[36m"
  | .info => bytes "\x1b[32m"
  | .warn => bytes "\x1b[33m"
  | .error => bytes "\x1b[31m"
  | .fatal => bytes "\x1b[35m"

def toColoredText (entry : StructuredLogEntry) : Bytes :=
  colorCode entry.level ++ entry.toText localtimeR ++ bytes "\x1b[0m"

end StructuredLogEntry

/-- An entry, and the format that the logger had when it read it. -/
structure LogRecord where
  entry : StructuredLogEntry
  format : Bytes

namespace LogRecord

variable (localtimeR : ℤ → Option Tm) (record : LogRecord)

def formatted : Bytes :=
  if record.format = bytes "json" then record.entry.toJson
  else if record.format = bytes "colored" then record.entry.toColoredText localtimeR
  else record.entry.toText localtimeR

/-- What is appended: a newline is added if there is none at the end. -/
def line : Bytes :=
  let formatted := record.formatted localtimeR
  if formatted ≠ [] ∧ formatted.getLast? ≠ some Bytes.lf then formatted ++ [Bytes.lf]
  else formatted

/-- The line without its end. -/
def text : Bytes := (record.line localtimeR).dropLast

/-- The record is one line, and one that has room in a buffer. -/
structure Whole : Prop where
  fits : (record.line localtimeR).length ≤ kLargeBuffer
  single : Bytes.lf ∉ record.text localtimeR

end LogRecord

/-! ### The logger -/

structure AsyncStructuredLogger where
  format : Bytes
  asyncLogger : AsyncLogger
  /-- What has been appended, in the order of the calls. -/
  records : List LogRecord

namespace AsyncStructuredLogger

/-- The constructor starts the backend, which may have made some steps since. -/
def construct (format : Bytes) (steps : ℕ) : AsyncStructuredLogger where
  format := format
  asyncLogger := (fun s => s.backendStep.getD s)^[steps] started
  records := []

variable (localtimeR : ℤ → Option Tm)

/-- The call of `Append` in `Log`. -/
def append (l : AsyncStructuredLogger) (record : LogRecord) : Option AsyncStructuredLogger :=
  (l.asyncLogger.step (.append (record.line localtimeR))).map fun asyncLogger =>
    { l with asyncLogger := asyncLogger, records := l.records ++ [record] }

/-- A step of the asynchronous logger that is no call of `Append`. -/
def move (l : AsyncStructuredLogger) (m : AsyncLogger.Move) : Option AsyncStructuredLogger :=
  (l.asyncLogger.step m).map fun asyncLogger => { l with asyncLogger := asyncLogger }

def setOutputFormat (l : AsyncStructuredLogger) (format : Bytes) : AsyncStructuredLogger :=
  { l with format := format }

def texts (l : AsyncStructuredLogger) : List Bytes := l.records.map (·.text localtimeR)

/-- The lines of the file, and behind the last newline what there is of another one. -/
def fileLines (l : AsyncStructuredLogger) : List Bytes := l.asyncLogger.file.splitOn Bytes.lf

end AsyncStructuredLogger

/-! ### The manager -/

/-- Where the call stands that has the manager's mutex. -/
inductive ManagerCall where
  | log (entry : StructuredLogEntry)
  /-- The logger has formatted the entry. -/
  | append (record : LogRecord)
  /-- `Init` destroys the logger that has been replaced, which stops it. -/
  | destroy (old : AsyncStructuredLogger)

structure StructuredLogManager where
  logger : Option AsyncStructuredLogger
  call : Option ManagerCall
  /-- The loggers that are gone, for the sake of their files. -/
  destroyed : List AsyncStructuredLogger
  /-- The entries for which `Log` has found a logger, in the order of the calls. -/
  logged : List StructuredLogEntry

namespace StructuredLogManager

def initial : StructuredLogManager := ⟨none, none, [], []⟩

variable (localtimeR : ℤ → Option Tm)

/-- The call that has the mutex goes on. -/
def callStep (s : StructuredLogManager) : Option StructuredLogManager :=
  match s.call with
  | none => none
  | some (.log entry) =>
    match s.logger with
    | none => some { s with call := none }
    | some l => some { s with call := some (.append ⟨entry, l.format⟩) }
  | some (.append record) =>
    match s.logger with
    | none => none
    | some l => (l.append localtimeR record).map fun l =>
      { s with logger := some l, call := none, logged := s.logged ++ [record.entry] }
  | some (.destroy old) =>
    if old.asyncLogger.stopper = .leave .done then
      some { s with call := none, destroyed := s.destroyed ++ [old] }
    else (old.move .stop).map fun old => { s with call := some (.destroy old) }

/-- `Init`, which is not called while a thread is in `Flush` of the logger it destroys. -/
def init (s : StructuredLogManager) (logger : Option AsyncStructuredLogger) :
    Option StructuredLogManager :=
  match s.logger with
  | none => some { s with logger := logger }
  | some old =>
    if old.asyncLogger.flushes = [] then
      some { s with logger := logger, call := some (.destroy old) }
    else none

inductive Move where
  /-- A thread gets the mutex in `Log`. -/
  | log (entry : StructuredLogEntry)
  /-- A thread gets the mutex in `Init`, with a new logger or a null pointer. -/
  | init (logger : Option (Bytes × ℕ))
  /-- The thread that has the mutex goes on. -/
  | call
  /-- The backend or a call of `Flush` goes on in the logger that is installed. -/
  | installed (m : AsyncLogger.Move)
  /-- The backend goes on in the logger that is being destroyed. -/
  | replaced (m : AsyncLogger.Move)
  | setOutputFormat (format : Bytes)

/-- The backend and the stream. -/
def ofBackend : AsyncLogger.Move → Bool
  | .backend | .commit _ => true
  | _ => false

/-- The steps that need no call of the manager. -/
def besides : AsyncLogger.Move → Bool
  | .append _ | .stop => false
  | _ => true

def step (s : StructuredLogManager) : Move → Option StructuredLogManager
  | .log entry =>
    match s.call with
    | none => some { s with call := some (.log entry) }
    | some _ => none
  | .init logger =>
    match s.call with
    | none => s.init (logger.map fun new => .construct new.1 new.2)
    | some _ => none
  | .call => s.callStep localtimeR
  | .installed m =>
    if besides m then
      match s.logger with
      | none => none
      | some l => (l.move m).map fun l => { s with logger := some l }
    else none
  | .replaced m =>
    if ofBackend m then
      match s.call with
      | some (.destroy old) => (old.move m).map fun old => { s with call := some (.destroy old) }
      | _ => none
    else none
  | .setOutputFormat format =>
    some { s with logger := s.logger.map (·.setOutputFormat format) }

end StructuredLogManager

end TinyWebServer
