import TinyWebServer.Http.Response
import TinyWebServer.Net.BufferChain
import TinyWebServer.Net.EventLoop
import TinyWebServer.Net.KeepAlive

/-!
# Connections

A connection and what its handlers work on in the loop thread. A `Session` is one connection with
the event loop, the keep-alive manager and the resource cache it shares with others, the answers
that the kernel has in store for `writev`, and a trace of what became visible outside.
-/

namespace TinyWebServer

inductive ConnState where
  | kConnecting | kConnected | kReading | kProcessing | kWriting | kClosing | kClosed
  deriving DecidableEq, Repr

/-- The timeout kinds, which the source spells "read", "write" and "idle". -/
inductive TimeoutType where
  | read | write | idle
  deriving DecidableEq, Repr

/-- The closure that a connection leaves with the timer wheel: it holds the connection itself. -/
structure TimerCallback where
  conn : ℕ
  timeoutType : TimeoutType
  deriving DecidableEq

structure LimitsOptions where
  connectionTimeout : ℤ
  keepAliveTimeout : ℤ
  maxInputBuffer : ℕ
  maxOutputBuffer : ℕ
  deriving DecidableEq

namespace ConnectionLimits

def kMaxInputBuffer : ℕ := 64 * 1024
def kMaxOutputBuffer : ℕ := 1 * 1024 * 1024

end ConnectionLimits

structure Connection where
  /-- Tells the connection objects apart; a descriptor may be used again. -/
  id : ℕ
  fd : ℤ
  state : ConnState
  inputBuffer : Bytes
  outputBuffer : BufferChain
  config : Option LimitsOptions
  hasKeepAliveManager : Bool
  readTimeoutSeconds : ℤ
  writeTimeoutSeconds : ℤ
  idleTimeoutSeconds : ℤ
  readTimeoutActive : Bool
  writeTimeoutActive : Bool
  idleTimeoutActive : Bool
  httpParser : HttpRequest
  hasCloseCallback : Bool
  deriving DecidableEq

namespace Connection

def new (id : ℕ) (fd : ℤ) (config : Option LimitsOptions) (hasKeepAliveManager : Bool) :
    Connection :=
  { id := id, fd := fd, state := .kConnecting, inputBuffer := [], outputBuffer := .empty
    config := config, hasKeepAliveManager := hasKeepAliveManager
    readTimeoutSeconds := config.elim 0 (·.connectionTimeout)
    writeTimeoutSeconds := config.elim 0 (·.connectionTimeout)
    idleTimeoutSeconds := config.elim 0 (·.keepAliveTimeout)
    readTimeoutActive := false, writeTimeoutActive := false, idleTimeoutActive := false
    httpParser := .reset, hasCloseCallback := false }

def isConnected (c : Connection) : Prop :=
  c.state ≠ .kClosed ∧ c.state ≠ .kClosing ∧ c.state ≠ .kConnecting

instance (c : Connection) : Decidable c.isConnected :=
  inferInstanceAs (Decidable (c.state ≠ .kClosed ∧ c.state ≠ .kClosing ∧ c.state ≠ .kConnecting))

def maxInputBuffer (c : Connection) : ℕ :=
  c.config.elim ConnectionLimits.kMaxInputBuffer (·.maxInputBuffer)

def maxOutputBuffer (c : Connection) : ℕ :=
  c.config.elim ConnectionLimits.kMaxOutputBuffer (·.maxOutputBuffer)

def canTransition (c : Connection) (newState : ConnState) : Bool :=
  if c.state = newState then true
  else if c.state = .kClosed then false
  else if newState = .kClosing then true
  else if newState = .kClosed then true
  else
    match c.state with
    | .kConnecting => newState = .kConnected
    | .kConnected => newState = .kReading
    | .kReading => newState = .kProcessing
    | .kProcessing => newState = .kWriting
    | .kWriting => newState = .kConnected
    | .kClosing => false
    | .kClosed => false

def checkInputBufferLimit (c : Connection) : Bool := c.maxInputBuffer < c.inputBuffer.length

def setTimeoutActive (c : Connection) (active : Bool) : TimeoutType → Connection
  | .read => { c with readTimeoutActive := active }
  | .write => { c with writeTimeoutActive := active }
  | .idle => { c with idleTimeoutActive := active }

def setTimeoutSeconds (c : Connection) (seconds : ℤ) : TimeoutType → Connection
  | .read => { c with readTimeoutSeconds := seconds }
  | .write => { c with writeTimeoutSeconds := seconds }
  | .idle => { c with idleTimeoutSeconds := seconds }

def hasActiveTimeout (c : Connection) : Bool :=
  c.readTimeoutActive || c.writeTimeoutActive || c.idleTimeoutActive

end Connection

/-- What became visible outside the connection, and what its parser was given. -/
inductive Event where
  /-- `Parse` was called on these bytes. -/
  | parse (buffer : Bytes)
  /-- A parsed request goes to validation. -/
  | request (request : HttpRequest)
  /-- The kernel was asked about a path. -/
  | access (path : Bytes)
  /-- A response is ready to be sent. -/
  | response (response : HttpResponse)
  /-- A payload was appended to the output buffer. -/
  | queued (payload : Bytes)
  /-- The kernel took these bytes. -/
  | written (data : Bytes)
  /-- `shutdown(SHUT_WR)` was called while the output buffer held these bytes. -/
  | shutdown (held : Bytes)
  /-- The close callback was called. -/
  | closed (fd : ℤ)
  deriving DecidableEq

namespace Event

def queuedBytes : Event → Bytes
  | .queued payload => payload
  | _ => []

def writtenBytes : Event → Bytes
  | .written data => data
  | _ => []

end Event

/-- The answer of `writev` to an offer of at least one byte. -/
inductive WriteOutcome where
  /-- It takes `n + 1` bytes, or all if fewer are offered. -/
  | accepted (n : ℕ)
  /-- `EAGAIN`. -/
  | again
  | failed
  deriving DecidableEq

/-- The result of one `read`. -/
inductive ReadResult where
  | data (data : Bytes)
  | eof
  /-- `EAGAIN`. -/
  | again
  | failed
  deriving DecidableEq

structure Session where
  conn : Connection
  loop : EventLoop TimerCallback
  keepAlive : KeepAliveManager
  resources : StaticResourceManager
  /-- The answers to the calls of `writev` to come. -/
  kernel : ℕ → WriteOutcome
  trace : List Event

namespace Session

/-- A connection in a process that has just started. -/
def new (conn : Connection) (kernel : ℕ → WriteOutcome) : Session :=
  { conn := conn, loop := .new, keepAlive := .new 15, resources := .new, kernel := kernel
    trace := [] }

def note (s : Session) (event : Event) : Session := { s with trace := s.trace ++ [event] }

/-- All bytes that were queued for sending, in order. -/
def queued (s : Session) : Bytes := s.trace.flatMap Event.queuedBytes

/-- All bytes that the kernel took, in order. -/
def written (s : Session) : Bytes := s.trace.flatMap Event.writtenBytes

def updateEvent (s : Session) (events : UInt32) : Session :=
  { s with loop := s.loop.updateEvent s.conn.fd events }

/-! ### Timeouts

The wheel holds one task per descriptor, whatever the kind of timeout. -/

def setupTimeout (s : Session) (seconds : ℤ) (timeoutType : TimeoutType) : Session :=
  if seconds ≤ 0 then s
  else
    let result := s.loop.addTimer s.conn.fd seconds ⟨s.conn.id, timeoutType⟩
    let s := { s with loop := result.2 }
    if ¬ result.1.isSuccess then s
    else { s with conn := s.conn.setTimeoutActive true timeoutType }

def cancelTimeout (s : Session) (timeoutType : TimeoutType) : Session :=
  let result := s.loop.removeTimer s.conn.fd
  let s := { s with loop := result.2 }
  if ¬ result.1.isSuccess then s
  else { s with conn := s.conn.setTimeoutActive false timeoutType }

/-- Read, write and idle timeouts belong to one state each. -/
def checkAndSetTimeouts (s : Session) : Session :=
  let s :=
    if 0 < s.conn.readTimeoutSeconds ∧ s.conn.state = .kReading then
      s.setupTimeout s.conn.readTimeoutSeconds .read
    else s.cancelTimeout .read
  let s :=
    if 0 < s.conn.writeTimeoutSeconds ∧ s.conn.state = .kWriting then
      s.setupTimeout s.conn.writeTimeoutSeconds .write
    else s.cancelTimeout .write
  if 0 < s.conn.idleTimeoutSeconds ∧ s.conn.state = .kConnected then
    s.setupTimeout s.conn.idleTimeoutSeconds .idle
  else s.cancelTimeout .idle

/-- The steps that the three public setters share. -/
def setTimeout (s : Session) (seconds : ℤ) (timeoutType : TimeoutType) : Session :=
  if seconds ≤ 0 then
    ({ s with conn := s.conn.setTimeoutSeconds 0 timeoutType } : Session).cancelTimeout timeoutType
  else
    ({ s with conn := s.conn.setTimeoutSeconds seconds timeoutType } : Session).checkAndSetTimeouts

def setReadTimeout (s : Session) (seconds : ℤ) : Session := s.setTimeout seconds .read
def setWriteTimeout (s : Session) (seconds : ℤ) : Session := s.setTimeout seconds .write
def setIdleTimeout (s : Session) (seconds : ℤ) : Session := s.setTimeout seconds .idle

/-- Any activity starts the idle timeout anew. -/
def updateActivityTimestamp (s : Session) : Session :=
  if 0 < s.conn.idleTimeoutSeconds then s.setupTimeout s.conn.idleTimeoutSeconds .idle else s

def resetIdleTimeout (s : Session) : Session :=
  let s := s.updateActivityTimestamp
  if 0 < s.conn.idleTimeoutSeconds then s.setupTimeout s.conn.idleTimeoutSeconds .idle else s

def disableAllTimeouts (s : Session) : Session :=
  let s := { s with conn :=
    { s.conn with readTimeoutSeconds := 0, writeTimeoutSeconds := 0, idleTimeoutSeconds := 0 } }
  ((s.cancelTimeout .read).cancelTimeout .write).cancelTimeout .idle

/-! ### Transitions and closing -/

/-- The part of `Transition` behind its check. -/
def enterState (s : Session) (newState : ConnState) : Session :=
  ({ s with conn := { s.conn with state := newState } } : Session).checkAndSetTimeouts

/-- The transition to `kClosed` is always allowed. -/
def handleClose (s : Session) : Session :=
  let s := s.enterState .kClosed
  let s := { s with loop := s.loop.removeEvent s.conn.fd }
  let s :=
    if s.conn.hasKeepAliveManager then
      { s with keepAlive := s.keepAlive.onConnectionClose s.conn.fd }
    else s
  if s.conn.hasCloseCallback then s.note (.closed s.conn.fd) else s

def handleError (s : Session) : Session := s.handleClose

/-- A transition that is not allowed closes the connection. -/
def transition (s : Session) (newState : ConnState) : Session :=
  if ¬ s.conn.canTransition newState then
    if s.conn.state ≠ .kClosed ∧ s.conn.state ≠ .kClosing then
      ({ s with conn := { s.conn with state := .kClosing } } : Session).handleClose
    else s
  else s.enterState newState

def onTimeout (s : Session) (timeoutType : TimeoutType) : Session :=
  let s := { s with conn := s.conn.setTimeoutActive false timeoutType }
  match timeoutType with
  | .read => s.handleClose
  | .write => s.handleClose
  | .idle => s.handleClose

def connectEstablished (s : Session) : Session :=
  let s := s.transition .kConnected
  let s := { s with loop := (s.loop.setReadCallback s.conn.fd).setWriteCallback s.conn.fd }
  s.updateEvent (Epoll.EPOLLIN ||| Epoll.EPOLLET)

/-! ### Output -/

def shutdownInLoop (s : Session) : Session :=
  if s.conn.outputBuffer.isEmpty then s.note (.shutdown s.conn.outputBuffer.held) else s

/-- What follows a `writev` that took `n` bytes. -/
def afterWrite (s : Session) (n : ℕ) : Session :=
  let s := { s with conn := { s.conn with outputBuffer := s.conn.outputBuffer.advance n } }
  let s := s.updateActivityTimestamp
  if s.conn.outputBuffer.isEmpty then
    let s := s.updateEvent (Epoll.EPOLLIN ||| Epoll.EPOLLET)
    if s.conn.state = .kClosing then s.shutdownInLoop else s
  else s.updateEvent (Epoll.EPOLLIN ||| Epoll.EPOLLOUT ||| Epoll.EPOLLET)

def handleWrite (s : Session) : Session :=
  if s.conn.state = .kClosed then s
  else
    let iov := s.conn.outputBuffer.getIov 16
    if iov = [] then s
    else
      let outcome := s.kernel 0
      let s := { s with kernel := fun n => s.kernel (n + 1) }
      match outcome with
      | .accepted n =>
        let data := iov.flatten.take (n + 1)
        (s.note (.written data)).afterWrite data.length
      | .again => s.updateEvent (Epoll.EPOLLIN ||| Epoll.EPOLLOUT ||| Epoll.EPOLLET)
      | .failed => s.handleError

/-- The steps that `SendInLoop` and `SendResourceInLoop` share. -/
def appendInLoop (s : Session) (data : NodeData) : Session :=
  if data.bytes = [] then s
  else if s.conn.maxOutputBuffer < s.conn.outputBuffer.totalBytes + data.bytes.length then
    s.handleClose
  else
    let s := { s with conn := { s.conn with outputBuffer := s.conn.outputBuffer.append data } }
    (s.note (.queued data.bytes)).handleWrite

def sendInLoop (s : Session) (data : Bytes) : Session := s.appendInLoop (.string data)

def sendResourceInLoop (s : Session) (resource : StaticResource) : Session :=
  s.appendInLoop (.mmap resource)

def send (s : Session) (data : Bytes) : Session :=
  if ¬ s.conn.isConnected then s else s.sendInLoop data

def sendResource (s : Session) (resource : StaticResource) : Session :=
  if ¬ s.conn.isConnected then s else s.sendResourceInLoop resource

def shutdown (s : Session) : Session :=
  if s.conn.isConnected then (s.transition .kClosing).shutdownInLoop else s

/-! ### Input -/

/-- Only the write event stays registered. -/
def pauseReading (s : Session) : Session := s.updateEvent (Epoll.EPOLLOUT ||| Epoll.EPOLLET)

def resumeReading (s : Session) : Session :=
  s.updateEvent (Epoll.EPOLLIN ||| Epoll.EPOLLOUT ||| Epoll.EPOLLET)

def clearReadBuffer (s : Session) : Session :=
  ({ s with conn := { s.conn with inputBuffer := [] } } : Session).resumeReading

/-- The loop around `read`; the end of the list stands for `EAGAIN`. -/
def readAll (s : Session) : List ReadResult → Session
  | [] => s
  | .data data :: reads =>
    let s := { s with conn := { s.conn with inputBuffer := s.conn.inputBuffer ++ data } }
    s.updateActivityTimestamp.readAll reads
  | .eof :: _ => s.handleClose
  | .again :: _ => s
  | .failed :: _ => s.handleError

/-- The callback runs on what the buffer holds, also when a read has just closed the
connection. -/
def handleRead (s : Session) (messageCallback : Option (Session → Session))
    (reads : List ReadResult) : Session :=
  let s := s.readAll reads
  let s := if s.conn.checkInputBufferLimit then s.pauseReading else s
  match messageCallback with
  | none => s
  | some callback => if s.conn.inputBuffer = [] then s else callback s

/-! ### Closing from outside -/

def closeInLoop (s : Session) (reason : Error) (sysErrno : ℤ) : Session :=
  if s.conn.state = .kClosed ∨ s.conn.state = .kClosing then s
  else
    let s := s.disableAllTimeouts
    if sysErrno ≠ 0 then s.handleClose
    else if reason.code = .kTimeout then s.handleClose
    else (s.transition .kClosing).shutdownInLoop

def close (s : Session) (reason : Error) (sysErrno : ℤ) : Session :=
  if ¬ s.conn.isConnected then s else s.closeInLoop reason sysErrno

/-! ### Keep-alive -/

def onRequestStart (s : Session) (keepAlive : Bool) (idleTimeout : ℤ) : Session :=
  if s.conn.hasKeepAliveManager then
    { s with keepAlive := s.keepAlive.onRequestStart s.conn.fd keepAlive idleTimeout }
  else s

def onRequestComplete (s : Session) : Session :=
  if s.conn.hasKeepAliveManager then
    { s with keepAlive := s.keepAlive.onRequestComplete s.conn.fd }
  else s

end Session

end TinyWebServer
