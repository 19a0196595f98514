import TinyWebServer.Http.OnMessage
import TinyWebServer.Library.Runs
import TinyWebServer.Net.Reactor

/-!
# The server and its event loops

The server accepts connections, gives each of them to an event loop, and keeps them in a table by
descriptor until their close callback takes them out. A move is one callback of a loop: the
established connection, a handler, the error callback of the dispatch, a tick of the wheel. What
the kernel reports is not tied to the registered interest.
-/

namespace TinyWebServer

/-- What a loop thread runs for a connection. -/
inductive Handler where
  | read (reads : List ReadResult)
  | write
  /-- A public function of the connection. -/
  | operate (op : ConnOp)

namespace Handler

def run (env : ServerEnv) (s : Session) : Handler → Session
  | .read reads => s.handleRead (some (Session.onMessage env)) reads
  | .write => s.handleWrite
  | .operate op => s.operate op

/-- The loop finds the read and write callbacks once `ConnectEstablished` has set them. -/
def enabled (established : Bool) : Handler → Bool
  | .read _ => established
  | .write => established
  | .operate _ => true

end Handler

/-- A connection object, its loop, and whether `ConnectEstablished` has run. -/
structure Hosted where
  conn : Connection
  loop : ℕ
  established : Bool

/-- Nobody holds the object any more, and its destructor has closed the descriptor. -/
def Hosted.released (h : Hosted) : Bool := h.established && h.conn.state = .kClosed

structure Server where
  config : Option LimitsOptions
  /-- Every connection object by its identity, also those that are gone. -/
  hosted : List Hosted
  /-- `connections_`. -/
  connections : ℤ → Option ℕ
  loops : ℕ → EventLoop TimerCallback
  keepAlive : KeepAliveManager
  resources : StaticResourceManager
  kernel : ℕ → WriteOutcome

/-- What happens next in one of the loop threads. -/
inductive Move where
  /-- `HandleAccept`: the kernel gives a descriptor that is not in use. -/
  | accept (fd : ℤ) (loop : ℕ)
  /-- The functor that `HandleAccept` leaves with the loop. -/
  | establish (id : ℕ)
  | handle (id : ℕ) (handler : Handler)
  /-- The error callback of `ProcessEvents`, on `EPOLLERR`, `EPOLLHUP` or `EPOLLRDHUP`. -/
  | error (loop : ℕ) (fd : ℤ)
  /-- `ProcessTimers`. -/
  | tick (loop : ℕ)

namespace Server

def new (config : Option LimitsOptions) (kernel : ℕ → WriteOutcome) : Server :=
  { config := config, hosted := [], connections := fun _ => none, loops := fun _ => .new
    keepAlive := .new (config.elim 15 (·.keepAliveTimeout)), resources := .new, kernel := kernel }

def session (s : Server) (h : Hosted) : Session :=
  { conn := h.conn, loop := s.loops h.loop, keepAlive := s.keepAlive, resources := s.resources
    kernel := s.kernel, trace := [] }

/-- The server behind a function of the connection `id`. The close callback is `RemoveConnection`. -/
def keep (s : Server) (id : ℕ) (h : Hosted) (t : Session) : Server :=
  { s with
    hosted := s.hosted.set id { h with conn := t.conn }
    connections := fun fd => if t.trace.contains (.closed fd) then none else s.connections fd
    loops := Function.update s.loops h.loop t.loop
    keepAlive := t.keepAlive, resources := t.resources, kernel := t.kernel }

def accept (s : Server) (fd : ℤ) (loop : ℕ) : Server :=
  let id := s.hosted.length
  { s with
    hosted := s.hosted ++
      [⟨{ Connection.new id fd s.config true with hasCloseCallback := true }, loop, false⟩]
    connections := Function.update s.connections fd (some id) }

def establish (s : Server) (id : ℕ) (h : Hosted) : Server :=
  s.keep id { h with established := true } (s.session h).connectEstablished

def removeEvent (s : Server) (loop : ℕ) (fd : ℤ) : Server :=
  { s with loops := Function.update s.loops loop ((s.loops loop).removeEvent fd) }

def withWheel (s : Server) (loop : ℕ) (wheel : TimerWheel TimerCallback) : Server :=
  { s with loops := Function.update s.loops loop { s.loops loop with timerWheel := wheel } }

/-- The callback of an expired task, which finds the wheel as the tick has it. Its calls into the
held mutex count as done. -/
def expire (loop : ℕ) (task : TimerTask TimerCallback) (s : TimerWheel TimerCallback × Server) :
    TimerWheel TimerCallback × Server :=
  let u := s.2.withWheel loop s.1
  let t :=
    match u.hosted[task.callback.conn]? with
    | none => u
    | some h =>
      u.keep task.callback.conn h ((u.session h).onTimeout task.callback.timeoutType)
  ((t.loops loop).timerWheel, t)

def tick (s : Server) (loop : ℕ) : Server :=
  let result := TimerWheel.tick (expire loop) ((s.loops loop).timerWheel, s)
  result.2.2.withWheel loop result.2.1

/-- A handler runs for the connections that the server keeps. -/
def step (env : ServerEnv) (s : Server) : Move → Option Server
  | .accept fd loop =>
    if 0 ≤ fd ∧ s.hosted.all (fun h => h.released || h.conn.fd ≠ fd) then some (s.accept fd loop)
    else none
  | .establish id =>
    (s.hosted[id]?).bind fun h => if h.established then none else some (s.establish id h)
  | .handle id handler =>
    (s.hosted[id]?).bind fun h =>
      if s.connections h.conn.fd = some id ∧ handler.enabled h.established then
        some (s.keep id h (handler.run env (s.session h)))
      else none
  | .error loop fd => some (s.removeEvent loop fd)
  | .tick loop => some (s.tick loop)

end Server

end TinyWebServer
