import TinyWebServer.Net.Connection

/-!
# The reactor of one loop thread

Any number of connections around one event loop, with everything the loop thread may do to them:
accept one, run one of its handlers or public functions, and tick the timer wheel, whose expired
tasks call back into the connections.
-/

namespace TinyWebServer

/-- The public functions of a connection, and the uses of its input buffer and parser. -/
inductive ConnOp where
  | send (data : Bytes)
  | sendResource (resource : StaticResource)
  | shutdown
  | close (reason : Error) (sysErrno : ℤ)
  | setReadTimeout (seconds : ℤ)
  | setWriteTimeout (seconds : ℤ)
  | setIdleTimeout (seconds : ℤ)
  | resetIdleTimeout
  | disableAllTimeouts
  | clearReadBuffer
  | onRequestStart (keepAlive : Bool) (idleTimeout : ℤ)
  | onRequestComplete
  | setInput (inputBuffer : Bytes) (httpParser : HttpRequest)

/-- The loop-thread events of one connection. A message callback stands as the operations it
performs. -/
inductive ConnEvent where
  | connectEstablished
  | operate (op : ConnOp)
  | read (reads : List ReadResult) (messageCallback : Option (List ConnOp))
  | write

namespace Session

def operate (s : Session) : ConnOp → Session
  | .send data => s.send data
  | .sendResource resource => s.sendResource resource
  | .shutdown => s.shutdown
  | .close reason sysErrno => s.close reason sysErrno
  | .setReadTimeout seconds => s.setReadTimeout seconds
  | .setWriteTimeout seconds => s.setWriteTimeout seconds
  | .setIdleTimeout seconds => s.setIdleTimeout seconds
  | .resetIdleTimeout => s.resetIdleTimeout
  | .disableAllTimeouts => s.disableAllTimeouts
  | .clearReadBuffer => s.clearReadBuffer
  | .onRequestStart keepAlive idleTimeout => s.onRequestStart keepAlive idleTimeout
  | .onRequestComplete => s.onRequestComplete
  | .setInput inputBuffer httpParser =>
    { s with conn := { s.conn with inputBuffer := inputBuffer, httpParser := httpParser } }

def operateAll (s : Session) (ops : List ConnOp) : Session := ops.foldl operate s

def react (s : Session) : ConnEvent → Session
  | .connectEstablished => s.connectEstablished
  | .operate op => s.operate op
  | .read reads messageCallback =>
    s.handleRead (messageCallback.map fun ops s => s.operateAll ops) reads
  | .write => s.handleWrite

end Session

/-- The connections by their identity; one is never forgotten, since the wheel may hold it. -/
structure Reactor where
  conns : List Connection
  loop : EventLoop TimerCallback
  keepAlive : KeepAliveManager
  resources : StaticResourceManager
  kernel : ℕ → WriteOutcome
  trace : List Event

/-- What happens next in the loop thread. -/
inductive ReactorStep where
  | accept (fd : ℤ) (config : Option LimitsOptions) (hasKeepAliveManager hasCloseCallback : Bool)
  | event (id : ℕ) (event : ConnEvent)
  | tick

namespace Reactor

def new (kernel : ℕ → WriteOutcome) : Reactor :=
  { conns := [], loop := .new, keepAlive := .new 15, resources := .new, kernel := kernel
    trace := [] }

def session (r : Reactor) (conn : Connection) : Session :=
  { conn := conn, loop := r.loop, keepAlive := r.keepAlive, resources := r.resources
    kernel := r.kernel, trace := r.trace }

/-- Run an operation of one connection. -/
def on (r : Reactor) (id : ℕ) (op : Session → Session) : Reactor :=
  match r.conns[id]? with
  | none => r
  | some conn =>
    let s := op (r.session conn)
    { conns := r.conns.set id s.conn, loop := s.loop, keepAlive := s.keepAlive
      resources := s.resources, kernel := s.kernel, trace := s.trace }

def withWheel (r : Reactor) (wheel : TimerWheel TimerCallback) : Reactor :=
  { r with loop := { r.loop with timerWheel := wheel } }

/-- The callback of an expired task, which finds the wheel as the tick has it. -/
def expire (task : TimerTask TimerCallback) (s : TimerWheel TimerCallback × Reactor) :
    TimerWheel TimerCallback × Reactor :=
  let r := (s.2.withWheel s.1).on task.callback.conn (·.onTimeout task.callback.timeoutType)
  (r.loop.timerWheel, r)

/-- `ProcessTimers`. -/
def tick (r : Reactor) : Reactor :=
  let result := TimerWheel.tick expire (r.loop.timerWheel, r)
  result.2.2.withWheel result.2.1

def accept (r : Reactor) (fd : ℤ) (config : Option LimitsOptions)
    (hasKeepAliveManager hasCloseCallback : Bool) : Reactor :=
  { r with conns := r.conns ++
    [{ Connection.new r.conns.length fd config hasKeepAliveManager with
      hasCloseCallback := hasCloseCallback }] }

def step (r : Reactor) : ReactorStep → Reactor
  | .accept fd config hasKeepAliveManager hasCloseCallback =>
    r.accept fd config hasKeepAliveManager hasCloseCallback
  | .event id event => r.on id (·.react event)
  | .tick => r.tick

def run (r : Reactor) (steps : List ReactorStep) : Reactor := steps.foldl step r

end Reactor

/-! ### What a connection does to the wheel -/

/-- A property of the wheel that the timer operations of a connection keep. -/
structure KeptByTimers (fd : ℤ) (id : ℕ) (Q : TimerWheel TimerCallback → Prop) : Prop where
  add : ∀ w seconds timeoutType, Q w → Q (w.addTimeout fd seconds (some ⟨id, timeoutType⟩)).2
  remove : ∀ w, Q w → Q (w.removeTimeout fd).2

namespace Session

/-- The session belongs to the connection `id` on `fd`, and its wheel has the property. -/
structure Governed (fd : ℤ) (id : ℕ) (Q : TimerWheel TimerCallback → Prop) (s : Session) :
    Prop where
  fd_eq : s.conn.fd = fd
  id_eq : s.conn.id = id
  wheel : Q s.loop.timerWheel

variable {fd : ℤ} {id : ℕ} {Q : TimerWheel TimerCallback → Prop} {s : Session}

lemma governed_setTimeoutActive (h : Governed fd id Q s) (active : Bool)
    (timeoutType : TimeoutType) :
    Governed fd id Q { s with conn := s.conn.setTimeoutActive active timeoutType } := by
  cases timeoutType <;> exact ⟨h.fd_eq, h.id_eq, h.wheel⟩

lemma governed_setTimeoutSeconds (h : Governed fd id Q s) (seconds : ℤ)
    (timeoutType : TimeoutType) :
    Governed fd id Q { s with conn := s.conn.setTimeoutSeconds seconds timeoutType } := by
  cases timeoutType <;> exact ⟨h.fd_eq, h.id_eq, h.wheel⟩

lemma governed_updateEvent (h : Governed fd id Q s) (events : UInt32) :
    Governed fd id Q (s.updateEvent events) :=
  ⟨h.fd_eq, h.id_eq, h.wheel⟩

lemma governed_note (h : Governed fd id Q s) (event : Event) : Governed fd id Q (s.note event) :=
  ⟨h.fd_eq, h.id_eq, h.wheel⟩

lemma governed_setupTimeout (hQ : KeptByTimers fd id Q) (h : Governed fd id Q s) (seconds : ℤ)
    (timeoutType : TimeoutType) : Governed fd id Q (s.setupTimeout seconds timeoutType) := by
  have hadd : Governed fd id Q { s with
      loop := (s.loop.addTimer s.conn.fd seconds ⟨s.conn.id, timeoutType⟩).2 } := by
    refine ⟨h.fd_eq, h.id_eq, ?_⟩
    rw [h.fd_eq, h.id_eq]
    exact hQ.add _ seconds timeoutType h.wheel
  rw [setupTimeout]
  by_cases hseconds : seconds ≤ 0
  · rw [if_pos hseconds]
    exact h
  · rw [if_neg hseconds]
    dsimp only
    by_cases hok : (s.loop.addTimer s.conn.fd seconds ⟨s.conn.id, timeoutType⟩).1.isSuccess
    · rw [if_neg (not_not.mpr hok)]
      exact governed_setTimeoutActive hadd true timeoutType
    · rw [if_pos hok]
      exact hadd

lemma governed_cancelTimeout (hQ : KeptByTimers fd id Q) (h : Governed fd id Q s)
    (timeoutType : TimeoutType) : Governed fd id Q (s.cancelTimeout timeoutType) := by
  have hremove : Governed fd id Q { s with loop := (s.loop.removeTimer s.conn.fd).2 } := by
    refine ⟨h.fd_eq, h.id_eq, ?_⟩
    rw [h.fd_eq]
    exact hQ.remove _ h.wheel
  rw [cancelTimeout]
  by_cases hok : (s.loop.removeTimer s.conn.fd).1.isSuccess
  · rw [if_neg (not_not.mpr hok)]
    exact governed_setTimeoutActive hremove false timeoutType
  · rw [if_pos hok]
    exact hremove

lemma governed_setupOrCancel (hQ : KeptByTimers fd id Q) (h : Governed fd id Q s) (p : Prop)
    [Decidable p] (seconds : ℤ) (timeoutType : TimeoutType) :
    Governed fd id Q
      (if p then s.setupTimeout seconds timeoutType else s.cancelTimeout timeoutType) := by
  split_ifs
  · exact governed_setupTimeout hQ h seconds timeoutType
  · exact governed_cancelTimeout hQ h timeoutType

lemma governed_checkAndSetTimeouts (hQ : KeptByTimers fd id Q) (h : Governed fd id Q s) :
    Governed fd id Q s.checkAndSetTimeouts :=
  governed_setupOrCancel hQ (governed_setupOrCancel hQ (governed_setupOrCancel hQ h _ _ .read)
    _ _ .write) _ _ .idle

lemma governed_setTimeout (hQ : KeptByTimers fd id Q) (h : Governed fd id Q s) (seconds : ℤ)
    (timeoutType : TimeoutType) : Governed fd id Q (s.setTimeout seconds timeoutType) := by
  rw [setTimeout]
  split_ifs
  · exact governed_cancelTimeout hQ (governed_setTimeoutSeconds h 0 timeoutType) timeoutType
  · exact governed_checkAndSetTimeouts hQ (governed_setTimeoutSeconds h seconds timeoutType)

lemma governed_updateActivityTimestamp (hQ : KeptByTimers fd id Q) (h : Governed fd id Q s) :
    Governed fd id Q s.updateActivityTimestamp := by
  rw [updateActivityTimestamp]
  split_ifs
  · exact governed_setupTimeout hQ h _ .idle
  · exact h

lemma governed_resetIdleTimeout (hQ : KeptByTimers fd id Q) (h : Governed fd id Q s) :
    Governed fd id Q s.resetIdleTimeout := by
  have hupdate := governed_updateActivityTimestamp hQ h
  rw [resetIdleTimeout]
  split_ifs
  · exact governed_setupTimeout hQ hupdate _ .idle
  · exact hupdate

lemma governed_disableAllTimeouts (hQ : KeptByTimers fd id Q) (h : Governed fd id Q s) :
    Governed fd id Q s.disableAllTimeouts := by
  have hzero : Governed fd id Q { s with conn := { s.conn with
      readTimeoutSeconds := 0, writeTimeoutSeconds := 0, idleTimeoutSeconds := 0 } } :=
    ⟨h.fd_eq, h.id_eq, h.wheel⟩
  exact governed_cancelTimeout hQ
    (governed_cancelTimeout hQ (governed_cancelTimeout hQ hzero .read) .write) .idle

lemma governed_enterState (hQ : KeptByTimers fd id Q) (h : Governed fd id Q s)
    (newState : ConnState) : Governed fd id Q (s.enterState newState) := by
  refine governed_checkAndSetTimeouts hQ ?_
  exact ⟨h.fd_eq, h.id_eq, h.wheel⟩

lemma governed_handleClose (hQ : KeptByTimers fd id Q) (h : Governed fd id Q s) :
    Governed fd id Q s.handleClose := by
  have hclosed := governed_enterState hQ h .kClosed
  simp only [handleClose]
  split_ifs <;> exact ⟨hclosed.fd_eq, hclosed.id_eq, hclosed.wheel⟩

lemma governed_onTimeout (hQ : KeptByTimers fd id Q) (h : Governed fd id Q s)
    (timeoutType : TimeoutType) : Governed fd id Q (s.onTimeout timeoutType) := by
  have hflag := governed_setTimeoutActive h false timeoutType
  cases timeoutType <;> exact governed_handleClose hQ hflag

lemma governed_transition (hQ : KeptByTimers fd id Q) (h : Governed fd id Q s)
    (newState : ConnState) : Governed fd id Q (s.transition newState) := by
  have hclosing : Governed fd id Q { s with conn := { s.conn with state := .kClosing } } :=
    ⟨h.fd_eq, h.id_eq, h.wheel⟩
  by_cases hcan : s.conn.canTransition newState = true
  · rw [transition, if_neg (not_not.mpr hcan)]
    exact governed_enterState hQ h newState
  · rw [transition, if_pos hcan]
    split_ifs
    · exact governed_handleClose hQ hclosing
    · exact h

lemma governed_connectEstablished (hQ : KeptByTimers fd id Q) (h : Governed fd id Q s) :
    Governed fd id Q s.connectEstablished := by
  have htransition := governed_transition hQ h .kConnected
  exact ⟨htransition.fd_eq, htransition.id_eq, htransition.wheel⟩

lemma governed_shutdownInLoop (h : Governed fd id Q s) : Governed fd id Q s.shutdownInLoop := by
  rw [shutdownInLoop]
  split_ifs
  · exact governed_note h _
  · exact h

lemma governed_afterWrite (hQ : KeptByTimers fd id Q) (h : Governed fd id Q s) (n : ℕ) :
    Governed fd id Q (s.afterWrite n) := by
  have hadvance : Governed fd id Q { s with
      conn := { s.conn with outputBuffer := s.conn.outputBuffer.advance n } } :=
    ⟨h.fd_eq, h.id_eq, h.wheel⟩
  have hupdate := governed_updateActivityTimestamp hQ hadvance
  rw [afterWrite]
  dsimp only
  split_ifs
  · exact governed_shutdownInLoop (governed_updateEvent hupdate _)
  · exact governed_updateEvent hupdate _
  · exact governed_updateEvent hupdate _

lemma governed_handleWrite (hQ : KeptByTimers fd id Q) (h : Governed fd id Q s) :
    Governed fd id Q s.handleWrite := by
  have hnext : Governed fd id Q { s with kernel := fun n => s.kernel (n + 1) } :=
    ⟨h.fd_eq, h.id_eq, h.wheel⟩
  rw [handleWrite]
  dsimp only
  split_ifs
  · exact h
  · exact h
  · cases s.kernel 0 with
    | accepted n => exact governed_afterWrite hQ (governed_note hnext _) _
    | again => exact governed_updateEvent hnext _
    | failed => exact governed_handleClose hQ hnext

lemma governed_appendInLoop (hQ : KeptByTimers fd id Q) (h : Governed fd id Q s)
    (data : NodeData) : Governed fd id Q (s.appendInLoop data) := by
  rw [appendInLoop]
  split_ifs
  · exact h
  · exact governed_handleClose hQ h
  · refine governed_handleWrite hQ (governed_note ?_ _)
    exact ⟨h.fd_eq, h.id_eq, h.wheel⟩

lemma governed_send (hQ : KeptByTimers fd id Q) (h : Governed fd id Q s) (data : Bytes) :
    Governed fd id Q (s.send data) := by
  by_cases hconn : s.conn.isConnected
  · rw [send, if_neg (not_not.mpr hconn)]
    exact governed_appendInLoop hQ h _
  · rw [send, if_pos hconn]
    exact h

lemma governed_sendResource (hQ : KeptByTimers fd id Q) (h : Governed fd id Q s)
    (resource : StaticResource) : Governed fd id Q (s.sendResource resource) := by
  by_cases hconn : s.conn.isConnected
  · rw [sendResource, if_neg (not_not.mpr hconn)]
    exact governed_appendInLoop hQ h _
  · rw [sendResource, if_pos hconn]
    exact h

lemma governed_shutdown (hQ : KeptByTimers fd id Q) (h : Governed fd id Q s) :
    Governed fd id Q s.shutdown := by
  rw [shutdown]
  split_ifs
  · exact governed_shutdownInLoop (governed_transition hQ h .kClosing)
  · exact h

lemma governed_closeInLoop (hQ : KeptByTimers fd id Q) (h : Governed fd id Q s) (reason : Error)
    (sysErrno : ℤ) : Governed fd id Q (s.closeInLoop reason sysErrno) := by
  have hdisabled := governed_disableAllTimeouts hQ h
  rw [closeInLoop]
  dsimp only
  split_ifs
  · exact h
  · exact governed_handleClose hQ hdisabled
  · exact governed_handleClose hQ hdisabled
  · exact governed_shutdownInLoop (governed_transition hQ hdisabled .kClosing)

lemma governed_close (hQ : KeptByTimers fd id Q) (h : Governed fd id Q s) (reason : Error)
    (sysErrno : ℤ) : Governed fd id Q (s.close reason sysErrno) := by
  by_cases hconn : s.conn.isConnected
  · rw [close, if_neg (not_not.mpr hconn)]
    exact governed_closeInLoop hQ h reason sysErrno
  · rw [close, if_pos hconn]
    exact h

lemma governed_operate (hQ : KeptByTimers fd id Q) (h : Governed fd id Q s) (op : ConnOp) :
    Governed fd id Q (s.operate op) := by
  cases op with
  | send data => exact governed_send hQ h data
  | sendResource resource => exact governed_sendResource hQ h resource
  | shutdown => exact governed_shutdown hQ h
  | close reason sysErrno => exact governed_close hQ h reason sysErrno
  | setReadTimeout seconds => exact governed_setTimeout hQ h seconds .read
  | setWriteTimeout seconds => exact governed_setTimeout hQ h seconds .write
  | setIdleTimeout seconds => exact governed_setTimeout hQ h seconds .idle
  | resetIdleTimeout => exact governed_resetIdleTimeout hQ h
  | disableAllTimeouts => exact governed_disableAllTimeouts hQ h
  | clearReadBuffer => exact ⟨h.fd_eq, h.id_eq, h.wheel⟩
  | onRequestStart keepAlive idleTimeout =>
    rw [operate, onRequestStart]
    split_ifs <;> exact ⟨h.fd_eq, h.id_eq, h.wheel⟩
  | onRequestComplete =>
    rw [operate, onRequestComplete]
    split_ifs <;> exact ⟨h.fd_eq, h.id_eq, h.wheel⟩
  | setInput inputBuffer httpParser => exact ⟨h.fd_eq, h.id_eq, h.wheel⟩

lemma governed_operateAll (hQ : KeptByTimers fd id Q) (h : Governed fd id Q s)
    (ops : List ConnOp) : Governed fd id Q (s.operateAll ops) := by
  induction ops generalizing s with
  | nil => exact h
  | cons op ops ih => exact ih (governed_operate hQ h op)

lemma governed_readAll (hQ : KeptByTimers fd id Q) (h : Governed fd id Q s)
    (reads : List ReadResult) : Governed fd id Q (s.readAll reads) := by
  induction reads generalizing s with
  | nil => exact h
  | cons read reads ih =>
    cases read with
    | data data =>
      refine ih (governed_updateActivityTimestamp hQ ?_)
      exact ⟨h.fd_eq, h.id_eq, h.wheel⟩
    | eof => exact governed_handleClose hQ h
    | again => exact h
    | failed => exact governed_handleClose hQ h

/-- Whatever happens to a connection, its timer operations are all that the wheel sees of it. -/
lemma governed_react (hQ : KeptByTimers fd id Q) (h : Governed fd id Q s) (event : ConnEvent) :
    Governed fd id Q (s.react event) := by
  cases event with
  | connectEstablished => exact governed_connectEstablished hQ h
  | operate op => exact governed_operate hQ h op
  | write => exact governed_handleWrite hQ h
  | read reads messageCallback =>
    have hread := governed_readAll hQ h reads
    have hpaused : Governed fd id Q
        (if (s.readAll reads).conn.checkInputBufferLimit then (s.readAll reads).pauseReading
          else s.readAll reads) := by
      split_ifs
      · exact governed_updateEvent hread _
      · exact hread
    simp only [react, handleRead]
    cases messageCallback with
    | none => exact hpaused
    | some ops =>
      simp only [Option.map_some]
      generalize (if (s.readAll reads).conn.checkInputBufferLimit then
        (s.readAll reads).pauseReading else s.readAll reads) = t at hpaused ⊢
      split_ifs
      · exact hpaused
      · exact governed_operateAll hQ hpaused ops

end Session

end TinyWebServer
