import TinyWebServer.Net.Handlers
import TinyWebServer.Net.ReadLoop

/-!
# The lifecycle of a connection

What can be seen of a connection while its handlers run: each store to `state_`, and each `writev`
and `shutdown` with the state it is made in.
-/

namespace TinyWebServer

namespace ConnState

/-- The place of a state in the enumeration of the source. -/
def rank : ConnState → ℕ
  | .kConnecting => 0
  | .kConnected => 1
  | .kReading => 2
  | .kProcessing => 3
  | .kWriting => 4
  | .kClosing => 5
  | .kClosed => 6

/-- The states that a connection is ever in. -/
def lifecycle : List ConnState := [.kConnecting, .kConnected, .kClosing, .kClosed]

/-- The stores of the handlers. `again` allows that a closed connection is closed once more. -/
inductive Enters (again : Prop) : ConnState → ConnState → Prop where
  | connected : Enters again .kConnecting .kConnected
  | closing {x : ConnState} (h : x ≠ .kClosed) : Enters again x .kClosing
  | closed {x : ConnState} (h : again ∨ x ≠ .kClosed) : Enters again x .kClosed

end ConnState

inductive Sight where
  /-- A store to `state_`. -/
  | stored (state : ConnState)
  /-- A call of `writev`. -/
  | writev (state : ConnState)
  /-- A call of `shutdown`. -/
  | shutdown (state : ConnState)
  deriving DecidableEq

namespace Sight

def state : Sight → ConnState
  | .stored state => state
  | .writev state => state
  | .shutdown state => state

def isStored : Sight → Bool
  | .stored _ => true
  | _ => false

def isWritev : Sight → Bool
  | .writev _ => true
  | _ => false

def isShutdown : Sight → Bool
  | .shutdown _ => true
  | _ => false

def isClose : Sight → Bool
  | .stored state => state = .kClosed
  | _ => false

end Sight

namespace Event

def isShutdown : Event → Bool
  | .shutdown _ => true
  | _ => false

def isClosed : Event → Bool
  | .closed _ => true
  | _ => false

def isRequest : Event → Bool
  | .request _ => true
  | _ => false

end Event

/-- The function that puts a connection into the keep-alive manager. -/
def ConnOp.startsRequest : ConnOp → Bool
  | .onRequestStart _ _ => true
  | _ => false

/-- What the loop thread does once the connection is established. A message callback stands as the
operations it performs. -/
inductive LoopEvent where
  | operate (op : ConnOp)
  | read (reads : List ReadResult) (messageCallback : Option (List ConnOp))
  | write
  | timeout (timeoutType : TimeoutType)
  /-- Other connections work on what they share with this one. -/
  | elsewhere (loop : EventLoop TimerCallback) (keepAlive : KeepAliveManager)
      (resources : StaticResourceManager)

namespace Session

def dispatch (s : Session) : LoopEvent → Session
  | .operate op => s.operate op
  | .read reads messageCallback =>
    s.handleRead (messageCallback.map fun ops s => s.operateAll ops) reads
  | .write => s.handleWrite
  | .timeout timeoutType => s.onTimeout timeoutType
  | .elsewhere loop keepAlive resources =>
    { s with loop := loop, keepAlive := keepAlive, resources := resources }

def dispatchAll (s : Session) (events : List LoopEvent) : Session := events.foldl dispatch s

/-! ### What the functions show -/

/-- The transition to `kClosed` is always allowed. -/
def handleCloseSights : List Sight := [.stored .kClosed]

def transitionSights (s : Session) (newState : ConnState) : List Sight :=
  if ¬ s.conn.canTransition newState then
    if s.conn.state ≠ .kClosed ∧ s.conn.state ≠ .kClosing then
      .stored .kClosing :: handleCloseSights
    else []
  else [.stored newState]

def shutdownInLoopSights (s : Session) : List Sight :=
  if s.conn.outputBuffer.isEmpty then [.shutdown s.conn.state] else []

def afterWriteSights (s : Session) (n : ℕ) : List Sight :=
  let s := { s with conn := { s.conn with outputBuffer := s.conn.outputBuffer.advance n } }
  let s := s.updateActivityTimestamp
  if s.conn.outputBuffer.isEmpty then
    let s := s.updateEvent (Epoll.EPOLLIN ||| Epoll.EPOLLET)
    if s.conn.state = .kClosing then s.shutdownInLoopSights else []
  else []

def handleWriteSights (s : Session) : List Sight :=
  if s.conn.state = .kClosed then []
  else
    let iov := s.conn.outputBuffer.getIov 16
    if iov = [] then []
    else
      .writev s.conn.state ::
        match s.kernel 0 with
        | .accepted n =>
          let data := iov.flatten.take (n + 1)
          (s.nextAnswer.note (.written data)).afterWriteSights data.length
        | .again => []
        | .failed => handleCloseSights

def appendInLoopSights (s : Session) (data : NodeData) : List Sight :=
  if data.bytes = [] then []
  else if s.conn.maxOutputBuffer < s.conn.outputBuffer.totalBytes + data.bytes.length then
    handleCloseSights
  else
    let s := { s with conn := { s.conn with outputBuffer := s.conn.outputBuffer.append data } }
    (s.note (.queued data.bytes)).handleWriteSights

def sendSights (s : Session) (data : NodeData) : List Sight :=
  if ¬ s.conn.isConnected then [] else s.appendInLoopSights data

def shutdownSights (s : Session) : List Sight :=
  if s.conn.isConnected then
    s.transitionSights .kClosing ++ (s.transition .kClosing).shutdownInLoopSights
  else []

def closeInLoopSights (s : Session) (reason : Error) (sysErrno : ℤ) : List Sight :=
  if s.conn.state = .kClosed ∨ s.conn.state = .kClosing then []
  else
    let s := s.disableAllTimeouts
    if sysErrno ≠ 0 then handleCloseSights
    else if reason.code = .kTimeout then handleCloseSights
    else s.transitionSights .kClosing ++ (s.transition .kClosing).shutdownInLoopSights

def closeSights (s : Session) (reason : Error) (sysErrno : ℤ) : List Sight :=
  if ¬ s.conn.isConnected then [] else s.closeInLoopSights reason sysErrno

/-- The other functions neither store a state nor write or shut down. -/
def operateSights (s : Session) : ConnOp → List Sight
  | .send data => s.sendSights (.string data)
  | .sendResource resource => s.sendSights (.mmap resource)
  | .shutdown => s.shutdownSights
  | .close reason sysErrno => s.closeSights reason sysErrno
  | _ => []

def operateAllSights (s : Session) : List ConnOp → List Sight
  | [] => []
  | op :: ops => s.operateSights op ++ (s.operate op).operateAllSights ops

def readAllSights (s : Session) : List ReadResult → List Sight
  | [] => []
  | .data data :: reads =>
    let s := { s with conn := { s.conn with inputBuffer := s.conn.inputBuffer ++ data } }
    s.updateActivityTimestamp.readAllSights reads
  | .eof :: _ => handleCloseSights
  | .again :: _ => []
  | .failed :: _ => handleCloseSights

def handleReadSights (s : Session) (messageCallback : Option (List ConnOp))
    (reads : List ReadResult) : List Sight :=
  let sights := s.readAllSights reads
  let s := s.filled reads
  match messageCallback with
  | none => sights
  | some ops => if s.conn.inputBuffer = [] then sights else sights ++ s.operateAllSights ops

def dispatchSights (s : Session) : LoopEvent → List Sight
  | .operate op => s.operateSights op
  | .read reads messageCallback => s.handleReadSights messageCallback reads
  | .write => s.handleWriteSights
  | .timeout _ => handleCloseSights
  | .elsewhere .. => []

def dispatchAllSights (s : Session) : List LoopEvent → List Sight
  | [] => []
  | event :: events => s.dispatchSights event ++ (s.dispatch event).dispatchAllSights events

/-- The connection is established once, then the events follow. -/
def live (s : Session) (events : List LoopEvent) : Session :=
  s.connectEstablished.dispatchAll events

def liveSights (s : Session) (events : List LoopEvent) : List Sight :=
  s.transitionSights .kConnected ++ s.connectEstablished.dispatchAllSights events

/-! ### What the sights tell

They lead from one state to another, and no call of `writev` or `shutdown` goes without one. -/

inductive Leads (again : Prop) : ConnState → List Sight → ConnState → Prop where
  | nil (x : ConnState) : Leads again x [] x
  | stored {x y z : ConnState} {sights : List Sight} (h : x.Enters again y)
      (hrest : Leads again y sights z) : Leads again x (.stored y :: sights) z
  | writev {x z : ConnState} {sights : List Sight} (h : x ≠ .kClosed)
      (hrest : Leads again x sights z) : Leads again x (.writev x :: sights) z
  | shutdown {x z : ConnState} {sights : List Sight} (h : x ≠ .kClosed)
      (hrest : Leads again x sights z) : Leads again x (.shutdown x :: sights) z

variable {again quiet : Prop}

lemma Leads.trans {x y z : ConnState} {sights sights' : List Sight} (h : Leads again x sights y)
    (h' : Leads again y sights' z) : Leads again x (sights ++ sights') z := by
  induction h with
  | nil x => exact h'
  | stored h _ ih => exact .stored h (ih h')
  | writev h _ ih => exact .writev h (ih h')
  | shutdown h _ ih => exact .shutdown h (ih h')

/-- The sights lead from the state of `s` to that of `t`, each `writev` takes an answer of the
kernel, each `shutdown` is in the trace, the close callback is called for a store of `kClosed` only,
no request is taken up, and the keep-alive manager, if it is `quiet`, loses the connection by such a
store and changes in no other way. -/
structure Reveals (again quiet : Prop) (s : Session) (sights : List Sight) (t : Session) :
    Prop where
  fd : t.conn.fd = s.conn.fd
  hasKeepAliveManager : t.conn.hasKeepAliveManager = s.conn.hasKeepAliveManager
  leads : Leads again s.conn.state sights t.conn.state
  kernel : t.kernel = fun n => s.kernel (n + sights.countP Sight.isWritev)
  shutdowns : t.trace.countP Event.isShutdown =
    s.trace.countP Event.isShutdown + sights.countP Sight.isShutdown
  closes : t.trace.countP Event.isClosed ≤
    s.trace.countP Event.isClosed + sights.countP Sight.isClose
  requests : t.trace.countP Event.isRequest = s.trace.countP Event.isRequest
  keepAlive : quiet →
    t.keepAlive = if sights.any Sight.isClose then s.closeKeepAlive else s.keepAlive

/-- An entry that is gone cannot be taken out. -/
lemma closeKeepAlive_of_closed {s t : Session} (hfd : t.conn.fd = s.conn.fd)
    (hmanager : t.conn.hasKeepAliveManager = s.conn.hasKeepAliveManager)
    (h : t.keepAlive = s.closeKeepAlive) : t.closeKeepAlive = s.closeKeepAlive := by
  rw [closeKeepAlive, hfd, hmanager, h, closeKeepAlive]
  split_ifs
  · simp [KeepAliveManager.onConnectionClose, KeepAliveManager.erase]
  · rfl

lemma Reveals.trans {s t u : Session} {sights sights' : List Sight}
    (h : Reveals again quiet s sights t) (h' : Reveals again quiet t sights' u) :
    Reveals again quiet s (sights ++ sights') u where
  fd := h'.fd.trans h.fd
  hasKeepAliveManager := h'.hasKeepAliveManager.trans h.hasKeepAliveManager
  leads := h.leads.trans h'.leads
  kernel := by
    rw [h'.kernel, h.kernel, List.countP_append]
    funext n
    exact congrArg s.kernel (by omega)
  shutdowns := by
    rw [h'.shutdowns, h.shutdowns, List.countP_append, Nat.add_assoc]
  closes := by
    rw [List.countP_append, ← Nat.add_assoc]
    exact h'.closes.trans (Nat.add_le_add_right h.closes _)
  requests := h'.requests.trans h.requests
  keepAlive := by
    intro hquiet
    have hkept := h.keepAlive hquiet
    have hkept' := h'.keepAlive hquiet
    rw [List.any_append]
    cases hany' : sights'.any Sight.isClose with
    | false =>
      rw [hany', if_neg Bool.false_ne_true] at hkept'
      rw [hkept', hkept, Bool.or_false]
    | true =>
      rw [hany', if_pos rfl] at hkept'
      rw [hkept', Bool.or_true, if_pos rfl]
      -- The second store finds the entry gone.
      cases hany : sights.any Sight.isClose with
      | false =>
        rw [hany, if_neg Bool.false_ne_true] at hkept
        rw [closeKeepAlive, closeKeepAlive, h.fd, h.hasKeepAliveManager, hkept]
      | true =>
        rw [hany, if_pos rfl] at hkept
        exact closeKeepAlive_of_closed h.fd h.hasKeepAliveManager hkept

/-- A part that shows nothing. -/
lemma reveals_nil {s t : Session} (hfd : t.conn.fd = s.conn.fd)
    (hmanager : t.conn.hasKeepAliveManager = s.conn.hasKeepAliveManager)
    (hstate : t.conn.state = s.conn.state) (hkernel : t.kernel = s.kernel)
    (htrace : t.trace = s.trace) (hkeepAlive : quiet → t.keepAlive = s.keepAlive) :
    Reveals again quiet s [] t := by
  refine ⟨hfd, hmanager, ?_, hkernel, congrArg _ htrace, (congrArg _ htrace).le, congrArg _ htrace,
    hkeepAlive⟩
  rw [hstate]
  exact .nil _

lemma Reveals.refl (s : Session) : Reveals again quiet s [] s :=
  reveals_nil rfl rfl rfl rfl rfl fun _ => rfl

/-- What shows nothing may come first. -/
lemma Reveals.after {s t u : Session} {sights : List Sight} (h : Reveals again quiet s [] t)
    (h' : Reveals again quiet t sights u) : Reveals again quiet s sights u := h.trans h'

lemma Reveals.before {s t u : Session} {sights : List Sight} (h : Reveals again quiet s sights t)
    (h' : Reveals again quiet t [] u) : Reveals again quiet s sights u := by
  have hboth := h.trans h'
  rwa [List.append_nil] at hboth

lemma TimersOnly.reveals {s t : Session} (h : TimersOnly s t) : Reveals again quiet s [] t := by
  obtain ⟨_, _, _, _, rfl⟩ := h
  exact reveals_nil rfl rfl rfl rfl rfl fun _ => rfl

lemma TimeoutsOnly.reveals {s t : Session} (h : TimeoutsOnly s t) : Reveals again quiet s [] t := by
  obtain ⟨read, write, idle, htimers⟩ := h
  have hseconds : Reveals again quiet s [] (s.withSeconds read write idle) :=
    reveals_nil rfl rfl rfl rfl rfl fun _ => rfl
  exact hseconds.after htimers.reveals

lemma reveals_updateEvent (s : Session) (events : UInt32) :
    Reveals again quiet s [] (s.updateEvent events) :=
  reveals_nil rfl rfl rfl rfl rfl fun _ => rfl

lemma reveals_note (s : Session) {event : Event} (h : event.isShutdown = false)
    (h' : event.isClosed = false) (h'' : event.isRequest = false) :
    Reveals again quiet s [] (s.note event) := by
  refine ⟨rfl, rfl, .nil _, rfl, ?_, ?_, ?_, fun _ => rfl⟩
  · simp [note, h]
  · simp [note, h']
  · simp [note, h'']

/-! ### Transitions and closing -/

lemma reveals_enterState (s : Session) {newState : ConnState}
    (h : s.conn.state.Enters again newState) (hnew : newState ≠ .kClosed) :
    Reveals again quiet s [.stored newState] (s.enterState newState) := by
  obtain ⟨wheel, read, write, idle, heq⟩ := enterState_eq s newState
  rw [heq]
  exact ⟨rfl, rfl, .stored h (.nil _), rfl, rfl, Nat.le_add_right _ _, rfl, fun _ => by
    simp [Sight.isClose, hnew, withTimers]⟩

lemma reveals_handleClose {s : Session} (h : again ∨ s.conn.state ≠ .kClosed) :
    Reveals again quiet s handleCloseSights s.handleClose := by
  obtain ⟨wheel, read, write, idle, heq⟩ := handleClose_eq s
  rw [heq]
  refine ⟨rfl, rfl, .stored (.closed h) (.nil _), rfl, ?_, ?_, ?_, fun _ => rfl⟩
  · rw [List.countP_append, closeEvents]
    split_ifs <;> rfl
  · rw [List.countP_append, closeEvents]
    split_ifs
    · exact le_rfl
    · exact Nat.le_add_right _ _
  · rw [List.countP_append, closeEvents]
    split_ifs <;> rfl

lemma reveals_transition (s : Session) {newState : ConnState}
    (h : s.conn.canTransition newState = true → s.conn.state.Enters again newState)
    (hnew : newState ≠ .kClosed) :
    Reveals again quiet s (s.transitionSights newState) (s.transition newState) := by
  by_cases hcan : s.conn.canTransition newState = true
  · rw [transitionSights, transition, if_neg (not_not.mpr hcan), if_neg (not_not.mpr hcan)]
    exact reveals_enterState s (h hcan) hnew
  · rw [transitionSights, transition, if_pos hcan, if_pos hcan]
    split_ifs with hopen
    · have hclosing : Reveals again quiet s [.stored .kClosing]
          { s with conn := { s.conn with state := .kClosing } } :=
        ⟨rfl, rfl, .stored (.closing hopen.1) (.nil _), rfl, rfl, Nat.le_add_right _ _, rfl,
          fun _ => rfl⟩
      exact hclosing.trans (reveals_handleClose (.inr ConnState.noConfusion))
    · exact Reveals.refl s

/-- The way to `kClosing` is open from every state but `kClosed`. -/
lemma enters_kClosing {c : Connection} (h : c.canTransition .kClosing = true) :
    c.state.Enters again .kClosing := by
  apply ConnState.Enters.closing
  intro hclosed
  rw [Connection.canTransition, hclosed] at h
  cases h

lemma enters_kConnected {c : Connection} (h : c.state = .kConnecting) :
    c.state.Enters again .kConnected := by
  rw [h]
  exact .connected

lemma reveals_connectEstablished {s : Session} (h : s.conn.state = .kConnecting) :
    Reveals again quiet s (s.transitionSights .kConnected) s.connectEstablished := by
  have htransition :
      Reveals again quiet s (s.transitionSights .kConnected) (s.transition .kConnected) :=
    reveals_transition s (fun _ => enters_kConnected h) ConnState.noConfusion
  exact htransition.before (reveals_nil rfl rfl rfl rfl rfl fun _ => rfl)

lemma reveals_onTimeout {s : Session} (h : again ∨ s.conn.state ≠ .kClosed)
    (timeoutType : TimeoutType) :
    Reveals again quiet s handleCloseSights (s.onTimeout timeoutType) := by
  have hflag : Reveals again quiet s []
      { s with conn := s.conn.setTimeoutActive false timeoutType } := by
    cases timeoutType <;> exact reveals_nil rfl rfl rfl rfl rfl fun _ => rfl
  have hstate : (s.conn.setTimeoutActive false timeoutType).state = s.conn.state := by
    cases timeoutType <;> rfl
  rw [onTimeout_eq]
  refine hflag.after (reveals_handleClose ?_)
  rwa [hstate]

/-! ### Output -/

lemma reveals_shutdownInLoop {s : Session} (h : s.conn.state ≠ .kClosed) :
    Reveals again quiet s s.shutdownInLoopSights s.shutdownInLoop := by
  rw [shutdownInLoopSights, shutdownInLoop]
  split_ifs
  · refine ⟨rfl, rfl, .shutdown h (.nil _), rfl, ?_, ?_, ?_, fun _ => rfl⟩
    · rw [note, List.countP_append]
      rfl
    · rw [note, List.countP_append]
      exact Nat.le_add_right _ _
    · rw [note, List.countP_append]
      rfl
  · exact Reveals.refl s

/-- A connection that goes to `kClosing` shuts its write side down in that state. -/
lemma reveals_closing {s : Session} (h : s.conn.state ≠ .kClosed)
    (h' : s.conn.state ≠ .kClosing) :
    Reveals again quiet s
      (s.transitionSights .kClosing ++ (s.transition .kClosing).shutdownInLoopSights)
      (s.transition .kClosing).shutdownInLoop := by
  have hcan : s.conn.canTransition .kClosing = true := by
    rw [Connection.canTransition, if_neg h', if_neg h, if_pos rfl]
  have hstate : (s.transition .kClosing).conn.state = .kClosing := by
    obtain ⟨wheel, read, write, idle, heq⟩ := enterState_eq s .kClosing
    rw [transition, if_neg (not_not.mpr hcan), heq]
    rfl
  refine (reveals_transition s enters_kClosing ConnState.noConfusion).trans
    (reveals_shutdownInLoop ?_)
  rw [hstate]
  exact ConnState.noConfusion

lemma reveals_afterWrite {s : Session} (h : s.conn.state ≠ .kClosed) (n : ℕ) :
    Reveals again quiet s (s.afterWriteSights n) (s.afterWrite n) := by
  let advanced : Session :=
    { s with conn := { s.conn with outputBuffer := s.conn.outputBuffer.advance n } }
  have hadvance : Reveals again quiet s [] advanced := reveals_nil rfl rfl rfl rfl rfl fun _ => rfl
  have htimers := timersOnly_updateActivityTimestamp advanced
  have hupdate : Reveals again quiet s [] advanced.updateActivityTimestamp :=
    hadvance.after htimers.reveals
  have hopen : advanced.updateActivityTimestamp.conn.state ≠ .kClosed := by
    rwa [htimers.state_eq]
  rw [afterWriteSights, afterWrite]
  dsimp only
  split_ifs
  · exact (hupdate.after (reveals_updateEvent _ _)).after (reveals_shutdownInLoop hopen)
  · exact hupdate.after (reveals_updateEvent _ _)
  · exact hupdate.after (reveals_updateEvent _ _)

/-- A call of `writev` takes one answer of the kernel. -/
lemma reveals_writev {s t : Session} {sights : List Sight} (h : s.conn.state ≠ .kClosed)
    (hrest : Reveals again quiet s.nextAnswer sights t) :
    Reveals again quiet s (.writev s.conn.state :: sights) t where
  fd := hrest.fd
  hasKeepAliveManager := hrest.hasKeepAliveManager
  leads := .writev h hrest.leads
  kernel := by
    rw [hrest.kernel, List.countP_cons_of_pos rfl]
    funext n
    exact congrArg s.kernel (by simp [Nat.add_assoc])
  shutdowns := by
    rw [hrest.shutdowns, List.countP_cons_of_neg Bool.false_ne_true]
    rfl
  closes := by
    rw [List.countP_cons_of_neg Bool.false_ne_true]
    exact hrest.closes
  requests := hrest.requests
  keepAlive := hrest.keepAlive

lemma reveals_handleWrite (s : Session) :
    Reveals again quiet s s.handleWriteSights s.handleWrite := by
  by_cases hclosed : s.conn.state = .kClosed
  · rw [handleWriteSights, handleWrite, if_pos hclosed, if_pos hclosed]
    exact Reveals.refl s
  by_cases hiov : s.conn.outputBuffer.getIov 16 = []
  · rw [handleWriteSights, handleWrite, if_neg hclosed, if_neg hclosed]
    simp only [if_pos hiov]
    exact Reveals.refl s
  rw [handleWriteSights, handleWrite, if_neg hclosed, if_neg hclosed]
  simp only [if_neg hiov]
  refine reveals_writev hclosed ?_
  cases s.kernel 0 with
  | accepted n =>
    let data := (s.conn.outputBuffer.getIov 16).flatten.take (n + 1)
    have hnote : Reveals again quiet s.nextAnswer [] (s.nextAnswer.note (.written data)) :=
      reveals_note _ rfl rfl rfl
    exact hnote.after (reveals_afterWrite (s := s.nextAnswer.note (.written data)) hclosed _)
  | again => exact reveals_updateEvent s.nextAnswer _
  | failed => exact reveals_handleClose (s := s.nextAnswer) (.inr hclosed)

/-- The payload does not fit into the output buffer. -/
def Overflows (s : Session) (data : NodeData) : Prop :=
  data.bytes ≠ [] ∧ s.conn.maxOutputBuffer < s.conn.outputBuffer.totalBytes + data.bytes.length

/-- A payload that does not fit closes the connection, whatever its state. -/
lemma reveals_appendInLoop {s : Session} {data : NodeData}
    (h : s.Overflows data → again ∨ s.conn.state ≠ .kClosed) :
    Reveals again quiet s (s.appendInLoopSights data) (s.appendInLoop data) := by
  have happend : Reveals again quiet s []
      { s with conn := { s.conn with outputBuffer := s.conn.outputBuffer.append data } } :=
    reveals_nil rfl rfl rfl rfl rfl fun _ => rfl
  rw [appendInLoopSights, appendInLoop]
  split_ifs with hempty hlimit
  · exact Reveals.refl s
  · exact reveals_handleClose (h ⟨hempty, hlimit⟩)
  · exact (happend.after (reveals_note _ rfl rfl rfl)).after (reveals_handleWrite _)

lemma reveals_send (s : Session) (data : Bytes) :
    Reveals again quiet s (s.sendSights (.string data)) (s.send data) := by
  rw [sendSights, send]
  split_ifs with hconn
  · exact reveals_appendInLoop fun _ => .inr hconn.1
  · exact Reveals.refl s

lemma reveals_sendResource (s : Session) (resource : StaticResource) :
    Reveals again quiet s (s.sendSights (.mmap resource)) (s.sendResource resource) := by
  rw [sendSights, sendResource]
  split_ifs with hconn
  · exact reveals_appendInLoop fun _ => .inr hconn.1
  · exact Reveals.refl s

/-! ### The public functions -/

lemma reveals_shutdown (s : Session) : Reveals again quiet s s.shutdownSights s.shutdown := by
  rw [shutdownSights, shutdown]
  split_ifs with hconn
  · exact reveals_closing hconn.1 hconn.2.1
  · exact Reveals.refl s

lemma reveals_closeInLoop (s : Session) (reason : Error) (sysErrno : ℤ) :
    Reveals again quiet s (s.closeInLoopSights reason sysErrno)
      (s.closeInLoop reason sysErrno) := by
  have hdisable : Reveals again quiet s [] s.disableAllTimeouts :=
    (timeoutsOnly_disableAllTimeouts s).reveals
  rw [closeInLoopSights, closeInLoop]
  by_cases hopen : s.conn.state = .kClosed ∨ s.conn.state = .kClosing
  · rw [if_pos hopen, if_pos hopen]
    exact Reveals.refl s
  rw [if_neg hopen, if_neg hopen]
  rw [not_or, ← state_disableAllTimeouts s] at hopen
  dsimp only
  split_ifs
  · exact hdisable.after (reveals_handleClose (.inr hopen.1))
  · exact hdisable.after (reveals_handleClose (.inr hopen.1))
  · exact hdisable.after (reveals_closing hopen.1 hopen.2)

lemma reveals_close (s : Session) (reason : Error) (sysErrno : ℤ) :
    Reveals again quiet s (s.closeSights reason sysErrno) (s.close reason sysErrno) := by
  by_cases hconn : s.conn.isConnected
  · rw [closeSights, close, if_neg (not_not.mpr hconn), if_neg (not_not.mpr hconn)]
    exact reveals_closeInLoop s reason sysErrno
  · rw [closeSights, close, if_pos hconn, if_pos hconn]
    exact Reveals.refl s

lemma reveals_operate (s : Session) {op : ConnOp} (h : quiet → op.startsRequest = false) :
    Reveals again quiet s (s.operateSights op) (s.operate op) := by
  cases op with
  | send data => exact reveals_send s data
  | sendResource resource => exact reveals_sendResource s resource
  | shutdown => exact reveals_shutdown s
  | close reason sysErrno => exact reveals_close s reason sysErrno
  | setReadTimeout seconds => exact (timeoutsOnly_setTimeout s seconds .read).reveals
  | setWriteTimeout seconds => exact (timeoutsOnly_setTimeout s seconds .write).reveals
  | setIdleTimeout seconds => exact (timeoutsOnly_setTimeout s seconds .idle).reveals
  | resetIdleTimeout => exact (timersOnly_resetIdleTimeout s).reveals
  | disableAllTimeouts => exact (timeoutsOnly_disableAllTimeouts s).reveals
  | clearReadBuffer => exact reveals_nil rfl rfl rfl rfl rfl fun _ => rfl
  | onRequestStart keepAlive idleTimeout =>
    have hquiet : ¬ quiet := fun hquiet => Bool.noConfusion (h hquiet)
    rw [operate, onRequestStart]
    split_ifs <;> exact reveals_nil rfl rfl rfl rfl rfl fun hloud => absurd hloud hquiet
  | onRequestComplete =>
    rw [operate, onRequestComplete]
    split_ifs <;> exact reveals_nil rfl rfl rfl rfl rfl fun _ => rfl
  | setInput inputBuffer httpParser => exact reveals_nil rfl rfl rfl rfl rfl fun _ => rfl

lemma reveals_operateAll (s : Session) (ops : List ConnOp) :
    Reveals again False s (s.operateAllSights ops) (s.operateAll ops) := by
  induction ops generalizing s with
  | nil => exact Reveals.refl s
  | cons op ops ih => exact (reveals_operate s False.elim).trans (ih _)

/-! ### Input -/

lemma reveals_readAll {s : Session} (h : again ∨ s.conn.state ≠ .kClosed)
    (reads : List ReadResult) :
    Reveals again quiet s (s.readAllSights reads) (s.readAll reads) := by
  induction reads generalizing s with
  | nil => exact Reveals.refl s
  | cons read reads ih =>
    cases read with
    | data data =>
      let appended : Session :=
        { s with conn := { s.conn with inputBuffer := s.conn.inputBuffer ++ data } }
      have happend : Reveals again quiet s [] appended :=
        reveals_nil rfl rfl rfl rfl rfl fun _ => rfl
      have htimers := timersOnly_updateActivityTimestamp appended
      refine (happend.after htimers.reveals).after (ih ?_)
      rwa [htimers.state_eq]
    | eof => exact reveals_handleClose h
    | again => exact Reveals.refl s
    | failed => exact reveals_handleClose h

lemma reveals_filled {s : Session} (h : again ∨ s.conn.state ≠ .kClosed)
    (reads : List ReadResult) :
    Reveals again quiet s (s.readAllSights reads) (s.filled reads) := by
  rw [filled]
  split_ifs
  · exact (reveals_readAll h reads).before (reveals_updateEvent _ _)
  · exact reveals_readAll h reads

lemma reveals_handleRead {s : Session} (h : again ∨ s.conn.state ≠ .kClosed)
    (messageCallback : Option (List ConnOp)) (reads : List ReadResult) :
    Reveals again False s (s.handleReadSights messageCallback reads)
      (s.handleRead (messageCallback.map fun ops s => s.operateAll ops) reads) := by
  have hfilled : Reveals again False s (s.readAllSights reads) (s.filled reads) :=
    reveals_filled h reads
  cases messageCallback with
  | none => exact hfilled
  | some ops =>
    rw [handleReadSights, Option.map_some, handleRead_some]
    split_ifs
    · exact hfilled
    · exact hfilled.trans (reveals_operateAll _ ops)

/-! ### Runs -/

lemma reveals_dispatch (s : Session) (event : LoopEvent) :
    Reveals True False s (s.dispatchSights event) (s.dispatch event) := by
  cases event with
  | operate op => exact reveals_operate s False.elim
  | read reads messageCallback => exact reveals_handleRead (.inl trivial) messageCallback reads
  | write => exact reveals_handleWrite s
  | timeout timeoutType => exact reveals_onTimeout (.inl trivial) timeoutType
  | elsewhere loop keepAlive resources => exact reveals_nil rfl rfl rfl rfl rfl False.elim

lemma reveals_dispatchAll (s : Session) (events : List LoopEvent) :
    Reveals True False s (s.dispatchAllSights events) (s.dispatchAll events) := by
  induction events generalizing s with
  | nil => exact Reveals.refl s
  | cons event events ih => exact (reveals_dispatch s event).trans (ih _)

theorem reveals_live {s : Session} (h : s.conn.state = .kConnecting) (events : List LoopEvent) :
    Reveals True False s (s.liveSights events) (s.live events) :=
  (reveals_connectEstablished h).trans (reveals_dispatchAll _ events)

/-! ### Forward only -/

lemma rank_le_of_enters {x y : ConnState} (h : x = y ∨ x.Enters again y) : x.rank ≤ y.rank := by
  rcases h with rfl | h
  · exact le_rfl
  · cases h with
    | connected => decide
    | closing h => cases x <;> simp_all [ConnState.rank]
    | closed h => cases x <;> simp [ConnState.rank]

/-- `kClosed` is never left, and `kClosing` for `kClosed` only. -/
lemma stays_of_enters {x y : ConnState} (h : x = y ∨ x.Enters again y) :
    (x = .kClosed → y = .kClosed) ∧ (x = .kClosing → y = .kClosing ∨ y = .kClosed) := by
  rcases h with rfl | h
  · exact ⟨id, Or.inl⟩
  · cases h with
    | connected => simp
    | closing h => exact ⟨fun hclosed => absurd hclosed h, fun _ => .inl rfl⟩
    | closed h => exact ⟨fun _ => rfl, fun _ => .inr rfl⟩

lemma mem_lifecycle_of_enters {x y : ConnState} (h : x.Enters again y) :
    y ∈ ConnState.lifecycle := by
  cases h <;> simp [ConnState.lifecycle]

section leads

variable {x y : ConnState} {sights : List Sight}

lemma Leads.isChain (h : Leads again x sights y) :
    (x :: sights.map Sight.state).IsChain fun x y => x = y ∨ x.Enters again y := by
  induction h with
  | nil x => exact .singleton x
  | stored h _ ih => exact .cons_cons (.inr h) ih
  | writev _ _ ih => exact .cons_cons (.inl rfl) ih
  | shutdown _ _ ih => exact .cons_cons (.inl rfl) ih

lemma Leads.mem_lifecycle (h : Leads again x sights y) (hx : x ∈ ConnState.lifecycle) :
    ∀ z ∈ x :: sights.map Sight.state, z ∈ ConnState.lifecycle := by
  induction h with
  | nil x => simpa using hx
  | stored h _ ih => exact List.forall_mem_cons.mpr ⟨hx, ih (mem_lifecycle_of_enters h)⟩
  | writev _ _ ih => exact List.forall_mem_cons.mpr ⟨hx, ih hx⟩
  | shutdown _ _ ih => exact List.forall_mem_cons.mpr ⟨hx, ih hx⟩

/-- The system calls are made in open states. -/
lemma Leads.isStored (h : Leads again x sights y) :
    ∀ sight ∈ sights, sight.state = .kClosed → sight.isStored = true := by
  induction h with
  | nil x => simp
  | stored _ _ ih => exact List.forall_mem_cons.mpr ⟨fun _ => rfl, ih⟩
  | writev h _ ih => exact List.forall_mem_cons.mpr ⟨fun hclosed => absurd hclosed h, ih⟩
  | shutdown h _ ih => exact List.forall_mem_cons.mpr ⟨fun hclosed => absurd hclosed h, ih⟩

lemma Leads.getLast (h : Leads again x sights y) :
    (x :: sights.map Sight.state).getLast (List.cons_ne_nil _ _) = y := by
  induction h with
  | nil x => rfl
  | stored _ _ ih => exact ih
  | writev _ _ ih => exact ih
  | shutdown _ _ ih => exact ih

lemma Leads.stays (h : Leads again x sights y) :
    (x = .kClosed → y = .kClosed) ∧ (x = .kClosing → y = .kClosing ∨ y = .kClosed) := by
  induction h with
  | nil x => exact ⟨id, Or.inl⟩
  | stored h _ ih =>
    obtain ⟨hclosed, hclosing⟩ := stays_of_enters (.inr h)
    refine ⟨fun hx => ih.1 (hclosed hx), fun hx => ?_⟩
    rcases hclosing hx with hy | hy
    · exact ih.2 hy
    · exact .inr (ih.1 hy)
  | writev _ _ ih => exact ih
  | shutdown _ _ ih => exact ih

lemma Leads.closed_iff (h : Leads again x sights y) :
    y = .kClosed ↔ x = .kClosed ∨ sights.any Sight.isClose = true := by
  induction h with
  | nil x => simp
  | stored h hrest ih =>
    rw [ih, List.any_cons, Bool.or_eq_true]
    cases h with
    | connected => simp [Sight.isClose]
    | closing h => simp [Sight.isClose, h]
    | closed h => simp [Sight.isClose]
  | writev h _ ih => simpa [Sight.isClose] using ih
  | shutdown h _ ih => simpa [Sight.isClose] using ih

/-- A connection that is never closed twice has one store of `kClosed` left while it is open. -/
lemma Leads.countP_le (h : Leads False x sights y) :
    (sights.countP Sight.isClose + if y = .kClosed then 0 else 1) ≤
      if x = .kClosed then 0 else 1 := by
  induction h with
  | nil x => simp
  | stored h _ ih =>
    cases h with
    | connected =>
      rw [List.countP_cons_of_neg (by decide)]
      exact ih
    | closing h =>
      rw [List.countP_cons_of_neg (by decide), if_neg h]
      exact ih
    | closed h =>
      rw [List.countP_cons_of_pos (by decide), if_neg (h.resolve_left id)]
      rw [if_pos rfl] at ih
      omega
  | writev h _ ih =>
    rw [List.countP_cons_of_neg (by simp [Sight.isClose])]
    exact ih
  | shutdown h _ ih =>
    rw [List.countP_cons_of_neg (by simp [Sight.isClose])]
    exact ih

end leads

/-- Whatever the loop thread does with a connection, the states that can be seen of it go forward
from `kConnecting` to the state in the end, and no system call is made once it is closed. -/
theorem lifecycle_forward (id : ℕ) (fd : ℤ) (config : Option LimitsOptions)
    (hasKeepAliveManager hasCloseCallback : Bool) (loop : EventLoop TimerCallback)
    (keepAlive : KeepAliveManager) (resources : StaticResourceManager) (kernel : ℕ → WriteOutcome)
    (events : List LoopEvent) :
    let s : Session :=
      { conn := { Connection.new id fd config hasKeepAliveManager with
          hasCloseCallback := hasCloseCallback }
        loop := loop, keepAlive := keepAlive, resources := resources, kernel := kernel
        trace := [] }
    let states := .kConnecting :: (s.liveSights events).map Sight.state
    (∀ x ∈ states, x ∈ [ConnState.kConnecting, .kConnected, .kClosing, .kClosed]) ∧
      states.Pairwise (fun x y => x.rank ≤ y.rank) ∧
      states.IsChain (fun x y =>
        (x = .kClosed → y = .kClosed) ∧ (x = .kClosing → y = .kClosing ∨ y = .kClosed)) ∧
      states.getLast (List.cons_ne_nil _ _) = (s.live events).conn.state ∧
      ∀ sight ∈ s.liveSights events, sight.state = .kClosed → sight.isStored = true := by
  intro s states
  have hleads : Leads True .kConnecting (s.liveSights events) (s.live events).conn.state :=
    (reveals_live (s := s) rfl events).leads
  have hchain : states.IsChain fun x y => x = y ∨ x.Enters True y := hleads.isChain
  have hrank : states.IsChain fun x y => x.rank ≤ y.rank :=
    hchain.imp fun _ _ h => rank_le_of_enters h
  have htrans : IsTrans ConnState fun x y => x.rank ≤ y.rank := ⟨fun _ _ _ => Nat.le_trans⟩
  refine ⟨hleads.mem_lifecycle (List.mem_cons_self ..), List.isChain_iff_pairwise.mp hrank,
    hchain.imp fun _ _ h => stays_of_enters h, hleads.getLast, hleads.isStored⟩

/-- A write that fails closes the connection, and the shutdown that follows finds it closed. -/
example : (Session.new (.new 0 5 none false) fun _ => .failed).liveSights
    [.operate (.send [71]), .operate .shutdown] =
      [.stored .kConnected, .writev .kConnected, .stored .kClosed] := rfl

end Session

end TinyWebServer
