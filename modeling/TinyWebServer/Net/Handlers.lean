import TinyWebServer.Http.OnMessage
import TinyWebServer.Net.Reactor

/-!
# What the handlers of a connection consist of

Every handler is a sequence of a few acts. What each act keeps, every handler keeps.
-/

namespace TinyWebServer

namespace Session

/-- The acts of a handler. `sets` tells which timeouts may be set; `late` allows that interest is
registered for a closed connection. -/
inductive Act (sets : ℤ → TimeoutType → Prop) (late : Prop) (s : Session) : Session → Prop where
  | activity (hopen : s.conn.state ≠ .kClosed) : Act sets late s s.updateActivityTimestamp
  | setTimeout (seconds : ℤ) (timeoutType : TimeoutType) (h : sets seconds timeoutType) :
      Act sets late s (s.setTimeout seconds timeoutType)
  | disable : Act sets late s s.disableAllTimeouts
  | enter (newState : ConnState) (hopen : s.conn.state ≠ .kClosed)
      (hnew : newState = .kConnected ∨ newState = .kClosing) :
      Act sets late s (s.enterState newState)
  | close : Act sets late s s.handleClose
  | expire (timeoutType : TimeoutType) : Act sets late s (s.onTimeout timeoutType)
  | callbacks : Act sets late s
      { s with loop := (s.loop.setReadCallback s.conn.fd).setWriteCallback s.conn.fd }
  | interest (events : UInt32) (hopen : late ∨ s.conn.state ≠ .kClosed) :
      Act sets late s (s.updateEvent events)
  | note (event : Event) (h : ∀ fd, event ≠ .closed fd) : Act sets late s (s.note event)
  | buffers (inputBuffer : Bytes) (httpParser : HttpRequest) (outputBuffer : BufferChain) :
      Act sets late s { s with conn := { s.conn with
        inputBuffer := inputBuffer, httpParser := httpParser, outputBuffer := outputBuffer } }
  | shared (keepAlive : KeepAliveManager) (resources : StaticResourceManager)
      (kernel : ℕ → WriteOutcome) :
      Act sets late s { s with keepAlive := keepAlive, resources := resources, kernel := kernel }

/-- A sequence of acts. -/
def Acts (sets : ℤ → TimeoutType → Prop) (late : Prop) : Session → Session → Prop :=
  Relation.ReflTransGen (Act sets late)

variable {sets : ℤ → TimeoutType → Prop} {late : Prop}

lemma Act.acts {s t : Session} (h : Act sets late s t) : Acts sets late s t :=
  Relation.ReflTransGen.single h

lemma Acts.refl (s : Session) : Acts sets late s s := Relation.ReflTransGen.refl

lemma Acts.trans {s t u : Session} (h : Acts sets late s t) (h' : Acts sets late t u) :
    Acts sets late s u := Relation.ReflTransGen.trans h h'

lemma Act.mono {sets' : ℤ → TimeoutType → Prop}
    (hsets : ∀ seconds timeoutType, sets seconds timeoutType → sets' seconds timeoutType)
    {s t : Session} (h : Act sets late s t) : Act sets' late s t := by
  cases h with
  | activity hopen => exact .activity hopen
  | setTimeout seconds timeoutType h => exact .setTimeout seconds timeoutType (hsets _ _ h)
  | disable => exact .disable
  | enter newState hopen hnew => exact .enter newState hopen hnew
  | close => exact .close
  | expire timeoutType => exact .expire timeoutType
  | callbacks => exact .callbacks
  | interest events hopen => exact .interest events hopen
  | note event h => exact .note event h
  | buffers inputBuffer httpParser outputBuffer =>
    exact .buffers inputBuffer httpParser outputBuffer
  | shared keepAlive resources kernel => exact .shared keepAlive resources kernel

/-- What every act keeps. -/
lemma Acts.induction {P : Session → Prop} (hact : ∀ s t, Act sets late s t → P s → P t)
    {s t : Session} (h : Acts sets late s t) (hs : P s) : P t := by
  induction h with
  | refl => exact hs
  | tail _ hlast ih => exact hact _ _ hlast ih

/-! ### Output -/

lemma acts_shutdownInLoop (s : Session) : Acts sets late s s.shutdownInLoop := by
  rw [shutdownInLoop]
  split_ifs
  · exact (Act.note (.shutdown _) (by simp)).acts
  · exact Acts.refl s

lemma acts_interest {s : Session} (h : s.conn.state ≠ .kClosed) (events : UInt32) :
    Acts sets late s (s.updateEvent events) := (Act.interest events (.inr h)).acts

lemma acts_afterWrite {s : Session} (h : s.conn.state ≠ .kClosed) (n : ℕ) :
    Acts sets late s (s.afterWrite n) := by
  have hadvance : Acts sets late s
      { s with conn := { s.conn with outputBuffer := s.conn.outputBuffer.advance n } } :=
    (Act.buffers s.conn.inputBuffer s.conn.httpParser _).acts
  have hactivity := hadvance.trans (Act.activity (s := { s with
    conn := { s.conn with outputBuffer := s.conn.outputBuffer.advance n } }) h).acts
  have hstate := (timersOnly_updateActivityTimestamp
    { s with conn := { s.conn with outputBuffer := s.conn.outputBuffer.advance n } }).queues.state
  have hopen := fun hclosed => h (hstate.symm.trans hclosed)
  rw [afterWrite]
  dsimp only
  split_ifs
  · exact (hactivity.trans (acts_interest hopen _)).trans (acts_shutdownInLoop _)
  · exact hactivity.trans (acts_interest hopen _)
  · exact hactivity.trans (acts_interest hopen _)

lemma acts_nextAnswer (s : Session) : Acts sets late s s.nextAnswer :=
  (Act.shared s.keepAlive s.resources _).acts

lemma acts_handleWrite (s : Session) : Acts sets late s s.handleWrite := by
  have hnext : Acts sets late s s.nextAnswer := acts_nextAnswer s
  rcases handleWrite_cases s with ⟨-, heq⟩ | ⟨hopen, -, ⟨n, -, heq⟩ | ⟨-, heq⟩ | ⟨-, heq⟩⟩
  · rw [heq]
    exact Acts.refl s
  · rw [heq]
    exact (hnext.trans (Act.note (.written _) (by simp)).acts).trans (acts_afterWrite
      (s := s.nextAnswer.note _) hopen _)
  · rw [heq]
    exact hnext.trans (acts_interest (s := s.nextAnswer) hopen _)
  · rw [heq]
    exact hnext.trans Act.close.acts

lemma acts_appendInLoop (s : Session) (data : NodeData) :
    Acts sets late s (s.appendInLoop data) := by
  rw [appendInLoop]
  split_ifs
  · exact Acts.refl s
  · exact Act.close.acts
  · have happend : Acts sets late s
        { s with conn := { s.conn with outputBuffer := s.conn.outputBuffer.append data } } :=
      (Act.buffers s.conn.inputBuffer s.conn.httpParser _).acts
    exact (happend.trans (Act.note (.queued _) (by simp)).acts).trans (acts_handleWrite _)

lemma acts_send (s : Session) (data : Bytes) : Acts sets late s (s.send data) := by
  rw [send]
  split_ifs
  · exact acts_appendInLoop s _
  · exact Acts.refl s

lemma acts_sendResource (s : Session) (resource : StaticResource) :
    Acts sets late s (s.sendResource resource) := by
  rw [sendResource]
  split_ifs
  · exact acts_appendInLoop s _
  · exact Acts.refl s

lemma acts_shutdown (s : Session) : Acts sets late s s.shutdown := by
  by_cases hconn : s.conn.isConnected
  · rw [shutdown_eq hconn]
    exact (Act.enter .kClosing hconn.1 (.inr rfl)).acts.trans (acts_shutdownInLoop _)
  · rw [shutdown_of_not_isConnected hconn]
    exact Acts.refl s

/-! ### The public functions -/

lemma isConnected_disableAllTimeouts {s : Session} (h : s.conn.isConnected) :
    s.disableAllTimeouts.conn.isConnected := by
  rwa [Connection.isConnected, state_disableAllTimeouts]

/-- The ways in which `Close` can go: it does nothing, or switches the timeouts off and closes at
once or when all is sent. -/
lemma close_cases (s : Session) (reason : Error) (sysErrno : ℤ) :
    s.close reason sysErrno = s ∨
      s.close reason sysErrno = s.disableAllTimeouts.handleClose ∨
      (s.conn.isConnected ∧ s.close reason sysErrno = s.disableAllTimeouts.shutdown) := by
  by_cases hconn : s.conn.isConnected
  · have hdisabled := isConnected_disableAllTimeouts hconn
    have hshutdown : s.disableAllTimeouts.shutdown =
        (s.disableAllTimeouts.transition .kClosing).shutdownInLoop := if_pos hdisabled
    rw [close, if_neg (not_not.mpr hconn), closeInLoop, if_neg (not_or.mpr ⟨hconn.1, hconn.2.1⟩),
      hshutdown]
    dsimp only
    split_ifs
    · exact .inr (.inl rfl)
    · exact .inr (.inl rfl)
    · exact .inr (.inr ⟨hconn, rfl⟩)
  · rw [close, if_pos hconn]
    exact .inl rfl

lemma acts_closeInLoop (s : Session) (reason : Error) (sysErrno : ℤ) :
    Acts sets late s (s.closeInLoop reason sysErrno) := by
  have hdisable : Acts sets late s s.disableAllTimeouts := Act.disable.acts
  rw [closeInLoop]
  by_cases hopen : s.conn.state = .kClosed ∨ s.conn.state = .kClosing
  · rw [if_pos hopen]
    exact Acts.refl s
  rw [if_neg hopen]
  rw [not_or, ← state_disableAllTimeouts s] at hopen
  have hcan : s.disableAllTimeouts.conn.canTransition .kClosing = true := by
    rw [Connection.canTransition, if_neg hopen.2, if_neg hopen.1, if_pos rfl]
  have henter : Acts sets late s.disableAllTimeouts (s.disableAllTimeouts.transition .kClosing) := by
    rw [transition, if_neg (not_not.mpr hcan)]
    exact (Act.enter .kClosing hopen.1 (.inr rfl)).acts
  dsimp only
  split_ifs
  · exact hdisable.trans Act.close.acts
  · exact hdisable.trans Act.close.acts
  · exact (hdisable.trans henter).trans (acts_shutdownInLoop _)

lemma acts_close (s : Session) (reason : Error) (sysErrno : ℤ) :
    Acts sets late s (s.close reason sysErrno) := by
  by_cases hconn : s.conn.isConnected
  · rw [close, if_neg (not_not.mpr hconn)]
    exact acts_closeInLoop s reason sysErrno
  · rw [close, if_pos hconn]
    exact Acts.refl s

/-- What a public function needs to be a sequence of acts. -/
def Allows (sets : ℤ → TimeoutType → Prop) (late : Prop) (s : Session) : ConnOp → Prop
  | .setReadTimeout seconds => sets seconds .read
  | .setWriteTimeout seconds => sets seconds .write
  | .setIdleTimeout seconds => sets seconds .idle
  | .resetIdleTimeout => s.conn.state ≠ .kClosed
  | .clearReadBuffer => late ∨ s.conn.state ≠ .kClosed
  | _ => True

lemma acts_operate {s : Session} {op : ConnOp} (h : Allows sets late s op) :
    Acts sets late s (s.operate op) := by
  cases op with
  | send data => exact acts_send s data
  | sendResource resource => exact acts_sendResource s resource
  | shutdown => exact acts_shutdown s
  | close reason sysErrno => exact acts_close s reason sysErrno
  | setReadTimeout seconds => exact (Act.setTimeout seconds .read h).acts
  | setWriteTimeout seconds => exact (Act.setTimeout seconds .write h).acts
  | setIdleTimeout seconds => exact (Act.setTimeout seconds .idle h).acts
  | resetIdleTimeout =>
    have hstate := (timersOnly_updateActivityTimestamp s).state_eq
    have hopen : s.updateActivityTimestamp.conn.state ≠ .kClosed := by
      rw [hstate]
      exact h
    exact (Act.activity h).acts.trans (Act.activity hopen).acts
  | disableAllTimeouts => exact Act.disable.acts
  | clearReadBuffer =>
    have hclear : Acts sets late s { s with conn := { s.conn with inputBuffer := [] } } :=
      (Act.buffers [] s.conn.httpParser s.conn.outputBuffer).acts
    exact hclear.trans (Act.interest
      (s := { s with conn := { s.conn with inputBuffer := [] } }) _ h).acts
  | onRequestStart keepAlive idleTimeout =>
    rw [operate, onRequestStart]
    split_ifs
    · exact (Act.shared _ s.resources s.kernel).acts
    · exact Acts.refl s
  | onRequestComplete =>
    rw [operate, onRequestComplete]
    split_ifs
    · exact (Act.shared _ s.resources s.kernel).acts
    · exact Acts.refl s
  | setInput inputBuffer httpParser =>
    exact (Act.buffers inputBuffer httpParser s.conn.outputBuffer).acts

/-- The public functions that change the state are for connected connections only. -/
lemma state_operate_of_not_isConnected {s : Session} (h : ¬ s.conn.isConnected) (op : ConnOp) :
    (s.operate op).conn.state = s.conn.state := by
  cases op with
  | send data => rw [operate, send_of_not_isConnected h]
  | sendResource resource => rw [operate, sendResource_of_not_isConnected h]
  | shutdown => rw [operate, shutdown_of_not_isConnected h]
  | close reason sysErrno => rw [operate, close, if_pos h]
  | setReadTimeout seconds => exact state_setTimeout s seconds .read
  | setWriteTimeout seconds => exact state_setTimeout s seconds .write
  | setIdleTimeout seconds => exact state_setTimeout s seconds .idle
  | resetIdleTimeout => exact (timersOnly_resetIdleTimeout s).state_eq
  | disableAllTimeouts => exact state_disableAllTimeouts s
  | clearReadBuffer => rfl
  | onRequestStart keepAlive idleTimeout =>
    rw [operate, onRequestStart]
    split_ifs <;> rfl
  | onRequestComplete =>
    rw [operate, onRequestComplete]
    split_ifs <;> rfl
  | setInput inputBuffer httpParser => rfl

lemma acts_connectEstablished {s : Session} (h : s.conn.state = .kConnecting) :
    Acts sets late s s.connectEstablished := by
  have hopen : s.conn.state ≠ .kClosed := by simp [h]
  have hcan : s.conn.canTransition .kConnected = true := by
    rw [Connection.canTransition, h]
    decide
  have henter : Acts sets late s (s.enterState .kConnected) :=
    (Act.enter .kConnected hopen (.inl rfl)).acts
  have hstate : (s.enterState .kConnected).conn.state = .kConnected := by
    obtain ⟨wheel, read, write, idle, heq⟩ := enterState_eq s .kConnected
    rw [heq]
    rfl
  rw [connectEstablished, transition, if_neg (by simp [hcan])]
  refine (henter.trans Act.callbacks.acts).trans (acts_interest ?_ _)
  change (s.enterState .kConnected).conn.state ≠ .kClosed
  rw [hstate]
  simp

/-- A connection that is closed before it is established is registered all the same. -/
lemma connectEstablished_of_closed {s : Session} (h : s.conn.state = .kClosed) :
    s.connectEstablished =
      ({ s with loop := (s.loop.setReadCallback s.conn.fd).setWriteCallback s.conn.fd } :
        Session).updateEvent (Epoll.EPOLLIN ||| Epoll.EPOLLET) := by
  have hcan : s.conn.canTransition .kConnected = false := by
    rw [Connection.canTransition, h]
    decide
  have hstays : s.transition .kConnected = s := by
    rw [transition, if_pos (by simp [hcan]), if_neg (by simp [h])]
  rw [connectEstablished, hstays]

lemma acts_connectEstablished_of_closed {s : Session} (h : s.conn.state = .kClosed) (hlate : late) :
    Acts sets late s s.connectEstablished := by
  rw [connectEstablished_of_closed h]
  exact Act.callbacks.acts.trans (Act.interest _ (.inl hlate)).acts

/-! ### The message callback -/

variable (env : ServerEnv)

lemma acts_noteAll (s : Session) (events : List Event)
    (h : ∀ event ∈ events, ∀ fd, event ≠ .closed fd) : Acts sets late s (s.noteAll events) := by
  induction events generalizing s with
  | nil =>
    rw [noteAll, List.append_nil]
    exact Acts.refl s
  | cons event events ih =>
    rw [List.forall_mem_cons] at h
    have hall : s.noteAll (event :: events) = (s.note event).noteAll events := by
      simp [noteAll, note]
    rw [hall]
    exact (Act.note event h.1).acts.trans (ih _ h.2)

lemma acts_sendResponse (s : Session) (response : HttpResponse) :
    Acts sets late s (s.sendResponse response) := by
  rw [sendResponse]
  cases response.fileBody with
  | some resource => exact (acts_send s _).trans (acts_sendResource _ resource)
  | none => exact (acts_send s _).trans (acts_send _ _)

lemma acts_setInput (s : Session) (inputBuffer : Bytes) (httpParser : HttpRequest) :
    Acts sets late s (s.setInput inputBuffer httpParser) :=
  (Act.buffers inputBuffer httpParser s.conn.outputBuffer).acts

lemma acts_accepting (s : Session) (request : HttpRequest) :
    Acts sets late s (s.accepting env request) := by
  have hstart : Acts sets late s ((s.setInput s.conn.inputBuffer request).onRequestStart
      request.isKeepAlive env.keepAliveTimeout) :=
    (acts_setInput s _ _).trans
      (acts_operate (show Allows sets late _ (.onRequestStart _ _) from trivial))
  exact hstart.trans (Act.note (.request request) (by simp)).acts

lemma acts_handleRequest (s : Session) (headerEnd : ℕ) (request : HttpRequest) :
    Acts sets late s (s.handleRequest env headerEnd request).1 := by
  have haccept : Acts sets late s (s.accepting env request) := acts_accepting env s request
  have hpaths : ∀ accessed : List Bytes, ∀ event ∈ accessed.map Event.access,
      ∀ fd, event ≠ .closed fd := by simp
  rcases handleRequest_cases env s headerEnd request with
    ⟨accessed, -, heq⟩ | ⟨response, resources, accessed, -, heq⟩
  · rw [heq]
    exact haccept.trans (acts_noteAll _ _ (hpaths accessed))
  · have hready : Acts sets late s (s.responding env request response resources accessed) :=
      ((haccept.trans (Act.shared _ resources _).acts).trans
        (acts_noteAll _ _ (hpaths accessed))).trans (Act.note (.response response) (by simp)).acts
    have hsent := (hready.trans (acts_sendResponse _ response)).trans
      (acts_setInput _ (s.conn.inputBuffer.drop (headerEnd + 4)) .reset)
    rcases heq with heq | heq
    · rw [heq]
      exact hsent.trans (acts_shutdown _)
    · rw [heq]
      exact hsent

lemma acts_messageTurn (s : Session) : Acts sets late s (s.messageTurn env).1 := by
  simp only [messageTurn]
  cases Bytes.find headEnd s.conn.inputBuffer with
  | none => exact Acts.refl s
  | some headerEnd =>
    have hnote : Acts sets late s (s.note (.parse s.conn.inputBuffer)) :=
      (Act.note (.parse _) (by simp)).acts
    dsimp only
    split_ifs
    · exact hnote.trans (acts_handleRequest env _ headerEnd _)
    · exact (hnote.trans (acts_setInput _ [] _)).trans (acts_shutdown _)

lemma acts_onMessage (s : Session) : Acts sets late s (s.onMessage env) :=
  onMessage_induction env (P := fun s t => Acts sets late s t) (fun s _ => acts_messageTurn env s)
    (fun s _ _ ih => (acts_messageTurn env s).trans ih) s

/-! ### Reading -/

lemma acts_readAll {s : Session} (h : s.conn.state ≠ .kClosed) (reads : List ReadResult) :
    Acts sets late s (s.readAll reads) := by
  induction reads generalizing s with
  | nil => exact Acts.refl s
  | cons read reads ih =>
    cases read with
    | data data =>
      let appended : Session :=
        { s with conn := { s.conn with inputBuffer := s.conn.inputBuffer ++ data } }
      have happend : Acts sets late s appended :=
        (Act.buffers _ s.conn.httpParser s.conn.outputBuffer).acts
      have hstate : appended.updateActivityTimestamp.conn.state = s.conn.state :=
        (timersOnly_updateActivityTimestamp appended).state_eq
      have hopen : appended.updateActivityTimestamp.conn.state ≠ .kClosed := by rwa [hstate]
      exact (happend.trans (Act.activity (s := appended) h).acts).trans (ih hopen)
    | eof => exact Act.close.acts
    | again => exact Acts.refl s
    | failed => exact Act.close.acts

/-- Only interest that is registered for a closed connection makes a read event different. -/
lemma acts_handleRead {s : Session} (h : s.conn.state ≠ .kClosed) (reads : List ReadResult)
    (hlate : (s.readAll reads).conn.checkInputBufferLimit = true →
      late ∨ (s.readAll reads).conn.state ≠ .kClosed) :
    Acts sets late s (s.handleRead (some (onMessage env)) reads) := by
  have hread : Acts sets late s (s.readAll reads) := acts_readAll h reads
  have hpaused : Acts sets late s (if (s.readAll reads).conn.checkInputBufferLimit then
      (s.readAll reads).pauseReading else s.readAll reads) := by
    split_ifs with hfull
    · exact hread.trans (Act.interest _ (hlate hfull)).acts
    · exact hread
  rw [handleRead]
  split_ifs at hpaused ⊢
  · exact hpaused
  · exact hpaused.trans (acts_onMessage env _)
  · exact hpaused
  · exact hpaused.trans (acts_onMessage env _)

/-! ### What the server sees of a handler -/

/-- The connection keeps its names. The loop has it registered unless it has been closed, the server
is told if it has been closed, and other descriptors see nothing of it. -/
structure Serves (s t : Session) : Prop where
  id : t.conn.id = s.conn.id
  fd : t.conn.fd = s.conn.fd
  hasCloseCallback : t.conn.hasCloseCallback = s.conn.hasCloseCallback
  others : ∀ fd, fd ≠ s.conn.fd → t.loop.registeredFds fd = s.loop.registeredFds fd
  stays : s.conn.state = .kClosed → t.conn.state = .kClosed
  registered : s.loop.registeredFds s.conn.fd ≠ none → t.conn.state ≠ .kClosed →
    t.loop.registeredFds s.conn.fd ≠ none
  trace : ∃ events, t.trace = s.trace ++ events ∧
    (∀ fd, .closed fd ∈ events → fd = s.conn.fd) ∧
    (s.conn.hasCloseCallback = true → s.conn.state ≠ .kClosed →
      (.closed s.conn.fd ∈ events ↔ t.conn.state = .kClosed))

lemma Serves.of_quiet {s t : Session} (hid : t.conn.id = s.conn.id) (hfd : t.conn.fd = s.conn.fd)
    (hcallback : t.conn.hasCloseCallback = s.conn.hasCloseCallback)
    (hregistered : t.loop.registeredFds = s.loop.registeredFds)
    (hstate : t.conn.state = s.conn.state ∨ (s.conn.state ≠ .kClosed ∧ t.conn.state ≠ .kClosed))
    {events : List Event} (htrace : t.trace = s.trace ++ events)
    (hevents : ∀ fd, .closed fd ∉ events) : Serves s t where
  id := hid
  fd := hfd
  hasCloseCallback := hcallback
  others := fun fd _ => congrFun hregistered fd
  stays := by
    intro hclosed
    rcases hstate with hsame | ⟨hopen, -⟩
    · exact hsame.trans hclosed
    · exact absurd hclosed hopen
  registered := by
    intro h _
    rwa [hregistered]
  trace := by
    refine ⟨events, htrace, fun fd hmem => absurd hmem (hevents fd), fun _ hopen => ?_⟩
    have hstill : t.conn.state ≠ .kClosed := by
      rcases hstate with hsame | ⟨-, hstill⟩
      · rwa [hsame]
      · exact hstill
    simp [hevents, hstill]

lemma Serves.refl (s : Session) : Serves s s :=
  Serves.of_quiet rfl rfl rfl rfl (.inl rfl) (List.append_nil _).symm (by simp)

lemma Serves.trans {s t u : Session} (h : Serves s t) (h' : Serves t u) : Serves s u where
  id := h'.id.trans h.id
  fd := h'.fd.trans h.fd
  hasCloseCallback := h'.hasCloseCallback.trans h.hasCloseCallback
  others := by
    intro fd hne
    rw [h'.others fd (by rwa [h.fd]), h.others fd hne]
  stays := fun hclosed => h'.stays (h.stays hclosed)
  registered := by
    intro hregistered hopen
    have hmiddle := h.registered hregistered fun hclosed => hopen (h'.stays hclosed)
    rw [← h.fd] at hmiddle ⊢
    exact h'.registered hmiddle hopen
  trace := by
    obtain ⟨events, htrace, hown, hclosed⟩ := h.trace
    obtain ⟨events', htrace', hown', hclosed'⟩ := h'.trace
    refine ⟨events ++ events', by rw [htrace', htrace, List.append_assoc], ?_, ?_⟩
    · intro fd hmem
      rcases List.mem_append.mp hmem with hmem | hmem
      · exact hown fd hmem
      · exact (hown' fd hmem).trans h.fd
    · intro hcallback hopen
      rw [List.mem_append, hclosed hcallback hopen]
      by_cases hmiddle : t.conn.state = .kClosed
      · simp [hmiddle, h'.stays hmiddle]
      · rw [← h.fd, hclosed' (h.hasCloseCallback.trans hcallback) hmiddle]
        simp [hmiddle]

lemma TimersOnly.serves {s t : Session} (h : TimersOnly s t) : Serves s t := by
  obtain ⟨_, _, _, _, rfl⟩ := h
  exact Serves.of_quiet rfl rfl rfl rfl (.inl rfl) (List.append_nil _).symm (by simp)

/-- Interest may be registered in any state. -/
lemma serves_updateEvent (s : Session) (events : UInt32) : Serves s (s.updateEvent events) where
  id := rfl
  fd := rfl
  hasCloseCallback := rfl
  others := fun fd hne => Function.update_of_ne hne _ _
  stays := id
  registered := by
    intro _ _
    simp [updateEvent, EventLoop.updateEvent]
  trace := ⟨[], (List.append_nil _).symm, by simp, fun _ hopen => by simpa [updateEvent] using hopen⟩

lemma serves_handleClose (s : Session) : Serves s s.handleClose := by
  obtain ⟨wheel, read, write, idle, heq⟩ := handleClose_eq s
  rw [heq]
  constructor
  · rfl
  · rfl
  · rfl
  · exact fun fd hne => Function.update_of_ne hne _ _
  · exact fun _ => rfl
  · exact fun _ hopen => absurd rfl hopen
  · refine ⟨_, rfl, ?_, fun hcallback _ => by simp [closeEvents, hcallback]⟩
    intro fd hmem
    rw [closeEvents] at hmem
    split_ifs at hmem
    · simpa using hmem
    · cases hmem

lemma TimeoutsOnly.serves {s t : Session} (h : TimeoutsOnly s t) : Serves s t := by
  obtain ⟨read, write, idle, htimers⟩ := h
  have hseconds : Serves s (s.withSeconds read write idle) :=
    Serves.of_quiet rfl rfl rfl rfl (.inl rfl) (List.append_nil _).symm (by simp)
  exact hseconds.trans htimers.serves

lemma serves_setTimeoutActive (s : Session) (active : Bool) (timeoutType : TimeoutType) :
    Serves s { s with conn := s.conn.setTimeoutActive active timeoutType } := by
  cases timeoutType <;>
    exact Serves.of_quiet rfl rfl rfl rfl (.inl rfl) (List.append_nil _).symm (by simp)

/-- Each of the kinds of timeout closes the connection. -/
lemma onTimeout_eq (s : Session) (timeoutType : TimeoutType) :
    s.onTimeout timeoutType = ({ s with
      conn := s.conn.setTimeoutActive false timeoutType } : Session).handleClose := by
  cases timeoutType <;> rfl

lemma state_onTimeout (s : Session) (timeoutType : TimeoutType) :
    (s.onTimeout timeoutType).conn.state = .kClosed := by
  rw [onTimeout_eq]
  exact state_handleClose _

lemma Act.serves {s t : Session} (h : Act sets late s t) : Serves s t := by
  cases h with
  | activity _ => exact (timersOnly_updateActivityTimestamp s).serves
  | setTimeout seconds timeoutType _ => exact (timeoutsOnly_setTimeout s seconds timeoutType).serves
  | disable => exact (timeoutsOnly_disableAllTimeouts s).serves
  | enter newState hopen hnew =>
    obtain ⟨wheel, read, write, idle, heq⟩ := enterState_eq s newState
    rw [heq]
    refine Serves.of_quiet rfl rfl rfl rfl (.inr ⟨hopen, ?_⟩) (List.append_nil _).symm (by simp)
    change newState ≠ .kClosed
    rcases hnew with rfl | rfl <;> simp
  | close => exact serves_handleClose s
  | expire timeoutType =>
    rw [onTimeout_eq]
    exact (serves_setTimeoutActive s false timeoutType).trans (serves_handleClose _)
  | callbacks =>
    exact Serves.of_quiet rfl rfl rfl rfl (.inl rfl) (List.append_nil _).symm (by simp)
  | interest events _ => exact serves_updateEvent s events
  | note event h =>
    exact Serves.of_quiet rfl rfl rfl rfl (.inl rfl) rfl fun fd hmem =>
      h fd (List.mem_singleton.mp hmem).symm
  | buffers =>
    exact Serves.of_quiet rfl rfl rfl rfl (.inl rfl) (List.append_nil _).symm (by simp)
  | shared =>
    exact Serves.of_quiet rfl rfl rfl rfl (.inl rfl) (List.append_nil _).symm (by simp)

lemma Acts.serves {s t : Session} (h : Acts sets late s t) : Serves s t := by
  induction h with
  | refl => exact Serves.refl s
  | tail _ hlast ih => exact ih.trans hlast.serves

/-- The timer operations are all that the wheel sees of an act. -/
lemma Act.governed {fd : ℤ} {id : ℕ} {Q : TimerWheel TimerCallback → Prop}
    (hQ : KeptByTimers fd id Q) {s t : Session} (h : Act sets late s t) (hs : Governed fd id Q s) :
    Governed fd id Q t := by
  cases h with
  | activity _ => exact governed_updateActivityTimestamp hQ hs
  | setTimeout seconds timeoutType _ => exact governed_setTimeout hQ hs seconds timeoutType
  | disable => exact governed_disableAllTimeouts hQ hs
  | enter newState _ _ => exact governed_enterState hQ hs newState
  | close => exact governed_handleClose hQ hs
  | expire timeoutType => exact governed_onTimeout hQ hs timeoutType
  | interest events _ => exact governed_updateEvent hs events
  | note event _ => exact governed_note hs event
  | _ => exact ⟨hs.fd_eq, hs.id_eq, hs.wheel⟩

lemma Acts.governed {fd : ℤ} {id : ℕ} {Q : TimerWheel TimerCallback → Prop}
    (hQ : KeptByTimers fd id Q) {s t : Session} (h : Acts sets late s t)
    (hs : Governed fd id Q s) : Governed fd id Q t :=
  h.induction (fun _ _ hact hs => hact.governed hQ hs) hs

end Session

end TinyWebServer
