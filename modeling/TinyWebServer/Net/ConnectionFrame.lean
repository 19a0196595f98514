import TinyWebServer.Net.Connection

/-!
# What the operations of a connection leave alone

The timeout functions touch nothing but the timers. The output functions touch neither the input
side nor the cache, and a closed connection stays closed.
-/

namespace TinyWebServer

/-- The events that the output functions add to the trace. -/
def Event.isOutput : Event → Prop
  | .queued _ | .written _ | .shutdown _ | .closed _ => True
  | _ => False

namespace Session

/-! ### Timers -/

/-- The session with another wheel and other flags of active timeouts. -/
def withTimers (s : Session) (wheel : TimerWheel TimerCallback) (read write idle : Bool) :
    Session :=
  { s with
    loop := { s.loop with timerWheel := wheel }
    conn := { s.conn with
      readTimeoutActive := read, writeTimeoutActive := write, idleTimeoutActive := idle } }

/-- The two sessions differ in their timers only. -/
def TimersOnly (s t : Session) : Prop := ∃ wheel read write idle, t = s.withTimers wheel read write idle

lemma TimersOnly.refl (s : Session) : TimersOnly s s := ⟨_, _, _, _, rfl⟩

lemma TimersOnly.trans {s t u : Session} (h : TimersOnly s t) (h' : TimersOnly t u) :
    TimersOnly s u := by
  obtain ⟨_, _, _, _, rfl⟩ := h
  obtain ⟨wheel, read, write, idle, rfl⟩ := h'
  exact ⟨wheel, read, write, idle, rfl⟩

/-- A wheel operation and the flag that follows it. -/
lemma timersOnly_setTimeoutActive (s : Session) (wheel : TimerWheel TimerCallback)
    (p : Prop) [Decidable p] (active : Bool) (timeoutType : TimeoutType) :
    TimersOnly s
      (let s := { s with loop := { s.loop with timerWheel := wheel } }
       if p then s else { s with conn := s.conn.setTimeoutActive active timeoutType }) := by
  by_cases hp : p
  · rw [if_pos hp]
    exact ⟨_, _, _, _, rfl⟩
  · rw [if_neg hp]
    cases timeoutType <;> exact ⟨_, _, _, _, rfl⟩

lemma timersOnly_setupTimeout (s : Session) (seconds : ℤ) (timeoutType : TimeoutType) :
    TimersOnly s (s.setupTimeout seconds timeoutType) := by
  rw [setupTimeout]
  by_cases hseconds : seconds ≤ 0
  · rw [if_pos hseconds]
    exact TimersOnly.refl s
  · rw [if_neg hseconds]
    exact timersOnly_setTimeoutActive s _ _ true timeoutType

lemma timersOnly_cancelTimeout (s : Session) (timeoutType : TimeoutType) :
    TimersOnly s (s.cancelTimeout timeoutType) :=
  timersOnly_setTimeoutActive s _ _ false timeoutType

lemma timersOnly_setupOrCancel (p : Prop) [Decidable p] (s : Session) (seconds : ℤ)
    (timeoutType : TimeoutType) :
    TimersOnly s
      (if p then s.setupTimeout seconds timeoutType else s.cancelTimeout timeoutType) := by
  split_ifs
  · exact timersOnly_setupTimeout s seconds timeoutType
  · exact timersOnly_cancelTimeout s timeoutType

lemma timersOnly_checkAndSetTimeouts (s : Session) : TimersOnly s s.checkAndSetTimeouts :=
  ((timersOnly_setupOrCancel _ s _ .read).trans (timersOnly_setupOrCancel _ _ _ .write)).trans
    (timersOnly_setupOrCancel _ _ _ .idle)

lemma timersOnly_updateActivityTimestamp (s : Session) :
    TimersOnly s s.updateActivityTimestamp := by
  rw [updateActivityTimestamp]
  split_ifs
  · exact timersOnly_setupTimeout s _ .idle
  · exact TimersOnly.refl s

/-- The session with other seconds for its timeouts. -/
def withSeconds (s : Session) (read write idle : ℤ) : Session :=
  { s with conn := { s.conn with
    readTimeoutSeconds := read, writeTimeoutSeconds := write, idleTimeoutSeconds := idle } }

/-- The two sessions differ in their timers and in the seconds of their timeouts only. -/
def TimeoutsOnly (s t : Session) : Prop :=
  ∃ read write idle, TimersOnly (s.withSeconds read write idle) t

lemma timeoutsOnly_setTimeout (s : Session) (seconds : ℤ) (timeoutType : TimeoutType) :
    TimeoutsOnly s (s.setTimeout seconds timeoutType) := by
  have hseconds : ∀ seconds, ∃ read write idle,
      s.withSeconds read write idle =
        { s with conn := s.conn.setTimeoutSeconds seconds timeoutType } := by
    intro seconds
    cases timeoutType <;> exact ⟨_, _, _, rfl⟩
  rw [setTimeout]
  split_ifs
  · obtain ⟨read, write, idle, heq⟩ := hseconds 0
    exact ⟨read, write, idle, heq ▸ timersOnly_cancelTimeout _ timeoutType⟩
  · obtain ⟨read, write, idle, heq⟩ := hseconds seconds
    exact ⟨read, write, idle, heq ▸ timersOnly_checkAndSetTimeouts _⟩

lemma timeoutsOnly_disableAllTimeouts (s : Session) : TimeoutsOnly s s.disableAllTimeouts :=
  ⟨0, 0, 0, ((timersOnly_cancelTimeout _ .read).trans (timersOnly_cancelTimeout _ .write)).trans
    (timersOnly_cancelTimeout _ .idle)⟩

lemma enterState_eq (s : Session) (newState : ConnState) :
    ∃ wheel read write idle, s.enterState newState =
      ({ s with conn := { s.conn with state := newState } } : Session).withTimers
        wheel read write idle :=
  timersOnly_checkAndSetTimeouts _

lemma enterState_open (s : Session) {newState : ConnState}
    (hnew : newState = .kConnected ∨ newState = .kClosing) :
    (s.enterState newState).conn.state ≠ .kClosed := by
  obtain ⟨wheel, read, write, idle, heq⟩ := enterState_eq s newState
  rw [heq]
  change newState ≠ .kClosed
  rcases hnew with rfl | rfl <;> exact ConnState.noConfusion

/-! ### Closing -/

/-- The events of a close. -/
def closeEvents (c : Connection) : List Event :=
  if c.hasCloseCallback then [.closed c.fd] else []

/-- The keep-alive manager behind a close. -/
def closeKeepAlive (s : Session) : KeepAliveManager :=
  if s.conn.hasKeepAliveManager then s.keepAlive.onConnectionClose s.conn.fd else s.keepAlive

lemma handleClose_eq (s : Session) :
    ∃ wheel read write idle, s.handleClose =
      { s with
        loop := { s.loop with timerWheel := wheel }.removeEvent s.conn.fd
        keepAlive := s.closeKeepAlive
        conn := { s.conn with
          state := .kClosed
          readTimeoutActive := read, writeTimeoutActive := write, idleTimeoutActive := idle }
        trace := s.trace ++ closeEvents s.conn } := by
  obtain ⟨wheel, read, write, idle, heq⟩ := enterState_eq s .kClosed
  refine ⟨wheel, read, write, idle, ?_⟩
  simp only [handleClose, heq, closeEvents, closeKeepAlive, withTimers]
  cases s.conn.hasKeepAliveManager with
  | false => cases s.conn.hasCloseCallback <;> simp [note]
  | true => cases s.conn.hasCloseCallback <;> simp [note]

/-! ### The input side -/

/-- What the output functions do to the rest of the session: nothing, but that they may close
the connection. -/
structure KeepsInput (s t : Session) : Prop where
  id : t.conn.id = s.conn.id
  fd : t.conn.fd = s.conn.fd
  config : t.conn.config = s.conn.config
  inputBuffer : t.conn.inputBuffer = s.conn.inputBuffer
  httpParser : t.conn.httpParser = s.conn.httpParser
  hasKeepAliveManager : t.conn.hasKeepAliveManager = s.conn.hasKeepAliveManager
  resources : t.resources = s.resources
  closed : s.conn.state = .kClosed → t.conn.state = .kClosed
  trace : ∃ events, t.trace = s.trace ++ events ∧ ∀ e ∈ events, e.isOutput

lemma KeepsInput.refl (s : Session) : KeepsInput s s :=
  ⟨rfl, rfl, rfl, rfl, rfl, rfl, rfl, fun h => h, [], by simp, by simp⟩

lemma KeepsInput.trans {s t u : Session} (h : KeepsInput s t) (h' : KeepsInput t u) :
    KeepsInput s u := by
  obtain ⟨events, htrace, hevents⟩ := h.trace
  obtain ⟨events', htrace', hevents'⟩ := h'.trace
  refine ⟨h'.id.trans h.id, h'.fd.trans h.fd, h'.config.trans h.config,
    h'.inputBuffer.trans h.inputBuffer, h'.httpParser.trans h.httpParser,
    h'.hasKeepAliveManager.trans h.hasKeepAliveManager, h'.resources.trans h.resources,
    fun hclosed => h'.closed (h.closed hclosed), events ++ events', ?_, ?_⟩
  · rw [htrace', htrace, List.append_assoc]
  · intro e he
    rcases List.mem_append.mp he with he | he
    · exact hevents e he
    · exact hevents' e he

/-- The trace only grows. -/
lemma KeepsInput.trace_extends {s t : Session} (h : KeepsInput s t) : s.trace <+: t.trace := by
  obtain ⟨events, htrace, -⟩ := h.trace
  rw [htrace]
  exact List.prefix_append ..

lemma TimersOnly.keepsInput {s t : Session} (h : TimersOnly s t) : KeepsInput s t := by
  obtain ⟨_, _, _, _, rfl⟩ := h
  exact ⟨rfl, rfl, rfl, rfl, rfl, rfl, rfl, fun h => h, [], (List.append_nil _).symm, by simp⟩

lemma keepsInput_note (s : Session) (event : Event) (h : event.isOutput) :
    KeepsInput s (s.note event) :=
  ⟨rfl, rfl, rfl, rfl, rfl, rfl, rfl, fun h => h, [event], rfl, by simpa using h⟩

lemma keepsInput_updateEvent (s : Session) (events : UInt32) :
    KeepsInput s (s.updateEvent events) :=
  ⟨rfl, rfl, rfl, rfl, rfl, rfl, rfl, fun h => h, [], (List.append_nil _).symm, by simp⟩

lemma keepsInput_handleClose (s : Session) : KeepsInput s s.handleClose := by
  obtain ⟨wheel, read, write, idle, heq⟩ := handleClose_eq s
  rw [heq]
  refine ⟨rfl, rfl, rfl, rfl, rfl, rfl, rfl, fun _ => rfl, closeEvents s.conn, rfl, ?_⟩
  rw [closeEvents]
  split_ifs
  · simp [Event.isOutput]
  · simp

lemma keepsInput_shutdownInLoop (s : Session) : KeepsInput s s.shutdownInLoop := by
  rw [shutdownInLoop]
  split_ifs
  · exact keepsInput_note s (.shutdown _) trivial
  · exact KeepsInput.refl s

lemma keepsInput_setOutputBuffer (s : Session) (outputBuffer : BufferChain) :
    KeepsInput s { s with conn := { s.conn with outputBuffer := outputBuffer } } :=
  ⟨rfl, rfl, rfl, rfl, rfl, rfl, rfl, fun h => h, [], (List.append_nil _).symm, by simp⟩

/-- The two ways in which a write that took some bytes ends. -/
lemma afterWrite_eq (s : Session) (n : ℕ) :
    ∃ t, TimersOnly
        { s with conn := { s.conn with outputBuffer := s.conn.outputBuffer.advance n } } t ∧
      s.afterWrite n =
        if (s.conn.outputBuffer.advance n).isEmpty then
          let t := t.updateEvent (Epoll.EPOLLIN ||| Epoll.EPOLLET)
          if s.conn.state = .kClosing then t.shutdownInLoop else t
        else t.updateEvent (Epoll.EPOLLIN ||| Epoll.EPOLLOUT ||| Epoll.EPOLLET) := by
  have htimers := timersOnly_updateActivityTimestamp
    { s with conn := { s.conn with outputBuffer := s.conn.outputBuffer.advance n } }
  refine ⟨_, htimers, ?_⟩
  obtain ⟨_, _, _, _, heq⟩ := htimers
  simp only [afterWrite, heq]
  rfl

lemma keepsInput_afterWrite (s : Session) (n : ℕ) : KeepsInput s (s.afterWrite n) := by
  obtain ⟨t, htimers, heq⟩ := afterWrite_eq s n
  have ht := (keepsInput_setOutputBuffer s _).trans htimers.keepsInput
  rw [heq]
  split_ifs
  · exact (ht.trans (keepsInput_updateEvent t _)).trans (keepsInput_shutdownInLoop _)
  · exact ht.trans (keepsInput_updateEvent t _)
  · exact ht.trans (keepsInput_updateEvent t _)

/-- The session when `writev` has given one more answer. -/
def nextAnswer (s : Session) : Session := { s with kernel := fun n => s.kernel (n + 1) }

/-- The ways in which `HandleWrite` can go. -/
lemma handleWrite_cases (s : Session) :
    ((s.conn.state = .kClosed ∨ s.conn.outputBuffer.getIov 16 = []) ∧ s.handleWrite = s) ∨
    (s.conn.state ≠ .kClosed ∧ s.conn.outputBuffer.getIov 16 ≠ [] ∧
      ((∃ n, s.kernel 0 = .accepted n ∧ s.handleWrite =
          (s.nextAnswer.note (.written
            ((s.conn.outputBuffer.getIov 16).flatten.take (n + 1)))).afterWrite
              ((s.conn.outputBuffer.getIov 16).flatten.take (n + 1)).length) ∨
        (s.kernel 0 = .again ∧ s.handleWrite =
          s.nextAnswer.updateEvent (Epoll.EPOLLIN ||| Epoll.EPOLLOUT ||| Epoll.EPOLLET)) ∨
        (s.kernel 0 = .failed ∧ s.handleWrite = s.nextAnswer.handleClose))) := by
  by_cases hclosed : s.conn.state = .kClosed
  · exact Or.inl ⟨Or.inl hclosed, by rw [handleWrite, if_pos hclosed]⟩
  by_cases hiov : s.conn.outputBuffer.getIov 16 = []
  · exact Or.inl ⟨Or.inr hiov, by rw [handleWrite, if_neg hclosed]; exact if_pos hiov⟩
  refine Or.inr ⟨hclosed, hiov, ?_⟩
  rw [handleWrite, if_neg hclosed]
  simp only [if_neg hiov]
  cases houtcome : s.kernel 0 with
  | accepted n => exact Or.inl ⟨n, rfl, rfl⟩
  | again => exact Or.inr (Or.inl ⟨rfl, rfl⟩)
  | failed => exact Or.inr (Or.inr ⟨rfl, rfl⟩)

lemma keepsInput_nextAnswer (s : Session) : KeepsInput s s.nextAnswer :=
  ⟨rfl, rfl, rfl, rfl, rfl, rfl, rfl, fun h => h, [], (List.append_nil _).symm, by simp⟩

lemma keepsInput_handleWrite (s : Session) : KeepsInput s s.handleWrite := by
  rcases handleWrite_cases s with ⟨-, heq⟩ | ⟨-, -, ⟨n, -, heq⟩ | ⟨-, heq⟩ | ⟨-, heq⟩⟩
  · rw [heq]
    exact KeepsInput.refl s
  · rw [heq]
    exact ((keepsInput_nextAnswer s).trans (keepsInput_note _ (.written _) trivial)).trans
      (keepsInput_afterWrite _ _)
  · rw [heq]
    exact (keepsInput_nextAnswer s).trans (keepsInput_updateEvent _ _)
  · rw [heq]
    exact (keepsInput_nextAnswer s).trans (keepsInput_handleClose _)

lemma keepsInput_appendInLoop (s : Session) (data : NodeData) :
    KeepsInput s (s.appendInLoop data) := by
  rw [appendInLoop]
  split_ifs
  · exact KeepsInput.refl s
  · exact keepsInput_handleClose s
  · exact ((keepsInput_setOutputBuffer s _).trans (keepsInput_note _ (.queued _) trivial)).trans
      (keepsInput_handleWrite _)

lemma keepsInput_send (s : Session) (data : Bytes) : KeepsInput s (s.send data) := by
  rw [send]
  split_ifs
  · exact keepsInput_appendInLoop s _
  · exact KeepsInput.refl s

lemma keepsInput_sendResource (s : Session) (resource : StaticResource) :
    KeepsInput s (s.sendResource resource) := by
  rw [sendResource]
  split_ifs
  · exact keepsInput_appendInLoop s _
  · exact KeepsInput.refl s

/-- A connected session goes to `kClosing`, and the write side shuts down if nothing is held. -/
lemma shutdown_eq {s : Session} (h : s.conn.isConnected) :
    s.shutdown = (s.enterState .kClosing).shutdownInLoop := by
  have hcan : s.conn.canTransition .kClosing = true := by
    rw [Connection.canTransition, if_neg h.2.1, if_neg h.1, if_pos rfl]
  rw [shutdown, if_pos h, transition, if_neg (by simp [hcan])]

lemma keepsInput_shutdown (s : Session) : KeepsInput s s.shutdown := by
  by_cases hconn : s.conn.isConnected
  · rw [shutdown_eq hconn]
    obtain ⟨wheel, read, write, idle, heq⟩ := enterState_eq s .kClosing
    rw [heq]
    refine KeepsInput.trans ?_ (keepsInput_shutdownInLoop _)
    exact ⟨rfl, rfl, rfl, rfl, rfl, rfl, rfl, fun h => absurd h hconn.1, [],
      (List.append_nil _).symm, by simp⟩
  · rw [shutdown, if_neg hconn]
    exact KeepsInput.refl s

/-! ### The queued bytes -/

/-- What the output functions do to an open connection when they queue `payload`. -/
structure Queues (payload : Bytes) (s t : Session) : Prop where
  state : t.conn.state = s.conn.state
  queued : t.queued = s.queued ++ payload

lemma Queues.trans {payload payload' : Bytes} {s t u : Session} (h : Queues payload s t)
    (h' : Queues payload' t u) : Queues (payload ++ payload') s u :=
  ⟨h'.state.trans h.state, by rw [h'.queued, h.queued, List.append_assoc]⟩

lemma Queues.refl (s : Session) : Queues [] s s := ⟨rfl, (List.append_nil _).symm⟩

lemma queues_note (s : Session) (event : Event) : Queues event.queuedBytes s (s.note event) :=
  ⟨rfl, by simp [queued, note]⟩

lemma TimersOnly.queues {s t : Session} (h : TimersOnly s t) : Queues [] s t := by
  obtain ⟨_, _, _, _, rfl⟩ := h
  exact ⟨rfl, (List.append_nil _).symm⟩

lemma queues_shutdownInLoop (s : Session) : Queues [] s s.shutdownInLoop := by
  rw [shutdownInLoop]
  split_ifs
  · exact queues_note s (.shutdown _)
  · exact Queues.refl s

lemma queues_afterWrite (s : Session) (n : ℕ) : Queues [] s (s.afterWrite n) := by
  obtain ⟨t, htimers, heq⟩ := afterWrite_eq s n
  have ht : Queues [] s t := ⟨htimers.queues.state, htimers.queues.queued⟩
  have hupdate : ∀ events, Queues [] s (t.updateEvent events) :=
    fun _ => ⟨ht.state, ht.queued⟩
  rw [heq]
  split_ifs
  · exact (hupdate _).trans (queues_shutdownInLoop _)
  · exact hupdate _
  · exact hupdate _

lemma state_handleClose (s : Session) : s.handleClose.conn.state = .kClosed := by
  obtain ⟨wheel, read, write, idle, heq⟩ := handleClose_eq s
  rw [heq]

lemma queued_handleClose (s : Session) : s.handleClose.queued = s.queued := by
  obtain ⟨wheel, read, write, idle, heq⟩ := handleClose_eq s
  have hsilent : (closeEvents s.conn).flatMap Event.queuedBytes = [] := by
    rw [closeEvents]
    split_ifs <;> rfl
  rw [heq, queued, queued, List.flatMap_append, hsilent, List.append_nil]

lemma handleWrite_queues (s : Session) :
    s.handleWrite.conn.state = .kClosed ∨ Queues [] s s.handleWrite := by
  have hnext : Queues [] s s.nextAnswer := ⟨rfl, (List.append_nil _).symm⟩
  rcases handleWrite_cases s with ⟨-, heq⟩ | ⟨-, -, ⟨n, -, heq⟩ | ⟨-, heq⟩ | ⟨-, heq⟩⟩
  · rw [heq]
    exact Or.inr (Queues.refl s)
  · rw [heq]
    exact Or.inr ((hnext.trans (queues_note _ (.written _))).trans (queues_afterWrite _ _))
  · rw [heq]
    exact Or.inr ⟨hnext.state, hnext.queued⟩
  · rw [heq]
    exact Or.inl (state_handleClose _)

lemma appendInLoop_queues (s : Session) (data : NodeData) :
    (s.appendInLoop data).conn.state = .kClosed ∨ Queues data.bytes s (s.appendInLoop data) := by
  rw [appendInLoop]
  split_ifs with hnil hlimit
  · rw [hnil]
    exact Or.inr (Queues.refl s)
  · exact Or.inl (state_handleClose s)
  · refine (handleWrite_queues _).imp_right fun hwrite => ?_
    have hnote := queues_note { s with conn :=
      { s.conn with outputBuffer := s.conn.outputBuffer.append data } } (.queued data.bytes)
    have happend := hnote.trans hwrite
    exact ⟨happend.state, happend.queued.trans (by simp [Event.queuedBytes]; rfl)⟩

lemma send_queues {s : Session} (h : s.conn.isConnected) (data : Bytes) :
    (s.send data).conn.state = .kClosed ∨ Queues data s (s.send data) := by
  rw [send, if_neg (not_not.mpr h)]
  exact appendInLoop_queues s (.string data)

lemma sendResource_queues {s : Session} (h : s.conn.isConnected) (resource : StaticResource) :
    (s.sendResource resource).conn.state = .kClosed ∨
      Queues resource.content s (s.sendResource resource) := by
  rw [sendResource, if_neg (not_not.mpr h)]
  exact appendInLoop_queues s (.mmap resource)

lemma send_of_not_isConnected {s : Session} (h : ¬ s.conn.isConnected) (data : Bytes) :
    s.send data = s := by
  rw [send, if_pos h]

lemma sendResource_of_not_isConnected {s : Session} (h : ¬ s.conn.isConnected)
    (resource : StaticResource) : s.sendResource resource = s := by
  rw [sendResource, if_pos h]

lemma shutdown_of_not_isConnected {s : Session} (h : ¬ s.conn.isConnected) : s.shutdown = s := by
  rw [shutdown, if_neg h]

lemma shutdown_queues {s : Session} (h : s.conn.isConnected) :
    s.shutdown.conn.state = .kClosing ∧ s.shutdown.queued = s.queued := by
  obtain ⟨wheel, read, write, idle, heq⟩ := enterState_eq s .kClosing
  have hqueues := queues_shutdownInLoop (s.enterState .kClosing)
  rw [shutdown_eq h]
  refine ⟨hqueues.state.trans ?_, hqueues.queued.trans ?_⟩
  · rw [heq]
    rfl
  · rw [heq, List.append_nil]
    rfl

lemma not_isConnected_shutdown (s : Session) : ¬ s.shutdown.conn.isConnected := by
  by_cases h : s.conn.isConnected
  · rw [Connection.isConnected, (shutdown_queues h).1]
    simp
  · rwa [shutdown_of_not_isConnected h]

lemma queued_shutdown (s : Session) : s.shutdown.queued = s.queued := by
  by_cases h : s.conn.isConnected
  · exact (shutdown_queues h).2
  · rw [shutdown_of_not_isConnected h]

/-! ### The state -/

lemma TimersOnly.state_eq {s t : Session} (h : TimersOnly s t) : t.conn.state = s.conn.state :=
  h.queues.state

lemma state_setTimeoutSeconds (c : Connection) (seconds : ℤ) (timeoutType : TimeoutType) :
    (c.setTimeoutSeconds seconds timeoutType).state = c.state := by
  cases timeoutType <;> rfl

lemma TimeoutsOnly.state_eq {s t : Session} (h : TimeoutsOnly s t) :
    t.conn.state = s.conn.state := by
  obtain ⟨read, write, idle, htimers⟩ := h
  exact htimers.state_eq

lemma state_setTimeout (s : Session) (seconds : ℤ) (timeoutType : TimeoutType) :
    (s.setTimeout seconds timeoutType).conn.state = s.conn.state :=
  (timeoutsOnly_setTimeout s seconds timeoutType).state_eq

lemma timersOnly_resetIdleTimeout (s : Session) : TimersOnly s s.resetIdleTimeout := by
  have hupdate := timersOnly_updateActivityTimestamp s
  rw [resetIdleTimeout]
  split_ifs
  · exact hupdate.trans (timersOnly_setupTimeout _ _ .idle)
  · exact hupdate

lemma state_disableAllTimeouts (s : Session) :
    s.disableAllTimeouts.conn.state = s.conn.state :=
  (timeoutsOnly_disableAllTimeouts s).state_eq

lemma state_readAll (s : Session) (reads : List ReadResult) :
    (s.readAll reads).conn.state = s.conn.state ∨ (s.readAll reads).conn.state = .kClosed := by
  induction reads generalizing s with
  | nil => exact Or.inl rfl
  | cons read reads ih =>
    cases read with
    | data data =>
      rcases ih ({ s with conn := { s.conn with inputBuffer := s.conn.inputBuffer ++ data } } :
        Session).updateActivityTimestamp with hsame | hclosed
      · left
        rw [readAll, hsame, (timersOnly_updateActivityTimestamp _).state_eq]
      · exact Or.inr hclosed
    | eof => exact Or.inr (state_handleClose s)
    | again => exact Or.inl rfl
    | failed => exact Or.inr (state_handleClose s)

end Session

end TinyWebServer
