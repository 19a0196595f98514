import TinyWebServer.Http.WholeResponse
import TinyWebServer.Library.Runs
import TinyWebServer.Net.Handlers
import TinyWebServer.Net.ReadLoop
import TinyWebServer.Net.Server

/-!
# Back-pressure

A connection stops reading when its input buffer is over the limit: `PauseReading` takes the read
event out of the registered interest. The limit is looked at behind the read loop only, and
everything that writes registers for reading again.
-/

namespace TinyWebServer

/-- A handler with any message callback. -/
def Handler.runWith (callback : Session → Session) (s : Session) : Handler → Session
  | .read reads => s.handleRead (some callback) reads
  | .write => s.handleWrite
  | .operate op => s.operate op

/-- What one `read` into a buffer of 4096 bytes can give. -/
def ReadResult.fits : ReadResult → Bool
  | .data block => 0 < block.length && block.length ≤ 4096
  | _ => true

namespace Session

/-- The loop waits for the event. -/
def awaits (s : Session) (event : UInt32) : Bool :=
  (s.loop.registeredFds s.conn.fd).any fun events => events &&& event ≠ 0

/-- Whether the handler may run. The kernel reports a read event only where the loop waits for one;
a write event can be left from a poll before the read handler ran. Outside the callback the input
buffer is only ever drained. -/
def reported (s : Session) : Handler → Bool
  | .read reads => s.awaits Epoll.EPOLLIN && reads.all ReadResult.fits
  | .write => true
  | .operate (.setInput inputBuffer _) => inputBuffer.isSuffixOf s.conn.inputBuffer
  | .operate _ => true

def deliver (callback : Session → Session) (s : Session) (handler : Handler) : Option Session :=
  if s.reported handler then some (handler.runWith callback s) else none

/-- A connection that has just been established. -/
def established (id : ℕ) (fd : ℤ) (config : Option LimitsOptions) (hasKeepAliveManager : Bool)
    (kernel : ℕ → WriteOutcome) : Session :=
  (Session.new (Connection.new id fd config hasKeepAliveManager) kernel).connectEstablished

lemma reported_of_deliver {callback : Session → Session} {s t : Session} {handler : Handler}
    (h : s.deliver callback handler = some t) :
    s.reported handler = true ∧ t = handler.runWith callback s := by
  rw [deliver] at h
  split_ifs at h with hreported
  cases h
  exact ⟨hreported, rfl⟩

@[simp] lemma awaits_updateEvent (s : Session) (events event : UInt32) :
    (s.updateEvent events).awaits event = decide (events &&& event ≠ 0) := by
  simp [awaits, updateEvent, EventLoop.updateEvent]

/-! ### The bytes of a read event -/

/-- A `read` returns data while the buffer, which holds `size` bytes at first, is over the limit. -/
def readsOver (limit : ℕ) : ℕ → List ReadResult → Bool
  | size, .data data :: reads => limit < size || readsOver limit (size + data.length) reads
  | _, _ => false

/-- The read event gets data while the input buffer is over its limit. -/
def ReadsOver (s : Session) (reads : List ReadResult) : Prop :=
  readsOver s.conn.maxInputBuffer s.conn.inputBuffer.length reads = true

/-- The input buffer holds one chunk more than its limit at most. -/
def Bounded (s : Session) : Prop := s.conn.inputBuffer.length ≤ s.conn.maxInputBuffer + 4096

lemma readsOver_take {limit size : ℕ} {reads : List ReadResult}
    (h : readsOver limit size reads = false) (n : ℕ) :
    readsOver limit size (reads.take n) = false := by
  induction reads generalizing size n with
  | nil => rwa [List.take_nil]
  | cons read reads ih =>
    cases n with
    | zero => rfl
    | succ n =>
      cases read with
      | data data =>
        rw [readsOver, Bool.or_eq_false_iff] at h
        rw [List.take_succ_cons, readsOver, h.1, ih h.2]
        rfl
      | eof => rfl
      | again => rfl
      | failed => rfl

/-- Each chunk finds the buffer within its limit, so that it ends one chunk above it at most. -/
lemma length_received_le {limit size : ℕ} {reads : List ReadResult}
    (h : readsOver limit size reads = false) (hfits : reads.all ReadResult.fits = true)
    (hsize : size ≤ limit + 4096) :
    size + (ReadResult.received reads).length ≤ limit + 4096 := by
  induction reads generalizing size with
  | nil => exact hsize
  | cons read reads ih =>
    cases read with
    | data data =>
      rw [readsOver, Bool.or_eq_false_iff] at h
      rw [List.all_cons, Bool.and_eq_true] at hfits
      have hdata : data.length ≤ 4096 := by
        have hread := hfits.1
        simp only [ReadResult.fits, Bool.and_eq_true, decide_eq_true_eq] at hread
        exact hread.2
      have hwithin : size ≤ limit := by simpa using h.1
      have hrest := ih h.2 hfits.2 (Nat.add_le_add hwithin hdata)
      rwa [ReadResult.received, List.length_append, ← Nat.add_assoc]
    | eof => exact hsize
    | again => exact hsize
    | failed => exact hsize

/-- At every point of the read loop the buffer is bounded. -/
lemma bounded_readAll {s : Session} (h : s.Bounded) {reads : List ReadResult}
    (hfits : reads.all ReadResult.fits = true) (hover : ¬ s.ReadsOver reads) (n : ℕ) :
    (s.readAll (reads.take n)).Bounded := by
  have hread := readsAll_readAll s (reads.take n)
  have htake : (reads.take n).all ReadResult.fits = true :=
    List.all_eq_true.mpr fun read hmem => List.all_eq_true.mp hfits read (List.mem_of_mem_take hmem)
  rw [Bounded, Connection.maxInputBuffer, hread.config, hread.inputBuffer, List.length_append]
  exact length_received_le (readsOver_take (Bool.eq_false_iff.mpr hover) n) htake h

/-! ### Draining -/

/-- The limit stays, and the buffer holds the end of what it held. -/
structure Shrinks (s t : Session) : Prop where
  config : t.conn.config = s.conn.config
  inputBuffer : t.conn.inputBuffer <:+ s.conn.inputBuffer

lemma Shrinks.refl (s : Session) : Shrinks s s := ⟨rfl, List.suffix_refl _⟩

lemma Shrinks.trans {s t u : Session} (h : Shrinks s t) (h' : Shrinks t u) : Shrinks s u :=
  ⟨h'.config.trans h.config, h'.inputBuffer.trans h.inputBuffer⟩

lemma KeepsInput.shrinks {s t : Session} (h : KeepsInput s t) : Shrinks s t :=
  ⟨h.config, h.inputBuffer ▸ List.suffix_refl _⟩

lemma Shrinks.bounded {s t : Session} (h : Shrinks s t) (hs : s.Bounded) : t.Bounded := by
  rw [Bounded, Connection.maxInputBuffer, h.config]
  exact h.inputBuffer.length_le.trans hs

/-- A message callback that never drains an incomplete request. -/
structure Drains (callback : Session → Session) : Prop where
  shrinks : ∀ s, Shrinks s (callback s)
  incomplete : ∀ s : Session, Bytes.find headEnd s.conn.inputBuffer = none →
    (callback s).conn.inputBuffer = s.conn.inputBuffer

/-! ### What the functions of a connection do to reading -/

/-- Reading is as it was. -/
structure Unmoved (s t : Session) : Prop where
  state : t.conn.state = s.conn.state
  config : t.conn.config = s.conn.config
  inputBuffer : t.conn.inputBuffer = s.conn.inputBuffer
  interest : t.awaits Epoll.EPOLLIN = s.awaits Epoll.EPOLLIN

lemma Unmoved.refl (s : Session) : Unmoved s s := ⟨rfl, rfl, rfl, rfl⟩

lemma Unmoved.trans {s t u : Session} (h : Unmoved s t) (h' : Unmoved t u) : Unmoved s u :=
  ⟨h'.state.trans h.state, h'.config.trans h.config, h'.inputBuffer.trans h.inputBuffer,
    h'.interest.trans h.interest⟩

lemma TimersOnly.unmoved {s t : Session} (h : TimersOnly s t) : Unmoved s t := by
  obtain ⟨_, _, _, _, rfl⟩ := h
  exact ⟨rfl, rfl, rfl, rfl⟩

lemma TimeoutsOnly.unmoved {s t : Session} (h : TimeoutsOnly s t) : Unmoved s t := by
  obtain ⟨read, write, idle, htimers⟩ := h
  have hseconds : Unmoved s (s.withSeconds read write idle) := ⟨rfl, rfl, rfl, rfl⟩
  exact hseconds.trans htimers.unmoved

/-- The buffer shrinks, the connection does not come to `kConnected`, and where it stays there the
loop does not stop to wait for the read event. -/
structure Eases (s t : Session) : Prop where
  shrinks : Shrinks s t
  state : t.conn.state = .kConnected → s.conn.state = .kConnected
  interest : t.conn.state = .kConnected → s.awaits Epoll.EPOLLIN = true →
    t.awaits Epoll.EPOLLIN = true

lemma Eases.trans {s t u : Session} (h : Eases s t) (h' : Eases t u) : Eases s u where
  shrinks := h.shrinks.trans h'.shrinks
  state := fun hu => h.state (h'.state hu)
  interest := fun hu hs => h'.interest hu (h.interest (h'.state hu) hs)

lemma Unmoved.eases {s t : Session} (h : Unmoved s t) : Eases s t where
  shrinks := ⟨h.config, h.inputBuffer ▸ List.suffix_refl _⟩
  state := fun ht => h.state.symm.trans ht
  interest := fun _ hs => h.interest.trans hs

lemma Eases.refl (s : Session) : Eases s s := (Unmoved.refl s).eases

/-- A connection that leaves `kConnected`. -/
lemma Shrinks.eases {s t : Session} (h : Shrinks s t) (hleft : t.conn.state ≠ .kConnected) :
    Eases s t where
  shrinks := h
  state := fun ht => absurd ht hleft
  interest := fun ht => absurd ht hleft

lemma eases_updateEvent (s : Session) {events : UInt32} (h : events &&& Epoll.EPOLLIN ≠ 0) :
    Eases s (s.updateEvent events) where
  shrinks := (keepsInput_updateEvent s events).shrinks
  state := id
  interest := by
    intro _ _
    rw [awaits_updateEvent, decide_eq_true h]

lemma eases_handleClose (s : Session) : Eases s s.handleClose :=
  (keepsInput_handleClose s).shrinks.eases (by simp [state_handleClose])

lemma state_shutdown_ne (s : Session) : s.shutdown.conn.state ≠ .kConnected := by
  intro hconnected
  exact not_isConnected_shutdown s (by simp [Connection.isConnected, hconnected])

lemma eases_shutdown (s : Session) : Eases s s.shutdown :=
  (keepsInput_shutdown s).shrinks.eases (state_shutdown_ne s)

lemma eases_close (s : Session) (reason : Error) (sysErrno : ℤ) :
    Eases s (s.close reason sysErrno) := by
  have hdisabled := (timeoutsOnly_disableAllTimeouts s).unmoved.eases
  rcases close_cases s reason sysErrno with heq | heq | ⟨-, heq⟩
  · rw [heq]
    exact Eases.refl s
  · rw [heq]
    exact hdisabled.trans (eases_handleClose _)
  · rw [heq]
    exact hdisabled.trans (eases_shutdown _)

/-- Whatever has been written, the loop waits for the read event behind it. -/
lemma awaits_afterWrite (s : Session) (n : ℕ) : (s.afterWrite n).awaits Epoll.EPOLLIN = true := by
  obtain ⟨t, -, heq⟩ := afterWrite_eq s n
  have hupdate : ∀ events, events &&& Epoll.EPOLLIN ≠ 0 →
      (t.updateEvent events).awaits Epoll.EPOLLIN = true := by
    intro events h
    rw [awaits_updateEvent, decide_eq_true h]
  rw [heq]
  split_ifs
  · rw [shutdownInLoop]
    split_ifs
    · exact hupdate _ (by decide)
    · exact hupdate _ (by decide)
  · exact hupdate _ (by decide)
  · exact hupdate _ (by decide)

/-- `HandleWrite` does nothing, closes the connection, or has the loop wait for the read event. -/
lemma handleWrite_listens (s : Session) :
    ((s.conn.state = .kClosed ∨ s.conn.outputBuffer.getIov 16 = []) ∧ s.handleWrite = s) ∨
      (s.kernel 0 = .failed ∧ s.handleWrite.conn.state = .kClosed) ∨
      (s.conn.outputBuffer.getIov 16 ≠ [] ∧ s.kernel 0 ≠ .failed ∧
        s.handleWrite.conn.state = s.conn.state ∧ s.handleWrite.awaits Epoll.EPOLLIN = true) := by
  rcases handleWrite_cases s with hidle | ⟨-, hiov, ⟨n, hkernel, heq⟩ | ⟨hkernel, heq⟩ |
      ⟨hkernel, heq⟩⟩
  · exact .inl hidle
  · refine .inr (.inr ⟨hiov, by simp [hkernel], ?_, ?_⟩)
    · rw [heq]
      exact (queues_afterWrite _ _).state
    · rw [heq]
      exact awaits_afterWrite _ _
  · refine .inr (.inr ⟨hiov, by simp [hkernel], ?_, ?_⟩)
    · rw [heq]
      rfl
    · rw [heq, awaits_updateEvent]
      decide
  · rw [heq]
    exact .inr (.inl ⟨hkernel, state_handleClose _⟩)

lemma eases_handleWrite (s : Session) : Eases s s.handleWrite := by
  have hshrinks := (keepsInput_handleWrite s).shrinks
  rcases handleWrite_listens s with ⟨-, heq⟩ | ⟨-, hclosed⟩ | ⟨-, -, hstate, hlistens⟩
  · rw [heq]
    exact Eases.refl s
  · exact hshrinks.eases (by simp [hclosed])
  · exact ⟨hshrinks, fun ht => hstate.symm.trans ht, fun _ _ => hlistens⟩

lemma unmoved_appended (s : Session) (data : NodeData) : Unmoved s (s.appended data) :=
  ⟨rfl, rfl, rfl, rfl⟩

lemma eases_appendInLoop (s : Session) (data : NodeData) : Eases s (s.appendInLoop data) := by
  rw [appendInLoop]
  split_ifs
  · exact Eases.refl s
  · exact eases_handleClose s
  · exact (unmoved_appended s data).eases.trans (eases_handleWrite _)

lemma eases_send (s : Session) (data : Bytes) : Eases s (s.send data) := by
  rw [send]
  split_ifs
  · exact eases_appendInLoop s _
  · exact Eases.refl s

lemma eases_sendResource (s : Session) (resource : StaticResource) :
    Eases s (s.sendResource resource) := by
  rw [sendResource]
  split_ifs
  · exact eases_appendInLoop s _
  · exact Eases.refl s

lemma eases_setInput {s : Session} {inputBuffer : Bytes} (h : inputBuffer <:+ s.conn.inputBuffer)
    (httpParser : HttpRequest) : Eases s (s.setInput inputBuffer httpParser) :=
  ⟨⟨rfl, h⟩, id, fun _ => id⟩

lemma unmoved_onRequestStart (s : Session) (keepAlive : Bool) (idleTimeout : ℤ) :
    Unmoved s (s.onRequestStart keepAlive idleTimeout) := by
  rw [onRequestStart]
  split_ifs <;> exact ⟨rfl, rfl, rfl, rfl⟩

lemma eases_operate {s : Session} {op : ConnOp} (h : s.reported (.operate op) = true) :
    Eases s (s.operate op) := by
  cases op with
  | send data => exact eases_send s data
  | sendResource resource => exact eases_sendResource s resource
  | shutdown => exact eases_shutdown s
  | close reason sysErrno => exact eases_close s reason sysErrno
  | setReadTimeout seconds => exact (timeoutsOnly_setTimeout s seconds .read).unmoved.eases
  | setWriteTimeout seconds => exact (timeoutsOnly_setTimeout s seconds .write).unmoved.eases
  | setIdleTimeout seconds => exact (timeoutsOnly_setTimeout s seconds .idle).unmoved.eases
  | resetIdleTimeout => exact (timersOnly_resetIdleTimeout s).unmoved.eases
  | disableAllTimeouts => exact (timeoutsOnly_disableAllTimeouts s).unmoved.eases
  | clearReadBuffer =>
    exact (eases_setInput List.nil_suffix s.conn.httpParser).trans (eases_updateEvent _ (by decide))
  | onRequestStart keepAlive idleTimeout =>
    exact (unmoved_onRequestStart s keepAlive idleTimeout).eases
  | onRequestComplete =>
    rw [operate, onRequestComplete_eq]
    exact Eases.refl s
  | setInput inputBuffer httpParser =>
    exact eases_setInput (List.isSuffixOf_iff_suffix.mp h) httpParser

/-! ### The message callback of the server -/

section callback

variable (env : ServerEnv)

lemma eases_sendResponse (s : Session) (response : HttpResponse) :
    Eases s (s.sendResponse response) := by
  rw [sendResponse]
  cases response.fileBody with
  | some resource => exact (eases_send s _).trans (eases_sendResource _ resource)
  | none => exact (eases_send s _).trans (eases_send _ _)

lemma unmoved_responding (s : Session) (request : HttpRequest) (response : HttpResponse)
    (resources : StaticResourceManager) (accessed : List Bytes) :
    Unmoved s (s.responding env request response resources accessed) := by
  obtain ⟨keepAlive, heq⟩ := responding_eq env s request response resources accessed
  rw [heq]
  exact ⟨rfl, rfl, rfl, rfl⟩

lemma unmoved_thrown (s : Session) (request : HttpRequest) (accessed : List Bytes) :
    Unmoved s ((s.accepting env request).noteAll (accessed.map .access)) := by
  obtain ⟨keepAlive, heq⟩ := accepting_eq env s request
  rw [heq]
  exact ⟨rfl, rfl, rfl, rfl⟩

lemma eases_handleRequest (s : Session) (headerEnd : ℕ) (request : HttpRequest) :
    Eases s (s.handleRequest env headerEnd request).1 := by
  rcases handleRequest_cases env s headerEnd request with
    ⟨accessed, -, heq⟩ | ⟨response, resources, accessed, -, heq⟩
  · rw [heq]
    exact (unmoved_thrown env s request accessed).eases
  · have hready := unmoved_responding env s request response resources accessed
    have hsent := keepsInput_sendResponse
      (s.responding env request response resources accessed) response
    have hrest : s.conn.inputBuffer.drop (headerEnd + 4) <:+
        ((s.responding env request response resources accessed).sendResponse
          response).conn.inputBuffer := by
      rw [hsent.inputBuffer, hready.inputBuffer]
      exact List.drop_suffix _ _
    have hdrained := (hready.eases.trans (eases_sendResponse _ response)).trans
      (eases_setInput hrest .reset)
    rcases heq with heq | heq
    · rw [heq]
      exact hdrained.trans (eases_shutdown _)
    · rw [heq]
      exact hdrained

lemma eases_messageTurn (s : Session) : Eases s (s.messageTurn env).1 := by
  simp only [messageTurn]
  cases Bytes.find headEnd s.conn.inputBuffer with
  | none => exact Eases.refl s
  | some headerEnd =>
    have hnote : Unmoved s (s.note (.parse s.conn.inputBuffer)) := ⟨rfl, rfl, rfl, rfl⟩
    dsimp only
    split_ifs
    · exact hnote.eases.trans (eases_handleRequest env _ headerEnd _)
    · exact (hnote.eases.trans (eases_setInput List.nil_suffix _)).trans (eases_shutdown _)

lemma eases_onMessage (s : Session) : Eases s (s.onMessage env) :=
  onMessage_induction env (P := fun s t => Eases s t) (fun s _ => eases_messageTurn env s)
    (fun s _ _ ih => (eases_messageTurn env s).trans ih) s

/-- The callback of the server never drains an incomplete request. -/
lemma drains_onMessage : Drains (onMessage env) where
  shrinks := fun s => (eases_onMessage env s).shrinks
  incomplete := by
    intro s h
    rw [onMessage_of_find_none env h]

end callback

/-! ### Bounded buffers -/

variable {callback : Session → Session}

/-- The move is a read event that gets data while the input buffer is over its limit. -/
def Overreads (s : Session) : Handler → Prop
  | .read reads => s.ReadsOver reads
  | _ => False

lemma config_handleRead (hcallback : Drains callback) (s : Session) (reads : List ReadResult) :
    (s.handleRead (some callback) reads).conn.config = s.conn.config := by
  have hfilled : (s.filled reads).conn.config = s.conn.config := by
    rw [← (readsAll_readAll s reads).config, filled]
    split_ifs <;> rfl
  rw [handleRead_some]
  split_ifs
  · exact hfilled
  · exact (hcallback.shrinks _).config.trans hfilled

lemma bounded_handleRead (hcallback : Drains callback) {s : Session} (h : s.Bounded)
    {reads : List ReadResult} (hfits : reads.all ReadResult.fits = true)
    (hover : ¬ s.ReadsOver reads) : (s.handleRead (some callback) reads).Bounded := by
  have hread := bounded_readAll h hfits hover reads.length
  rw [List.take_length] at hread
  have hfilled : Shrinks (s.readAll reads) (s.filled reads) := by
    rw [filled]
    split_ifs
    · exact (keepsInput_updateEvent _ _).shrinks
    · exact Shrinks.refl _
  rw [handleRead_some]
  split_ifs
  · exact hfilled.bounded hread
  · exact (hfilled.trans (hcallback.shrinks _)).bounded hread

lemma bounded_deliver (hcallback : Drains callback) {s t : Session} {handler : Handler}
    (hover : ¬ s.Overreads handler) (h : s.Bounded) (hstep : s.deliver callback handler = some t) :
    t.Bounded := by
  obtain ⟨hreported, rfl⟩ := reported_of_deliver hstep
  cases handler with
  | read reads =>
    rw [reported, Bool.and_eq_true] at hreported
    exact bounded_handleRead hcallback h hreported.2 hover
  | write => exact (eases_handleWrite s).shrinks.bounded h
  | operate op => exact (eases_operate hreported).shrinks.bounded h

/-- `ConnectEstablished` enters `kConnected` and registers for reading. -/
lemma connectEstablished_eq {s : Session} (h : s.conn.state = .kConnecting) :
    ∃ t, TimersOnly { s with conn := { s.conn with state := .kConnected } } t ∧
      s.connectEstablished =
        ({ t with loop := (t.loop.setReadCallback t.conn.fd).setWriteCallback t.conn.fd } :
          Session).updateEvent (Epoll.EPOLLIN ||| Epoll.EPOLLET) := by
  have hcan : s.conn.canTransition .kConnected = true := by
    rw [Connection.canTransition, h]
    decide
  refine ⟨s.enterState .kConnected, timersOnly_checkAndSetTimeouts _, ?_⟩
  rw [connectEstablished, transition, if_neg (by simp [hcan])]

section established

variable (id : ℕ) (fd : ℤ) (config : Option LimitsOptions) (hasKeepAliveManager : Bool)
  (kernel : ℕ → WriteOutcome)

lemma conn_established : ∃ read write idle,
    (established id fd config hasKeepAliveManager kernel).conn =
      { Connection.new id fd config hasKeepAliveManager with
        state := .kConnected
        readTimeoutActive := read, writeTimeoutActive := write, idleTimeoutActive := idle } := by
  obtain ⟨t, ⟨wheel, read, write, idle, rfl⟩, heq⟩ := connectEstablished_eq
    (s := Session.new (Connection.new id fd config hasKeepAliveManager) kernel) rfl
  refine ⟨read, write, idle, ?_⟩
  rw [established, heq]
  rfl

lemma awaits_established :
    (established id fd config hasKeepAliveManager kernel).awaits Epoll.EPOLLIN = true := by
  rw [established, connectEstablished, awaits_updateEvent]
  decide

lemma bounded_established : (established id fd config hasKeepAliveManager kernel).Bounded := by
  obtain ⟨read, write, idle, heq⟩ := conn_established id fd config hasKeepAliveManager kernel
  rw [Bounded, heq]
  exact Nat.zero_le _

end established

/-- The input buffer is bounded in every state of a run and at every point of its read loops, for
as long as no read gets data while the buffer is over its limit. -/
theorem bounded_of_not_overreads {callback : Session → Session} (hcallback : Drains callback)
    {id : ℕ} {fd : ℤ} {config : Option LimitsOptions} {hasKeepAliveManager : Bool}
    {kernel : ℕ → WriteOutcome} {ms : List Handler}
    (hms : ∀ ms' m u, ms' ++ [m] <+: ms →
      Runs.run (deliver callback) (established id fd config hasKeepAliveManager kernel) ms' =
        some u → ¬ u.Overreads m) :
    ∀ ms' u, ms' <+: ms →
      Runs.run (deliver callback) (established id fd config hasKeepAliveManager kernel) ms' =
        some u → u.Bounded ∧ ∀ reads, ms' ++ [.read reads] <+: ms →
          u.reported (.read reads) = true → ∀ n, (u.readAll (reads.take n)).Bounded := by
  intro ms' u hbegins hrun
  have hbounded : u.Bounded := Runs.forall_run_of (deliver callback)
    (fun s m t hover hs hstep => bounded_deliver hcallback hover hs hstep)
    (bounded_established id fd config hasKeepAliveManager kernel) hms ms' u hbegins hrun
  refine ⟨hbounded, fun reads hnext hreported n => ?_⟩
  rw [reported, Bool.and_eq_true] at hreported
  exact bounded_readAll hbounded hreported.2 (hms ms' (.read reads) u hnext hrun) n

/-- Two chunks, of which the second one crosses a limit of four bytes. -/
theorem bounded_of_not_overreads_crossing :
    ∃ u, Runs.run (deliver (onMessage onePageSite)) (established 0 5 (some ⟨60, 15, 4, 1024⟩) true
        fun _ => .again) [.read [.data [71, 69, 84], .data [32, 47, 32]]] = some u ∧ u.Bounded := by
  have hrun : (Runs.run (deliver (onMessage onePageSite)) (established 0 5 (some ⟨60, 15, 4, 1024⟩)
      true fun _ => .again) [.read [.data [71, 69, 84], .data [32, 47, 32]]]).isSome = true := by
    decide +kernel
  obtain ⟨u, hu⟩ := Option.isSome_iff_exists.mp hrun
  refine ⟨u, hu, (bounded_of_not_overreads (drains_onMessage onePageSite) ?_ _ u
    (List.prefix_refl _) hu).1⟩
  intro ms' m u' hbegins hrun'
  obtain ⟨rfl, rfl⟩ : ms' = [] ∧ m = .read [.data [71, 69, 84], .data [32, 47, 32]] := by
    obtain ⟨rest, hrest⟩ := hbegins
    cases ms' with
    | nil => exact ⟨rfl, (List.cons.inj hrest).1⟩
    | cons m' ms' => simp at hrest
  cases hrun'
  obtain ⟨read, write, idle, heq⟩ :=
    conn_established 0 5 (some ⟨60, 15, 4, 1024⟩) true fun _ => .again
  simp [Overreads, ReadsOver, heq, Connection.new, Connection.maxInputBuffer, readsOver]

lemma received_replicate (n : ℕ) (block : Bytes) :
    ReadResult.received (List.replicate n (.data block)) = (List.replicate n block).flatten := by
  induction n with
  | zero => rfl
  | succ n ih =>
    rw [List.replicate_succ, ReadResult.received, ih, List.replicate_succ, List.flatten_cons]

/-- A burst of chunks without the end of a head goes into the buffer whole. -/
lemma inputBuffer_handleRead_replicate (hcallback : Drains callback) (s : Session) (n : ℕ)
    {block : Bytes} (hblock : Bytes.cr ∉ s.conn.inputBuffer ++ (List.replicate n block).flatten) :
    (s.handleRead (some callback) (List.replicate n (.data block))).conn.inputBuffer =
      s.conn.inputBuffer ++ (List.replicate n block).flatten := by
  let reads : List ReadResult := List.replicate n (.data block)
  have hfilled : (s.filled reads).conn.inputBuffer =
      s.conn.inputBuffer ++ (List.replicate n block).flatten := by
    rw [← received_replicate, ← (readsAll_readAll s reads).inputBuffer, filled]
    split_ifs <;> rfl
  have hfind : Bytes.find headEnd (s.filled reads).conn.inputBuffer = none := by
    rw [hfilled, ← List.append_nil (s.conn.inputBuffer ++ (List.replicate n block).flatten)]
    exact Bytes.find_append_of_notMem [] hblock
  rw [handleRead_some]
  split_ifs
  · exact hfilled
  · rw [hcallback.incomplete _ hfind]
    exact hfilled

/-- Eighteen chunks without the end of a head, all in one read event. -/
theorem not_bounded_burst :
    ¬ ∀ (callback : Session → Session), Drains callback → ∀ (id : ℕ) (fd : ℤ)
      (config : Option LimitsOptions) (hasKeepAliveManager : Bool) (kernel : ℕ → WriteOutcome)
      (ms : List Handler) (u : Session),
      Runs.run (deliver callback) (established id fd config hasKeepAliveManager kernel) ms = some u →
        u.Bounded := by
  intro hall
  obtain ⟨size, hsize⟩ : ∃ size, size = 4096 := ⟨4096, rfl⟩
  let s : Session := established 0 5 none true fun _ => .again
  let block : Bytes := List.replicate size 65
  let reads : List ReadResult := List.replicate 18 (.data block)
  have hdrains := drains_onMessage onePageSite
  obtain ⟨read, write, idle, hconn⟩ := conn_established 0 5 none true fun _ => .again
  have hempty : s.conn.inputBuffer = [] := congrArg Connection.inputBuffer hconn
  have hlength : block.length = size := List.length_replicate
  have hreported : s.reported (.read reads) = true := by
    rw [reported, awaits_established, Bool.true_and, List.all_eq_true]
    intro read hmem
    rw [List.eq_of_mem_replicate hmem, ReadResult.fits, hlength, hsize]
    rfl
  have hrun : Runs.run (deliver (onMessage onePageSite)) s [.read reads] =
      some (s.handleRead (some (onMessage onePageSite)) reads) := by
    rw [Runs.run, deliver, if_pos hreported]
    rfl
  have hcr : Bytes.cr ∉ s.conn.inputBuffer ++ (List.replicate 18 block).flatten := by
    rw [hempty, List.nil_append, List.mem_flatten]
    rintro ⟨block', hblock', hmem⟩
    rw [List.eq_of_mem_replicate hblock'] at hmem
    exact absurd (List.eq_of_mem_replicate hmem) (by decide)
  have hlong : (s.handleRead (some (onMessage onePageSite)) reads).conn.inputBuffer.length =
      18 * size := by
    rw [inputBuffer_handleRead_replicate hdrains s 18 hcr, hempty, List.nil_append,
      List.length_flatten, List.map_replicate, List.sum_replicate, hlength, smul_eq_mul]
  have hlimit : (s.handleRead (some (onMessage onePageSite)) reads).conn.maxInputBuffer =
      ConnectionLimits.kMaxInputBuffer := by
    rw [Connection.maxInputBuffer, config_handleRead hdrains]
    exact congrArg Connection.maxInputBuffer hconn
  have hbounded : _ ≤ _ := hall _ hdrains 0 5 none true (fun _ => .again) _ _ hrun
  rw [hlong, hlimit, hsize] at hbounded
  exact absurd hbounded (by decide)

end Session

end TinyWebServer
