import TinyWebServer.Net.ConnectionFrame

/-!
# The outgoing byte stream

Whatever the order of sends, write events and a shutdown, and however little `writev` takes at a
time: the bytes that the kernel took and the bytes still held are the accepted payloads in order.
-/

namespace TinyWebServer

namespace Session

/-- The loop-thread events of the output side. -/
inductive OutputEvent where
  | send (data : Bytes)
  | sendResource (resource : StaticResource)
  | shutdown
  | writeReady

def handle (s : Session) : OutputEvent → Session
  | .send data => s.send data
  | .sendResource resource => s.sendResource resource
  | .shutdown => s.shutdown
  | .writeReady => s.handleWrite

def handleAll (s : Session) (events : List OutputEvent) : Session := events.foldl handle s

/-- The payload that one event adds to the stream: a connection that is not connected ignores
what it is asked to send. -/
def acceptedBy (s : Session) : OutputEvent → Bytes
  | .send data => if s.conn.isConnected then data else []
  | .sendResource resource => if s.conn.isConnected then resource.content else []
  | .shutdown => []
  | .writeReady => []

/-- The payloads that the events add to the stream, in order. -/
def accepted (s : Session) : List OutputEvent → Bytes
  | [] => []
  | event :: events => s.acceptedBy event ++ (s.handle event).accepted events

/-- An established connection that has not sent anything. -/
structure Established (s : Session) : Prop where
  state : s.conn.state = .kConnected
  outputBuffer : s.conn.outputBuffer = .empty
  trace : s.trace = []

/-- The write side is shut down with nothing held, and nothing is written afterwards. -/
def QuietAfterShutdown (trace : List Event) : Prop :=
  ∀ before held after, trace = before ++ .shutdown held :: after →
    held = [] ∧ ∀ data, .written data ∉ after

/-- Write readiness is in the interest set that the loop has for the connection. -/
def waitsForWrite (s : Session) : Prop :=
  ∃ events, s.loop.registeredFds s.conn.fd = some events ∧ events &&& Epoll.EPOLLOUT ≠ 0

/-! ### The invariant -/

/-- What holds of an open connection also in the middle of a handler. -/
structure Streaming (s : Session) : Prop where
  state : s.conn.state = .kConnected ∨ s.conn.state = .kClosing
  buffer : s.conn.outputBuffer.Inv
  bytes : s.written ++ s.conn.outputBuffer.held = s.queued
  bound : s.conn.outputBuffer.totalBytes ≤ s.conn.maxOutputBuffer
  quiet : QuietAfterShutdown s.trace
  drained : ∀ held, .shutdown held ∈ s.trace →
    s.conn.state = .kClosing ∧ s.conn.outputBuffer.held = []
  kernel : ∀ n, s.kernel n ≠ .failed

/-- Between handlers the loop also waits for the socket whenever something is held. -/
structure Settled (s : Session) : Prop extends Streaming s where
  interest : s.conn.outputBuffer.held ≠ [] → s.waitsForWrite

lemma quietAfterShutdown_append {trace : List Event} {event : Event}
    (h : QuietAfterShutdown trace) (hshutdown : ∀ held, event = .shutdown held → held = [])
    (hwritten : ∀ data, event = .written data → ∀ held, .shutdown held ∉ trace) :
    QuietAfterShutdown (trace ++ [event]) := by
  intro before held after heq
  rcases List.eq_nil_or_concat' after with rfl | ⟨init, last, rfl⟩
  · obtain ⟨-, hlast⟩ := List.append_inj' heq rfl
    exact ⟨hshutdown held (List.cons.inj hlast).1, by simp⟩
  · have hassoc : before ++ .shutdown held :: (init ++ [last]) =
        (before ++ .shutdown held :: init) ++ [last] := by simp
    obtain ⟨htrace, hlast⟩ := List.append_inj' (heq.trans hassoc) rfl
    obtain ⟨hheld, hinit⟩ := h before held init htrace
    refine ⟨hheld, ?_⟩
    intro data hdata
    rcases List.mem_append.mp hdata with hdata | hdata
    · exact hinit data hdata
    · have hevent : event = .written data :=
        (List.cons.inj hlast).1.trans (List.mem_singleton.mp hdata).symm
      exact hwritten data hevent held (by simp [htrace])

lemma settled_of_established {s : Session} (h : s.Established) (hkernel : ∀ n, s.kernel n ≠ .failed) :
    s.Settled := by
  have hheld : s.conn.outputBuffer.held = [] := by rw [h.outputBuffer]; rfl
  refine ⟨⟨Or.inl h.state, ?_, ?_, ?_, ?_, ?_, hkernel⟩, fun hne => absurd hheld hne⟩
  · rw [h.outputBuffer]
    exact BufferChain.inv_empty
  · rw [hheld, written, queued, h.trace]
    rfl
  · rw [h.outputBuffer]
    exact Nat.zero_le _
  · intro before held after heq
    rw [h.trace] at heq
    simp at heq
  · intro held hmem
    rw [h.trace] at hmem
    simp at hmem

/-- Timers are no part of the invariant. -/
lemma Streaming.of_timersOnly {s t : Session} (h : Streaming s) (ht : TimersOnly s t) :
    Streaming t := by
  obtain ⟨_, _, _, _, rfl⟩ := ht
  exact ⟨h.state, h.buffer, h.bytes, h.bound, h.quiet, h.drained, h.kernel⟩

lemma Streaming.updateEvent {s : Session} (h : Streaming s) (events : UInt32) :
    Streaming (s.updateEvent events) :=
  ⟨h.state, h.buffer, h.bytes, h.bound, h.quiet, h.drained, h.kernel⟩

lemma waitsForWrite_updateEvent (s : Session) {events : UInt32}
    (h : events &&& Epoll.EPOLLOUT ≠ 0) : (s.updateEvent events).waitsForWrite :=
  ⟨events, Function.update_self .., h⟩

/-- The write side of a closing connection with nothing held is shut down. -/
lemma Streaming.shutdownInLoop {s : Session} (h : Streaming s) (hstate : s.conn.state = .kClosing) :
    Streaming s.shutdownInLoop := by
  rw [Session.shutdownInLoop]
  by_cases hempty : s.conn.outputBuffer.isEmpty
  · have hheld := h.buffer.isEmpty_iff.mp hempty
    rw [if_pos hempty]
    refine ⟨h.state, h.buffer, ?_, h.bound, ?_, fun _ _ => ⟨hstate, hheld⟩, h.kernel⟩
    · have hbytes := h.bytes
      simpa [written, queued, note, Event.writtenBytes, Event.queuedBytes] using hbytes
    · refine quietAfterShutdown_append h.quiet ?_ ?_
      · rintro held heq
        cases heq
        exact hheld
      · intro data heq
        cases heq
  · rw [if_neg hempty]
    exact h

/-! ### Handlers -/

/-- What is left when the kernel has taken the front of the held bytes. -/
lemma Streaming.write {s : Session} (h : Streaming s) {data : Bytes}
    (hdata : data <+: s.conn.outputBuffer.held) (hne : s.conn.outputBuffer.held ≠ []) :
    Streaming { s.note (.written data) with
      conn := { s.conn with outputBuffer := s.conn.outputBuffer.advance data.length } } := by
  have hlen : data.length ≤ s.conn.outputBuffer.held.length := hdata.length_le
  have hrest : data ++ s.conn.outputBuffer.held.drop data.length = s.conn.outputBuffer.held := by
    obtain ⟨rest, hrest⟩ := hdata
    rw [← hrest, List.drop_left]
  have hnone : ∀ held, .shutdown held ∉ s.trace := fun held hmem => hne (h.drained held hmem).2
  refine ⟨h.state, h.buffer.advance hlen, ?_, ?_, ?_, ?_, h.kernel⟩
  · change (s.note (.written data)).written ++ (s.conn.outputBuffer.advance data.length).held =
      (s.note (.written data)).queued
    have hwritten : (s.note (.written data)).written = s.written ++ data := by
      simp [written, note, Event.writtenBytes]
    have hqueued : (s.note (.written data)).queued = s.queued := by
      simp [queued, note, Event.queuedBytes]
    rw [hwritten, hqueued, h.buffer.held_advance hlen, List.append_assoc, hrest]
    exact h.bytes
  · have hbound := h.bound
    have hinv := h.buffer.advance hlen
    have heq := hinv.totalBytes_eq
    rw [h.buffer.held_advance hlen, List.length_drop, ← h.buffer.totalBytes_eq] at heq
    exact heq.le.trans ((Nat.sub_le _ _).trans hbound)
  · refine quietAfterShutdown_append h.quiet ?_ fun _ _ held => hnone held
    intro held heq
    cases heq
  · intro held hmem
    rcases List.mem_append.mp hmem with hmem | hmem
    · exact absurd hmem (hnone held)
    · simp at hmem

lemma settled_afterWrite {s : Session} (h : Streaming s) {data : Bytes}
    (hdata : data <+: s.conn.outputBuffer.held) (hne : s.conn.outputBuffer.held ≠ []) :
    Settled ((s.note (.written data)).afterWrite data.length) := by
  obtain ⟨t, htimers, heq⟩ := afterWrite_eq (s.note (.written data)) data.length
  have ht := (h.write hdata hne).of_timersOnly htimers
  have hbuffer : t.conn.outputBuffer = s.conn.outputBuffer.advance data.length := by
    obtain ⟨_, _, _, _, rfl⟩ := htimers
    rfl
  have hstate : t.conn.state = s.conn.state := by
    obtain ⟨_, _, _, _, rfl⟩ := htimers
    rfl
  have hempty_iff := ht.buffer.isEmpty_iff
  rw [hbuffer] at hempty_iff
  rw [heq]
  by_cases hempty : (s.conn.outputBuffer.advance data.length).isEmpty
  · rw [if_pos (show ((s.note (.written data)).conn.outputBuffer.advance data.length).isEmpty from
      hempty)]
    have hheld : t.conn.outputBuffer.held = [] := by
      rw [hbuffer]
      exact hempty_iff.mp hempty
    dsimp only
    split_ifs with hclosing
    · refine ⟨(ht.updateEvent _).shutdownInLoop (hstate.trans hclosing), fun hne => ?_⟩
      have hkept : ∀ s : Session, s.shutdownInLoop.conn = s.conn := by
        intro s
        rw [Session.shutdownInLoop]
        split_ifs <;> rfl
      rw [hkept] at hne
      exact absurd hheld hne
    · exact ⟨ht.updateEvent _, fun hne => absurd hheld hne⟩
  · rw [if_neg (show ¬ ((s.note (.written data)).conn.outputBuffer.advance data.length).isEmpty from
      hempty)]
    exact ⟨ht.updateEvent _, fun _ => waitsForWrite_updateEvent t (by decide)⟩

/-- `HandleWrite` leaves the connection settled, wherever in a handler it is called. -/
lemma settled_handleWrite {s : Session} (h : Streaming s) : Settled s.handleWrite := by
  have hiov := h.buffer.getIov_eq_nil_iff (show 0 < 16 by decide)
  have hnotClosed : s.conn.state ≠ .kClosed := by
    rcases h.state with hstate | hstate <;> rw [hstate] <;> decide
  have hnext : Streaming s.nextAnswer :=
    ⟨h.state, h.buffer, h.bytes, h.bound, h.quiet, h.drained, fun n => h.kernel (n + 1)⟩
  rcases handleWrite_cases s with ⟨hdone, heq⟩ | ⟨-, hoffer, ⟨n, -, heq⟩ | ⟨-, heq⟩ | ⟨hfailed, -⟩⟩
  · rw [heq]
    refine ⟨h, fun hne => ?_⟩
    rcases hdone with hclosed | hnil
    · exact absurd hclosed hnotClosed
    · exact absurd (hiov.mp hnil) hne
  · rw [heq]
    refine settled_afterWrite hnext ?_ fun hnil => hoffer (hiov.mpr hnil)
    exact (List.take_prefix _ _).trans (s.conn.outputBuffer.getIov_prefix 16)
  · rw [heq]
    exact ⟨hnext.updateEvent _, fun _ => waitsForWrite_updateEvent _ (by decide)⟩
  · exact absurd hfailed (h.kernel 0)

lemma Streaming.append {s : Session} (h : Streaming s) (hconn : s.conn.isConnected)
    {data : NodeData}
    (hlimit : s.conn.outputBuffer.totalBytes + data.bytes.length ≤ s.conn.maxOutputBuffer) :
    Streaming (({ s with conn :=
      { s.conn with outputBuffer := s.conn.outputBuffer.append data } } : Session).note
        (.queued data.bytes)) := by
  have hnone : ∀ held, .shutdown held ∉ s.trace := fun held hmem => hconn.2.1 (h.drained held hmem).1
  refine ⟨h.state, h.buffer.append data, ?_, ?_, ?_, ?_, h.kernel⟩
  · have hbytes := h.bytes
    simp only [written, queued, note, List.flatMap_append, BufferChain.held_append] at hbytes ⊢
    simp only [List.flatMap_cons, List.flatMap_nil, Event.writtenBytes, Event.queuedBytes,
      List.append_nil, ← List.append_assoc]
    rw [hbytes]
  · have htotal := (h.buffer.append data).totalBytes_eq
    rw [BufferChain.held_append, List.length_append, ← h.buffer.totalBytes_eq] at htotal
    exact htotal.le.trans hlimit
  · refine quietAfterShutdown_append h.quiet ?_ ?_
    · intro held heq
      cases heq
    · intro written heq
      cases heq
  · intro held hmem
    rcases List.mem_append.mp hmem with hmem | hmem
    · exact absurd hmem (hnone held)
    · simp at hmem

lemma settled_appendInLoop {s : Session} (h : Settled s) (hconn : s.conn.isConnected)
    {data : NodeData} (hopen : (s.appendInLoop data).conn.state ≠ .kClosed) :
    Settled (s.appendInLoop data) := by
  rw [appendInLoop] at hopen ⊢
  split_ifs at hopen ⊢ with hnil hlimit
  · exact h
  · exact absurd (state_handleClose s) hopen
  · exact settled_handleWrite (h.toStreaming.append hconn (not_lt.mp hlimit))

lemma settled_shutdown {s : Session} (h : Settled s) (hconn : s.conn.isConnected) :
    Settled s.shutdown := by
  obtain ⟨wheel, read, write, idle, heq⟩ := enterState_eq s .kClosing
  have hnone : ∀ held, .shutdown held ∉ s.trace := fun held hmem => hconn.2.1 (h.drained held hmem).1
  have hentered : Settled (s.enterState .kClosing) := by
    rw [heq]
    exact ⟨⟨Or.inr rfl, h.buffer, h.bytes, h.bound, h.quiet,
      fun held hmem => absurd hmem (hnone held), h.kernel⟩, h.interest⟩
  have hstate : (s.enterState .kClosing).conn.state = .kClosing := by rw [heq]; rfl
  rw [shutdown_eq hconn]
  refine ⟨hentered.toStreaming.shutdownInLoop hstate, ?_⟩
  have hinterest := hentered.interest
  rw [shutdownInLoop]
  split_ifs <;> exact hinterest

/-- Nothing opens a closed connection again. -/
lemma state_handle_of_closed {s : Session} (h : s.conn.state = .kClosed) (event : OutputEvent) :
    (s.handle event).conn.state = .kClosed := by
  cases event with
  | send data => exact (keepsInput_send s data).closed h
  | sendResource resource => exact (keepsInput_sendResource s resource).closed h
  | shutdown => exact (keepsInput_shutdown s).closed h
  | writeReady => exact (keepsInput_handleWrite s).closed h

lemma state_handleAll_of_closed {s : Session} (h : s.conn.state = .kClosed)
    (events : List OutputEvent) : (s.handleAll events).conn.state = .kClosed := by
  induction events generalizing s with
  | nil => exact h
  | cons event events ih => exact ih (state_handle_of_closed h event)

/-- One event: the connection settles again, and its payload joins the queue. -/
lemma settled_handle {s : Session} (h : Settled s) (event : OutputEvent)
    (hopen : (s.handle event).conn.state ≠ .kClosed) :
    Settled (s.handle event) ∧ (s.handle event).queued = s.queued ++ s.acceptedBy event := by
  by_cases hconn : s.conn.isConnected
  · cases event with
    | send data =>
      have hqueues := (send_queues hconn data).resolve_left hopen
      simp only [handle, send, if_neg (not_not.mpr hconn)] at hopen ⊢
      refine ⟨settled_appendInLoop h hconn hopen, ?_⟩
      rw [acceptedBy, if_pos hconn, ← hqueues.queued, send, if_neg (not_not.mpr hconn)]
    | sendResource resource =>
      have hqueues := (sendResource_queues hconn resource).resolve_left hopen
      simp only [handle, sendResource, if_neg (not_not.mpr hconn)] at hopen ⊢
      refine ⟨settled_appendInLoop h hconn hopen, ?_⟩
      rw [acceptedBy, if_pos hconn, ← hqueues.queued, sendResource, if_neg (not_not.mpr hconn)]
    | shutdown =>
      refine ⟨settled_shutdown h hconn, ?_⟩
      rw [acceptedBy, List.append_nil]
      exact (shutdown_queues hconn).2
    | writeReady =>
      exact ⟨settled_handleWrite h.toStreaming, ((handleWrite_queues s).resolve_left hopen).queued⟩
  · cases event with
    | send data =>
      rw [handle, send_of_not_isConnected hconn, acceptedBy, if_neg hconn, List.append_nil]
      exact ⟨h, rfl⟩
    | sendResource resource =>
      rw [handle, sendResource_of_not_isConnected hconn, acceptedBy, if_neg hconn, List.append_nil]
      exact ⟨h, rfl⟩
    | shutdown =>
      rw [handle, shutdown_of_not_isConnected hconn, acceptedBy, List.append_nil]
      exact ⟨h, rfl⟩
    | writeReady =>
      exact ⟨settled_handleWrite h.toStreaming, ((handleWrite_queues s).resolve_left hopen).queued⟩

lemma maxOutputBuffer_handle (s : Session) (event : OutputEvent) :
    (s.handle event).conn.maxOutputBuffer = s.conn.maxOutputBuffer := by
  have hconfig : (s.handle event).conn.config = s.conn.config := by
    cases event with
    | send data => exact (keepsInput_send s data).config
    | sendResource resource => exact (keepsInput_sendResource s resource).config
    | shutdown => exact (keepsInput_shutdown s).config
    | writeReady => exact (keepsInput_handleWrite s).config
  rw [Connection.maxOutputBuffer, Connection.maxOutputBuffer, hconfig]

lemma settled_handleAll {s : Session} (h : Settled s) (events : List OutputEvent)
    (hopen : (s.handleAll events).conn.state ≠ .kClosed) :
    Settled (s.handleAll events) ∧ (s.handleAll events).queued = s.queued ++ s.accepted events ∧
      (s.handleAll events).conn.maxOutputBuffer = s.conn.maxOutputBuffer := by
  induction events generalizing s with
  | nil => exact ⟨h, (List.append_nil _).symm, rfl⟩
  | cons event events ih =>
    have hstep : (s.handle event).conn.state ≠ .kClosed :=
      fun hclosed => hopen (state_handleAll_of_closed hclosed events)
    obtain ⟨hsettled, hqueued⟩ := settled_handle h event hstep
    obtain ⟨hsettled', hqueued', hmax⟩ := ih hsettled hopen
    refine ⟨hsettled', ?_, hmax.trans (maxOutputBuffer_handle s event)⟩
    rw [accepted, ← List.append_assoc, ← hqueued]
    exact hqueued'

/-- The outgoing stream of an established connection, in every state between handlers that no
limit violation has closed. -/
theorem outgoing_stream {s : Session} (h : s.Established) (hkernel : ∀ n, s.kernel n ≠ .failed)
    (events : List OutputEvent) (hopen : (s.handleAll events).conn.state ≠ .kClosed) :
    (s.handleAll events).written ++ (s.handleAll events).conn.outputBuffer.held =
        s.accepted events ∧
      (s.handleAll events).conn.outputBuffer.totalBytes =
        (s.handleAll events).conn.outputBuffer.held.length ∧
      (s.handleAll events).conn.outputBuffer.totalBytes ≤ s.conn.maxOutputBuffer ∧
      ((s.handleAll events).conn.outputBuffer.held ≠ [] → (s.handleAll events).waitsForWrite) ∧
      QuietAfterShutdown (s.handleAll events).trace := by
  obtain ⟨hsettled, hqueued, hmax⟩ := settled_handleAll (settled_of_established h hkernel) events hopen
  have hnothing : s.queued = [] := by rw [queued, h.trace]; rfl
  refine ⟨?_, hsettled.buffer.totalBytes_eq, ?_, hsettled.interest, hsettled.quiet⟩
  · rw [hsettled.bytes, hqueued, hnothing, List.nil_append]
  · rw [← hmax]
    exact hsettled.bound

/-- A new connection is established by the first call that the loop makes. -/
lemma established_connectEstablished (conn : Connection) (kernel : ℕ → WriteOutcome)
    (hstate : conn.state = .kConnecting) (houtput : conn.outputBuffer = .empty) :
    (new conn kernel).connectEstablished.Established := by
  have hcan : conn.canTransition .kConnected = true := by
    simp [Connection.canTransition, hstate]
  obtain ⟨wheel, read, write, idle, heq⟩ := enterState_eq (new conn kernel) .kConnected
  have htransition : (new conn kernel).transition .kConnected =
      (new conn kernel).enterState .kConnected := by
    rw [transition, if_neg (by simpa [new] using hcan)]
  simp only [connectEstablished, htransition, heq]
  exact ⟨rfl, houtput, rfl⟩

/-- A kernel that blocks once and then takes two bytes at a time. -/
def sluggish : ℕ → WriteOutcome
  | 0 => .again
  | _ + 1 => .accepted 1

theorem outgoing_stream_sluggish :
    ((new (.new 0 5 none false) sluggish).connectEstablished.handleAll
        [.send (bytes "abc"), .shutdown, .send (bytes "d"), .writeReady, .writeReady]).written ++
      ((new (.new 0 5 none false) sluggish).connectEstablished.handleAll
        [.send (bytes "abc"), .shutdown, .send (bytes "d"), .writeReady,
          .writeReady]).conn.outputBuffer.held = bytes "abc" := by
  have hstream := outgoing_stream
    (established_connectEstablished (.new 0 5 none false) sluggish rfl rfl)
    (fun n => by cases n <;> exact fun h => nomatch h)
    [.send (bytes "abc"), .shutdown, .send (bytes "d"), .writeReady, .writeReady] (by decide)
  exact hstream.1.trans (by decide)

end Session

end TinyWebServer
