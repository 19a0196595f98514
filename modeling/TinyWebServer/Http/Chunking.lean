import TinyWebServer.Http.MessageLoop

/-!
# Handling does not see how the stream was cut into reads

Runs of read and write events on one connection. A connection that has stopped answering keeps
reading, and throws away or leaves lying what it reads, but nothing more is queued.
-/

namespace TinyWebServer

open ParseLoop

namespace Session

variable (env : ServerEnv)

/-! ### Runs -/

/-- What the loop reports about the descriptor. -/
inductive InputEvent where
  /-- Readable: the blocks that `read` returns before `EAGAIN`. -/
  | read (blocks : List Bytes)
  | writeReady

def InputEvent.bytes : InputEvent → Bytes
  | .read blocks => blocks.flatten
  | .writeReady => []

def receive (s : Session) : InputEvent → Session
  | .read blocks => s.handleRead (some (onMessage env)) (blocks.map .data)
  | .writeReady => s.handleWrite

def receiveAll (s : Session) (events : List InputEvent) : Session := events.foldl (receive env) s

/-- A connection that waits for the first byte of a request. -/
structure Idle (s : Session) : Prop where
  isConnected : s.conn.isConnected
  inputBuffer : s.conn.inputBuffer = []
  httpParser : s.conn.httpParser = .reset

/-- Bytes have joined the input buffer; the callback has not seen them yet. -/
structure Receives (more : Bytes) (s t : Session) : Prop where
  queues : Queues [] s t
  inputBuffer : t.conn.inputBuffer = s.conn.inputBuffer ++ more
  httpParser : t.conn.httpParser = s.conn.httpParser
  resources : t.resources = s.resources

lemma TimersOnly.receives {s t : Session} (h : TimersOnly s t) : Receives [] s t := by
  have hkeeps := h.keepsInput
  exact ⟨h.queues, by rw [hkeeps.inputBuffer, List.append_nil], hkeeps.httpParser,
    hkeeps.resources⟩

lemma Receives.trans {more more' : Bytes} {s t u : Session} (h : Receives more s t)
    (h' : Receives more' t u) : Receives (more ++ more') s u :=
  ⟨h.queues.trans h'.queues, by rw [h'.inputBuffer, h.inputBuffer, List.append_assoc],
    h'.httpParser.trans h.httpParser, h'.resources.trans h.resources⟩

lemma receives_readAll (s : Session) (blocks : List Bytes) :
    Receives blocks.flatten s (s.readAll (blocks.map .data)) := by
  induction blocks generalizing s with
  | nil => exact (TimersOnly.refl s).receives
  | cons block blocks ih =>
    have hblock : Receives block s
        { s with conn := { s.conn with inputBuffer := s.conn.inputBuffer ++ block } } :=
      ⟨⟨rfl, (List.append_nil _).symm⟩, rfl, rfl, rfl⟩
    have htimers := hblock.trans (timersOnly_updateActivityTimestamp _).receives
    rw [List.append_nil] at htimers
    exact htimers.trans (ih _)

/-- A read event: the bytes join the buffer, and the callback runs if the buffer holds any. -/
lemma receive_read (s : Session) (blocks : List Bytes) :
    ∃ t, Receives blocks.flatten s t ∧
      s.receive env (.read blocks) = if t.conn.inputBuffer = [] then t else t.onMessage env := by
  have hread := receives_readAll s blocks
  have hpaused : Receives blocks.flatten s
      (if (s.readAll (blocks.map .data)).conn.checkInputBufferLimit then
        (s.readAll (blocks.map .data)).pauseReading else s.readAll (blocks.map .data)) := by
    split_ifs
    · exact ⟨⟨hread.queues.state, hread.queues.queued⟩, hread.inputBuffer, hread.httpParser,
        hread.resources⟩
    · exact hread
  exact ⟨_, hpaused, rfl⟩

lemma receive_of_not_isConnected {s : Session} (h : ¬ s.conn.isConnected) (blocks : List Bytes) :
    Queues [] s (s.receive env (.read blocks)) := by
  obtain ⟨t, ht, heq⟩ := receive_read env s blocks
  rw [heq]
  split_ifs
  · exact ht.queues
  · have hstopped := not_isConnected_of_queues ht.queues h
    exact ht.queues.trans (onMessage_of_not_isConnected env hstopped).queues

lemma receive_of_closed {s : Session} (h : s.conn.state = .kClosed) (event : InputEvent) :
    (s.receive env event).conn.state = .kClosed := by
  cases event with
  | read blocks =>
    exact (receive_of_not_isConnected env (fun hconn => hconn.1 h) blocks).state.trans h
  | writeReady => exact (keepsInput_handleWrite s).closed h

lemma Answering.receives {st : MessageState} {buffer more : Bytes} {s t : Session}
    (h : Answering st buffer s) (ht : Receives more s t) : Answering st (buffer ++ more) t where
  isConnected := by
    have := h.isConnected
    rwa [Connection.isConnected, ht.queues.state]
  inputBuffer := by rw [ht.inputBuffer, h.inputBuffer]
  resources := ht.resources.trans h.resources
  queued := (queued_of_queues_nil ht.queues).trans h.queued
  live := h.live

/-- A read event takes the session where the abstract loop goes when it is fed the bytes. -/
lemma follows_receive_read {st : MessageState} {buffer : Bytes} {s : Session}
    (h : Follows ((MessageState.machine env).drain st buffer) s) (blocks : List Bytes) :
    (s.receive env (.read blocks)).conn.state = .kClosed ∨
      Follows ((MessageState.machine env).drain st (buffer ++ blocks.flatten))
        (s.receive env (.read blocks)) := by
  have hturn := (MessageState.machine env).turn_drain st buffer
  rw [(MessageState.machine env).drain_append]
  generalize (MessageState.machine env).drain st buffer = o at h hturn ⊢
  obtain ⟨t, ht, heq⟩ := receive_read env s blocks
  cases herror : o.error with
  | none =>
    rw [herror] at hturn
    rw [Follows, herror] at h
    have hanswering := h.1.receives ht
    have hparser := ht.httpParser.trans h.2
    rw [heq]
    by_cases hempty : t.conn.inputBuffer = []
    · have hnil : o.rest ++ blocks.flatten = [] := hanswering.inputBuffer.symm.trans hempty
      have hwait : (MessageState.machine env).turn o.state (o.rest ++ blocks.flatten) = .wait := by
        rw [hnil, ← (List.append_eq_nil_iff.mp hnil).1]
        exact hturn
      rw [if_pos hempty, (MessageState.machine env).drain_of_wait hwait]
      exact Or.inr ⟨hanswering, hparser⟩
    · rw [if_neg hempty]
      exact follows_onMessage env o.state _ t hanswering hparser
  | some error =>
    rw [herror] at hturn
    have hfail := (MessageState.machine env).fail_append blocks.flatten hturn
    rw [(MessageState.machine env).drain_of_fail hfail]
    rw [Follows, herror] at h
    right
    cases error with
    | done =>
      have hqueues := receive_of_not_isConnected env h.1 blocks
      exact ⟨not_isConnected_of_queues hqueues h.1, (queued_of_queues_nil hqueues).trans h.2⟩
    | malformed =>
      have hqueues := receive_of_not_isConnected env h.1 blocks
      exact ⟨not_isConnected_of_queues hqueues h.1, (queued_of_queues_nil hqueues).trans h.2⟩
    | thrown =>
      obtain ⟨hanswering, hparsed⟩ := h
      have hverdict := MessageState.verdict_turn env hanswering.live o.rest
      rw [show o.state.turn env o.rest = .fail .thrown from hturn] at hverdict
      cases hverdict with
      | thrown hfind hparse hanswer =>
        have hrequest := (Prod.mk.inj (hparsed.symm.trans hparse)).2
        have hfind' := Bytes.find_append blocks.flatten hfind
        have hagain : t.conn.httpParser.parse (o.rest ++ blocks.flatten) =
            (true, s.conn.httpParser) := by
          rw [ht.httpParser, HttpRequest.parse_append _ hfind]
          exact HttpRequest.parse_parse hparsed
        rw [← hrequest] at hanswer
        obtain ⟨hafter, hkept⟩ := onMessage_of_thrown env (hanswering.receives ht) hfind' hagain
          hanswer
        have hne : t.conn.inputBuffer ≠ [] := by
          rw [ht.inputBuffer, hanswering.inputBuffer]
          intro hnil
          rw [hnil] at hfind'
          cases hfind'
        rw [heq, if_neg hne]
        refine ⟨hafter, ?_⟩
        rw [hkept, HttpRequest.parse_append _ hfind]
        exact hparsed

lemma follows_handleWrite {o : Outcome MessageState UInt8 MessageStop} {s : Session}
    (h : Follows o s) : s.handleWrite.conn.state = .kClosed ∨ Follows o s.handleWrite := by
  refine (handleWrite_queues s).imp_right fun hqueues => ?_
  have hkeeps := keepsInput_handleWrite s
  have hreceives : Receives [] s s.handleWrite :=
    ⟨hqueues, by rw [hkeeps.inputBuffer, List.append_nil], hkeeps.httpParser, hkeeps.resources⟩
  have hanswering := fun h : Answering o.state o.rest s => h.receives hreceives
  have hstopped : ¬ s.conn.isConnected ∧ s.queued = o.state.log →
      ¬ s.handleWrite.conn.isConnected ∧ s.handleWrite.queued = o.state.log :=
    fun h => ⟨not_isConnected_of_queues hqueues h.1, (queued_of_queues_nil hqueues).trans h.2⟩
  rw [List.append_nil] at hanswering
  rw [Follows] at h ⊢
  cases herror : o.error with
  | none =>
    rw [herror] at h
    exact ⟨hanswering h.1, hkeeps.httpParser.trans h.2⟩
  | some error =>
    rw [herror] at h
    cases error with
    | done => exact hstopped h
    | malformed => exact hstopped h
    | thrown => exact ⟨hanswering h.1, by rw [hkeeps.httpParser]; exact h.2⟩

/-- The abstract loop before the first byte. -/
def start (s : Session) : MessageState := ⟨s.queued, true, s.resources⟩

/-- A run that has not closed the connection is where the abstract loop is after all the bytes. -/
theorem follows_receiveAll {s : Session} (h : s.Idle) (events : List InputEvent)
    (hopen : (s.receiveAll env events).conn.state ≠ .kClosed) :
    Follows ((MessageState.machine env).drain s.start (events.flatMap InputEvent.bytes))
      (s.receiveAll env events) := by
  induction events using List.reverseRecOn with
  | nil =>
    have hwait : (MessageState.machine env).turn s.start [] = .wait := rfl
    rw [List.flatMap_nil, (MessageState.machine env).drain_of_wait hwait]
    exact ⟨⟨h.isConnected, h.inputBuffer, rfl, rfl, rfl⟩, h.httpParser⟩
  | append_singleton events event ih =>
    have hlast : s.receiveAll env (events ++ [event]) =
        (s.receiveAll env events).receive env event := by
      simp [receiveAll]
    rw [hlast] at hopen ⊢
    have hfollows := ih fun hclosed => hopen (receive_of_closed env hclosed event)
    rw [List.flatMap_append, List.flatMap_singleton]
    cases event with
    | read blocks => exact (follows_receive_read env hfollows blocks).resolve_left hopen
    | writeReady =>
      rw [InputEvent.bytes, List.append_nil]
      exact (follows_handleWrite hfollows).resolve_left hopen

lemma Follows.queued {o : Outcome MessageState UInt8 MessageStop} {s : Session}
    (h : Follows o s) : s.queued = o.state.log := by
  rw [Follows] at h
  split at h
  · exact h.1.queued
  · exact h.1.queued
  · exact h.2

lemma Follows.isConnected_iff {o : Outcome MessageState UInt8 MessageStop} {s : Session}
    (h : Follows o s) :
    s.conn.isConnected ↔ o.error = none ∨ o.error = some .thrown := by
  rw [Follows] at h
  split at h
  · next herror => simp [h.1.isConnected, herror]
  · next herror => simp [h.1.isConnected, herror]
  · next error hne herror =>
    have hthrown : error ≠ .thrown := hne
    simp [h.1, herror, hthrown]

/-- However a byte stream is cut into reads, whatever `writev` answers and wherever write events
come in between: the bytes queued for sending, and whether the connection has shut down, are those
of one read of the whole stream. An overflow of the output buffer and a write error would have
closed the connection. -/
theorem queued_independent_of_cut {s : Session} (h : s.Idle) (events : List InputEvent)
    (kernel : ℕ → WriteOutcome)
    (hopen : (s.receiveAll env events).conn.state ≠ .kClosed)
    (hopen' : (({ s with kernel := kernel } : Session).receive env
      (.read [events.flatMap InputEvent.bytes])).conn.state ≠ .kClosed) :
    let whole := ({ s with kernel := kernel } : Session).receive env
      (.read [events.flatMap InputEvent.bytes])
    (s.receiveAll env events).queued = whole.queued ∧
      ((s.receiveAll env events).conn.isConnected ↔ whole.conn.isConnected) := by
  have hcut := follows_receiveAll env h events hopen
  have hidle : ({ s with kernel := kernel } : Session).Idle :=
    ⟨h.isConnected, h.inputBuffer, h.httpParser⟩
  have hwhole := follows_receiveAll env hidle [.read [events.flatMap InputEvent.bytes]] hopen'
  simp only [List.flatMap_singleton, InputEvent.bytes, List.flatten_singleton] at hwhole
  change Follows ((MessageState.machine env).drain s.start
    (events.flatMap InputEvent.bytes)) _ at hwhole
  exact ⟨hcut.queued.trans hwhole.queued.symm,
    hcut.isConnected_iff.trans hwhole.isConnected_iff.symm⟩

/-- A server with one page on its disk. -/
def onePageSite : ServerEnv :=
  { staticRoot := bytes "./public", keepAliveTimeout := 15
    host :=
      { disk := fun path =>
          if path = bytes "./public/index.html" then .regular ⟨bytes "hello", 0, true⟩ else .notFound
        clock := ⟨0, 0⟩
        ctime := ⟨fun _ _ _ => none, fun tm => (-1, tm), fun _ => .zero, fun _ _ => []⟩ } }

/-- The page, an error, and a request that is no longer answered; the cuts are inside the first
head and inside its end. -/
theorem queued_independent_of_cut_pipelined :
    let s := new { Connection.new 0 5 none false with state := .kConnected } fun _ => .again
    let events := [.read [bytes "GET / HT"], .writeReady, .read [bytes "TP/1.1\r\n\r"],
      .read [bytes "\nGET /a HTTP/1.1\r\n\r\nGET", bytes " / HTTP/1.1\r\n\r\n"]]
    let whole := ({ s with kernel := fun _ => .accepted 99 } : Session).receive onePageSite
      (.read [events.flatMap InputEvent.bytes])
    (s.receiveAll onePageSite events).queued = whole.queued ∧
      ((s.receiveAll onePageSite events).conn.isConnected ↔ whole.conn.isConnected) :=
  queued_independent_of_cut onePageSite ⟨by decide, rfl, rfl⟩ _ _ (by decide +kernel)
    (by decide +kernel)

end Session

end TinyWebServer
