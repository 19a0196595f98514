import TinyWebServer.Http.Persistence
import TinyWebServer.Net.BackPressure

/-!
# The books of the output buffer

Handlers queue payloads behind the output buffer and the kernel takes bytes off its front. Nothing
else touches it, so that whatever happens to a connection, what was queued is what was written and
what is held, and no more is held than the limit allows.
-/

namespace TinyWebServer

namespace Session

/-- The limit, the buffer and the bytes on record stay. -/
structure KeepsOutput (s t : Session) : Prop where
  outputBuffer : t.conn.outputBuffer = s.conn.outputBuffer
  config : t.conn.config = s.conn.config
  queued : t.queued = s.queued
  written : t.written = s.written

/-- The acts on the output. A payload can only be queued if `adds` holds. -/
inductive OutputAct (adds : Prop) (s t : Session) : Prop where
  | keep (h : KeepsOutput s t)
  | append (hadds : adds) (data : NodeData)
      (hfits : s.conn.outputBuffer.totalBytes + data.bytes.length ≤ s.conn.maxOutputBuffer)
      (outputBuffer : t.conn.outputBuffer = s.conn.outputBuffer.append data)
      (config : t.conn.config = s.conn.config) (queued : t.queued = s.queued ++ data.bytes)
      (written : t.written = s.written)
  | advance (data : Bytes) (hdata : data <+: s.conn.outputBuffer.held)
      (outputBuffer : t.conn.outputBuffer = s.conn.outputBuffer.advance data.length)
      (config : t.conn.config = s.conn.config) (queued : t.queued = s.queued)
      (written : t.written = s.written ++ data)

/-- A sequence of acts on the output. -/
def OutputActs (adds : Prop) : Session → Session → Prop := Relation.ReflTransGen (OutputAct adds)

/-- The buffer is in order and within its limit, and holds what was queued and is not yet
written. -/
structure Balanced (s : Session) : Prop where
  buffer : s.conn.outputBuffer.Inv
  bytes : s.written ++ s.conn.outputBuffer.held = s.queued
  bound : s.conn.outputBuffer.totalBytes ≤ s.conn.maxOutputBuffer

/-! ### What acts keep -/

lemma maxOutputBuffer_congr {s t : Session} (h : t.conn.config = s.conn.config) :
    t.conn.maxOutputBuffer = s.conn.maxOutputBuffer := by
  rw [Connection.maxOutputBuffer, h, Connection.maxOutputBuffer]

lemma Balanced.act {adds : Prop} {s t : Session} (h : s.Balanced) (hact : OutputAct adds s t) :
    t.Balanced := by
  obtain ⟨hbuffer, hbytes, hbound⟩ := h
  cases hact with
  | keep hkeep =>
    obtain ⟨houtput, hconfig, hqueued, hwritten⟩ := hkeep
    refine ⟨by rwa [houtput], ?_, ?_⟩
    · rw [houtput, hqueued, hwritten, hbytes]
    · rwa [houtput, maxOutputBuffer_congr hconfig]
  | append _ data hfits houtput hconfig hqueued hwritten =>
    have happend := hbuffer.append data
    refine ⟨by rwa [houtput], ?_, ?_⟩
    · rw [houtput, hqueued, hwritten, BufferChain.held_append, ← List.append_assoc, hbytes]
    · rw [houtput, maxOutputBuffer_congr hconfig, happend.totalBytes_eq, BufferChain.held_append,
        List.length_append, ← hbuffer.totalBytes_eq]
      exact hfits
  | advance data hdata houtput hconfig hqueued hwritten =>
    have hlen := hdata.length_le
    obtain ⟨rest, hrest⟩ := hdata
    refine ⟨by rw [houtput]; exact hbuffer.advance hlen, ?_, ?_⟩
    · rw [houtput, hbuffer.held_advance hlen, hqueued, hwritten, List.append_assoc, ← hbytes,
        ← hrest, List.drop_left]
    · rw [houtput, maxOutputBuffer_congr hconfig, (hbuffer.advance hlen).totalBytes_eq,
        hbuffer.held_advance hlen, List.length_drop, ← hbuffer.totalBytes_eq]
      exact (Nat.sub_le _ _).trans hbound

lemma Balanced.acts {adds : Prop} {s t : Session} (h : s.Balanced) (hacts : OutputActs adds s t) :
    t.Balanced := by
  induction hacts with
  | refl => exact h
  | tail _ hlast ih => exact ih.act hlast

/-- Where nothing is added, nothing is queued. -/
lemma OutputActs.queued_eq {s t : Session} (h : OutputActs False s t) : t.queued = s.queued := by
  induction h with
  | refl => rfl
  | tail _ hlast ih =>
    cases hlast with
    | keep hkeep => rw [hkeep.queued, ih]
    | append hadds => exact hadds.elim
    | advance _ _ _ _ hqueued => rw [hqueued, ih]

lemma OutputActs.config_eq {adds : Prop} {s t : Session} (h : OutputActs adds s t) :
    t.conn.config = s.conn.config := by
  induction h with
  | refl => rfl
  | tail _ hlast ih =>
    cases hlast with
    | keep hkeep => rw [hkeep.config, ih]
    | append _ _ _ _ hconfig => rw [hconfig, ih]
    | advance _ _ _ hconfig => rw [hconfig, ih]

/-! ### Handlers are sequences of acts -/

variable {adds : Prop}

lemma OutputAct.acts {s t : Session} (h : OutputAct adds s t) : OutputActs adds s t :=
  Relation.ReflTransGen.single h

lemma OutputActs.refl (s : Session) : OutputActs adds s s := Relation.ReflTransGen.refl

lemma OutputActs.trans {s t u : Session} (h : OutputActs adds s t) (h' : OutputActs adds t u) :
    OutputActs adds s u := Relation.ReflTransGen.trans h h'

lemma KeepsOutput.acts {s t : Session} (h : KeepsOutput s t) : OutputActs adds s t :=
  (OutputAct.keep h).acts

lemma TimersOnly.keepsOutput {s t : Session} (h : TimersOnly s t) : KeepsOutput s t := by
  obtain ⟨_, _, _, _, rfl⟩ := h
  exact ⟨rfl, rfl, rfl, rfl⟩

lemma TimeoutsOnly.keepsOutput {s t : Session} (h : TimeoutsOnly s t) : KeepsOutput s t := by
  obtain ⟨_, _, _, htimers⟩ := h
  obtain ⟨houtput, hconfig, hqueued, hwritten⟩ := htimers.keepsOutput
  exact ⟨houtput, hconfig, hqueued, hwritten⟩

lemma keepsOutput_note (s : Session) {event : Event} (hqueued : event.queuedBytes = [])
    (hwritten : event.writtenBytes = []) : KeepsOutput s (s.note event) :=
  ⟨rfl, rfl, by simp [queued, note, hqueued], by simp [written, note, hwritten]⟩

lemma keepsOutput_noteAll (s : Session) (accessed : List Bytes) :
    KeepsOutput s (s.noteAll (accessed.map .access)) := by
  have hsilent : (accessed.map Event.access).flatMap Event.queuedBytes = [] ∧
      (accessed.map Event.access).flatMap Event.writtenBytes = [] := by
    constructor <;> simp [List.flatMap_map, Event.queuedBytes, Event.writtenBytes]
  exact ⟨rfl, rfl, by simp [queued, noteAll, hsilent], by simp [written, noteAll, hsilent]⟩

lemma keepsOutput_handleClose (s : Session) : KeepsOutput s s.handleClose := by
  obtain ⟨wheel, read, write, idle, heq⟩ := handleClose_eq s
  have hwritten : (closeEvents s.conn).flatMap Event.writtenBytes = [] := by
    rw [closeEvents]
    split_ifs <;> rfl
  refine ⟨by rw [heq], by rw [heq], queued_handleClose s, ?_⟩
  rw [heq, written, List.flatMap_append, hwritten, List.append_nil]
  rfl

lemma keepsOutput_shutdownInLoop (s : Session) : KeepsOutput s s.shutdownInLoop := by
  rw [shutdownInLoop]
  split_ifs
  · exact keepsOutput_note s rfl rfl
  · exact ⟨rfl, rfl, rfl, rfl⟩

lemma keepsOutput_enterState (s : Session) (newState : ConnState) :
    KeepsOutput s (s.enterState newState) := by
  obtain ⟨wheel, read, write, idle, heq⟩ := enterState_eq s newState
  rw [heq]
  exact ⟨rfl, rfl, rfl, rfl⟩

lemma outputActs_shutdown (s : Session) : OutputActs adds s s.shutdown := by
  by_cases hconn : s.conn.isConnected
  · rw [shutdown_eq hconn]
    exact (keepsOutput_enterState s .kClosing).acts.trans (keepsOutput_shutdownInLoop _).acts
  · rw [shutdown_of_not_isConnected hconn]
    exact .refl s

lemma outputActs_close (s : Session) (reason : Error) (sysErrno : ℤ) :
    OutputActs adds s (s.close reason sysErrno) := by
  have hdisable : OutputActs adds s s.disableAllTimeouts :=
    (timeoutsOnly_disableAllTimeouts s).keepsOutput.acts
  rcases close_cases s reason sysErrno with heq | heq | ⟨-, heq⟩
  · rw [heq]
    exact .refl s
  · rw [heq]
    exact hdisable.trans (keepsOutput_handleClose _).acts
  · rw [heq]
    exact hdisable.trans (outputActs_shutdown _)

lemma outputActs_onTimeout (s : Session) (timeoutType : TimeoutType) :
    OutputActs adds s (s.onTimeout timeoutType) := by
  have hactive : KeepsOutput s { s with conn := s.conn.setTimeoutActive false timeoutType } := by
    cases timeoutType <;> exact ⟨rfl, rfl, rfl, rfl⟩
  rw [onTimeout_eq]
  exact hactive.acts.trans (keepsOutput_handleClose _).acts

/-- What `writev` took goes off the buffer; the rest of the handler is about timers, interest and
the end of the connection. -/
lemma outputActs_handleWrite (s : Session) : OutputActs adds s s.handleWrite := by
  have hnext : KeepsOutput s s.nextAnswer := ⟨rfl, rfl, rfl, rfl⟩
  rcases handleWrite_cases s with ⟨-, heq⟩ | ⟨-, -, ⟨n, -, heq⟩ | ⟨-, heq⟩ | ⟨-, heq⟩⟩
  · rw [heq]
    exact .refl s
  · rw [heq]
    have hdata : (s.conn.outputBuffer.getIov 16).flatten.take (n + 1) <+:
        s.conn.outputBuffer.held :=
      (List.take_prefix _ _).trans (s.conn.outputBuffer.getIov_prefix 16)
    generalize (s.conn.outputBuffer.getIov 16).flatten.take (n + 1) = data at hdata ⊢
    obtain ⟨t, htimers, hafter⟩ := afterWrite_eq (s.nextAnswer.note (.written data)) data.length
    have htaken : OutputAct adds s { s.nextAnswer.note (.written data) with
        conn := { s.conn with outputBuffer := s.conn.outputBuffer.advance data.length } } := by
      refine .advance data hdata rfl rfl ?_ ?_
      · simp [queued, note, nextAnswer, Event.queuedBytes]
      · simp [written, note, nextAnswer, Event.writtenBytes]
    have hupdate : ∀ events, KeepsOutput t (t.updateEvent events) := fun _ => ⟨rfl, rfl, rfl, rfl⟩
    have hrest : OutputActs adds t
        ((s.nextAnswer.note (.written data)).afterWrite data.length) := by
      rw [hafter]
      dsimp only
      split_ifs
      · exact (hupdate _).acts.trans (keepsOutput_shutdownInLoop _).acts
      · exact (hupdate _).acts
      · exact (hupdate _).acts
    exact (htaken.acts.trans htimers.keepsOutput.acts).trans hrest
  · rw [heq]
    exact hnext.acts.trans (KeepsOutput.acts ⟨rfl, rfl, rfl, rfl⟩)
  · rw [heq]
    exact hnext.acts.trans (keepsOutput_handleClose _).acts

/-- The limit is looked at before a payload is queued. -/
lemma outputActs_appendInLoop (hadds : adds) (s : Session) (data : NodeData) :
    OutputActs adds s (s.appendInLoop data) := by
  rw [appendInLoop]
  split_ifs with hnil hfull
  · exact .refl s
  · exact (keepsOutput_handleClose s).acts
  · have happend : OutputAct adds s (s.appended data) := by
      refine .append hadds data (not_lt.mp hfull) rfl rfl (queued_appended s data) ?_
      simp [appended, written, note, Event.writtenBytes]
    exact happend.acts.trans (outputActs_handleWrite _)

lemma outputActs_send (hadds : adds) (s : Session) (data : Bytes) :
    OutputActs adds s (s.send data) := by
  rw [send]
  split_ifs
  · exact outputActs_appendInLoop hadds s _
  · exact .refl s

lemma outputActs_sendResource (hadds : adds) (s : Session) (resource : StaticResource) :
    OutputActs adds s (s.sendResource resource) := by
  rw [sendResource]
  split_ifs
  · exact outputActs_appendInLoop hadds s _
  · exact .refl s

/-- The public functions that queue something. -/
def Sends : ConnOp → Prop
  | .send _ => True
  | .sendResource _ => True
  | _ => False

lemma outputActs_operate (s : Session) {op : ConnOp} (hadds : Sends op → adds) :
    OutputActs adds s (s.operate op) := by
  cases op with
  | send data => exact outputActs_send (hadds trivial) s data
  | sendResource resource => exact outputActs_sendResource (hadds trivial) s resource
  | shutdown => exact outputActs_shutdown s
  | close reason sysErrno => exact outputActs_close s reason sysErrno
  | setReadTimeout seconds => exact (timeoutsOnly_setTimeout s seconds .read).keepsOutput.acts
  | setWriteTimeout seconds => exact (timeoutsOnly_setTimeout s seconds .write).keepsOutput.acts
  | setIdleTimeout seconds => exact (timeoutsOnly_setTimeout s seconds .idle).keepsOutput.acts
  | resetIdleTimeout => exact (timersOnly_resetIdleTimeout s).keepsOutput.acts
  | disableAllTimeouts => exact (timeoutsOnly_disableAllTimeouts s).keepsOutput.acts
  | clearReadBuffer => exact KeepsOutput.acts ⟨rfl, rfl, rfl, rfl⟩
  | onRequestStart keepAlive idleTimeout =>
    rw [operate, onRequestStart]
    split_ifs
    · exact KeepsOutput.acts ⟨rfl, rfl, rfl, rfl⟩
    · exact .refl s
  | onRequestComplete =>
    rw [operate, onRequestComplete_eq]
    exact .refl s
  | setInput inputBuffer httpParser => exact KeepsOutput.acts ⟨rfl, rfl, rfl, rfl⟩

/-! ### The message callback -/

section

variable (env : ServerEnv)

lemma keepsOutput_accepting (s : Session) (request : HttpRequest) :
    KeepsOutput s (s.accepting env request) := by
  obtain ⟨keepAlive, heq⟩ := accepting_eq env s request
  rw [heq]
  exact ⟨rfl, rfl, by simp [queued, Event.queuedBytes], by simp [written, Event.writtenBytes]⟩

lemma outputActs_responding (s : Session) (request : HttpRequest) (response : HttpResponse)
    (resources : StaticResourceManager) (accessed : List Bytes) :
    OutputActs adds s (s.responding env request response resources accessed) := by
  have hshared : KeepsOutput (s.accepting env request)
      { s.accepting env request with resources := resources } := ⟨rfl, rfl, rfl, rfl⟩
  have haccess := keepsOutput_noteAll { s.accepting env request with resources := resources }
    accessed
  exact (((keepsOutput_accepting env s request).acts.trans hshared.acts).trans haccess.acts).trans
    (keepsOutput_note _ rfl rfl).acts

lemma outputActs_sendResponse (hadds : adds) (s : Session) (response : HttpResponse) :
    OutputActs adds s (s.sendResponse response) := by
  rw [sendResponse]
  cases response.fileBody with
  | some resource =>
    exact (outputActs_send hadds s _).trans (outputActs_sendResource hadds _ resource)
  | none => exact (outputActs_send hadds s _).trans (outputActs_send hadds _ _)

lemma outputActs_messageTurn (hadds : adds) (s : Session) :
    OutputActs adds s (s.messageTurn env).1 := by
  have hinput : ∀ (t : Session) inputBuffer httpParser,
      OutputActs adds t (t.setInput inputBuffer httpParser) :=
    fun t _ _ => KeepsOutput.acts ⟨rfl, rfl, rfl, rfl⟩
  cases hfind : Bytes.find headEnd s.conn.inputBuffer with
  | none =>
    rw [show s.messageTurn env = (s, false) by simp only [messageTurn, hfind]]
    exact .refl s
  | some headerEnd =>
    have hparse : OutputActs adds s (s.note (.parse s.conn.inputBuffer)) :=
      (keepsOutput_note s rfl rfl).acts
    rw [messageTurn_of_find env hfind]
    split_ifs
    · apply hparse.trans
      rcases handleRequest_cases env (s.note (.parse s.conn.inputBuffer)) headerEnd
          (s.conn.httpParser.parse s.conn.inputBuffer).2 with
        ⟨accessed, -, heq⟩ | ⟨response, resources, accessed, -, heq⟩
      · rw [heq]
        exact (keepsOutput_accepting env _ _).acts.trans (keepsOutput_noteAll _ accessed).acts
      · have hanswered : OutputActs adds (s.note (.parse s.conn.inputBuffer))
            ((s.note (.parse s.conn.inputBuffer)).answered env headerEnd
              (s.conn.httpParser.parse s.conn.inputBuffer).2 response resources accessed) :=
          ((outputActs_responding env _ _ response resources accessed).trans
            (outputActs_sendResponse hadds _ response)).trans (hinput _ _ _)
        rcases heq with heq | heq
        · rw [heq]
          exact hanswered.trans (outputActs_shutdown _)
        · rw [heq]
          exact hanswered
    · exact (hparse.trans (hinput _ _ _)).trans (outputActs_shutdown _)

lemma outputActs_onMessage (hadds : adds) (s : Session) : OutputActs adds s (s.onMessage env) :=
  onMessage_induction env (P := fun s t => OutputActs adds s t)
    (fun s _ => outputActs_messageTurn env hadds s)
    (fun s _ _ ih => (outputActs_messageTurn env hadds s).trans ih) s

/-! ### Everything that happens to a connection -/

lemma outputActs_readAll (s : Session) (reads : List ReadResult) :
    OutputActs adds s (s.readAll reads) := by
  induction reads generalizing s with
  | nil => exact .refl s
  | cons read reads ih =>
    cases read with
    | data data =>
      have hinput : KeepsOutput s
          { s with conn := { s.conn with inputBuffer := s.conn.inputBuffer ++ data } } :=
        ⟨rfl, rfl, rfl, rfl⟩
      exact (hinput.acts.trans (timersOnly_updateActivityTimestamp _).keepsOutput.acts).trans (ih _)
    | eof => exact (keepsOutput_handleClose s).acts
    | again => exact .refl s
    | failed => exact (keepsOutput_handleClose s).acts

lemma outputActs_filled (s : Session) (reads : List ReadResult) :
    OutputActs adds s (s.filled reads) := by
  rw [filled]
  split_ifs
  · exact (outputActs_readAll s reads).trans (KeepsOutput.acts ⟨rfl, rfl, rfl, rfl⟩)
  · exact outputActs_readAll s reads

lemma outputActs_occur (s : Session) (event : ConnectionEvent) :
    OutputActs True s (s.occur env event) := by
  cases event with
  | read reads =>
    change OutputActs True s (if (s.filled reads).conn.inputBuffer = [] then s.filled reads
      else (s.filled reads).onMessage env)
    split_ifs
    · exact outputActs_filled s reads
    · exact (outputActs_filled s reads).trans (outputActs_onMessage env trivial _)
  | write => exact outputActs_handleWrite s
  | operate op => exact outputActs_operate s fun _ => trivial
  | timeout timeoutType => exact outputActs_onTimeout s timeoutType
  | elsewhere loop keepAlive resources kernel => exact KeepsOutput.acts ⟨rfl, rfl, rfl, rfl⟩

end

/-- Something happens to a connection while the server finds its surroundings as they are. -/
abbrev Moment := ServerEnv × ConnectionEvent

def after (s : Session) (moments : List Moment) : Session :=
  moments.foldl (fun s moment => s.occur moment.1 moment.2) s

lemma outputActs_after (s : Session) (moments : List Moment) :
    OutputActs True s (s.after moments) := by
  induction moments generalizing s with
  | nil => exact .refl s
  | cons moment moments ih => exact (outputActs_occur moment.1 s moment.2).trans (ih _)

lemma keepsOutput_transition (s : Session) (newState : ConnState) :
    KeepsOutput s (s.transition newState) := by
  rw [transition]
  split_ifs
  · exact keepsOutput_enterState s newState
  · obtain ⟨houtput, hconfig, hqueued, hwritten⟩ :=
      keepsOutput_handleClose { s with conn := { s.conn with state := .kClosing } }
    exact ⟨houtput, hconfig, hqueued, hwritten⟩
  · exact ⟨rfl, rfl, rfl, rfl⟩

lemma keepsOutput_connectEstablished (s : Session) : KeepsOutput s s.connectEstablished := by
  obtain ⟨houtput, hconfig, hqueued, hwritten⟩ := keepsOutput_transition s .kConnected
  exact ⟨houtput, hconfig, hqueued, hwritten⟩

variable (id : ℕ) (fd : ℤ) (config : Option LimitsOptions) (hasKeepAliveManager : Bool)
  (kernel : ℕ → WriteOutcome)

lemma keepsOutput_established :
    KeepsOutput (new (Connection.new id fd config hasKeepAliveManager) kernel)
      (established id fd config hasKeepAliveManager kernel) :=
  keepsOutput_connectEstablished _

lemma balanced_established : (established id fd config hasKeepAliveManager kernel).Balanced := by
  have hnew : (new (Connection.new id fd config hasKeepAliveManager) kernel).Balanced :=
    ⟨BufferChain.inv_empty, rfl, Nat.zero_le _⟩
  have hkeep := keepsOutput_established id fd config hasKeepAliveManager kernel
  exact hnew.acts (@KeepsOutput.acts True _ _ hkeep)

/-- Whatever happens to a connection, it never holds more output than its limit allows, and what
the kernel took is the front of what was queued, with the rest still held. -/
theorem output_bounded (moments : List Moment) :
    let s := (established id fd config hasKeepAliveManager kernel).after moments
    s.conn.outputBuffer.totalBytes = s.conn.outputBuffer.held.length ∧
      s.conn.outputBuffer.totalBytes ≤
        config.elim ConnectionLimits.kMaxOutputBuffer (·.maxOutputBuffer) ∧
      s.written ++ s.conn.outputBuffer.held = s.queued := by
  have hstart := keepsOutput_established id fd config hasKeepAliveManager kernel
  have hacts := outputActs_after (established id fd config hasKeepAliveManager kernel) moments
  obtain ⟨hbuffer, hbytes, hbound⟩ :=
    (balanced_established id fd config hasKeepAliveManager kernel).acts hacts
  have hconfig := hacts.config_eq.trans hstart.config
  rw [Connection.maxOutputBuffer, hconfig] at hbound
  exact ⟨hbuffer.totalBytes_eq, hbound, hbytes⟩

end Session

end TinyWebServer
