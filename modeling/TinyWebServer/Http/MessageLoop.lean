import TinyWebServer.Http.OnMessage
import TinyWebServer.Library.ParseLoop

/-!
# The message loop as a parse loop

The message loop refines a parse loop in the sense of `ParseLoop`, whose state is the bytes queued
so far, for as long as the connection is open.
-/

namespace TinyWebServer

open ParseLoop

/-- The body that goes out behind the header. -/
def HttpResponse.body (response : HttpResponse) : Bytes :=
  response.fileBody.elim response.bodyString (·.content)

/-! ### The abstract loop -/

/-- Why the loop stopped for good. -/
inductive MessageStop where
  /-- A response was an error. -/
  | done
  | malformed
  /-- The file system threw. -/
  | thrown
  deriving DecidableEq

/-- What the abstract loop knows: the bytes queued so far, whether it still answers, and the
cache. -/
structure MessageState where
  log : Bytes
  live : Bool
  resources : StaticResourceManager

namespace MessageState

variable (env : ServerEnv)

/-- A response joins the queue. -/
def answered (st : MessageState) (response : HttpResponse) (resources : StaticResourceManager) :
    MessageState :=
  { log := st.log ++ (response.headerString ++ response.body), live := response.code < 400
    resources := resources }

/-- One turn: the head at the front of the buffer is parsed from scratch. -/
def turn (st : MessageState) (buffer : Bytes) : Turn MessageState MessageStop :=
  if ¬ st.live then .fail .done
  else
    match Bytes.find headEnd buffer with
    | none => .wait
    | some headerEnd =>
      match HttpRequest.reset.parse buffer with
      | (false, _) => .fail .malformed
      | (true, request) =>
        match (env.answer st.resources request).1 with
        | none => .fail .thrown
        | some (response, resources) =>
          .consume (headerEnd + 4) (st.answered response resources)

lemma turn_append {st : MessageState} {buffer : Bytes} (more : Bytes)
    (h : st.turn env buffer ≠ .wait) : st.turn env (buffer ++ more) = st.turn env buffer := by
  simp only [turn] at h ⊢
  by_cases hlive : st.live = true
  · rw [if_neg (not_not.mpr hlive)] at h ⊢
    cases hfind : Bytes.find headEnd buffer with
    | none =>
      rw [hfind] at h
      exact absurd rfl h
    | some headerEnd =>
      rw [Bytes.find_append more hfind, HttpRequest.parse_append more hfind,
        if_neg (not_not.mpr hlive)]
  · rw [if_pos hlive, if_pos hlive]

/-- A response that is an error is the last one. -/
lemma turn_answered (st : MessageState) {response : HttpResponse}
    (resources : StaticResourceManager) (h : 400 ≤ response.code) (buffer : Bytes) :
    (st.answered response resources).turn env buffer = .fail .done := by
  rw [turn, if_pos]
  simpa [answered] using h

/-- The ways a turn of a live loop can go. -/
inductive Verdict (st : MessageState) (buffer : Bytes) : Turn MessageState MessageStop → Prop where
  | wait (hfind : Bytes.find headEnd buffer = none) : Verdict st buffer .wait
  | malformed {headerEnd : ℕ} {request : HttpRequest}
      (hfind : Bytes.find headEnd buffer = some headerEnd)
      (hparse : HttpRequest.reset.parse buffer = (false, request)) :
      Verdict st buffer (.fail .malformed)
  | thrown {headerEnd : ℕ} {request : HttpRequest} {accessed : List Bytes}
      (hfind : Bytes.find headEnd buffer = some headerEnd)
      (hparse : HttpRequest.reset.parse buffer = (true, request))
      (hanswer : env.answer st.resources request = (none, accessed)) :
      Verdict st buffer (.fail .thrown)
  | answered {headerEnd : ℕ} {request : HttpRequest} {response : HttpResponse}
      {resources : StaticResourceManager} {accessed : List Bytes}
      (hfind : Bytes.find headEnd buffer = some headerEnd)
      (hparse : HttpRequest.reset.parse buffer = (true, request))
      (hanswer : env.answer st.resources request = (some (response, resources), accessed)) :
      Verdict st buffer (.consume (headerEnd + 4) (st.answered response resources))

lemma verdict_turn {st : MessageState} (hlive : st.live = true) (buffer : Bytes) :
    Verdict env st buffer (st.turn env buffer) := by
  rw [turn, if_neg (not_not.mpr hlive)]
  cases hfind : Bytes.find headEnd buffer with
  | none => exact .wait hfind
  | some headerEnd =>
    cases hparse : HttpRequest.reset.parse buffer with
    | mk parsed request =>
      cases parsed with
      | false => exact .malformed hfind hparse
      | true =>
        cases hanswer : env.answer st.resources request with
        | mk result accessed =>
          cases result with
          | none =>
            simp only [hanswer]
            exact .thrown hfind hparse hanswer
          | some result =>
            simp only [hanswer]
            exact .answered hfind hparse hanswer

lemma turn_consume {st st' : MessageState} {buffer : Bytes} {n : ℕ}
    (h : st.turn env buffer = .consume n st') : 0 < n ∧ n ≤ buffer.length := by
  by_cases hlive : st.live = true
  · have hverdict := verdict_turn env hlive buffer
    rw [h] at hverdict
    cases hverdict with
    | answered hfind hparse hanswer =>
      exact ⟨Nat.succ_pos _, Bytes.find_add_length_le hfind⟩
  · rw [turn, if_pos hlive] at h
    cases h

/-- The loop of the message callback as a parse loop. -/
def machine : Machine MessageState UInt8 MessageStop where
  turn := turn env
  consume_pos := turn_consume env
  consume_append := by
    intro s buf n t more h
    rw [turn_append env more (by rw [h]; simp), h]
  fail_append := by
    intro s buf e more h
    rw [turn_append env more (by rw [h]; simp), h]

end MessageState

namespace Session

variable (env : ServerEnv)

/-! ### A connection that has stopped -/

lemma sendResponse_of_not_isConnected {s : Session} (h : ¬ s.conn.isConnected)
    (response : HttpResponse) : s.sendResponse response = s := by
  rw [sendResponse, send_of_not_isConnected h]
  cases response.fileBody with
  | some resource => exact sendResource_of_not_isConnected h resource
  | none => exact send_of_not_isConnected h _

lemma queued_of_queues_nil {s t : Session} (h : Queues [] s t) : t.queued = s.queued := by
  rw [h.queued, List.append_nil]

lemma not_isConnected_of_queues {payload : Bytes} {s t : Session} (h : Queues payload s t)
    (hs : ¬ s.conn.isConnected) : ¬ t.conn.isConnected := by
  rwa [Connection.isConnected, h.state]

/-- The connection is as it was, but for its input and for what others share with it. -/
structure Rests (s t : Session) : Prop where
  queues : Queues [] s t
  fd : t.conn.fd = s.conn.fd
  loop : t.loop = s.loop

lemma Rests.refl (s : Session) : Rests s s := ⟨Queues.refl s, rfl, rfl⟩

lemma Rests.trans {s t u : Session} (h : Rests s t) (h' : Rests t u) : Rests s u :=
  ⟨h.queues.trans h'.queues, h'.fd.trans h.fd, h'.loop.trans h.loop⟩

/-- Nothing is queued before a response is ready to be sent. -/
lemma accepting_rests (s : Session) (request : HttpRequest) (accessed : List Bytes) :
    Rests s ((s.accepting env request).noteAll (accessed.map .access)) := by
  obtain ⟨keepAlive, heq⟩ := accepting_eq env s request
  rw [heq]
  refine ⟨⟨rfl, ?_⟩, rfl, rfl⟩
  simp [queued, noteAll, List.flatMap_map, Event.queuedBytes]

lemma responding_rests (s : Session) (request : HttpRequest) (response : HttpResponse)
    (resources : StaticResourceManager) (accessed : List Bytes) :
    Rests s (s.responding env request response resources accessed) := by
  obtain ⟨keepAlive, heq⟩ := responding_eq env s request response resources accessed
  rw [heq]
  refine ⟨⟨rfl, ?_⟩, rfl, rfl⟩
  simp [queued, List.flatMap_map, Event.queuedBytes]

lemma rests_setInput (s : Session) (inputBuffer : Bytes) (httpParser : HttpRequest) :
    Rests s (s.setInput inputBuffer httpParser) :=
  ⟨⟨rfl, (List.append_nil _).symm⟩, rfl, rfl⟩

lemma shutdown_setInput_of_not_isConnected {s : Session} (h : ¬ s.conn.isConnected)
    (inputBuffer : Bytes) (httpParser : HttpRequest) :
    Rests s (s.setInput inputBuffer httpParser).shutdown := by
  have hstopped : ¬ (s.setInput inputBuffer httpParser).conn.isConnected := h
  rw [shutdown_of_not_isConnected hstopped]
  exact rests_setInput s inputBuffer httpParser

lemma handleRequest_of_not_isConnected {s : Session} (h : ¬ s.conn.isConnected) (headerEnd : ℕ)
    (request : HttpRequest) : Rests s (s.handleRequest env headerEnd request).1 := by
  rcases handleRequest_cases env s headerEnd request with
    ⟨accessed, -, heq⟩ | ⟨response, resources, accessed, -, heq⟩
  · rw [heq]
    exact accepting_rests env s request accessed
  · have hready := responding_rests env s request response resources accessed
    have hstopped := not_isConnected_of_queues hready.queues h
    rw [answered, sendResponse_of_not_isConnected hstopped] at heq
    rcases heq with heq | heq
    · rw [heq]
      exact hready.trans (shutdown_setInput_of_not_isConnected hstopped _ _)
    · rw [heq]
      exact hready.trans (rests_setInput _ _ _)

lemma messageTurn_of_not_isConnected {s : Session} (h : ¬ s.conn.isConnected) :
    Rests s (s.messageTurn env).1 := by
  simp only [messageTurn]
  cases Bytes.find headEnd s.conn.inputBuffer with
  | none => exact Rests.refl s
  | some headerEnd =>
    have hnote : Rests s (s.note (.parse s.conn.inputBuffer)) :=
      ⟨queues_note s (.parse _), rfl, rfl⟩
    have hstopped := not_isConnected_of_queues hnote.queues h
    dsimp only
    split_ifs
    · exact hnote.trans (handleRequest_of_not_isConnected env hstopped headerEnd _)
    · exact hnote.trans (shutdown_setInput_of_not_isConnected hstopped [] _)

/-- A connection that is not connected queues nothing more and leaves its loop alone. -/
lemma onMessage_of_not_isConnected {s : Session} (h : ¬ s.conn.isConnected) :
    Rests s (s.onMessage env) := by
  have hrun := onMessage_induction env
    (P := fun s t => ¬ s.conn.isConnected → Rests s t)
    (fun s _ hs => messageTurn_of_not_isConnected env hs)
    (fun s t _ ih hs => by
      have hturn := messageTurn_of_not_isConnected env hs
      exact hturn.trans (ih (not_isConnected_of_queues hturn.queues hs))) s
  exact hrun h

/-! ### A connection that answers -/

lemma sendResponse_queues {s : Session} (h : s.conn.isConnected) (response : HttpResponse) :
    (s.sendResponse response).conn.state = .kClosed ∨
      Queues (response.headerString ++ response.body) s (s.sendResponse response) := by
  rw [sendResponse, HttpResponse.body]
  rcases send_queues h response.headerString with hclosed | hheader
  · left
    cases response.fileBody with
    | some resource => exact (keepsInput_sendResource _ resource).closed hclosed
    | none => exact (keepsInput_send _ _).closed hclosed
  · have hconn : (s.send response.headerString).conn.isConnected := by
      rwa [Connection.isConnected, hheader.state]
    cases response.fileBody with
    | some resource => exact (sendResource_queues hconn resource).imp_right hheader.trans
    | none => exact (send_queues hconn response.bodyString).imp_right hheader.trans

/-- The session answers, and has what the abstract loop has. -/
structure Answering (st : MessageState) (buffer : Bytes) (s : Session) : Prop where
  isConnected : s.conn.isConnected
  inputBuffer : s.conn.inputBuffer = buffer
  resources : s.resources = st.resources
  queued : s.queued = st.log
  live : st.live = true

/-- Between two reads a session that is not closed follows the abstract loop. Where the file
system threw, the parser still holds the head that the buffer begins with. -/
def Follows (o : Outcome MessageState UInt8 MessageStop) (s : Session) : Prop :=
  match o.error with
  | none => Answering o.state o.rest s ∧ s.conn.httpParser = .reset
  | some .thrown =>
    Answering o.state o.rest s ∧ HttpRequest.reset.parse o.rest = (true, s.conn.httpParser)
  | some _ => ¬ s.conn.isConnected ∧ s.queued = o.state.log

lemma messageTurn_of_find {s : Session} {headerEnd : ℕ}
    (h : Bytes.find headEnd s.conn.inputBuffer = some headerEnd) :
    s.messageTurn env =
      if (s.conn.httpParser.parse s.conn.inputBuffer).1 then
        (s.note (.parse s.conn.inputBuffer)).handleRequest env headerEnd
          (s.conn.httpParser.parse s.conn.inputBuffer).2
      else ((s.note (.parse s.conn.inputBuffer)).handleMalformed
        (s.conn.httpParser.parse s.conn.inputBuffer).2, false) := by
  simp only [messageTurn, h]

lemma onMessage_of_find_none {s : Session} (h : Bytes.find headEnd s.conn.inputBuffer = none) :
    s.onMessage env = s := by
  have hstop : s.messageTurn env = (s, false) := by simp only [messageTurn, h]
  rw [onMessage_eq, hstop, if_neg (by simp)]

/-- Where the file system throws, the connection stays as it is, with the head in its parser. -/
lemma onMessage_of_thrown {st : MessageState} {buffer : Bytes} {s : Session}
    (h : Answering st buffer s) {headerEnd : ℕ} (hfind : Bytes.find headEnd buffer = some headerEnd)
    {request : HttpRequest} (hparse : s.conn.httpParser.parse buffer = (true, request))
    {accessed : List Bytes} (hanswer : env.answer st.resources request = (none, accessed)) :
    Answering st buffer (s.onMessage env) ∧ (s.onMessage env).conn.httpParser = request := by
  have hfind' : Bytes.find headEnd s.conn.inputBuffer = some headerEnd := by rwa [h.inputBuffer]
  have hanswer' : env.answer (s.note (.parse s.conn.inputBuffer)).resources request =
      (none, accessed) := by
    rw [← hanswer, ← h.resources]
    rfl
  obtain ⟨keepAlive, heq⟩ := accepting_eq env (s.note (.parse s.conn.inputBuffer)) request
  have hturn : s.messageTurn env =
      (((s.note (.parse s.conn.inputBuffer)).accepting env request).noteAll
        (accessed.map .access), false) := by
    rw [messageTurn_of_find env hfind', h.inputBuffer, hparse, if_pos rfl, ← h.inputBuffer]
    exact handleRequest_of_none env headerEnd hanswer'
  have hnote := queues_note s (.parse s.conn.inputBuffer)
  have hqueued := (hnote.trans (accepting_rests env _ request accessed).queues).queued
  rw [onMessage_eq, hturn, if_neg (by simp)]
  rw [heq] at hqueued ⊢
  refine ⟨⟨h.isConnected, h.inputBuffer, h.resources, ?_, h.live⟩, rfl⟩
  rw [hqueued, h.queued]
  exact List.append_nil _

/-- A response goes out, or closes the connection. -/
lemma messageTurn_of_answer {st : MessageState} {buffer : Bytes} {s : Session}
    (h : Answering st buffer s) {headerEnd : ℕ} (hfind : Bytes.find headEnd buffer = some headerEnd)
    {request : HttpRequest} (hparse : s.conn.httpParser.parse buffer = (true, request))
    {response : HttpResponse} {resources : StaticResourceManager} {accessed : List Bytes}
    (hanswer : env.answer st.resources request = (some (response, resources), accessed)) :
    (s.messageTurn env).1.conn.state = .kClosed ∨
      (400 ≤ response.code ∧ (s.messageTurn env).2 = false ∧
        ¬ (s.messageTurn env).1.conn.isConnected ∧
        (s.messageTurn env).1.queued = (st.answered response resources).log) ∨
      (response.code < 400 ∧ (s.messageTurn env).2 = true ∧
        Answering (st.answered response resources) (buffer.drop (headerEnd + 4))
          (s.messageTurn env).1 ∧
        (s.messageTurn env).1.conn.httpParser = .reset) := by
  have hfind' : Bytes.find headEnd s.conn.inputBuffer = some headerEnd := by rwa [h.inputBuffer]
  have hanswer' : env.answer (s.note (.parse s.conn.inputBuffer)).resources request =
      (some (response, resources), accessed) := by
    rw [← hanswer, ← h.resources]
    rfl
  obtain ⟨keepAlive, heq⟩ := responding_eq env (s.note (.parse s.conn.inputBuffer)) request
    response resources accessed
  let ready := (s.note (.parse s.conn.inputBuffer)).responding env request response resources
    accessed
  have hqueues : Queues [] s ready :=
    (queues_note s (.parse s.conn.inputBuffer)).trans (responding_rests env _ _ _ _ _).queues
  have hready : ready.queued = st.log := (queued_of_queues_nil hqueues).trans h.queued
  have hconn : ready.conn.isConnected := by
    simp only [ready, heq]
    exact h.isConnected
  have hresources : ready.resources = resources := by simp only [ready, heq]
  have hturn : s.messageTurn env =
      if 400 ≤ response.code then
        (((ready.sendResponse response).setInput (buffer.drop (headerEnd + 4)) .reset).shutdown,
          false)
      else ((ready.sendResponse response).setInput (buffer.drop (headerEnd + 4)) .reset, true) := by
    rw [messageTurn_of_find env hfind', h.inputBuffer, hparse, if_pos rfl, ← h.inputBuffer]
    rw [handleRequest_of_some env headerEnd hanswer']
    rfl
  rw [hturn]
  rcases sendResponse_queues hconn response with hclosed | hsent
  · left
    split_ifs
    · exact (keepsInput_shutdown _).closed hclosed
    · exact hclosed
  · right
    have hlog : (ready.sendResponse response).queued = (st.answered response resources).log := by
      rw [hsent.queued, hready]
      rfl
    have hconn' : ((ready.sendResponse response).setInput (buffer.drop (headerEnd + 4))
        .reset).conn.isConnected := by
      change (ready.sendResponse response).conn.isConnected
      rwa [Connection.isConnected, hsent.state]
    by_cases hcode : 400 ≤ response.code
    · left
      rw [if_pos hcode]
      obtain ⟨hstate, hqueued'⟩ := shutdown_queues hconn'
      refine ⟨hcode, rfl, ?_, hqueued'.trans hlog⟩
      rw [Connection.isConnected, hstate]
      simp
    · right
      rw [if_neg hcode]
      refine ⟨by omega, rfl, ⟨hconn', rfl, ?_, hlog, ?_⟩, rfl⟩
      · exact (keepsInput_sendResponse ready response).resources.trans hresources
      · have : response.code < 400 := by omega
        simpa [MessageState.answered] using this

lemma onMessage_of_closed {s : Session} (h : s.conn.state = .kClosed) :
    (s.onMessage env).conn.state = .kClosed :=
  (onMessage_of_not_isConnected env fun hconn => hconn.1 h).queues.state.trans h

/-- A head that cannot be parsed shuts the connection down. -/
lemma onMessage_of_malformed {st : MessageState} {buffer : Bytes} {s : Session}
    (h : Answering st buffer s) {headerEnd : ℕ} (hfind : Bytes.find headEnd buffer = some headerEnd)
    {request : HttpRequest} (hparse : s.conn.httpParser.parse buffer = (false, request)) :
    ¬ (s.onMessage env).conn.isConnected ∧ (s.onMessage env).queued = st.log := by
  have hturn : s.onMessage env =
      ((s.note (.parse s.conn.inputBuffer)).setInput [] request).shutdown := by
    rw [← h.inputBuffer] at hfind hparse
    rw [onMessage_eq, messageTurn_of_find env hfind, hparse]
    rfl
  have hconn : ((s.note (.parse s.conn.inputBuffer)).setInput [] request).conn.isConnected :=
    h.isConnected
  have hnote := queued_of_queues_nil (queues_note s (.parse s.conn.inputBuffer))
  obtain ⟨hstate, hqueued⟩ := shutdown_queues hconn
  rw [hturn]
  constructor
  · rw [Connection.isConnected, hstate]
    simp
  · exact hqueued.trans (hnote.trans h.queued)

/-- The loop from a fresh parser ends where the abstract loop ends, or in a closed connection. -/
lemma follows_onMessage (st : MessageState) (buffer : Bytes) (s : Session)
    (h : Answering st buffer s) (hparser : s.conn.httpParser = .reset) :
    (s.onMessage env).conn.state = .kClosed ∨
      Follows ((MessageState.machine env).drain st buffer) (s.onMessage env) := by
  induction st, buffer using (MessageState.machine env).drain_induction generalizing s with
  | wait st buffer hwait =>
    have hverdict := MessageState.verdict_turn env h.live buffer
    rw [show st.turn env buffer = .wait from hwait] at hverdict
    rw [(MessageState.machine env).drain_of_wait hwait]
    cases hverdict with
    | wait hfind =>
      rw [← h.inputBuffer] at hfind
      rw [onMessage_of_find_none env hfind]
      exact Or.inr ⟨h, hparser⟩
  | fail st buffer e hfail =>
    have hverdict := MessageState.verdict_turn env h.live buffer
    rw [show st.turn env buffer = .fail e from hfail] at hverdict
    rw [(MessageState.machine env).drain_of_fail hfail]
    right
    cases hverdict with
    | malformed hfind hparse =>
      rw [← hparser] at hparse
      exact onMessage_of_malformed env h hfind hparse
    | thrown hfind hparse hanswer =>
      have hread := hparse
      rw [← hparser] at hread
      obtain ⟨hanswering, hrequest⟩ := onMessage_of_thrown env h hfind hread hanswer
      rw [← hrequest] at hparse
      exact ⟨hanswering, hparse⟩
  | consume st buffer n st' hconsume ih =>
    have hverdict := MessageState.verdict_turn env h.live buffer
    rw [show st.turn env buffer = .consume n st' from hconsume] at hverdict
    rw [(MessageState.machine env).drain_of_consume hconsume, onMessage_eq]
    cases hverdict with
    | @answered headerEnd request response resources accessed hfind hparse hanswer =>
      rw [← hparser] at hparse
      rcases messageTurn_of_answer env h hfind hparse hanswer with hclosed |
          ⟨hcode, hstop, hdone⟩ | ⟨-, hgoes, hanswering, hreset⟩
      · left
        split_ifs
        · exact onMessage_of_closed env hclosed
        · exact hclosed
      · right
        have hdead := MessageState.turn_answered env st resources hcode
          (buffer.drop (headerEnd + 4))
        rw [if_neg (by rw [hstop]; simp), (MessageState.machine env).drain_of_fail hdead]
        exact hdone
      · rw [if_pos hgoes]
        exact ih _ hanswering hreset

end Session

end TinyWebServer
