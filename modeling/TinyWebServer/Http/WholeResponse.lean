import TinyWebServer.Http.Announcement
import TinyWebServer.Http.Chunking

/-!
# Responses in the output buffer

The header and the body of a response are queued one after the other, each with its own look at the
limit of the output buffer and its own way to close the connection.
-/

namespace TinyWebServer

namespace Session

/-- What the first `writev` after a payload was appended leaves in the output buffer; `none` where
it fails. -/
def leftBehind (s : Session) (data : NodeData) : Option BufferChain :=
  let chain := s.conn.outputBuffer.append data
  match s.kernel 0 with
  | .accepted n => some (chain.advance (min (n + 1) (chain.getIov 16).flatten.length))
  | .again => some chain
  | .failed => none

/-- What is queued is the whole response, with as much of a body as the header announces, or
nothing. -/
def WholeOrNothing (s t : Session) (response : HttpResponse) : Prop :=
  t.queued = s.queued ∨
    (t.queued = s.queued ++ (response.headerString ++ response.body) ∧
      response.body.length = response.announced)

/-- The header is refused too, or nothing comes behind it, or there is room for the body. -/
def BodyFits (s : Session) (response : HttpResponse) : Prop :=
  ¬ s.conn.isConnected ∨
    s.conn.maxOutputBuffer <
      s.conn.outputBuffer.totalBytes + response.headerString.length ∨
    response.body = [] ∨
    ∃ chain ∈ s.leftBehind (.string response.headerString),
      chain.totalBytes + response.body.length ≤ s.conn.maxOutputBuffer

instance (s t : Session) (response : HttpResponse) : Decidable (WholeOrNothing s t response) :=
  inferInstanceAs (Decidable (_ ∨ _))

instance (s : Session) (response : HttpResponse) : Decidable (s.BodyFits response) :=
  inferInstanceAs (Decidable (_ ∨ _))

/-! ### One payload -/

/-- The session when a payload has been appended and the write is still to come. -/
def appended (s : Session) (data : NodeData) : Session :=
  ({ s with conn := { s.conn with outputBuffer := s.conn.outputBuffer.append data } } :
    Session).note (.queued data.bytes)

lemma queued_appended (s : Session) (data : NodeData) :
    (s.appended data).queued = s.queued ++ data.bytes := by
  simp [appended, queued, note, Event.queuedBytes]

/-- A payload that is within the limit is queued, and the write that follows either fails or leaves
the connection open. -/
structure Accepts (s t : Session) (data : NodeData) : Prop where
  queued : t.queued = s.queued ++ data.bytes
  written : (s.leftBehind data = none ∧ t.conn.state = .kClosed) ∨
    (s.leftBehind data = some t.conn.outputBuffer ∧ t.conn.state = s.conn.state ∧
      t.conn.config = s.conn.config)

lemma outputBuffer_afterWrite (s : Session) (n : ℕ) :
    (s.afterWrite n).conn.outputBuffer = s.conn.outputBuffer.advance n := by
  obtain ⟨t, htimers, heq⟩ := afterWrite_eq s n
  obtain ⟨_, _, _, _, rfl⟩ := htimers
  rw [heq]
  split_ifs
  · rw [shutdownInLoop]
    split_ifs <;> rfl
  · rfl
  · rfl

lemma accepts_appendInLoop {s : Session} (hconn : s.conn.isConnected) {data : NodeData}
    (hne : data.bytes ≠ [])
    (hfits : s.conn.outputBuffer.totalBytes + data.bytes.length ≤ s.conn.maxOutputBuffer) :
    Accepts s (s.appendInLoop data) data := by
  have happend : s.appendInLoop data = (s.appended data).handleWrite := by
    rw [appendInLoop, if_neg hne, if_neg (not_lt.mpr hfits)]
    rfl
  have hqueued := queued_appended s data
  have hconfig := (keepsInput_handleWrite (s.appended data)).config
  rw [happend]
  rcases handleWrite_cases (s.appended data) with ⟨hstop, -⟩ |
      ⟨-, -, ⟨n, hkernel, heq⟩ | ⟨hkernel, heq⟩ | ⟨hkernel, heq⟩⟩
  · exfalso
    rcases hstop with hclosed | hempty
    · exact hconn.1 hclosed
    · exact s.conn.outputBuffer.getIov_append_ne_nil hne 15 hempty
  · have hwrite := queues_afterWrite ((s.appended data).nextAnswer.note (.written
      (((s.appended data).conn.outputBuffer.getIov 16).flatten.take (n + 1))))
      (((s.appended data).conn.outputBuffer.getIov 16).flatten.take (n + 1)).length
    have hkernel' : s.kernel 0 = .accepted n := hkernel
    refine ⟨?_, Or.inr ⟨?_, ?_, hconfig⟩⟩
    · rw [heq, queued_of_queues_nil hwrite,
        ← hqueued]
      simp [queued, note, nextAnswer, Event.queuedBytes]
    · rw [heq, outputBuffer_afterWrite, leftBehind, hkernel', List.length_take]
      rfl
    · rw [heq]
      exact hwrite.state
  · have hkernel' : s.kernel 0 = .again := hkernel
    rw [heq] at hconfig ⊢
    refine ⟨hqueued, Or.inr ⟨?_, rfl, hconfig⟩⟩
    rw [leftBehind, hkernel']
    rfl
  · have hkernel' : s.kernel 0 = .failed := hkernel
    rw [heq]
    refine ⟨?_, Or.inl ⟨?_, state_handleClose _⟩⟩
    · rw [queued_handleClose]
      exact hqueued
    · rw [leftBehind, hkernel']

/-- One payload of a response. -/
def sendData (s : Session) (data : NodeData) : Session :=
  if ¬ s.conn.isConnected then s else s.appendInLoop data

lemma sendResponse_eq (s : Session) (response : HttpResponse) :
    ∃ data, data.bytes = response.body ∧
      s.sendResponse response = (s.sendData (.string response.headerString)).sendData data := by
  rw [sendResponse, HttpResponse.body]
  cases response.fileBody with
  | some resource => exact ⟨.mmap resource, rfl, rfl⟩
  | none => exact ⟨.string response.bodyString, rfl, rfl⟩

lemma sendData_of_not_isConnected {s : Session} (h : ¬ s.conn.isConnected) (data : NodeData) :
    s.sendData data = s := by
  rw [sendData, if_pos h]

lemma sendData_of_full {s : Session} (hconn : s.conn.isConnected) {data : NodeData}
    (hne : data.bytes ≠ [])
    (hfull : s.conn.maxOutputBuffer < s.conn.outputBuffer.totalBytes + data.bytes.length) :
    s.sendData data = s.handleClose := by
  rw [sendData, if_neg (not_not.mpr hconn), appendInLoop, if_neg hne, if_pos hfull]

lemma accepts_sendData {s : Session} (hconn : s.conn.isConnected) {data : NodeData}
    (hne : data.bytes ≠ [])
    (hfits : s.conn.outputBuffer.totalBytes + data.bytes.length ≤ s.conn.maxOutputBuffer) :
    Accepts s (s.sendData data) data := by
  rw [sendData, if_neg (not_not.mpr hconn)]
  exact accepts_appendInLoop hconn hne hfits

lemma not_isConnected_handleClose (s : Session) : ¬ s.handleClose.conn.isConnected := by
  rw [Connection.isConnected, state_handleClose]
  simp

/-- A payload is queued if the connection is connected and there is room for it. -/
lemma queued_sendData (s : Session) (data : NodeData) :
    (s.sendData data).queued =
      s.queued ++ if s.conn.isConnected ∧
        s.conn.outputBuffer.totalBytes + data.bytes.length ≤ s.conn.maxOutputBuffer
      then data.bytes else [] := by
  by_cases hne : data.bytes = []
  · have hsame : s.sendData data = s := by
      rw [sendData, appendInLoop, if_pos hne, ite_id]
    rw [hsame, hne, ite_id, List.append_nil]
  by_cases hconn : s.conn.isConnected
  · rcases Nat.lt_or_ge s.conn.maxOutputBuffer
      (s.conn.outputBuffer.totalBytes + data.bytes.length) with hfull | hfits
    · rw [sendData_of_full hconn hne hfull, queued_handleClose, if_neg (by simp [hfull]),
        List.append_nil]
    · rw [(accepts_sendData hconn hne hfits).queued, if_pos ⟨hconn, hfits⟩]
  · rw [sendData_of_not_isConnected hconn, if_neg (by simp [hconn]), List.append_nil]

/-! ### The two payloads of a response -/

lemma wholeOrNothing_sendResponse {s : Session} {response : HttpResponse}
    (hheader : response.headerString ≠ [])
    (hannounced : response.announced = response.body.length) :
    WholeOrNothing s (s.sendResponse response) response ↔ s.BodyFits response := by
  obtain ⟨data, hdata, heq⟩ := sendResponse_eq s response
  have hbytes : (NodeData.string response.headerString).bytes ≠ [] := hheader
  rw [heq, WholeOrNothing, BodyFits, hannounced, ← hdata]
  by_cases hconn : s.conn.isConnected
  · rcases Nat.lt_or_ge s.conn.maxOutputBuffer
      (s.conn.outputBuffer.totalBytes + response.headerString.length) with hfull | hfits
    · rw [sendData_of_full hconn hbytes hfull,
        sendData_of_not_isConnected (not_isConnected_handleClose s), queued_handleClose]
      simp [hfull]
    · obtain ⟨hqueued, hwritten⟩ := accepts_sendData hconn hbytes hfits
      rw [queued_sendData, hqueued]
      generalize s.sendData (.string response.headerString) = t at hwritten ⊢
      have hheader' : (NodeData.string response.headerString).bytes = response.headerString := rfl
      rw [hheader']
      rcases hwritten with ⟨hnone, hclosed⟩ | ⟨hsome, hstate, hconfig⟩
      · have hstopped : ¬ t.conn.isConnected := fun h => h.1 hclosed
        simp [hconn, not_lt.mpr hfits, hnone, hstopped, hheader]
      · have hopen : t.conn.isConnected := by rwa [Connection.isConnected, hstate]
        have hmax : t.conn.maxOutputBuffer = s.conn.maxOutputBuffer := by
          rw [Connection.maxOutputBuffer, hconfig]
          rfl
        rw [hmax, hsome]
        by_cases hroom : t.conn.outputBuffer.totalBytes + data.bytes.length ≤
            s.conn.maxOutputBuffer
        · simp [hopen, hroom]
        · simp [hconn, not_lt.mpr hfits, hheader, hroom]
  · rw [sendData_of_not_isConnected hconn, sendData_of_not_isConnected hconn]
    simp [hconn]

variable (env : ServerEnv)

/-- What a turn queues is what it sends as the response. -/
lemma queued_messageTurn_of_answer {s : Session} {headerEnd : ℕ}
    (hfind : Bytes.find headEnd s.conn.inputBuffer = some headerEnd) {request : HttpRequest}
    (hparse : s.conn.httpParser.parse s.conn.inputBuffer = (true, request))
    {response : HttpResponse} {resources : StaticResourceManager} {accessed : List Bytes}
    (hanswer : env.answer s.resources request = (some (response, resources), accessed)) :
    ∃ t : Session, (s.messageTurn env).1.queued = (t.sendResponse response).queued ∧
      t.queued = s.queued ∧ t.kernel = s.kernel ∧ t.conn = { s.conn with httpParser := request } := by
  obtain ⟨keepAlive, heq⟩ := responding_eq env (s.note (.parse s.conn.inputBuffer)) request
    response resources accessed
  have hready := (queues_note s (.parse s.conn.inputBuffer)).trans
    (responding_rests env _ request response resources accessed).queues
  refine ⟨_, ?_, queued_of_queues_nil hready, by rw [heq]; rfl, by rw [heq]; rfl⟩
  rw [messageTurn_of_find env hfind, hparse, if_pos rfl,
    handleRequest_of_some env headerEnd (s := s.note (.parse s.conn.inputBuffer)) hanswer]
  dsimp only
  split_ifs
  · exact queued_shutdown _
  · rfl

/-- A response is queued whole or not at all if and only if its header is refused, it has no body,
or the body fits behind what is left of the header. -/
theorem wholeOrNothing_iff {s : Session} {headerEnd : ℕ}
    (hfind : Bytes.find headEnd s.conn.inputBuffer = some headerEnd) {request : HttpRequest}
    (hparse : s.conn.httpParser.parse s.conn.inputBuffer = (true, request))
    {response : HttpResponse} {resources : StaticResourceManager} {accessed : List Bytes}
    (hanswer : env.answer s.resources request = (some (response, resources), accessed)) :
    WholeOrNothing s (s.messageTurn env).1 response ↔ s.BodyFits response := by
  obtain ⟨t, hturn, hqueued, hkernel, hconn⟩ :=
    queued_messageTurn_of_answer env hfind hparse hanswer
  have hsent := wholeOrNothing_sendResponse (s := t) (env.headerString_ne_nil hanswer)
    (env.announced_eq_length hanswer)
  rw [WholeOrNothing, hturn, ← hqueued]
  rw [WholeOrNothing, BodyFits, leftBehind, hkernel, hconn] at hsent
  exact hsent

/-- A connection that has received a request for the page while it still has output to send. -/
def requesting (pending : ℕ) : Session :=
  new { Connection.new 0 5 (some ⟨60, 15, 65536, 1024⟩) false with
    state := .kConnected, inputBuffer := bytes "GET / HTTP/1.1\r\n\r\n"
    outputBuffer := BufferChain.empty.append (.string (List.replicate pending 46)) } fun _ => .again

def pageGet : HttpRequest :=
  ⟨bytes "/index.html", bytes "GET", bytes "HTTP/1.1", [], true⟩

/-- There is room for the page. -/
theorem wholeOrNothing_iff_page :
    ∃ response resources accessed,
      onePageSite.answer .new pageGet = (some (response, resources), accessed) ∧
        WholeOrNothing (requesting 932) ((requesting 932).messageTurn onePageSite).1 response := by
  have hpage : (onePageSite.answer .new pageGet).1.any
      (fun result => decide (BodyFits (requesting 932) result.1)) = true := by decide +kernel
  obtain ⟨⟨response, resources⟩, hanswer, hfits⟩ := (Option.any_eq_true _ _).mp hpage
  refine ⟨response, resources, _, Prod.ext hanswer rfl, ?_⟩
  exact (wholeOrNothing_iff onePageSite (s := requesting 932) (by decide +kernel :
    Bytes.find headEnd (requesting 932).conn.inputBuffer = some 14) (by decide +kernel)
    (Prod.ext hanswer rfl)).mpr (of_decide_eq_true hfits)

/-- The header is in the buffer when the page turns out to be too large. -/
theorem not_wholeOrNothing_page :
    ¬ ∀ (env : ServerEnv) (s : Session) (headerEnd : ℕ) (request : HttpRequest)
      (response : HttpResponse) (resources : StaticResourceManager) (accessed : List Bytes),
      Bytes.find TinyWebServer.headEnd s.conn.inputBuffer = some headerEnd →
      s.conn.httpParser.parse s.conn.inputBuffer = (true, request) →
      env.answer s.resources request = (some (response, resources), accessed) →
        WholeOrNothing s (s.messageTurn env).1 response := by
  intro hall
  have hpage : (onePageSite.answer .new pageGet).1.any
      (fun result => decide (¬ WholeOrNothing (requesting 936)
        ((requesting 936).messageTurn onePageSite).1 result.1)) = true := by decide +kernel
  obtain ⟨⟨response, resources⟩, hanswer, hcut⟩ := (Option.any_eq_true _ _).mp hpage
  refine of_decide_eq_true hcut (hall onePageSite (requesting 936) 14 pageGet response resources _
    ?_ ?_ (Prod.ext hanswer rfl))
  · decide +kernel
  · decide +kernel

end Session

end TinyWebServer
