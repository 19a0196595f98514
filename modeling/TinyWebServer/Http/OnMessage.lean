import TinyWebServer.Http.Validator
import TinyWebServer.Library.ParseLoop
import TinyWebServer.Net.ConnectionFrame

/-!
# The message callback of the server

The loop that `main` installs: it takes one request head after the other off the input buffer and
sends the response to each, until the buffer holds no complete head, a head cannot be parsed, a
response is an error, or the file system throws.
-/

namespace TinyWebServer

/-- What the callback captures, and what it finds outside the process. -/
structure ServerEnv where
  staticRoot : Bytes
  keepAliveTimeout : ℤ
  host : Host

namespace ServerEnv

/-- The status code that answers a request which is not valid. -/
def errorCode (error : Error) : ℤ :=
  if error.code = .kInvalidPath then 403
  else if error.code = .kRequestTooLarge then 413
  else if error.code = .kUnsupportedMethod then 405
  else 400

/-- A normalised path with a slash in front. -/
def resourcePath (normalizedPath : Bytes) : Bytes :=
  if normalizedPath ≠ [] ∧ normalizedPath.head? ≠ some Bytes.slash then
    Bytes.slash :: normalizedPath
  else normalizedPath

variable (env : ServerEnv)

/-- The response as `Init` leaves it. -/
def initResponse (request : HttpRequest) : HttpResponse × List Bytes :=
  let result := (RequestValidator.new env.staticRoot).validateRequest request
  if ¬ result.valid then
    HttpResponse.new.init env.host env.staticRoot [] request.isKeepAlive (errorCode result.error)
      (some request)
  else
    HttpResponse.new.init env.host env.staticRoot (resourcePath result.normalizedPath)
      request.isKeepAlive (-1) (some request)

/-- The answer to a parsed request, with the paths that the kernel was asked about; `none` where
the file system throws. -/
def answer (resources : StaticResourceManager) (request : HttpRequest) :
    Option (HttpResponse × StaticResourceManager) × List Bytes :=
  let (response, accessed) := env.initResponse request
  let (result, accessed') := response.makeResponse env.host resources
  (result, accessed ++ accessed')

end ServerEnv

namespace Session

variable (env : ServerEnv)

def noteAll (s : Session) (events : List Event) : Session := { s with trace := s.trace ++ events }

def setInput (s : Session) (inputBuffer : Bytes) (httpParser : HttpRequest) : Session :=
  { s with conn := { s.conn with inputBuffer := inputBuffer, httpParser := httpParser } }

/-- The header and then the body. -/
def sendResponse (s : Session) (response : HttpResponse) : Session :=
  let s := s.send response.headerString
  match response.fileBody with
  | some resource => s.sendResource resource
  | none => s.send response.bodyString

/-- A complete head at the front of the buffer that could be parsed. The flag says whether the
loop goes on. -/
def handleRequest (s : Session) (headerEnd : ℕ) (request : HttpRequest) : Session × Bool :=
  let s := s.setInput s.conn.inputBuffer request
  let s := (s.onRequestStart request.isKeepAlive env.keepAliveTimeout).note (.request request)
  match env.answer s.resources request with
  | (none, accessed) => (s.noteAll (accessed.map .access), false)
  | (some (response, resources), accessed) =>
    let s := ({ s with resources := resources } : Session).noteAll (accessed.map .access)
    let s := (s.note (.response response)).sendResponse response
    let s := s.setInput (s.conn.inputBuffer.drop (headerEnd + 4)) .reset
    let s := s.onRequestComplete
    if 400 ≤ response.code then (s.shutdown, false) else (s, true)

/-- A head that could not be parsed; the parser keeps what it has read of it. -/
def handleMalformed (s : Session) (request : HttpRequest) : Session :=
  (s.setInput [] request).shutdown

/-- One turn of the loop. -/
def messageTurn (s : Session) : Session × Bool :=
  match Bytes.find headEnd s.conn.inputBuffer with
  | none => (s, false)
  | some headerEnd =>
    let (parsed, request) := s.conn.httpParser.parse s.conn.inputBuffer
    let s := s.note (.parse s.conn.inputBuffer)
    if parsed then s.handleRequest env headerEnd request
    else (s.handleMalformed request, false)

/-- The loop, for a number of turns. -/
def messageLoop : ℕ → Session → Session
  | 0, s => s
  | turns + 1, s =>
    let result := s.messageTurn env
    if result.2 then messageLoop turns result.1 else result.1

/-- Every turn but the last shortens the buffer, so that its length bounds the turns. -/
def onMessage (s : Session) : Session := messageLoop env (s.conn.inputBuffer.length + 1) s

/-- What a run of the callback makes visible. -/
def messageEvents (env : ServerEnv) (s : Session) : List Event :=
  (({ s with trace := [] } : Session).onMessage env).trace

/-! ### Turns -/

lemma keepsInput_sendResponse (s : Session) (response : HttpResponse) :
    KeepsInput s (s.sendResponse response) := by
  rw [sendResponse]
  cases response.fileBody with
  | some resource => exact (keepsInput_send s _).trans (keepsInput_sendResource _ resource)
  | none => exact (keepsInput_send s _).trans (keepsInput_send _ _)

lemma onRequestComplete_eq (s : Session) : s.onRequestComplete = s := by
  rw [onRequestComplete]
  split_ifs <;> rfl

/-- The session when a parsed request goes to validation. -/
def accepting (s : Session) (request : HttpRequest) : Session :=
  ((s.setInput s.conn.inputBuffer request).onRequestStart request.isKeepAlive
    env.keepAliveTimeout).note (.request request)

lemma accepting_eq (s : Session) (request : HttpRequest) :
    ∃ keepAlive, s.accepting env request =
      { s with
        keepAlive := keepAlive
        conn := { s.conn with httpParser := request }
        trace := s.trace ++ [.request request] } := by
  rw [accepting, onRequestStart]
  split_ifs <;> exact ⟨_, rfl⟩

/-- The session when the response to a request is ready to be sent. -/
def responding (s : Session) (request : HttpRequest) (response : HttpResponse)
    (resources : StaticResourceManager) (accessed : List Bytes) : Session :=
  (({ s.accepting env request with resources := resources } : Session).noteAll
    (accessed.map .access)).note (.response response)

lemma responding_eq (s : Session) (request : HttpRequest) (response : HttpResponse)
    (resources : StaticResourceManager) (accessed : List Bytes) :
    ∃ keepAlive, s.responding env request response resources accessed =
      { s with
        keepAlive := keepAlive
        resources := resources
        conn := { s.conn with httpParser := request }
        trace := s.trace ++ (.request request :: accessed.map .access ++ [.response response]) } := by
  obtain ⟨keepAlive, heq⟩ := accepting_eq env s request
  refine ⟨keepAlive, ?_⟩
  simp [responding, heq, note, noteAll]

/-- A request that the file system throws at: only the trace shows that it was there. -/
lemma handleRequest_of_none {s : Session} (headerEnd : ℕ) {request : HttpRequest}
    {accessed : List Bytes} (h : env.answer s.resources request = (none, accessed)) :
    s.handleRequest env headerEnd request =
      ((s.accepting env request).noteAll (accessed.map .access), false) := by
  obtain ⟨keepAlive, heq⟩ := accepting_eq env s request
  have hanswer : env.answer (s.accepting env request).resources request = (none, accessed) := by
    rw [heq]
    exact h
  rw [accepting] at hanswer
  simp only [handleRequest, hanswer]
  rfl

lemma handleRequest_of_some {s : Session} (headerEnd : ℕ) {request : HttpRequest}
    {response : HttpResponse} {resources : StaticResourceManager} {accessed : List Bytes}
    (h : env.answer s.resources request = (some (response, resources), accessed)) :
    s.handleRequest env headerEnd request =
      let t := (s.responding env request response resources accessed).sendResponse response
      let t := t.setInput (s.conn.inputBuffer.drop (headerEnd + 4)) .reset
      if 400 ≤ response.code then (t.shutdown, false) else (t, true) := by
  obtain ⟨keepAlive, heq⟩ := accepting_eq env s request
  have hanswer : env.answer (s.accepting env request).resources request =
      (some (response, resources), accessed) := by
    rw [heq]
    exact h
  obtain ⟨keepAlive, heq⟩ := responding_eq env s request response resources accessed
  have hbuffer : ((s.responding env request response resources accessed).sendResponse
      response).conn.inputBuffer = s.conn.inputBuffer := by
    rw [(keepsInput_sendResponse _ response).inputBuffer, heq]
  rw [accepting] at hanswer
  simp only [responding, accepting] at hbuffer
  simp only [handleRequest, hanswer, onRequestComplete_eq, hbuffer, responding, accepting]

/-- The session when the response has been sent and the head has been consumed. -/
def answered (s : Session) (headerEnd : ℕ) (request : HttpRequest) (response : HttpResponse)
    (resources : StaticResourceManager) (accessed : List Bytes) : Session :=
  ((s.responding env request response resources accessed).sendResponse response).setInput
    (s.conn.inputBuffer.drop (headerEnd + 4)) .reset

/-- A parsed request makes the file system throw, or it is answered, and then an error closes the
connection. -/
lemma handleRequest_cases (s : Session) (headerEnd : ℕ) (request : HttpRequest) :
    (∃ accessed, env.answer s.resources request = (none, accessed) ∧
      s.handleRequest env headerEnd request =
        ((s.accepting env request).noteAll (accessed.map .access), false)) ∨
    ∃ response resources accessed,
      env.answer s.resources request = (some (response, resources), accessed) ∧
      (s.handleRequest env headerEnd request =
          ((s.answered env headerEnd request response resources accessed).shutdown, false) ∨
        s.handleRequest env headerEnd request =
          (s.answered env headerEnd request response resources accessed, true)) := by
  cases hanswer : env.answer s.resources request with
  | mk result accessed =>
    cases result with
    | none => exact Or.inl ⟨accessed, rfl, handleRequest_of_none env headerEnd hanswer⟩
    | some result =>
      obtain ⟨response, resources⟩ := result
      refine Or.inr ⟨response, resources, accessed, rfl, ?_⟩
      rw [handleRequest_of_some env headerEnd hanswer]
      dsimp only
      split_ifs
      · exact Or.inl rfl
      · exact Or.inr rfl

/-- A turn that lets the loop go on has consumed the head. -/
lemma inputBuffer_of_handleRequest {s : Session} {headerEnd : ℕ} {request : HttpRequest}
    (h : (s.handleRequest env headerEnd request).2 = true) :
    (s.handleRequest env headerEnd request).1.conn.inputBuffer =
      s.conn.inputBuffer.drop (headerEnd + 4) := by
  rcases handleRequest_cases env s headerEnd request with
    ⟨accessed, -, heq⟩ | ⟨response, resources, accessed, -, heq | heq⟩
  · rw [heq] at h
    cases h
  · rw [heq] at h
    cases h
  · rw [heq]
    rfl

lemma length_of_messageTurn {s : Session} (h : (s.messageTurn env).2 = true) :
    (s.messageTurn env).1.conn.inputBuffer.length < s.conn.inputBuffer.length := by
  simp only [messageTurn] at h ⊢
  cases hfind : Bytes.find headEnd s.conn.inputBuffer with
  | none =>
    rw [hfind] at h
    cases h
  | some headerEnd =>
    have hle := Bytes.find_add_length_le hfind
    simp only [hfind] at h ⊢
    split_ifs at h ⊢ with hparsed
    rw [inputBuffer_of_handleRequest env h]
    simp only [note, List.length_drop, headEnd, Bytes.crlf, List.length_append, List.length_cons,
      List.length_nil] at hle ⊢
    omega

lemma messageLoop_of_le {s : Session} {turns : ℕ} (h : s.conn.inputBuffer.length < turns) :
    messageLoop env turns s = onMessage env s := by
  apply ParseLoop.eq_of_bound_lt (fun s : Session => s.conn.inputBuffer.length)
    (fun s hgoes => length_of_messageTurn env hgoes) _ h (Nat.lt_succ_self _)
  intro n m s hnext
  rw [messageLoop, messageLoop]
  split_ifs with hgoes
  · exact hnext hgoes
  · rfl

/-- The loop, turn by turn: the bound on the turns is never what ends it. -/
theorem onMessage_eq (s : Session) :
    s.onMessage env =
      if (s.messageTurn env).2 then (s.messageTurn env).1.onMessage env
      else (s.messageTurn env).1 := by
  rw [onMessage, messageLoop]
  by_cases hgoes : (s.messageTurn env).2 = true
  · rw [if_pos hgoes, if_pos hgoes]
    exact messageLoop_of_le env (length_of_messageTurn env hgoes)
  · rw [if_neg hgoes, if_neg hgoes]

/-- Induction along the turns of the loop. -/
lemma onMessage_induction {P : Session → Session → Prop}
    (stop : ∀ s, (s.messageTurn env).2 = false → P s (s.messageTurn env).1)
    (goOn : ∀ s t, (s.messageTurn env).2 = true → P (s.messageTurn env).1 t → P s t)
    (s : Session) : P s (s.onMessage env) := by
  induction hlen : s.conn.inputBuffer.length using Nat.strongRecOn generalizing s with
  | ind len ih =>
    rw [onMessage_eq]
    by_cases hgoes : (s.messageTurn env).2 = true
    · rw [if_pos hgoes]
      refine goOn s _ hgoes (ih _ ?_ _ rfl)
      rw [← hlen]
      exact length_of_messageTurn env hgoes
    · rw [if_neg hgoes]
      exact stop s (by simpa using hgoes)

end Session

end TinyWebServer
