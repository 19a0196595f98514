import TinyWebServer.Http.Chunking
import TinyWebServer.Http.Wire

/-!
# Where one request ends and the next begins

The message loop consumes the head of a request and nothing else: the body stays at the front of
the buffer. Requests are told apart exactly where no bytes of a body are left in front of a head.
-/

namespace TinyWebServer

open WireRequest

/-- The replies to requests in turn, each with the cache that the one before it left behind;
`none` where the file system throws. -/
def ServerEnv.replies (env : ServerEnv) :
    StaticResourceManager → List HttpRequest → Option (List HttpResponse)
  | _, [] => some []
  | resources, request :: requests =>
    match (env.answer resources request).1 with
    | none => none
    | some (response, resources) => (env.replies resources requests).map (response :: ·)

/-- Every request is replied to, and no reply is an error. -/
def ServerEnv.Accepts (env : ServerEnv) (resources : StaticResourceManager)
    (requests : List WireRequest) (responses : List HttpResponse) : Prop :=
  env.replies resources (requests.map (·.request)) = some responses ∧
    ∀ response ∈ responses, response.code < 400

namespace Event

def response? : Event → Option HttpResponse
  | .response r => some r
  | _ => none

lemma response?_of_isOutput {e : Event} (h : e.isOutput) : e.response? = none := by
  cases e <;> first | rfl | exact False.elim h

end Event

namespace Session

variable (env : ServerEnv)

/-- One response to each request, in order, and the parser is called only where a request
begins. -/
structure Framed (s : Session) (requests : List WireRequest) (responses : List HttpResponse) :
    Prop where
  responses : (s.messageEvents env).filterMap Event.response? = responses
  starts : ∀ buffer, .parse buffer ∈ s.messageEvents env →
    ∃ rest, rest <:+ requests ∧ buffer = printAll rest

/-- Only the last request has a body, and no end of a head is in it. -/
def OnlyLastBody (requests : List WireRequest) : Prop :=
  (∀ request ∈ requests.dropLast, request.body = []) ∧
    ∀ request ∈ requests.getLast?, Bytes.find headEnd request.body = none

/-! ### One request -/

/-- The parser is fresh, and these bytes wait for it. -/
structure Holds (s : Session) (buffer : Bytes) : Prop where
  inputBuffer : s.conn.inputBuffer = buffer
  httpParser : s.conn.httpParser = .reset

/-- The trace goes on with a call of the parser and a response. -/
structure Replies (s t : Session) (buffer : Bytes) (response : HttpResponse) : Prop where
  responses : t.trace.filterMap Event.response? =
    s.trace.filterMap Event.response? ++ [response]
  parses : ∀ b, .parse b ∈ t.trace ↔ .parse b ∈ s.trace ∨ b = buffer

lemma replies_of_trace {s t : Session} {buffer : Bytes} (request : HttpRequest)
    (accessed : List Bytes) {response : HttpResponse} {outputs : List Event}
    (houtputs : ∀ e ∈ outputs, e.isOutput)
    (h : t.trace = s.trace ++ (.parse buffer :: .request request ::
      (accessed.map .access ++ .response response :: outputs))) :
    s.Replies t buffer response where
  responses := by
    have haccess : (accessed.map Event.access).filterMap Event.response? = [] := by
      simp [List.filterMap_eq_nil_iff, Event.response?]
    have hsilent : outputs.filterMap Event.response? = [] :=
      List.filterMap_eq_nil_iff.mpr fun e he => Event.response?_of_isOutput (houtputs e he)
    rw [h]
    simp only [List.filterMap_append, List.filterMap_cons, haccess, hsilent, Event.response?,
      List.nil_append]
  parses := by
    intro b
    have hnot : .parse b ∉ outputs := fun he => houtputs _ he
    rw [h]
    simp [hnot]

/-- A turn on a request takes its head off, and leaves the body and the later requests. -/
lemma messageTurn_of_print {s : Session} {head : WireHead} {rest : Bytes}
    (h : s.Holds (head.print ++ rest)) {response : HttpResponse}
    {resources : StaticResourceManager} {accessed : List Bytes}
    (hanswer : env.answer s.resources head.request = (some (response, resources), accessed))
    (hcode : response.code < 400) :
    (s.messageTurn env).2 = true ∧ (s.messageTurn env).1.Holds rest ∧
      (s.messageTurn env).1.resources = resources ∧
      s.Replies (s.messageTurn env).1 (head.print ++ rest) response := by
  have hfind : Bytes.find headEnd s.conn.inputBuffer = some head.text.length := by
    rw [h.inputBuffer]
    exact head.find_print rest
  have hparse : s.conn.httpParser.parse s.conn.inputBuffer = (true, head.request) := by
    rw [h.inputBuffer, h.httpParser]
    exact parse_print head rest
  obtain ⟨keepAlive, heq⟩ := responding_eq env (s.note (.parse s.conn.inputBuffer)) head.request
    response resources accessed
  have hkeeps := keepsInput_sendResponse ((s.note (.parse s.conn.inputBuffer)).responding env
    head.request response resources accessed) response
  obtain ⟨outputs, htrace, houtputs⟩ := hkeeps.trace
  have hopen : ¬ 400 ≤ response.code := by omega
  rw [messageTurn_of_find env hfind, hparse, if_pos rfl,
    handleRequest_of_some env head.text.length (s := s.note (.parse s.conn.inputBuffer)) hanswer]
  dsimp only
  rw [if_neg hopen]
  refine ⟨rfl, ⟨?_, rfl⟩, ?_, replies_of_trace head.request accessed houtputs ?_⟩
  · change s.conn.inputBuffer.drop (head.text.length + 4) = rest
    rw [h.inputBuffer]
    exact head.drop_print rest
  · change (Session.sendResponse _ response).resources = resources
    rw [hkeeps.resources, heq]
  · change (Session.sendResponse _ response).trace = _
    rw [htrace, heq, ← h.inputBuffer]
    simp [note]

/-! ### What the parser was called on -/

lemma trace_shutdown_setInput (s : Session) (inputBuffer : Bytes) (httpParser : HttpRequest) :
    s.trace <+: (s.setInput inputBuffer httpParser).shutdown.trace :=
  (keepsInput_shutdown (s.setInput inputBuffer httpParser)).trace_extends

lemma trace_handleRequest (s : Session) (headerEnd : ℕ) (request : HttpRequest) :
    s.trace <+: (s.handleRequest env headerEnd request).1.trace := by
  rcases handleRequest_cases env s headerEnd request with
    ⟨accessed, -, heq⟩ | ⟨response, resources, accessed, -, heq⟩
  · obtain ⟨keepAlive, haccepting⟩ := accepting_eq env s request
    rw [heq, haccepting]
    exact (List.prefix_append ..).trans (List.prefix_append ..)
  · obtain ⟨keepAlive, hresponding⟩ := responding_eq env s request response resources accessed
    have hready : s.trace <+: (s.responding env request response resources accessed).trace := by
      rw [hresponding]
      exact List.prefix_append ..
    have hsent := hready.trans (keepsInput_sendResponse _ response).trace_extends
    rcases heq with heq | heq
    · rw [heq]
      exact hsent.trans (trace_shutdown_setInput _ _ _)
    · rw [heq]
      exact hsent

lemma trace_messageTurn (s : Session) : s.trace <+: (s.messageTurn env).1.trace := by
  simp only [messageTurn]
  cases Bytes.find headEnd s.conn.inputBuffer with
  | none => exact List.prefix_rfl
  | some headerEnd =>
    have hnote : s.trace <+: (s.note (.parse s.conn.inputBuffer)).trace := List.prefix_append ..
    dsimp only
    split_ifs
    · exact hnote.trans (trace_handleRequest env _ headerEnd _)
    · exact hnote.trans (trace_shutdown_setInput _ [] _)

lemma trace_onMessage (s : Session) : s.trace <+: (s.onMessage env).trace :=
  onMessage_induction env (P := fun s t => s.trace <+: t.trace)
    (fun s _ => trace_messageTurn env s)
    (fun s _ _ ih => (trace_messageTurn env s).trans ih) s

/-- Where a head is complete the parser is called. -/
lemma parse_mem_of_find {s : Session} {headerEnd : ℕ}
    (h : Bytes.find headEnd s.conn.inputBuffer = some headerEnd) :
    .parse s.conn.inputBuffer ∈ (s.onMessage env).trace := by
  have hnote : Event.parse s.conn.inputBuffer ∈ (s.note (.parse s.conn.inputBuffer)).trace := by
    simp [note]
  have hturn : Event.parse s.conn.inputBuffer ∈ (s.messageTurn env).1.trace := by
    rw [messageTurn_of_find env h]
    split_ifs
    · exact (trace_handleRequest env _ headerEnd _).subset hnote
    · exact (trace_shutdown_setInput _ [] _).subset hnote
  rw [onMessage_eq]
  split_ifs
  · exact (trace_onMessage env _).subset hturn
  · exact hturn

/-! ### Many requests -/

/-- The first request of a list that is accepted, and the later ones. -/
lemma accepts_cons {resources : StaticResourceManager} {request : WireRequest}
    {requests : List WireRequest} {responses : List HttpResponse}
    (h : env.Accepts resources (request :: requests) responses) :
    ∃ response resources' accessed later,
      env.answer resources request.request = (some (response, resources'), accessed) ∧
        response.code < 400 ∧ responses = response :: later ∧
        env.Accepts resources' requests later := by
  obtain ⟨hreplies, hcodes⟩ := h
  rw [List.map_cons, ServerEnv.replies] at hreplies
  cases hanswer : env.answer resources request.request with
  | mk result accessed =>
    cases result with
    | none => simp [hanswer] at hreplies
    | some result =>
      obtain ⟨response, resources'⟩ := result
      simp only [hanswer] at hreplies
      obtain ⟨later, hlater, rfl⟩ := Option.map_eq_some_iff.mp hreplies
      exact ⟨response, resources', accessed, later, rfl, hcodes _ (List.mem_cons_self ..), rfl,
        hlater, fun r hr => hcodes r (List.mem_cons_of_mem _ hr)⟩

lemma onlyLastBody_singleton (request : WireRequest) :
    OnlyLastBody [request] ↔ Bytes.find headEnd request.body = none := by
  simp [OnlyLastBody]

lemma onlyLastBody_cons_cons (request next : WireRequest) (requests : List WireRequest) :
    OnlyLastBody (request :: next :: requests) ↔
      request.body = [] ∧ OnlyLastBody (next :: requests) := by
  simp [OnlyLastBody, and_assoc]

/-- With no bytes of a body in front of a head, the loop goes from request to request. -/
lemma framed_run {requests : List WireRequest} {responses : List HttpResponse} {s : Session}
    (haccepts : env.Accepts s.resources requests responses) (h : s.Holds (printAll requests))
    (hbody : OnlyLastBody requests) :
    (s.onMessage env).trace.filterMap Event.response? =
        s.trace.filterMap Event.response? ++ responses ∧
      ∀ buffer, .parse buffer ∈ (s.onMessage env).trace →
        .parse buffer ∈ s.trace ∨ ∃ rest, rest <:+ requests ∧ buffer = printAll rest := by
  induction requests generalizing responses s with
  | nil =>
    have hfind : Bytes.find headEnd s.conn.inputBuffer = none := by
      rw [h.inputBuffer]
      rfl
    have hnone : responses = [] := by
      have hreplies := haccepts.1
      simpa [ServerEnv.replies] using hreplies.symm
    rw [onMessage_of_find_none env hfind, hnone, List.append_nil]
    exact ⟨rfl, fun buffer hmem => Or.inl hmem⟩
  | cons request requests ih =>
    obtain ⟨response, resources, accessed, later, hanswer, hcode, rfl, hlater⟩ :=
      accepts_cons env haccepts
    rw [printAll_cons] at h
    obtain ⟨hgoes, hholds, hresources, hreplies⟩ := messageTurn_of_print env h hanswer hcode
    have hhere : printAll (request :: requests) =
        request.print ++ (request.body ++ printAll requests) := printAll_cons request requests
    rw [onMessage_eq, if_pos hgoes]
    generalize (s.messageTurn env).1 = t at hholds hresources hreplies ⊢
    have hrest : (t.onMessage env).trace.filterMap Event.response? =
          t.trace.filterMap Event.response? ++ later ∧
        ∀ buffer, .parse buffer ∈ (t.onMessage env).trace →
          .parse buffer ∈ t.trace ∨ ∃ rest, rest <:+ requests ∧ buffer = printAll rest := by
      cases requests with
      | nil =>
        have hfind : Bytes.find headEnd t.conn.inputBuffer = none := by
          rw [hholds.inputBuffer]
          simpa [printAll] using (onlyLastBody_singleton request).mp hbody
        have hnone : later = [] := by
          have hreplies := hlater.1
          simpa [ServerEnv.replies] using hreplies.symm
        rw [onMessage_of_find_none env hfind, hnone, List.append_nil]
        exact ⟨rfl, fun buffer hmem => Or.inl hmem⟩
      | cons next requests =>
        obtain ⟨hempty, hbody⟩ := (onlyLastBody_cons_cons request next requests).mp hbody
        rw [hempty] at hholds
        rw [← hresources] at hlater
        exact ih hlater hholds hbody
    constructor
    · rw [hrest.1, hreplies.responses, List.append_assoc, List.singleton_append]
    · intro buffer hmem
      rcases hrest.2 buffer hmem with hmem | ⟨rest, hsuffix, heq⟩
      · rcases (hreplies.parses buffer).mp hmem with hmem | rfl
        · exact Or.inl hmem
        · exact Or.inr ⟨request :: requests, List.suffix_rfl, hhere.symm⟩
      · exact Or.inr ⟨rest, hsuffix.trans (List.suffix_cons ..), heq⟩

/-- Bytes of a body in front of later requests are not where any request begins. -/
lemma body_eq_nil_of_starts {all requests rest : List WireRequest} {request : WireRequest}
    (hrequests : request :: requests <:+ all) (hrest : rest <:+ all)
    (h : request.body ++ printAll requests = printAll rest) : request.body = [] := by
  have hlen := congrArg List.length h
  rw [List.length_append] at hlen
  rcases List.suffix_or_suffix_of_suffix hrest hrequests with hsuffix | hsuffix
  · rcases List.suffix_cons_iff.mp hsuffix with rfl | hsuffix
    · rw [printAll_cons] at hlen
      simp [WireHead.print, headEnd, Bytes.crlf] at hlen
      omega
    · have hle := length_printAll_le hsuffix
      exact List.eq_nil_of_length_eq_zero (by omega)
  · have hle := length_printAll_le hsuffix
    rw [printAll_cons] at hle
    simp [WireHead.print, headEnd, Bytes.crlf] at hle
    omega

/-- A loop that calls the parser only where a request begins has no body in front of a head. -/
lemma onlyLastBody_of_starts {all requests : List WireRequest} {responses : List HttpResponse}
    {s : Session} (haccepts : env.Accepts s.resources requests responses)
    (h : s.Holds (printAll requests)) (hall : requests <:+ all)
    (hstarts : ∀ buffer, .parse buffer ∈ (s.onMessage env).trace →
      ∃ rest, rest <:+ all ∧ buffer = printAll rest) : OnlyLastBody requests := by
  induction requests generalizing responses s with
  | nil => simp [OnlyLastBody]
  | cons request requests ih =>
    obtain ⟨response, resources, accessed, later, hanswer, hcode, rfl, hlater⟩ :=
      accepts_cons env haccepts
    rw [printAll_cons] at h
    obtain ⟨hgoes, hholds, hresources, -⟩ := messageTurn_of_print env h hanswer hcode
    rw [onMessage_eq, if_pos hgoes] at hstarts
    generalize (s.messageTurn env).1 = t at hholds hresources hstarts
    have hbody : ∀ n, Bytes.find headEnd (request.body ++ printAll requests) = some n →
        request.body = [] := by
      intro n hfind
      rw [← hholds.inputBuffer] at hfind
      obtain ⟨rest, hrest, heq⟩ := hstarts _ (parse_mem_of_find env hfind)
      rw [hholds.inputBuffer] at heq
      exact body_eq_nil_of_starts hall hrest heq
    cases requests with
    | nil =>
      rw [onlyLastBody_singleton]
      cases hfind : Bytes.find headEnd request.body with
      | none => rfl
      | some n =>
        have hempty := hbody n (by simpa [printAll] using hfind)
        rw [hempty] at hfind
        cases hfind
    | cons next requests =>
      obtain ⟨n, hfind⟩ : ∃ n, Bytes.find headEnd
          (request.body ++ printAll (next :: requests)) = some n := by
        have hne := Bytes.find_append_self_ne_none headEnd (request.body ++ next.text)
          (next.body ++ printAll requests)
        rw [printAll_cons, WireHead.print]
        rw [List.append_assoc] at hne ⊢
        exact Option.ne_none_iff_exists'.mp hne
      have hempty := hbody n hfind
      rw [hempty] at hholds
      rw [← hresources] at hlater
      exact (onlyLastBody_cons_cons request next requests).mpr ⟨hempty,
        ih hlater hholds ((List.suffix_cons ..).trans hall) hstarts⟩

/-- Requests that are all accepted get one response each, with no byte of a body parsed as the
start of a request, if and only if only the last of them has a body and no end of a head is in
it. -/
theorem framed_iff {s : Session} {requests : List WireRequest} {responses : List HttpResponse}
    (haccepts : env.Accepts s.resources requests responses) (h : s.Holds (printAll requests)) :
    s.Framed env requests responses ↔ OnlyLastBody requests := by
  have hholds : ({ s with trace := [] } : Session).Holds (printAll requests) :=
    ⟨h.inputBuffer, h.httpParser⟩
  constructor
  · intro hframed
    exact onlyLastBody_of_starts env (s := { s with trace := [] }) haccepts hholds List.suffix_rfl
      hframed.starts
  · intro hbody
    obtain ⟨hresponses, hstarts⟩ :=
      framed_run env (s := { s with trace := [] }) haccepts hholds hbody
    refine ⟨by simpa [messageEvents] using hresponses, ?_⟩
    intro buffer hmem
    exact (hstarts buffer hmem).resolve_left (by simp)

/-- A connection that has received some requests. -/
def receiving (requests : List WireRequest) : Session :=
  new { Connection.new 0 5 none false with
    state := .kConnected, inputBuffer := printAll requests } fun _ => .again

def contentLength (value : String) (h : ∀ b ∈ bytes value, b ≠ Bytes.cr ∧ b ≠ Bytes.lf) :
    WireField :=
  ⟨bytes "Content-Length", bytes value, by decide +kernel, h⟩

def pageRequest : WireRequest :=
  { method := bytes "GET", path := bytes "/", version := bytes "HTTP/1.1", fields := []
    method_word := by decide +kernel, path_word := by decide +kernel, version_word := by decide +kernel
    body := [], announced := Or.inr (by decide +kernel) }

def formRequest : WireRequest :=
  { method := bytes "POST", path := bytes "/", version := bytes "HTTP/1.1"
    fields := [contentLength " 3" (by decide +kernel)]
    method_word := by decide +kernel, path_word := by decide +kernel, version_word := by decide +kernel
    body := bytes "a=1", announced := Or.inl (by decide +kernel) }

/-- A request whose body is a request. -/
def smugglingRequest : WireRequest :=
  { method := bytes "POST", path := bytes "/", version := bytes "HTTP/1.1"
    fields := [contentLength " 18" (by decide +kernel)]
    method_word := by decide +kernel, path_word := by decide +kernel, version_word := by decide +kernel
    body := bytes "GET / HTTP/1.1\r\n\r\n", announced := Or.inl (by decide +kernel) }

theorem framed_iff_page_form :
    (receiving [pageRequest, formRequest]).Framed onePageSite [pageRequest, formRequest]
        ((onePageSite.replies .new [pageRequest.request, formRequest.request]).getD []) ↔
      OnlyLastBody [pageRequest, formRequest] :=
  framed_iff onePageSite ⟨by decide +kernel, by decide +kernel⟩ ⟨rfl, rfl⟩

/-- One request, two responses: the second one answers the body. -/
theorem not_framed_smuggling :
    ∃ responses, onePageSite.Accepts .new [smugglingRequest] responses ∧
      (receiving [smugglingRequest]).Holds (printAll [smugglingRequest]) ∧
      ¬ (receiving [smugglingRequest]).Framed onePageSite [smugglingRequest] responses := by
  refine ⟨(onePageSite.replies .new [smugglingRequest.request]).getD [],
    ⟨by decide +kernel, by decide +kernel⟩, ⟨rfl, rfl⟩, ?_⟩
  intro hframed
  have hlength := congrArg List.length hframed.responses
  revert hlength
  decide +kernel

end Session

end TinyWebServer
