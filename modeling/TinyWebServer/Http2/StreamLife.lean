import TinyWebServer.Http2.Stream
import TinyWebServer.Library.Runs

/-!
# The life of an HTTP/2 stream

The operations on a stream as labels, so that a run of them is a list. An operation that reports an
error leaves the stream alone. The state machine decides which operations are refused; what it
refuses, and what it lets through, is what this module is about.
-/

namespace TinyWebServer

inductive H2StreamOp where
  | handleHeaders (headers : H2Headers) (endStream : Bool)
  | handleData (data : Bytes) (endStream : Bool)
  | sendHeaders (headers : H2Headers) (endStream : Bool)
  | sendData (data : Bytes) (endStream : Bool)
  | sendRstStream (errorCode : UInt32)
  | close (errorCode : UInt32)

namespace H2Stream

def operate (s : H2Stream) : H2StreamOp → Error × H2Stream
  | .handleHeaders headers endStream => s.handleHeaders headers endStream
  | .handleData data endStream => s.handleData data endStream
  | .sendHeaders headers endStream => s.sendHeaders headers endStream
  | .sendData data endStream => s.sendData data endStream
  | .sendRstStream errorCode => s.sendRstStream errorCode
  | .close errorCode => (.success, s.close errorCode)

/-- Every operation is a step, whatever it reports. -/
def next (s : H2Stream) (op : H2StreamOp) : Option H2Stream := some (s.operate op).2

/-- Only an operation that reports success is a step. -/
def attempt (s : H2Stream) (op : H2StreamOp) : Option H2Stream :=
  if (s.operate op).1.isSuccess then some (s.operate op).2 else none

/-- A new stream, with the callbacks that its owner has set. -/
def fresh (streamId : UInt32) (dataCallback headersCallback closeCallback : Bool) : H2Stream :=
  { new streamId with
    hasDataCallback := dataCallback, hasHeadersCallback := headersCallback
    hasCloseCallback := closeCallback }

/-! ### What the state machine lets through -/

lemma isSuccess_validateTransition (s : H2Stream) (newState : H2StreamState) :
    (s.validateTransition newState).isSuccess ↔ s.canTransition newState := by
  rw [validateTransition]
  split_ifs with h
  · simp [h]
  · simpa using h

lemma transitionState_of_canTransition {s : H2Stream} {newState : H2StreamState}
    (h : s.canTransition newState) : s.transitionState newState = { s with state := newState } := by
  rw [transitionState]
  split_ifs with heq
  · rw [← heq]
  · rfl

/-- The state that a HEADERS or DATA frame from the peer asks for. -/
def receivedState (endStream : Bool) : H2StreamState :=
  if endStream then .halfClosedRemote else .open

def sentState (endStream : Bool) : H2StreamState := if endStream then .halfClosedLocal else .open

lemma handleHeaders_of_refused {s : H2Stream} (headers : H2Headers) {endStream : Bool}
    (h : ¬ s.canTransition (receivedState endStream)) :
    s.handleHeaders headers endStream = (s.validateTransition (receivedState endStream), s) := by
  rw [← isSuccess_validateTransition] at h
  exact if_pos h

lemma handleHeaders_of_allowed {s : H2Stream} (headers : H2Headers) {endStream : Bool}
    (h : s.canTransition (receivedState endStream)) :
    ∃ calls, s.handleHeaders headers endStream = (.success,
      { s with
        requestHeaders := s.requestHeaders.insert headers, state := receivedState endStream
        calls := calls }) := by
  have hvalid := (isSuccess_validateTransition s _).mpr h
  have hnext : ({ s with requestHeaders := s.requestHeaders.insert headers }).canTransition
    (receivedState endStream) := h
  rw [handleHeaders, ← receivedState]
  simp only [hvalid, not_true_eq_false, if_false, transitionState_of_canTransition hnext]
  split_ifs
  · exact ⟨_, rfl⟩
  · exact ⟨_, rfl⟩

lemma sendHeaders_of_refused {s : H2Stream} (headers : H2Headers) {endStream : Bool}
    (h : ¬ s.canTransition (sentState endStream)) :
    s.sendHeaders headers endStream = (s.validateTransition (sentState endStream), s) := by
  rw [← isSuccess_validateTransition] at h
  exact if_pos h

lemma sendHeaders_of_allowed {s : H2Stream} (headers : H2Headers) {endStream : Bool}
    (h : s.canTransition (sentState endStream)) :
    s.sendHeaders headers endStream = (.success,
      { s with
        responseHeaders := s.responseHeaders.insert headers, state := sentState endStream }) := by
  have hvalid := (isSuccess_validateTransition s _).mpr h
  have hnext : ({ s with responseHeaders := s.responseHeaders.insert headers }).canTransition
    (sentState endStream) := h
  rw [sendHeaders, ← sentState]
  simp only [hvalid, not_true_eq_false, if_false, transitionState_of_canTransition hnext]

/-- Without `end_stream` no state is asked about. -/
lemma handleData_false (s : H2Stream) (data : Bytes) :
    ∃ calls, s.handleData data false =
      (.success, { s with requestBody := s.requestBody ++ data, calls := calls }) := by
  simp only [handleData, Bool.false_eq_true, if_false, Error.isSuccess_success, not_true_eq_false]
  split_ifs
  · exact ⟨_, rfl⟩
  · exact ⟨_, rfl⟩

lemma handleData_of_refused {s : H2Stream} (data : Bytes)
    (h : ¬ s.canTransition .halfClosedRemote) :
    s.handleData data true = (s.validateTransition .halfClosedRemote, s) := by
  rw [← isSuccess_validateTransition] at h
  exact if_pos h

lemma handleData_of_allowed {s : H2Stream} (data : Bytes)
    (h : s.canTransition .halfClosedRemote) :
    ∃ calls, s.handleData data true = (.success,
      { s with
        requestBody := s.requestBody ++ data, state := .halfClosedRemote, calls := calls }) := by
  have hvalid := (isSuccess_validateTransition s _).mpr h
  have hnext : ({ s with requestBody := s.requestBody ++ data }).canTransition .halfClosedRemote :=
    h
  simp only [handleData, if_true, hvalid, not_true_eq_false, if_false,
    transitionState_of_canTransition hnext]
  split_ifs
  · exact ⟨_, rfl⟩
  · exact ⟨_, rfl⟩

lemma sendData_false (s : H2Stream) (data : Bytes) :
    s.sendData data false = (.success, { s with responseBody := s.responseBody ++ data }) := rfl

lemma sendData_of_refused {s : H2Stream} (data : Bytes) (h : ¬ s.canTransition .halfClosedLocal) :
    s.sendData data true = (s.validateTransition .halfClosedLocal, s) := by
  rw [← isSuccess_validateTransition] at h
  exact if_pos h

lemma sendData_of_allowed {s : H2Stream} (data : Bytes) (h : s.canTransition .halfClosedLocal) :
    s.sendData data true = (.success,
      { s with responseBody := s.responseBody ++ data, state := .halfClosedLocal }) := by
  have hvalid := (isSuccess_validateTransition s _).mpr h
  have hnext : ({ s with responseBody := s.responseBody ++ data }).canTransition .halfClosedLocal :=
    h
  simp only [sendData, if_true, hvalid, not_true_eq_false, if_false,
    transitionState_of_canTransition hnext]

lemma close_of_closed {s : H2Stream} (h : s.state = .closed) (errorCode : UInt32) :
    s.close errorCode = s := if_pos h

/-- A stream that was open is the same afterwards but for its state. -/
lemma close_of_not_closed {s : H2Stream} (h : s.state ≠ .closed) (errorCode : UInt32) :
    ∃ calls, s.close errorCode = { s with state := .closed, calls := calls } := by
  rw [close, if_neg h, transitionState_closed]
  dsimp only
  split_ifs
  · exact ⟨_, rfl⟩
  · exact ⟨_, rfl⟩

/-! ### Data in the half-closed states -/

/-- Nothing that was received or sent is different. -/
structure SameContent (s t : H2Stream) : Prop where
  requestHeaders : t.requestHeaders = s.requestHeaders
  responseHeaders : t.responseHeaders = s.responseHeaders
  requestBody : t.requestBody = s.requestBody
  responseBody : t.responseBody = s.responseBody

lemma SameContent.refl (s : H2Stream) : SameContent s s := ⟨rfl, rfl, rfl, rfl⟩

/-- Bodies grow in the directions that are open, and a closed stream keeps what it has. -/
structure Respects (s : H2Stream) (op : H2StreamOp) : Prop where
  readable : s.requestBody.length < (s.operate op).2.requestBody.length → s.isReadable
  writable : s.responseBody.length < (s.operate op).2.responseBody.length → s.isWritable
  closed : s.state = .closed → SameContent s (s.operate op).2

/-- Data that does not end the stream, in a direction that is not open. -/
def SlipsIn (s : H2Stream) : H2StreamOp → Prop
  | .handleData data false => data ≠ [] ∧ ¬ s.isReadable
  | .sendData data false => data ≠ [] ∧ ¬ s.isWritable
  | _ => False

/-- No operation reserves a stream. -/
def Unreserved (s : H2Stream) : Prop := s.state ≠ .reservedLocal ∧ s.state ≠ .reservedRemote

lemma unreserved_fresh (streamId : UInt32) (dataCallback headersCallback closeCallback : Bool) :
    (fresh streamId dataCallback headersCallback closeCallback).Unreserved := by
  simp [Unreserved, fresh, new]

lemma respects_of_sameContent {s : H2Stream} {op : H2StreamOp}
    (h : SameContent s (s.operate op).2) : s.Respects op where
  readable hgrows := absurd hgrows (by simp [h.requestBody])
  writable hgrows := absurd hgrows (by simp [h.responseBody])
  closed _ := h

/-- The peer's headers are never taken by a closed stream. -/
lemma not_closed_of_canTransition {s : H2Stream} {newState : H2StreamState}
    (h : s.canTransition newState) : s.state ≠ .closed := by
  intro hclosed
  simp [canTransition, hclosed] at h

lemma isReadable_of_canTransition {s : H2Stream} (hs : s.Unreserved)
    (h : s.canTransition .halfClosedRemote) : s.isReadable := by
  obtain ⟨hlocal, hremote⟩ := hs
  cases hstate : s.state <;> simp_all [canTransition, isReadable]

lemma isWritable_of_canTransition {s : H2Stream} (h : s.canTransition .halfClosedLocal) :
    s.isWritable := by
  cases hstate : s.state <;> simp_all [canTransition, isWritable]

/-- Only the request body may differ, and the stream is open for it. -/
lemma respects_of_isReadable {s : H2Stream} {op : H2StreamOp} (h : s.isReadable)
    (hbody : (s.operate op).2.responseBody = s.responseBody) : s.Respects op where
  readable _ := h
  writable hgrows := absurd hgrows (by simp [hbody])
  closed hclosed := by simp [isReadable, hclosed] at h

lemma respects_of_isWritable {s : H2Stream} {op : H2StreamOp} (h : s.isWritable)
    (hbody : (s.operate op).2.requestBody = s.requestBody) : s.Respects op where
  readable hgrows := absurd hgrows (by simp [hbody])
  writable _ := h
  closed hclosed := by simp [isWritable, hclosed] at h

lemma sameContent_close (s : H2Stream) (errorCode : UInt32) :
    SameContent s (s.close errorCode) := by
  by_cases h : s.state = .closed
  · rw [close_of_closed h]
    exact .refl s
  · obtain ⟨calls, heq⟩ := close_of_not_closed h errorCode
    rw [heq]
    exact ⟨rfl, rfl, rfl, rfl⟩

lemma respects_handleHeaders (s : H2Stream) (headers : H2Headers) (endStream : Bool) :
    s.Respects (.handleHeaders headers endStream) := by
  by_cases h : s.canTransition (receivedState endStream)
  · obtain ⟨calls, heq⟩ := handleHeaders_of_allowed headers h
    constructor
    · simp [operate, heq]
    · simp [operate, heq]
    · intro hclosed
      exact absurd hclosed (not_closed_of_canTransition h)
  · apply respects_of_sameContent
    rw [operate, handleHeaders_of_refused headers h]
    exact .refl s

lemma respects_sendHeaders (s : H2Stream) (headers : H2Headers) (endStream : Bool) :
    s.Respects (.sendHeaders headers endStream) := by
  by_cases h : s.canTransition (sentState endStream)
  · constructor
    · simp [operate, sendHeaders_of_allowed headers h]
    · simp [operate, sendHeaders_of_allowed headers h]
    · intro hclosed
      exact absurd hclosed (not_closed_of_canTransition h)
  · apply respects_of_sameContent
    rw [operate, sendHeaders_of_refused headers h]
    exact .refl s

/-- The end of the request is only taken where the state machine has a way to the half-closed
state, and data before it anywhere. -/
lemma respects_handleData_iff {s : H2Stream} (hs : s.Unreserved) (data : Bytes) (endStream : Bool) :
    s.Respects (.handleData data endStream) ↔ ¬ s.SlipsIn (.handleData data endStream) := by
  cases endStream with
  | true =>
    simp only [SlipsIn, not_false_eq_true, iff_true]
    by_cases h : s.canTransition .halfClosedRemote
    · obtain ⟨calls, heq⟩ := handleData_of_allowed data h
      apply respects_of_isReadable (isReadable_of_canTransition hs h)
      simp [operate, heq]
    · apply respects_of_sameContent
      rw [operate, handleData_of_refused data h]
      exact .refl s
  | false =>
    obtain ⟨calls, heq⟩ := handleData_false s data
    constructor
    · rintro h ⟨hdata, hreadable⟩
      apply hreadable
      apply h.readable
      simpa [operate, heq] using List.length_pos_of_ne_nil hdata
    · intro h
      by_cases hdata : data = []
      · apply respects_of_sameContent
        rw [operate, heq, hdata]
        exact ⟨rfl, rfl, List.append_nil _, rfl⟩
      · have hreadable : s.isReadable := by_contra fun hnot => h ⟨hdata, hnot⟩
        apply respects_of_isReadable hreadable
        simp [operate, heq]

lemma respects_sendData_iff (s : H2Stream) (data : Bytes) (endStream : Bool) :
    s.Respects (.sendData data endStream) ↔ ¬ s.SlipsIn (.sendData data endStream) := by
  cases endStream with
  | true =>
    simp only [SlipsIn, not_false_eq_true, iff_true]
    by_cases h : s.canTransition .halfClosedLocal
    · apply respects_of_isWritable (isWritable_of_canTransition h)
      simp [operate, sendData_of_allowed data h]
    · apply respects_of_sameContent
      rw [operate, sendData_of_refused data h]
      exact .refl s
  | false =>
    have heq := sendData_false s data
    constructor
    · rintro h ⟨hdata, hwritable⟩
      apply hwritable
      apply h.writable
      simpa [operate, heq] using List.length_pos_of_ne_nil hdata
    · intro h
      by_cases hdata : data = []
      · apply respects_of_sameContent
        rw [operate, heq, hdata]
        exact ⟨rfl, rfl, rfl, List.append_nil _⟩
      · have hwritable : s.isWritable := by_contra fun hnot => h ⟨hdata, hnot⟩
        apply respects_of_isWritable hwritable
        simp [operate, heq]

lemma respects_iff {s : H2Stream} (hs : s.Unreserved) (op : H2StreamOp) :
    s.Respects op ↔ ¬ s.SlipsIn op := by
  cases op with
  | handleHeaders headers endStream => simp [SlipsIn, respects_handleHeaders]
  | handleData data endStream => exact respects_handleData_iff hs data endStream
  | sendHeaders headers endStream => simp [SlipsIn, respects_sendHeaders]
  | sendData data endStream => exact respects_sendData_iff s data endStream
  | sendRstStream errorCode =>
    simpa [SlipsIn] using respects_of_sameContent (sameContent_close s errorCode)
  | close errorCode => simpa [SlipsIn] using respects_of_sameContent (sameContent_close s errorCode)

lemma unreserved_operate {s : H2Stream} (hs : s.Unreserved) (op : H2StreamOp) :
    (s.operate op).2.Unreserved := by
  have hclose : ∀ errorCode, (s.close errorCode).Unreserved := fun errorCode => by
    simp [Unreserved, state_close]
  cases op with
  | handleHeaders headers endStream =>
    by_cases h : s.canTransition (receivedState endStream)
    · obtain ⟨calls, heq⟩ := handleHeaders_of_allowed headers h
      rw [operate, heq]
      cases endStream <;> simp [Unreserved, receivedState]
    · rwa [operate, handleHeaders_of_refused headers h]
  | handleData data endStream =>
    cases endStream with
    | true =>
      by_cases h : s.canTransition .halfClosedRemote
      · obtain ⟨calls, heq⟩ := handleData_of_allowed data h
        simp [operate, heq, Unreserved]
      · rwa [operate, handleData_of_refused data h]
    | false =>
      obtain ⟨calls, heq⟩ := handleData_false s data
      rw [operate, heq]
      exact hs
  | sendHeaders headers endStream =>
    by_cases h : s.canTransition (sentState endStream)
    · rw [operate, sendHeaders_of_allowed headers h]
      cases endStream <;> simp [Unreserved, sentState]
    · rwa [operate, sendHeaders_of_refused headers h]
  | sendData data endStream =>
    cases endStream with
    | true =>
      by_cases h : s.canTransition .halfClosedLocal
      · simp [operate, sendData_of_allowed data h, Unreserved]
      · rwa [operate, sendData_of_refused data h]
    | false => exact hs
  | sendRstStream errorCode => exact hclose errorCode
  | close errorCode => exact hclose errorCode

/-- On every run from a new stream the bodies grow in open directions only, and a closed stream
keeps its content, if and only if no step is data without `end_stream` in a direction that is not
open. -/
theorem respects_run_iff (streamId : UInt32) (dataCallback headersCallback closeCallback : Bool)
    (ops : List H2StreamOp) :
    (∀ ops' op s, ops' ++ [op] <+: ops →
      Runs.run next (fresh streamId dataCallback headersCallback closeCallback) ops' = some s →
      s.Respects op) ↔
    ∀ ops' op s, ops' ++ [op] <+: ops →
      Runs.run next (fresh streamId dataCallback headersCallback closeCallback) ops' = some s →
      ¬ s.SlipsIn op := by
  apply Runs.forall_step_iff next (I := Unreserved) _ (fun s op hs => respects_iff hs op)
    (unreserved_fresh _ _ _ _)
  intro s op t hs hstep
  cases hstep
  exact unreserved_operate hs op

/-- The request has ended, and its body still grows. -/
theorem data_after_end_stream :
    ¬ ∀ ops' op s,
      ops' ++ [op] <+: [.handleHeaders [] false, .handleData [1] true, .handleData [2] false] →
      Runs.run next (fresh 1 false false false) ops' = some s → s.Respects op := by
  intro h
  have hlast := h [.handleHeaders [] false, .handleData [1] true] (.handleData [2] false) _
    (List.prefix_refl _) rfl
  exact absurd (hlast.readable (by decide)) (by decide)

/-! ### A request and its response -/

/-- One transfer for each chunk, with `end_stream` on the last. -/
def chunkOps (transfer : Bytes → Bool → H2StreamOp) : List Bytes → List H2StreamOp
  | [] => []
  | [data] => [transfer data true]
  | data :: chunks => transfer data false :: chunkOps transfer chunks

/-- A request is received and its response sent. -/
def exchange (request : H2Headers) (requestChunks : List Bytes) (response : H2Headers)
    (responseChunks : List Bytes) : List H2StreamOp :=
  .handleHeaders request requestChunks.isEmpty :: (chunkOps .handleData requestChunks ++
    .sendHeaders response responseChunks.isEmpty :: chunkOps .sendData responseChunks)

/-- Every operation succeeds, and the stream is closed in the end. -/
def Completes (s : H2Stream) (ops : List H2StreamOp) : Prop :=
  ∃ t, Runs.run attempt s ops = some t ∧ t.state = .closed

lemma attempt_eq_none {s : H2Stream} {op : H2StreamOp} (h : ¬ (s.operate op).1.isSuccess) :
    s.attempt op = none := if_neg h

lemma attempt_eq_some {s t : H2Stream} {op : H2StreamOp} (h : s.operate op = (.success, t)) :
    s.attempt op = some t := by
  simp [attempt, h]

lemma attempt_handleHeaders {s : H2Stream} (headers : H2Headers) {endStream : Bool}
    (h : s.canTransition (receivedState endStream)) :
    ∃ t, s.attempt (.handleHeaders headers endStream) = some t ∧
      t.state = receivedState endStream := by
  obtain ⟨calls, heq⟩ := handleHeaders_of_allowed headers h
  exact ⟨{ s with
    requestHeaders := s.requestHeaders.insert headers, state := receivedState endStream
    calls := calls }, attempt_eq_some heq, rfl⟩

lemma attempt_handleData_false (s : H2Stream) (data : Bytes) :
    ∃ t, s.attempt (.handleData data false) = some t ∧ t.state = s.state := by
  obtain ⟨calls, heq⟩ := handleData_false s data
  exact ⟨{ s with requestBody := s.requestBody ++ data, calls := calls }, attempt_eq_some heq, rfl⟩

lemma attempt_handleData_true {s : H2Stream} (data : Bytes)
    (h : s.canTransition .halfClosedRemote) :
    ∃ t, s.attempt (.handleData data true) = some t ∧ t.state = .halfClosedRemote := by
  obtain ⟨calls, heq⟩ := handleData_of_allowed data h
  exact ⟨{ s with
    requestBody := s.requestBody ++ data, state := .halfClosedRemote, calls := calls },
    attempt_eq_some heq, rfl⟩

/-- The whole request body leaves an open stream half closed by the peer. -/
lemma run_handleData {s : H2Stream} (hs : s.state = .open) {chunks : List Bytes}
    (hchunks : chunks ≠ []) :
    ∃ t, Runs.run attempt s (chunkOps .handleData chunks) = some t ∧
      t.state = .halfClosedRemote := by
  induction chunks generalizing s with
  | nil => exact absurd rfl hchunks
  | cons data chunks ih =>
    cases chunks with
    | nil =>
      have hend : s.canTransition .halfClosedRemote := by simp [canTransition, hs]
      obtain ⟨t, ht, hstate⟩ := attempt_handleData_true data hend
      refine ⟨t, ?_, hstate⟩
      rw [chunkOps, Runs.run, ht]
      rfl
    | cons next chunks =>
      obtain ⟨t, ht, hstate⟩ := attempt_handleData_false s data
      rw [chunkOps, Runs.run, ht]
      · exact ih (hstate.trans hs) (List.cons_ne_nil _ _)
      · exact List.cons_ne_nil _ _

/-- Nothing leads on from the half-closed state but the end of the stream. -/
lemma attempt_sendHeaders {s : H2Stream} (hs : s.state = .halfClosedRemote) (headers : H2Headers)
    (endStream : Bool) : s.attempt (.sendHeaders headers endStream) = none := by
  have hrefused : ¬ s.canTransition (sentState endStream) := by
    cases endStream <;> simp [canTransition, hs, sentState]
  apply attempt_eq_none
  rw [operate, sendHeaders_of_refused headers hrefused]
  simpa [isSuccess_validateTransition] using hrefused

/-- No exchange completes: a request without a body is refused at its headers, and one with a body
leaves a state in which no response can be started. -/
theorem not_completes_exchange (streamId : UInt32)
    (dataCallback headersCallback closeCallback : Bool) (request : H2Headers)
    (requestChunks : List Bytes) (response : H2Headers) (responseChunks : List Bytes) :
    ¬ (fresh streamId dataCallback headersCallback closeCallback).Completes
      (exchange request requestChunks response responseChunks) := by
  rintro ⟨t, hrun, -⟩
  obtain ⟨s, hs, hrest⟩ := Runs.run_cons attempt hrun
  cases requestChunks with
  | nil =>
    have hrefused : ¬ (fresh streamId dataCallback headersCallback closeCallback).canTransition
        (receivedState true) := by
      simp [canTransition, fresh, new, receivedState]
    rw [attempt_eq_none] at hs
    · cases hs
    · rw [List.isEmpty_nil, operate, handleHeaders_of_refused request hrefused]
      simpa [isSuccess_validateTransition] using hrefused
  | cons data chunks =>
    have hallowed : (fresh streamId dataCallback headersCallback closeCallback).canTransition
        (receivedState false) := by
      simp [canTransition, fresh, new, receivedState]
    obtain ⟨u, hu, hopen⟩ := attempt_handleHeaders request hallowed
    cases hu.symm.trans hs
    obtain ⟨v, hv, hstate⟩ := run_handleData hopen (List.cons_ne_nil data chunks)
    rw [Runs.run_append, hv, Option.bind_some, Runs.run, attempt_sendHeaders hstate] at hrest
    cases hrest

/-- A request with one chunk, answered without a body. -/
theorem not_completes_post :
    ¬ (fresh 1 false false false).Completes
      (exchange [(bytes ":method", bytes "POST")] [[1]] [(bytes ":status", bytes "204")] []) := by
  have hrefused : Runs.run attempt (fresh 1 false false false)
      (exchange [(bytes ":method", bytes "POST")] [[1]] [(bytes ":status", bytes "204")] []) =
        none := by decide
  rintro ⟨t, hrun, -⟩
  cases hrefused.symm.trans hrun

end H2Stream

end TinyWebServer
