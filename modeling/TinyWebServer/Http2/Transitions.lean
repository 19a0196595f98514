import TinyWebServer.Http2.ConnectionLife

/-!
# The transitions an HTTP/2 connection asks for

`TransitionState` logs a transition that its table refuses and returns, so an operation does not
learn that nothing happened. The calls that an operation makes are listed here, each with the
connection as it is at the call; the state at the end of the operation is what they leave.
-/

namespace TinyWebServer

open H2ConnectionState

/-- A call of `TransitionState`. -/
structure TransitionCall where
  connection : H2Connection
  newState : H2ConnectionState

namespace TransitionCall

/-- The state that the call leaves. -/
def result (call : TransitionCall) : H2ConnectionState :=
  (call.connection.transitionState call.newState).state

def TakesEffect (call : TransitionCall) : Prop := call.result = call.newState

instance (call : TransitionCall) : Decidable call.TakesEffect :=
  inferInstanceAs (Decidable (_ = _))

/-- Each call finds the state that the one before it left. -/
inductive Follows : H2ConnectionState → List TransitionCall → H2ConnectionState → Prop where
  | nil (s : H2ConnectionState) : Follows s [] s
  | cons {call : TransitionCall} {calls : List TransitionCall} {t : H2ConnectionState}
      (hrest : Follows call.result calls t) : Follows call.connection.state (call :: calls) t

lemma Follows.append {s t u : H2ConnectionState} {calls calls' : List TransitionCall}
    (h : Follows s calls t) (h' : Follows t calls' u) : Follows s (calls ++ calls') u := by
  induction h with
  | nil s => exact h'
  | cons _ ih => exact .cons (ih h')

lemma Follows.tail {s t : H2ConnectionState} {call : TransitionCall} {calls : List TransitionCall}
    (h : Follows s (call :: calls) t) : Follows call.result calls t := by
  cases h with
  | cons hrest => exact hrest

lemma Follows.single (call : TransitionCall) :
    Follows call.connection.state [call] call.result := .cons (.nil _)

end TransitionCall

open TransitionCall

namespace H2Connection

/-! ### The calls -/

/-- The members as the constructor's initializers leave them. -/
def initialized (fd : ℤ) (isServer : Bool) : H2Connection :=
  { fd := fd, isServer := isServer, state := .H2_IDLE, settings := .default, streams := []
    readBuffer := [], prefaceRemaining := if isServer then clientPrefaceLen else 0
    hasFrameCallback := false, hasCloseCallback := false
    emitted := [], closeCalls := [], retired := [], received := [] }

def newCalls (fd : ℤ) (isServer : Bool) : List TransitionCall :=
  if isServer then [] else [⟨initialized fd isServer, .H2_PREFACE_SENT⟩]

/-- A frame on its way to its handler. -/
structure HandledFrame where
  connection : H2Connection
  header : H2FrameHeader
  payload : Bytes

def HandledFrame.isGoaway (frame : HandledFrame) : Prop :=
  H2FrameType.ofUInt8 frame.header.type = some .goaway

def HandledFrame.calls (frame : HandledFrame) : List TransitionCall :=
  match H2FrameType.ofUInt8 frame.header.type with
  | some .goaway =>
    match H2FrameParser.parseGoawayPayload frame.payload with
    | some _ => [⟨frame.connection, .H2_CLOSING⟩]
    | none => []
  | _ => []

/-- The frames that `readFrames` gives to `handleFrame`. -/
def handledFrames : ℕ → H2Connection → List HandledFrame
  | 0, _ => []
  | fuel + 1, c =>
    if c.readBuffer.length < 9 then []
    else
      match H2FrameParser.parseHeader c.readBuffer with
      | none => []
      | some header =>
        if c.readBuffer.length < header.frameSize then []
        else
          let payload := (c.readBuffer.drop 9).take header.length.toNat
          let result := c.handleFrame header payload
          ⟨c, header, payload⟩ ::
            if ¬ result.1.isSuccess then []
            else handledFrames fuel
              { result.2 with readBuffer := result.2.readBuffer.drop header.frameSize }

/-- The frames that `readData` gives to `handleFrame`. -/
def readDataFrames (c : H2Connection) (data : Bytes) : List HandledFrame :=
  let c := { c with readBuffer := c.readBuffer ++ data, received := c.received ++ data }
  handledFrames c.readBuffer.length c

def prefaceCalls (c : H2Connection) (data : Bytes) : List TransitionCall :=
  if c.prefaceRemaining = 0 then []
  else
    let toCompare := min data.length c.prefaceRemaining
    let expected := clientPreface.drop (clientPrefaceLen - c.prefaceRemaining)
    if data.take toCompare ≠ expected.take toCompare then []
    else
      let c := { c with prefaceRemaining := c.prefaceRemaining - toCompare }
      if c.prefaceRemaining = 0 then [⟨c, .H2_OPEN⟩] else []

/-- The frames that `processData` gives to `handleFrame`. -/
def processDataFrames (c : H2Connection) (data : Bytes) : List HandledFrame :=
  if c.isClosed then []
  else if c.state = .H2_IDLE ∧ c.isServer then
    let result := c.processPreface data
    if ¬ result.1 then []
    else
      let prefaceConsumed := clientPrefaceLen - result.2.prefaceRemaining
      if data.length < prefaceConsumed then []
      else result.2.readDataFrames (data.drop prefaceConsumed)
  else c.readDataFrames data

def closeTransitionCalls (c : H2Connection) : List TransitionCall :=
  if c.isClosed then []
  else [⟨if c.isOpen then (c.sendGoaway 0 1 []).2 else c, .H2_CLOSED⟩]

def transitionCalls (c : H2Connection) : H2ConnectionOp → List TransitionCall
  | .processData data =>
    (if ¬ c.isClosed ∧ c.state = .H2_IDLE ∧ c.isServer then c.prefaceCalls data else []) ++
      (c.processDataFrames data).flatMap HandledFrame.calls
  | .close _ => c.closeTransitionCalls
  | _ => []

/-- The operation gives a GOAWAY frame to its handler. -/
def HandlesGoaway (c : H2Connection) : H2ConnectionOp → Prop
  | .processData data => ∃ frame ∈ c.processDataFrames data, frame.isGoaway
  | _ => False

/-! ### The state is what the calls leave -/

lemma follows_new (fd : ℤ) (isServer : Bool) :
    Follows (initialized fd isServer).state (newCalls fd isServer) (new fd isServer).state := by
  cases isServer with
  | true => exact .nil _
  | false => exact .single ⟨initialized fd false, .H2_PREFACE_SENT⟩

lemma state_sendFrame (c : H2Connection) (type : H2FrameType) (flags : UInt8) (streamId : UInt32)
    (payload : Bytes) : (c.sendFrame type flags streamId payload).2.state = c.state :=
  (Stays.sendFrame c type flags streamId payload).state

lemma calls_of_not_goaway {frame : HandledFrame} (h : ¬ frame.isGoaway) : frame.calls = [] := by
  rw [HandledFrame.calls]
  split
  · rename_i htype
    exact absurd htype h
  · rfl

lemma follows_handleFrame (frame : HandledFrame) :
    Follows frame.connection.state frame.calls
      (frame.connection.handleFrame frame.header frame.payload).2.state := by
  by_cases hgoaway : frame.isGoaway
  · rw [HandledFrame.calls, handleFrame_eq, hgoaway]
    dsimp only
    rw [handleGoawayFrame]
    cases H2FrameParser.parseGoawayPayload frame.payload with
    | none => exact .nil _
    | some info => exact .single ⟨frame.connection, .H2_CLOSING⟩
  · rw [calls_of_not_goaway hgoaway, (Stays.handleFrame frame.payload hgoaway).state]
    exact .nil _

lemma follows_readFrames (fuel : ℕ) (c : H2Connection) :
    Follows c.state ((handledFrames fuel c).flatMap HandledFrame.calls)
      (readFrames fuel c).2.state := by
  induction fuel generalizing c with
  | zero => exact .nil _
  | succ fuel ih =>
    rw [readFrames, handledFrames]
    by_cases hnine : c.readBuffer.length < 9
    · rw [if_pos hnine, if_pos hnine]
      exact .nil _
    rw [if_neg hnine, if_neg hnine]
    cases H2FrameParser.parseHeader c.readBuffer with
    | none => exact .nil _
    | some header =>
      dsimp only
      by_cases hshort : c.readBuffer.length < header.frameSize
      · rw [if_pos hshort, if_pos hshort]
        exact .nil _
      rw [if_neg hshort, if_neg hshort, List.flatMap_cons]
      apply (follows_handleFrame
        ⟨c, header, (c.readBuffer.drop 9).take header.length.toNat⟩).append
      generalize c.handleFrame header ((c.readBuffer.drop 9).take header.length.toNat) = result
      split_ifs
      · exact ih { result.2 with readBuffer := result.2.readBuffer.drop header.frameSize }
      · exact .nil _

lemma follows_readData (c : H2Connection) (data : Bytes) :
    Follows c.state ((c.readDataFrames data).flatMap HandledFrame.calls)
      (c.readData data).2.state :=
  follows_readFrames (c.readBuffer ++ data).length
    { c with readBuffer := c.readBuffer ++ data, received := c.received ++ data }

lemma follows_processPreface (c : H2Connection) (data : Bytes) :
    Follows c.state (c.prefaceCalls data) (c.processPreface data).2.state := by
  rw [prefaceCalls, processPreface]
  dsimp only
  split_ifs
  · exact .nil _
  · exact .nil _
  · rw [sendSettings, state_sendFrame]
    exact .single ⟨{ c with
      prefaceRemaining := c.prefaceRemaining - min data.length c.prefaceRemaining }, .H2_OPEN⟩
  · exact .nil _

/-- What the list of calls says about the state is what the operation does. -/
lemma follows_operate (c : H2Connection) (op : H2ConnectionOp) :
    Follows c.state (c.transitionCalls op) (c.operate op).2.state := by
  cases op with
  | processData data =>
    rw [transitionCalls, operate, processDataFrames, processData]
    by_cases hclosed : c.isClosed
    · simp only [hclosed, not_true_eq_false, false_and, if_false, if_true, List.flatMap_nil,
        List.append_nil]
      exact .nil _
    by_cases hwaits : c.state = .H2_IDLE ∧ c.isServer
    · have hpreface := follows_processPreface c data
      rw [if_pos ⟨hclosed, hwaits⟩, if_neg hclosed, if_neg hclosed, if_pos hwaits, if_pos hwaits]
      dsimp only
      split_ifs
      · rw [List.flatMap_nil, List.append_nil]
        exact hpreface
      · exact hpreface.append (follows_readData _ _)
      · rw [List.flatMap_nil, List.append_nil]
        exact hpreface
    · rw [if_neg fun h => hwaits h.2, if_neg hclosed, if_neg hclosed, if_neg hwaits,
        if_neg hwaits, List.nil_append]
      exact follows_readData c data
  | sendFrame type flags streamId payload =>
    rw [operate, state_sendFrame]
    exact .nil _
  | sendSettings settings ack =>
    rw [operate, sendSettings, state_sendFrame]
    exact .nil _
  | sendPing opaqueData ack =>
    rw [operate, sendPing, state_sendFrame]
    exact .nil _
  | sendGoaway lastStreamId errorCode debugData =>
    rw [operate, sendGoaway, state_sendFrame]
    exact .nil _
  | close reason =>
    rw [transitionCalls, closeTransitionCalls, operate, close]
    by_cases hclosed : c.isClosed
    · rw [if_pos hclosed, if_pos hclosed]
      exact .nil _
    · have hopen : (if c.isOpen then (c.sendGoaway 0 1 []).2 else c).state = c.state := by
        split_ifs
        · exact state_sendFrame _ _ _ _ _
        · rfl
      rw [if_neg hclosed, if_neg hclosed, ← hopen]
      dsimp only
      split_ifs
      · exact .single ⟨(c.sendGoaway 0 1 []).2, .H2_CLOSED⟩
      · exact .single ⟨(c.sendGoaway 0 1 []).2, .H2_CLOSED⟩
      · exact .single ⟨c, .H2_CLOSED⟩
      · exact .single ⟨c, .H2_CLOSED⟩

/-! ### The calls that GOAWAY frames lead to -/

lemma newState_of_mem_calls {frames : List HandledFrame} {call : TransitionCall}
    (h : call ∈ frames.flatMap HandledFrame.calls) : call.newState = .H2_CLOSING := by
  obtain ⟨frame, -, hcall⟩ := List.mem_flatMap.mp h
  rw [HandledFrame.calls] at hcall
  split at hcall
  · split at hcall
    · rw [List.mem_singleton.mp hcall]
    · cases hcall
  · cases hcall

/-- The length check of the frame header leaves a GOAWAY payload that can be parsed. -/
lemma calls_of_goaway {fuel : ℕ} {c : H2Connection} {frame : HandledFrame}
    (h : frame ∈ handledFrames fuel c) (hgoaway : frame.isGoaway) :
    frame.calls = [⟨frame.connection, .H2_CLOSING⟩] := by
  induction fuel generalizing c with
  | zero => cases h
  | succ fuel ih =>
    rw [handledFrames] at h
    by_cases hnine : c.readBuffer.length < 9
    · rw [if_pos hnine] at h
      cases h
    rw [if_neg hnine] at h
    cases hheader : H2FrameParser.parseHeader c.readBuffer with
    | none =>
      rw [hheader] at h
      cases h
    | some header =>
      rw [hheader] at h
      dsimp only at h
      by_cases hshort : c.readBuffer.length < header.frameSize
      · rw [if_pos hshort] at h
        cases h
      rw [if_neg hshort] at h
      rcases List.mem_cons.mp h with rfl | hrest
      · have hallowed := H2FrameParser.lengthAllowed_of_parseHeader hheader
        have htype : H2FrameType.ofUInt8 header.type = some .goaway := hgoaway
        rw [htype] at hallowed
        have height : 8 ≤ header.length.toNat := hallowed
        have hlen : ¬ ((c.readBuffer.drop 9).take header.length.toNat).length < 8 := by
          rw [H2FrameHeader.frameSize] at hshort
          simp only [List.length_take, List.length_drop]
          omega
        rw [HandledFrame.calls, hgoaway]
        dsimp only
        rw [H2FrameParser.parseGoawayPayload, if_neg hlen]
      · split_ifs at hrest
        · exact ih hrest
        · cases hrest

lemma mem_handledFrames_of_mem {c : H2Connection} {data : Bytes} {frame : HandledFrame}
    (h : frame ∈ c.processDataFrames data) : ∃ fuel d, frame ∈ handledFrames fuel d := by
  rw [processDataFrames] at h
  split_ifs at h
  · cases h
  · dsimp only at h
    split_ifs at h
    · cases h
    · exact ⟨_, _, h⟩
    · cases h
  · exact ⟨_, _, h⟩

/-- No frame leads to a call if and only if none is a GOAWAY. -/
lemma calls_eq_nil_iff (c : H2Connection) (data : Bytes) :
    (c.processDataFrames data).flatMap HandledFrame.calls = [] ↔
      ¬ c.HandlesGoaway (.processData data) := by
  rw [HandlesGoaway, List.flatMap_eq_nil_iff]
  constructor
  · rintro hnil ⟨frame, hmem, hgoaway⟩
    obtain ⟨fuel, d, hd⟩ := mem_handledFrames_of_mem hmem
    have hcalls := calls_of_goaway hd hgoaway
    rw [hnil frame hmem] at hcalls
    cases hcalls
  · intro hnone frame hmem
    exact calls_of_not_goaway fun hgoaway => hnone ⟨frame, hmem, hgoaway⟩

/-- The states in which a GOAWAY frame leads to `H2_CLOSING`. -/
def Serving (s : H2ConnectionState) : Prop := s = .H2_OPEN ∨ s = .H2_CLOSING

lemma result_closing_of_serving {call : TransitionCall} (hcall : call.newState = .H2_CLOSING)
    (hs : Serving call.connection.state) : call.result = .H2_CLOSING := by
  rw [result, hcall, transitionState]
  rcases hs with hs | hs
  · simp [hs, canTransition]
  · simp [hs]

lemma result_closing_of_idle {call : TransitionCall} (hcall : call.newState = .H2_CLOSING)
    (hs : call.connection.state = .H2_IDLE) : call.result = .H2_IDLE := by
  rw [result, hcall, transitionState]
  simp [hs, canTransition]

lemma takesEffect_of_serving {s t : H2ConnectionState} {calls : List TransitionCall}
    (h : Follows s calls t) (hcalls : ∀ call ∈ calls, call.newState = .H2_CLOSING)
    (hs : Serving s) : (∀ call ∈ calls, call.TakesEffect) ∧ Serving t := by
  induction h with
  | nil s => exact ⟨fun call hcall => absurd hcall List.not_mem_nil, hs⟩
  | @cons call calls t hrest ih =>
    rw [List.forall_mem_cons] at hcalls ⊢
    have hresult := result_closing_of_serving hcalls.1 hs
    obtain ⟨heffect, ht⟩ := ih hcalls.2 (Or.inr hresult)
    exact ⟨⟨hresult.trans hcalls.1.symm, heffect⟩, ht⟩

/-- Without a table entry from `H2_IDLE` to `H2_CLOSING` every one of these calls is dropped. -/
lemma not_takesEffect_of_idle {s t : H2ConnectionState} {calls : List TransitionCall}
    (h : Follows s calls t) (hcalls : ∀ call ∈ calls, call.newState = .H2_CLOSING)
    (hs : s = .H2_IDLE) : (∀ call ∈ calls, ¬ call.TakesEffect) ∧ t = .H2_IDLE := by
  induction h with
  | nil s => exact ⟨fun call hcall => absurd hcall List.not_mem_nil, hs⟩
  | @cons call calls t hrest ih =>
    rw [List.forall_mem_cons] at hcalls ⊢
    have hresult := result_closing_of_idle hcalls.1 hs
    obtain ⟨heffect, ht⟩ := ih hcalls.2 hresult
    refine ⟨⟨?_, heffect⟩, ht⟩
    rw [TakesEffect, hresult, hcalls.1]
    decide

/-! ### The states of the two roles -/

/-- The server has not seen the whole preface, and nothing that comes after it. -/
structure AwaitsPreface (c : H2Connection) : Prop where
  state : c.state = .H2_IDLE
  prefaceRemaining_pos : 0 < c.prefaceRemaining
  prefaceRemaining_le : c.prefaceRemaining ≤ clientPrefaceLen
  readBuffer : c.readBuffer = []

/-- A server is idle only until it has the preface, and a client until it is closed. -/
def Shaped (c : H2Connection) : Prop :=
  if c.isServer then c.AwaitsPreface ∨ Serving c.state ∨ c.isClosed
  else c.state = .H2_IDLE ∨ c.isClosed

lemma shaped_fresh (fd : ℤ) (isServer frameCallback closeCallback : Bool) :
    (fresh fd isServer frameCallback closeCallback).Shaped := by
  cases isServer with
  | true => exact Or.inl ⟨rfl, Nat.succ_pos 23, le_refl _, rfl⟩
  | false => exact Or.inl rfl

lemma processPreface_cases {c : H2Connection} (hpos : 0 < c.prefaceRemaining) (data : Bytes) :
    (c.processPreface data = (false, c) ∧ c.prefaceCalls data = []) ∨
    (data.length < c.prefaceRemaining ∧ c.prefaceCalls data = [] ∧
      c.processPreface data =
        (true, { c with prefaceRemaining := c.prefaceRemaining - data.length })) ∨
    c.prefaceCalls data = [⟨{ c with prefaceRemaining := 0 }, .H2_OPEN⟩] := by
  rw [processPreface, prefaceCalls, if_neg hpos.ne', if_neg hpos.ne']
  dsimp only
  split_ifs with hmismatch hdone
  · exact Or.inl ⟨rfl, rfl⟩
  · rw [hdone]
    exact Or.inr (Or.inr rfl)
  · have hlen : data.length < c.prefaceRemaining := by omega
    rw [min_eq_left hlen.le]
    exact Or.inr (Or.inl ⟨hlen, rfl, rfl⟩)

lemma AwaitsPreface.readData_nil {c : H2Connection} (hc : c.AwaitsPreface) :
    c.readDataFrames [] = [] ∧ (c.readData []).2.AwaitsPreface := by
  rw [readDataFrames, readData]
  simp only [hc.readBuffer, List.append_nil, List.length_nil, handledFrames, readFrames]
  exact ⟨trivial, hc.state, hc.prefaceRemaining_pos, hc.prefaceRemaining_le, rfl⟩

/-- Either the preface is still not complete and no frame is looked at, or the connection is opened
before anything else. -/
lemma processData_of_awaitsPreface {c : H2Connection} (hc : c.AwaitsPreface) (hserver : c.isServer)
    (data : Bytes) :
    (c.transitionCalls (.processData data) = [] ∧
      (c.operate (.processData data)).2.AwaitsPreface) ∨
    ∃ call calls, c.transitionCalls (.processData data) = call :: calls ∧
      call.result = .H2_OPEN ∧ call.newState = .H2_OPEN ∧
      ∀ call' ∈ calls, call'.newState = .H2_CLOSING := by
  have hnot : ¬ c.isClosed := by
    rw [isClosed, hc.state]
    decide
  have hwaits : c.state = .H2_IDLE ∧ c.isServer := ⟨hc.state, hserver⟩
  rw [transitionCalls, if_pos ⟨hnot, hwaits⟩, processDataFrames, if_neg hnot, if_pos hwaits,
    operate, processData, if_neg hnot, if_pos hwaits]
  rcases processPreface_cases hc.prefaceRemaining_pos data with
    ⟨hpreface, hcalls⟩ | ⟨hlen, hcalls, hpreface⟩ | hcalls
  · rw [hpreface, hcalls]
    exact Or.inl ⟨rfl, hc⟩
  · have hrest : AwaitsPreface { c with prefaceRemaining := c.prefaceRemaining - data.length } :=
      ⟨hc.state, Nat.sub_pos_of_lt hlen, (Nat.sub_le _ _).trans hc.prefaceRemaining_le,
        hc.readBuffer⟩
    rw [hpreface, hcalls]
    left
    dsimp only
    by_cases hshort : data.length < clientPrefaceLen - (c.prefaceRemaining - data.length)
    · simp only [not_true_eq_false, if_false, if_pos hshort, List.flatMap_nil, List.append_nil]
      exact ⟨trivial, hrest⟩
    · have hnil : data.drop (clientPrefaceLen - (c.prefaceRemaining - data.length)) = [] := by
        apply List.drop_eq_nil_of_le
        have := hc.prefaceRemaining_le
        omega
      obtain ⟨hframes, hread⟩ := hrest.readData_nil
      simp only [not_true_eq_false, if_false, if_neg hshort, hnil, hframes, List.nil_append,
        List.flatMap_nil]
      exact ⟨trivial, hread⟩
  · rw [hcalls]
    right
    refine ⟨_, _, rfl, ?_, rfl, fun call hcall => newState_of_mem_calls hcall⟩
    simp [result, transitionState, canTransition, hc.state]

lemma transitionCalls_of_pastPreface {c : H2Connection} (hc : ¬ (c.state = .H2_IDLE ∧ c.isServer))
    (data : Bytes) :
    c.transitionCalls (.processData data) =
      (c.processDataFrames data).flatMap HandledFrame.calls := by
  rw [transitionCalls, if_neg fun h => hc h.2, List.nil_append]

lemma takesEffect_close {c : H2Connection} {reason : Error} {call : TransitionCall}
    (h : call ∈ c.transitionCalls (.close reason)) : call.TakesEffect := by
  rw [transitionCalls, closeTransitionCalls] at h
  by_cases hclosed : c.isClosed
  · rw [if_pos hclosed] at h
    cases h
  · rw [if_neg hclosed, List.mem_singleton] at h
    have hnot : ¬ (if c.isOpen then (c.sendGoaway 0 1 []).2 else c).isClosed := by
      split_ifs
      · exact (Proceeds.sendFrame c _ _ _ _).notClosed hclosed
      · exact hclosed
    rw [h, TakesEffect, result, transitionState_closed hnot]

/-- What `ProcessData` asks for takes effect on a server, and on a client that is asked nothing. -/
lemma takesEffect_processData_iff {c : H2Connection} (hc : c.Shaped) (data : Bytes) :
    (∀ call ∈ c.transitionCalls (.processData data), call.TakesEffect) ↔
      c.isServer ∨ ¬ c.HandlesGoaway (.processData data) := by
  have hfollows := follows_operate c (.processData data)
  rw [Shaped] at hc
  by_cases hserver : c.isServer
  · simp only [hserver, true_or, iff_true]
    rw [if_pos hserver] at hc
    rcases hc with hawaits | hserving | hclosed
    · rcases processData_of_awaitsPreface hawaits hserver data with
        ⟨hnil, -⟩ | ⟨call, calls, hcalls, hresult, hnew, hrest⟩
      · rw [hnil]
        exact fun call hcall => absurd hcall List.not_mem_nil
      · rw [hcalls] at hfollows ⊢
        have htail := hfollows.tail
        rw [hresult] at htail
        rw [List.forall_mem_cons]
        exact ⟨hresult.trans hnew.symm, (takesEffect_of_serving htail hrest (Or.inl rfl)).1⟩
    · have hpast : ¬ (c.state = .H2_IDLE ∧ c.isServer) := by
        rcases hserving with hs | hs <;> simp [hs]
      rw [transitionCalls_of_pastPreface hpast] at hfollows ⊢
      exact (takesEffect_of_serving hfollows (fun _ => newState_of_mem_calls) hserving).1
    · simp [transitionCalls, processDataFrames, hclosed]
  · rw [if_neg hserver] at hc
    rw [or_iff_right hserver]
    have hpast : ¬ (c.state = .H2_IDLE ∧ c.isServer) := fun h => hserver h.2
    rw [transitionCalls_of_pastPreface hpast] at hfollows ⊢
    rw [← calls_eq_nil_iff]
    constructor
    · intro heffect
      rcases hc with hidle | hclosed
      · have hdropped :=
          (not_takesEffect_of_idle hfollows (fun _ => newState_of_mem_calls) hidle).1
        apply List.eq_nil_iff_forall_not_mem.mpr
        exact fun call hcall => hdropped call hcall (heffect call hcall)
      · rw [processDataFrames, if_pos hclosed, List.flatMap_nil]
    · intro hnil
      rw [hnil]
      exact fun call hcall => absurd hcall List.not_mem_nil

lemma serving_of_forward {s t : H2ConnectionState} (hs : Serving s) (h : Forward s t) :
    Serving t ∨ t = .H2_CLOSED := by
  rcases hs with rfl | rfl <;> cases t <;> revert h <;> simp [Forward, rank, Serving]

lemma closed_of_forward {t : H2ConnectionState} (h : Forward .H2_CLOSED t) : t = .H2_CLOSED := by
  cases t <;> revert h <;> simp [Forward, rank]

/-- An operation other than `ProcessData` and `Close` only sends. -/
lemma awaitsPreface_sendFrame {c : H2Connection} (hc : c.AwaitsPreface) (type : H2FrameType)
    (flags : UInt8) (streamId : UInt32) (payload : Bytes) :
    (c.sendFrame type flags streamId payload).2.AwaitsPreface := by
  rw [sendFrame]
  dsimp only
  split_ifs
  · exact hc
  · exact ⟨hc.state, hc.prefaceRemaining_pos, hc.prefaceRemaining_le, hc.readBuffer⟩
  · exact hc
  · exact hc

lemma isClosed_close (c : H2Connection) (reason : Error) : (c.close reason).isClosed := by
  by_cases hclosed : c.isClosed
  · rwa [close_of_closed hclosed]
  · exact (close_of_not_closed hclosed reason).1

/-- An operation on a server that waits for its preface. -/
lemma operate_of_awaitsPreface {c : H2Connection} (hc : c.AwaitsPreface) (hserver : c.isServer)
    (op : H2ConnectionOp) :
    (c.operate op).2.AwaitsPreface ∨ Serving (c.operate op).2.state ∨ (c.operate op).2.isClosed := by
  cases op with
  | processData data =>
    have hfollows := follows_operate c (.processData data)
    rcases processData_of_awaitsPreface hc hserver data with
      ⟨-, hawaits⟩ | ⟨call, calls, hcalls, hresult, -, hrest⟩
    · exact Or.inl hawaits
    · rw [hcalls] at hfollows
      have htail := hfollows.tail
      rw [hresult] at htail
      exact Or.inr (Or.inl (takesEffect_of_serving htail hrest (Or.inl rfl)).2)
  | sendFrame type flags streamId payload => exact Or.inl (awaitsPreface_sendFrame hc _ _ _ _)
  | sendSettings settings ack => exact Or.inl (awaitsPreface_sendFrame hc _ _ _ _)
  | sendPing opaqueData ack => exact Or.inl (awaitsPreface_sendFrame hc _ _ _ _)
  | sendGoaway lastStreamId errorCode debugData =>
    exact Or.inl (awaitsPreface_sendFrame hc _ _ _ _)
  | close reason => exact Or.inr (Or.inr (isClosed_close c reason))

/-- A client that is idle stays so until it is closed. -/
lemma operate_of_idle_client {c : H2Connection} (hc : c.state = .H2_IDLE) (hserver : ¬ c.isServer)
    (op : H2ConnectionOp) : (c.operate op).2.state = .H2_IDLE ∨ (c.operate op).2.isClosed := by
  have hsend : ∀ type flags streamId payload,
      (c.sendFrame type flags streamId payload).2.state = .H2_IDLE := fun _ _ _ _ =>
    (state_sendFrame c _ _ _ _).trans hc
  cases op with
  | processData data =>
    have hfollows := follows_operate c (.processData data)
    rw [transitionCalls_of_pastPreface fun h => hserver h.2] at hfollows
    exact Or.inl (not_takesEffect_of_idle hfollows (fun _ => newState_of_mem_calls) hc).2
  | sendFrame type flags streamId payload => exact Or.inl (hsend _ _ _ _)
  | sendSettings settings ack => exact Or.inl (hsend _ _ _ _)
  | sendPing opaqueData ack => exact Or.inl (hsend _ _ _ _)
  | sendGoaway lastStreamId errorCode debugData => exact Or.inl (hsend _ _ _ _)
  | close reason => exact Or.inr (isClosed_close c reason)

lemma Shaped.next {c t : H2Connection} {op : H2ConnectionOp} (hc : c.Shaped)
    (hnext : c.next op = some t) : t.Shaped := by
  obtain ⟨hforward, hserver, -⟩ := step_next hnext
  obtain rfl := Option.some.inj hnext
  have hclosed : c.isClosed → (c.operate op).2.isClosed := by
    intro h
    rw [show c.state = .H2_CLOSED from h] at hforward
    exact closed_of_forward hforward
  rw [Shaped] at hc ⊢
  rw [hserver]
  by_cases hc' : c.isServer
  · rw [if_pos hc'] at hc ⊢
    rcases hc with hawaits | hserving | h
    · exact operate_of_awaitsPreface hawaits hc' op
    · exact Or.inr (serving_of_forward hserving hforward)
    · exact Or.inr (Or.inr (hclosed h))
  · rw [if_neg hc'] at hc ⊢
    rcases hc with hidle | h
    · exact operate_of_idle_client hidle hc' op
    · exact Or.inr (hclosed h)

/-- The transition that the constructor asks for takes effect on a server, which asks for none. In
every state that a run reaches the transitions of an operation take effect if and only if the
connection is a server's or the operation handles no GOAWAY frame. -/
theorem takesEffect_iff (fd : ℤ) (isServer frameCallback closeCallback : Bool) :
    ((∀ call ∈ newCalls fd isServer, call.TakesEffect) ↔ isServer) ∧
    ∀ ops c, Runs.run next (fresh fd isServer frameCallback closeCallback) ops = some c →
      ∀ op, (∀ call ∈ c.transitionCalls op, call.TakesEffect) ↔ isServer ∨ ¬ c.HandlesGoaway op := by
  constructor
  · cases isServer with
    | true => simp [newCalls]
    | false =>
      simp only [newCalls, Bool.false_eq_true, if_false, List.forall_mem_singleton, iff_false]
      change ¬ H2_IDLE = H2_PREFACE_SENT
      decide
  · intro ops c hrun op
    have hinv : c.Shaped ∧ c.isServer = isServer := by
      refine Runs.invariant_run next (P := fun c => c.Shaped ∧ c.isServer = isServer)
        (fun u op v hu hnext => ⟨hu.1.next hnext, (step_next hnext).2.1.trans hu.2⟩)
        ⟨shaped_fresh fd isServer frameCallback closeCallback, ?_⟩ hrun
      cases isServer <;> rfl
    obtain ⟨hshaped, hserver⟩ := hinv
    rw [← hserver]
    have hnone : c.transitionCalls op = [] → ¬ c.HandlesGoaway op →
        ((∀ call ∈ c.transitionCalls op, call.TakesEffect) ↔
          c.isServer ∨ ¬ c.HandlesGoaway op) := by
      intro hnil hno
      rw [hnil]
      exact iff_of_true (fun call hcall => absurd hcall List.not_mem_nil) (Or.inr hno)
    cases op with
    | processData data => exact takesEffect_processData_iff hshaped data
    | sendFrame type flags streamId payload => exact hnone rfl id
    | sendSettings settings ack => exact hnone rfl id
    | sendPing opaqueData ack => exact hnone rfl id
    | sendGoaway lastStreamId errorCode debugData => exact hnone rfl id
    | close reason => exact iff_of_true (fun call hcall => takesEffect_close hcall) (Or.inr id)

/-- A client is still in `H2_IDLE` after its construction, and after a GOAWAY frame too. -/
theorem client_stays_idle :
    ¬ (∀ call ∈ newCalls 3 false, call.TakesEffect) ∧
    ¬ ∀ call ∈ (fresh 3 false true true).transitionCalls
        (.processData [0, 0, 8, 7, 0, 0, 0, 0, 0, 0, 0, 0, 0, 0, 0, 0, 0]), call.TakesEffect := by
  decide

end H2Connection

end TinyWebServer
