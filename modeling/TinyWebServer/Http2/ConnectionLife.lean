import TinyWebServer.Http2.FrameLoop
import TinyWebServer.Library.Runs

/-!
# The life of an HTTP/2 connection

The operations on a connection as labels, so that a run of them is a list. A transition that is let
through leads forward, closing comes last and once, and a closed connection does nothing any more.
-/

namespace TinyWebServer

inductive H2ConnectionOp where
  | processData (data : Bytes)
  | sendFrame (type : H2FrameType) (flags : UInt8) (streamId : UInt32) (payload : Bytes)
  | sendSettings (settings : List (UInt16 × UInt32)) (ack : Bool)
  | sendPing (opaqueData : Bytes) (ack : Bool)
  | sendGoaway (lastStreamId errorCode : UInt32) (debugData : Bytes)
  | close (reason : Error)

/-- What a call gives back: an error object, nothing, or an exception. -/
inductive H2Answer where
  | returned (err : Error)
  | nothing
  | thrown

namespace H2ConnectionState

def rank : H2ConnectionState → ℕ
  | .H2_IDLE => 0
  | .H2_PREFACE_SENT => 0
  | .H2_OPEN => 1
  | .H2_CLOSING => 2
  | .H2_CLOSED => 3

/-- The second state is the first one or comes after it. -/
def Forward (s t : H2ConnectionState) : Prop := s = t ∨ s.rank < t.rank

instance (s t : H2ConnectionState) : Decidable (Forward s t) :=
  inferInstanceAs (Decidable (_ ∨ _))

lemma Forward.refl (s : H2ConnectionState) : Forward s s := Or.inl rfl

lemma Forward.trans {s t u : H2ConnectionState} (hst : Forward s t) (htu : Forward t u) :
    Forward s u := by
  obtain rfl | hlt := hst
  · exact htu
  · obtain rfl | hlt' := htu
    · exact Or.inr hlt
    · exact Or.inr (hlt.trans hlt')

end H2ConnectionState

open H2ConnectionState

namespace H2Connection

/-- What the constructor makes, with the callbacks that the owner has set. -/
def fresh (fd : ℤ) (isServer frameCallback closeCallback : Bool) : H2Connection :=
  { new fd isServer with hasFrameCallback := frameCallback, hasCloseCallback := closeCallback }

/-- When the length goes below zero the buffer refuses the range. What the preface check has read
by then stays read. -/
def operate (c : H2Connection) : H2ConnectionOp → H2Answer × H2Connection
  | .processData data =>
    match c.processData data with
    | some result => (.returned result.1, result.2)
    | none => (.thrown, (c.processPreface data).2)
  | .sendFrame type flags streamId payload =>
    let result := c.sendFrame type flags streamId payload
    (.returned result.1, result.2)
  | .sendSettings settings ack =>
    let result := c.sendSettings settings ack
    (.returned result.1, result.2)
  | .sendPing opaqueData ack =>
    let result := c.sendPing opaqueData ack
    (.returned result.1, result.2)
  | .sendGoaway lastStreamId errorCode debugData =>
    let result := c.sendGoaway lastStreamId errorCode debugData
    (.returned result.1, result.2)
  | .close reason => (.nothing, c.close reason)

def next (c : H2Connection) (op : H2ConnectionOp) : Option H2Connection := some (c.operate op).2

/-! ### Transitions -/

/-- The table has no way back. -/
lemma forward_of_canTransition {c : H2Connection} {newState : H2ConnectionState} :
    c.canTransition newState → Forward c.state newState := by
  rw [canTransition]
  cases c.state <;> cases newState <;> decide

lemma forward_transitionState (c : H2Connection) (newState : H2ConnectionState) :
    Forward c.state (c.transitionState newState).state := by
  rw [transitionState]
  split_ifs with heq hcan
  · exact .refl _
  · exact forward_of_canTransition hcan
  · exact .refl _

lemma transitionState_closed {c : H2Connection} (hc : ¬ c.isClosed) :
    c.transitionState .H2_CLOSED = { c with state := .H2_CLOSED } := by
  have hcan : c.canTransition .H2_CLOSED := by
    rw [isClosed] at hc
    rw [canTransition]
    cases hstate : c.state <;> simp_all
  rw [transitionState, if_neg (show ¬ c.state = .H2_CLOSED from hc), if_neg (not_not.mpr hcan)]

/-- What a transition does not touch. -/
lemma transitionState_eq (c : H2Connection) (newState : H2ConnectionState) :
    c.transitionState newState = { c with state := (c.transitionState newState).state } := by
  rw [transitionState]
  split_ifs
  · rfl
  · rfl
  · rfl

/-! ### What no transition does -/

/-- The connection is in the same state, and its owner has heard nothing. -/
structure Stays (c t : H2Connection) : Prop where
  state : t.state = c.state
  isServer : t.isServer = c.isServer
  closeCalls : t.closeCalls = c.closeCalls
  hasCloseCallback : t.hasCloseCallback = c.hasCloseCallback

namespace Stays

lemma refl (c : H2Connection) : Stays c c := ⟨rfl, rfl, rfl, rfl⟩

lemma trans {c t u : H2Connection} (hct : Stays c t) (htu : Stays t u) : Stays c u where
  state := htu.state.trans hct.state
  isServer := htu.isServer.trans hct.isServer
  closeCalls := htu.closeCalls.trans hct.closeCalls
  hasCloseCallback := htu.hasCloseCallback.trans hct.hasCloseCallback

lemma sendFrame (c : H2Connection) (type : H2FrameType) (flags : UInt8) (streamId : UInt32)
    (payload : Bytes) : Stays c (c.sendFrame type flags streamId payload).2 := by
  rw [H2Connection.sendFrame]
  dsimp only
  split_ifs
  · exact .refl c
  · exact ⟨rfl, rfl, rfl, rfl⟩
  · exact .refl c
  · exact .refl c

lemma handleSettingsFrame (c : H2Connection) (header : H2FrameHeader) (payload : Bytes) :
    Stays c (c.handleSettingsFrame header payload).2 := by
  rw [H2Connection.handleSettingsFrame]
  split_ifs
  · exact .refl c
  · exact .refl c
  · cases H2FrameParser.parseSettingsPayload payload with
    | none => exact .refl c
    | some settings =>
      have happlied : Stays c { c with settings := settings.foldl applySetting c.settings } :=
        ⟨rfl, rfl, rfl, rfl⟩
      exact happlied.trans (sendFrame _ _ _ _ _)

lemma handlePingFrame (c : H2Connection) (header : H2FrameHeader) (payload : Bytes) :
    Stays c (c.handlePingFrame header payload).2 := by
  rw [H2Connection.handlePingFrame]
  cases H2FrameParser.parsePingPayload payload with
  | none => exact .refl c
  | some pingData =>
    dsimp only
    split_ifs
    · exact .refl c
    · exact sendFrame _ _ _ _ _

lemma handleRstStreamFrame (c : H2Connection) (header : H2FrameHeader) (payload : Bytes) :
    Stays c (c.handleRstStreamFrame header payload).2 := by
  rw [H2Connection.handleRstStreamFrame]
  split_ifs
  · exact .refl c
  · simp only [getOrCreateStream]
    cases c.streams.lookup (UInt32.ofNat header.streamId.toNat) with
    | none => exact ⟨rfl, rfl, rfl, rfl⟩
    | some stream => exact ⟨rfl, rfl, rfl, rfl⟩

/-- Only the handler of GOAWAY asks for a transition. -/
lemma handleFrame {c : H2Connection} {header : H2FrameHeader} (payload : Bytes)
    (hgoaway : H2FrameType.ofUInt8 header.type ≠ some .goaway) :
    Stays c (c.handleFrame header payload).2 := by
  rw [handleFrame_eq]
  split
  · exact handleSettingsFrame c header payload
  · exact handlePingFrame c header payload
  · rename_i htype
    exact absurd htype hgoaway
  · exact handleRstStreamFrame c header payload
  · exact .refl c

end Stays

/-! ### What every operation but closing does -/

/-- A connection that is not closed goes on, without a word to its owner. -/
structure Proceeds (c t : H2Connection) : Prop where
  forward : Forward c.state t.state
  notClosed : ¬ c.isClosed → ¬ t.isClosed
  isServer : t.isServer = c.isServer
  closeCalls : t.closeCalls = c.closeCalls
  hasCloseCallback : t.hasCloseCallback = c.hasCloseCallback

namespace Proceeds

lemma refl (c : H2Connection) : Proceeds c c := ⟨.refl _, id, rfl, rfl, rfl⟩

lemma trans {c t u : H2Connection} (hct : Proceeds c t) (htu : Proceeds t u) : Proceeds c u where
  forward := hct.forward.trans htu.forward
  notClosed := htu.notClosed ∘ hct.notClosed
  isServer := htu.isServer.trans hct.isServer
  closeCalls := htu.closeCalls.trans hct.closeCalls
  hasCloseCallback := htu.hasCloseCallback.trans hct.hasCloseCallback

lemma transitionState (c : H2Connection) {newState : H2ConnectionState}
    (hnew : newState ≠ .H2_CLOSED) : Proceeds c (c.transitionState newState) where
  forward := forward_transitionState c newState
  notClosed hc := by
    rw [H2Connection.transitionState]
    split_ifs
    · exact hc
    · exact hnew
    · exact hc
  isServer := by rw [transitionState_eq]
  closeCalls := by rw [transitionState_eq]
  hasCloseCallback := by rw [transitionState_eq]

lemma of_stays {c t : H2Connection} (h : Stays c t) : Proceeds c t where
  forward := .inl h.state.symm
  notClosed := by
    intro hc hclosed
    exact hc (h.state.symm.trans hclosed)
  isServer := h.isServer
  closeCalls := h.closeCalls
  hasCloseCallback := h.hasCloseCallback

lemma sendFrame (c : H2Connection) (type : H2FrameType) (flags : UInt8) (streamId : UInt32)
    (payload : Bytes) : Proceeds c (c.sendFrame type flags streamId payload).2 :=
  of_stays (Stays.sendFrame c type flags streamId payload)

lemma closeStreams (c : H2Connection) (p : UInt32 → Bool) (errorCode : UInt32) :
    Proceeds c (c.closeStreams p errorCode) := ⟨.refl _, id, rfl, rfl, rfl⟩

lemma handleGoawayFrame (c : H2Connection) (payload : Bytes) :
    Proceeds c (c.handleGoawayFrame payload).2 := by
  rw [H2Connection.handleGoawayFrame]
  cases H2FrameParser.parseGoawayPayload payload with
  | none => exact .refl c
  | some info =>
    dsimp only
    exact (transitionState c (show H2_CLOSING ≠ H2_CLOSED by decide)).trans (closeStreams _ _ _)

lemma handleFrame (c : H2Connection) (header : H2FrameHeader) (payload : Bytes) :
    Proceeds c (c.handleFrame header payload).2 := by
  by_cases hgoaway : H2FrameType.ofUInt8 header.type = some .goaway
  · rw [handleFrame_eq, hgoaway]
    exact handleGoawayFrame c payload
  · exact of_stays (Stays.handleFrame payload hgoaway)

lemma withBuffer (c : H2Connection) (buffer received : Bytes) :
    Proceeds c { c with readBuffer := buffer, received := received } :=
  ⟨.refl _, id, rfl, rfl, rfl⟩

lemma readFrames (fuel : ℕ) (c : H2Connection) : Proceeds c (readFrames fuel c).2 := by
  induction fuel generalizing c with
  | zero => exact .refl c
  | succ fuel ih =>
    rw [H2Connection.readFrames]
    split_ifs
    · exact .refl c
    · split
      · exact .refl c
      · rename_i header _
        split_ifs
        · exact .refl c
        · have hframe := handleFrame c header ((c.readBuffer.drop 9).take header.length.toNat)
          dsimp only
          split_ifs
          · exact (hframe.trans (withBuffer _ _ _)).trans (ih _)
          · exact hframe

lemma readData (c : H2Connection) (data : Bytes) : Proceeds c (c.readData data).2 :=
  (withBuffer c _ _).trans (readFrames _ _)

lemma processPreface (c : H2Connection) (data : Bytes) :
    Proceeds c (c.processPreface data).2 := by
  rw [H2Connection.processPreface]
  dsimp only
  have hread : Proceeds c { c with
      prefaceRemaining := c.prefaceRemaining - min data.length c.prefaceRemaining } :=
    ⟨.refl _, id, rfl, rfl, rfl⟩
  split_ifs
  · exact .refl c
  · exact .refl c
  · exact (hread.trans (transitionState _ (by decide))).trans (sendFrame _ _ _ _ _)
  · exact hread

lemma processData {c : H2Connection} {data : Bytes} {result : Error × H2Connection}
    (h : c.processData data = some result) : Proceeds c result.2 := by
  rw [H2Connection.processData] at h
  by_cases hclosed : c.isClosed
  · rw [if_pos hclosed] at h
    cases h
    exact .refl c
  rw [if_neg hclosed] at h
  by_cases hwaits : c.state = .H2_IDLE ∧ c.isServer
  · rw [if_pos hwaits] at h
    have hpreface := processPreface c data
    dsimp only at h
    by_cases hok : (c.processPreface data).1
    · rw [if_neg (not_not.mpr hok)] at h
      split_ifs at h
      obtain rfl := Option.some.inj h
      exact hpreface.trans (readData _ _)
    · rw [if_pos hok] at h
      cases h
      exact hpreface
  · rw [if_neg hwaits] at h
    obtain rfl := Option.some.inj h
    exact readData c data

lemma operate (c : H2Connection) {op : H2ConnectionOp} (hop : ∀ reason, op ≠ .close reason) :
    Proceeds c (c.operate op).2 := by
  cases op with
  | processData data =>
    rw [H2Connection.operate]
    cases hdata : c.processData data with
    | none => exact processPreface c data
    | some result => exact processData hdata
  | sendFrame type flags streamId payload => exact sendFrame c type flags streamId payload
  | sendSettings settings ack => exact sendFrame c _ _ _ _
  | sendPing opaqueData ack => exact sendFrame c _ _ _ _
  | sendGoaway lastStreamId errorCode debugData => exact sendFrame c _ _ _ _
  | close reason => exact absurd rfl (hop reason)

end Proceeds

/-! ### Closing -/

lemma close_of_closed {c : H2Connection} (hc : c.isClosed) (reason : Error) :
    c.close reason = c := if_pos hc

/-- Whatever a connection still has to say it says before it is closed. -/
lemma close_of_not_closed {c : H2Connection} (hc : ¬ c.isClosed) (reason : Error) :
    (c.close reason).state = .H2_CLOSED ∧
      (c.close reason).isServer = c.isServer ∧
      (c.close reason).hasCloseCallback = c.hasCloseCallback ∧
      (c.close reason).closeCalls =
        c.closeCalls ++ if c.hasCloseCallback then [reason] else [] := by
  obtain ⟨d, hd, hproceeds⟩ : ∃ d, (if c.isOpen then (c.sendGoaway 0 1 []).2 else c) = d ∧
      Proceeds c d := by
    refine ⟨_, rfl, ?_⟩
    split_ifs
    · exact .sendFrame c _ _ _ _
    · exact .refl c
  rw [close, if_neg hc, hd]
  dsimp only
  rw [transitionState_closed (hproceeds.notClosed hc)]
  simp only [closeAllStreams, closeStreams, hproceeds.closeCalls, hproceeds.hasCloseCallback]
  split_ifs
  · exact ⟨rfl, hproceeds.isServer, rfl, rfl⟩
  · exact ⟨rfl, hproceeds.isServer, rfl, (List.append_nil _).symm⟩

/-- A closed connection refuses every call, and nothing about it changes. -/
lemma operate_of_closed {c : H2Connection} (hc : c.isClosed) {op : H2ConnectionOp}
    (hop : ∀ reason, op ≠ .close reason) :
    ∃ err, c.operate op = (.returned err, c) ∧ ¬ err.isSuccess := by
  have hrefused := Error.not_isSuccess_kProtocolError (bytes "Connection is closed")
  have hsend : ∀ type flags streamId payload, c.sendFrame type flags streamId payload =
      (⟨.kProtocolError, bytes "Connection is closed"⟩, c) := fun _ _ _ _ => if_pos hc
  refine ⟨⟨.kProtocolError, bytes "Connection is closed"⟩, ?_, hrefused⟩
  cases op with
  | processData data =>
    have hdata : c.processData data =
        some (⟨.kProtocolError, bytes "Connection is closed"⟩, c) := if_pos hc
    rw [operate, hdata]
  | sendFrame type flags streamId payload => rw [operate, hsend]
  | sendSettings settings ack => rw [operate, sendSettings, hsend]
  | sendPing opaqueData ack => rw [operate, sendPing, hsend]
  | sendGoaway lastStreamId errorCode debugData => rw [operate, sendGoaway, hsend]
  | close reason => exact absurd rfl (hop reason)

/-- The close callback is told once, when the connection is closed. -/
def TellsOnce (c : H2Connection) : Prop :=
  c.closeCalls.length = if c.isClosed ∧ c.hasCloseCallback then 1 else 0

lemma TellsOnce.of_proceeds {c t : H2Connection} (hc : c.TellsOnce) (hnot : ¬ c.isClosed)
    (h : Proceeds c t) : t.TellsOnce := by
  have hnot' := h.notClosed hnot
  rw [TellsOnce, if_neg fun hboth => hnot hboth.1] at hc
  rw [TellsOnce, if_neg fun hboth => hnot' hboth.1, h.closeCalls, hc]

lemma TellsOnce.close {c : H2Connection} (hc : c.TellsOnce) (reason : Error) :
    (c.close reason).TellsOnce := by
  by_cases hclosed : c.isClosed
  · rwa [close_of_closed hclosed]
  · obtain ⟨hstate, -, hcallback, hcalls⟩ := close_of_not_closed hclosed reason
    have hclosed' : (c.close reason).isClosed := hstate
    rw [TellsOnce, if_neg fun hboth => hclosed hboth.1] at hc
    rw [TellsOnce, hcalls, List.length_append, hc, hcallback]
    cases c.hasCloseCallback with
    | false => simp
    | true => simp [hclosed']

/-- One operation, of whatever kind. -/
lemma step_next {c t : H2Connection} {op : H2ConnectionOp} (hnext : c.next op = some t) :
    Forward c.state t.state ∧ t.isServer = c.isServer ∧
      t.hasCloseCallback = c.hasCloseCallback ∧ (c.TellsOnce → t.TellsOnce) := by
  obtain rfl := Option.some.inj hnext
  by_cases hop : ∃ reason, op = .close reason
  · obtain ⟨reason, rfl⟩ := hop
    rw [operate]
    by_cases hclosed : c.isClosed
    · rw [close_of_closed hclosed]
      exact ⟨.refl _, rfl, rfl, id⟩
    · obtain ⟨hstate, hserver, hcallback, -⟩ := close_of_not_closed hclosed reason
      refine ⟨?_, hserver, hcallback, fun hc => hc.close reason⟩
      rw [hstate]
      cases c.state <;> decide
  · have hop' : ∀ reason, op ≠ .close reason := fun reason heq => hop ⟨reason, heq⟩
    have hproceeds := Proceeds.operate c hop'
    refine ⟨hproceeds.forward, hproceeds.isServer, hproceeds.hasCloseCallback, fun hc => ?_⟩
    by_cases hclosed : c.isClosed
    · obtain ⟨err, heq, -⟩ := operate_of_closed hclosed hop'
      rwa [heq]
    · exact hc.of_proceeds hclosed hproceeds

lemma hasCloseCallback_run {c t : H2Connection} {ops : List H2ConnectionOp}
    (h : Runs.run next c ops = some t) : t.hasCloseCallback = c.hasCloseCallback :=
  Runs.invariant_run next (P := fun t => t.hasCloseCallback = c.hasCloseCallback)
    (fun _ _ _ hu hnext => (step_next hnext).2.2.1.trans hu) rfl h

/-- The state only moves forward, the close callback is told once and only when the connection is
closed, and from then on every call fails with nothing sent and nothing changed. -/
theorem closes_once_and_stays_silent {fd : ℤ} {isServer frameCallback closeCallback : Bool}
    {ops : List H2ConnectionOp} {c : H2Connection}
    (h : Runs.run next (fresh fd isServer frameCallback closeCallback) ops = some c) :
    (∀ ops' t, Runs.run next c ops' = some t → Forward c.state t.state) ∧
    c.closeCalls.length = (if c.isClosed ∧ closeCallback then 1 else 0) ∧
    (c.isClosed → (∀ reason, c.close reason = c) ∧
      ∀ op, (∀ reason, op ≠ .close reason) →
        ∃ err, c.operate op = (.returned err, c) ∧ ¬ err.isSuccess) := by
  refine ⟨fun ops' t hrun => ?_, ?_, fun hclosed => ⟨close_of_closed hclosed, fun op hop => ?_⟩⟩
  · exact Runs.invariant_run next (P := fun t => Forward c.state t.state)
      (fun _ _ _ hu hnext => hu.trans (step_next hnext).1) (.refl _) hrun
  · have hfresh : (fresh fd isServer frameCallback closeCallback).TellsOnce := by
      cases isServer <;> rfl
    have htells : c.TellsOnce :=
      Runs.invariant_run next (fun _ _ _ hu hnext => (step_next hnext).2.2.2 hu) hfresh h
    rw [TellsOnce, hasCloseCallback_run h] at htells
    exact htells
  · exact operate_of_closed hclosed hop

/-- A server that is closed twice before the client has said anything. -/
theorem closes_once_and_stays_silent_twice :
    ∃ c, Runs.run next (fresh 7 true true true)
        [.close .success, .close .success] = some c ∧ c.isClosed ∧ c.closeCalls.length = 1 ∧
      ∀ data, ∃ err, c.operate (.processData data) = (.returned err, c) ∧ ¬ err.isSuccess := by
  have hrun : Runs.run next (fresh 7 true true true) [.close .success, .close .success] =
      some (((fresh 7 true true true).close .success).close .success) := rfl
  refine ⟨_, hrun, rfl, rfl, fun data => ?_⟩
  apply ((closes_once_and_stays_silent hrun).2.2 rfl).2
  intro reason heq
  cases heq

end H2Connection

end TinyWebServer
