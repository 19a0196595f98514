import TinyWebServer.Http2.Connection
import TinyWebServer.Library.ParseLoop

/-!
# The frame loop of an HTTP/2 connection

Past the preface the loop of `ProcessData` over the read buffer is a parse loop in the sense of
`ParseLoop`: no frame handler looks at the buffer, and a frame that is refused leaves the
connection as it was.
-/

namespace TinyWebServer

open ParseLoop

namespace H2Connection

/-- A connection past its preface that can process data and emit frames. -/
structure Ready (c : H2Connection) : Prop where
  notClosed : ¬ c.isClosed
  pastPreface : ¬ (c.state = .H2_IDLE ∧ c.isServer)
  callback : c.hasFrameCallback = true

/-! ### Sending on a ready connection -/

lemma sendFrame_of_ready {c : H2Connection} (hc : c.Ready) (type : H2FrameType) (flags : UInt8)
    (streamId : UInt32) {payload : Bytes}
    (hlen : H2FrameParser.lengthAllowed (BitVec.ofNat 24 payload.length).toNat (some type)) :
    c.sendFrame type flags streamId payload =
      (.success, { c with emitted := c.emitted ++
        [(⟨BitVec.ofNat 24 payload.length, type.toUInt8, flags, BitVec.ofNat 31 streamId.toNat, 0⟩,
          payload)] }) := by
  have hvalid : (H2FrameHeader.mk (BitVec.ofNat 24 payload.length) type.toUInt8 flags
      (BitVec.ofNat 31 streamId.toNat) 0).validate.isSuccess := by
    simp only [H2FrameHeader.validate, H2FrameParser.isValidStreamId]
    rw [if_neg (by simp), if_neg (by simp), H2FrameParser.isSuccess_validateFrameLength]
    simpa using hlen
  rw [sendFrame, if_neg hc.notClosed]
  simp only [hvalid, hc.callback, not_true, if_false, if_true]

/-! ### Frames and the bytes they come from -/

/-- The connection with other bytes in its buffer and another history of them. -/
def withInput (c : H2Connection) (buffer received : Bytes) : H2Connection :=
  { c with readBuffer := buffer, received := received }

lemma sendFrame_withInput (c : H2Connection) (buffer received : Bytes) (type : H2FrameType)
    (flags : UInt8) (streamId : UInt32) (payload : Bytes) :
    (c.withInput buffer received).sendFrame type flags streamId payload =
      ((c.sendFrame type flags streamId payload).1,
        (c.sendFrame type flags streamId payload).2.withInput buffer received) := by
  have hcallback : (c.withInput buffer received).hasFrameCallback = c.hasFrameCallback := rfl
  simp only [sendFrame]
  by_cases hclosed : c.isClosed
  · rw [if_pos hclosed, if_pos (show (c.withInput buffer received).isClosed from hclosed)]
  · rw [if_neg hclosed, if_neg (show ¬ (c.withInput buffer received).isClosed from hclosed),
      hcallback]
    split_ifs <;> rfl

lemma transitionState_withInput (c : H2Connection) (buffer received : Bytes)
    (newState : H2ConnectionState) :
    (c.withInput buffer received).transitionState newState =
      (c.transitionState newState).withInput buffer received := by
  have hcan : (c.withInput buffer received).canTransition newState = c.canTransition newState := rfl
  have hstate : (c.withInput buffer received).state = c.state := rfl
  rw [transitionState, transitionState, hcan, hstate]
  split_ifs <;> rfl

/-- The connection compares the header's length with itself, so only the handlers can refuse. -/
lemma handleFrame_eq (c : H2Connection) (header : H2FrameHeader) (payload : Bytes) :
    c.handleFrame header payload =
      match H2FrameType.ofUInt8 header.type with
      | some .settings => c.handleSettingsFrame header payload
      | some .ping => c.handlePingFrame header payload
      | some .goaway => c.handleGoawayFrame payload
      | some .rstStream => c.handleRstStreamFrame header payload
      | _ => (.success, c) := by
  have hlength : (H2FrameParser.validatePayloadLength header header.length.toNat).isSuccess := by
    simp [H2FrameParser.validatePayloadLength]
  rw [handleFrame]
  exact if_neg (not_not.mpr hlength)

/-- No frame handler looks at the read buffer. -/
lemma handleFrame_withInput (c : H2Connection) (buffer received : Bytes) (header : H2FrameHeader)
    (payload : Bytes) :
    (c.withInput buffer received).handleFrame header payload =
      ((c.handleFrame header payload).1,
        (c.handleFrame header payload).2.withInput buffer received) := by
  rw [handleFrame_eq, handleFrame_eq]
  split
  · simp only [handleSettingsFrame]
    split_ifs
    · rfl
    · rfl
    · cases H2FrameParser.parseSettingsPayload payload with
      | none => rfl
      | some settings =>
        exact sendFrame_withInput { c with settings := settings.foldl applySetting c.settings }
          buffer received .settings H2FrameFlags.ACK 0 []
  · simp only [handlePingFrame]
    cases H2FrameParser.parsePingPayload payload with
    | none => rfl
    | some pingData =>
      dsimp only
      split_ifs
      · rfl
      · exact sendFrame_withInput c buffer received .ping H2FrameFlags.ACK 0 pingData
  · simp only [handleGoawayFrame]
    cases H2FrameParser.parseGoawayPayload payload with
    | none => rfl
    | some info =>
      dsimp only
      rw [transitionState_withInput]
      rfl
  · simp only [handleRstStreamFrame]
    split_ifs
    · rfl
    · simp only [getOrCreateStream, withInput]
      cases c.streams.lookup (UInt32.ofNat header.streamId.toNat) <;> rfl
  · rfl

lemma ready_transitionState_closing {c : H2Connection} (hc : c.Ready) :
    (c.transitionState .H2_CLOSING).Ready := by
  rw [transitionState]
  split_ifs
  · exact hc
  · exact ⟨by simp [isClosed], by simp, hc.callback⟩
  · exact hc

/-- A frame was refused with nothing changed, or it was handled by a connection that stays ready. -/
def Handled (c : H2Connection) (result : Error × H2Connection) : Prop :=
  (¬ result.1.isSuccess ∧ result.2 = c) ∨ (result.1 = .success ∧ result.2.Ready)

section handlers

variable {c : H2Connection} {header : H2FrameHeader} {payload : Bytes}

lemma handled_settings (hc : c.Ready) (hsix : payload.length % 6 = 0) :
    Handled c (c.handleSettingsFrame header payload) := by
  rw [handleSettingsFrame]
  split_ifs with hack hzero
  · exact Or.inl ⟨Error.not_isSuccess_kProtocolError _, rfl⟩
  · exact Or.inr ⟨rfl, hc⟩
  · right
    rw [H2FrameParser.parseSettingsPayload, if_neg (not_not.mpr hsix)]
    dsimp only [sendSettings]
    have hready : Ready { c with
        settings := (H2FrameParser.settingsItems payload).foldl applySetting c.settings } :=
      ⟨hc.notClosed, hc.pastPreface, hc.callback⟩
    have hallowed : H2FrameParser.lengthAllowed (BitVec.ofNat 24 ([] : Bytes).length).toNat
        (some .settings) := by rfl
    have hsend := sendFrame_of_ready hready .settings H2FrameFlags.ACK 0 hallowed
    simp only [settingsPayload, if_true, hsend]
    exact ⟨trivial, hc.notClosed, hc.pastPreface, hc.callback⟩

lemma handled_ping (hc : c.Ready) (height : payload.length = 8) :
    Handled c (c.handlePingFrame header payload) := by
  right
  rw [handlePingFrame, H2FrameParser.parsePingPayload, if_neg (not_not.mpr height)]
  dsimp only
  split_ifs with hack
  · exact ⟨rfl, hc⟩
  · have hallowed : H2FrameParser.lengthAllowed (BitVec.ofNat 24 payload.length).toNat
        (some .ping) := by
      rw [height]
      rfl
    have hsend := sendFrame_of_ready hc .ping H2FrameFlags.ACK 0 hallowed
    simp only [sendPing, if_true, hsend]
    exact ⟨trivial, hc.notClosed, hc.pastPreface, hc.callback⟩

lemma handled_goaway (hc : c.Ready) (height : 8 ≤ payload.length) :
    Handled c (c.handleGoawayFrame payload) := by
  right
  rw [handleGoawayFrame, H2FrameParser.parseGoawayPayload, if_neg (not_lt.mpr height)]
  have hclosing := ready_transitionState_closing hc
  exact ⟨rfl, hclosing.notClosed, hclosing.pastPreface, hclosing.callback⟩

lemma handled_rstStream (hc : c.Ready) (hfour : header.length.toNat = 4) :
    Handled c (c.handleRstStreamFrame header payload) := by
  right
  rw [handleRstStreamFrame, if_neg (not_not.mpr hfour)]
  refine ⟨rfl, ?_⟩
  simp only [getOrCreateStream]
  cases c.streams.lookup (UInt32.ofNat header.streamId.toNat) with
  | none => exact ⟨hc.notClosed, hc.pastPreface, hc.callback⟩
  | some stream => exact ⟨hc.notClosed, hc.pastPreface, hc.callback⟩

/-- The length that the header's type allows is the one that its handler asks for. -/
lemma handleFrame_of_ready (hc : c.Ready) (hpayload : payload.length = header.length.toNat)
    (hlen : H2FrameParser.lengthAllowed header.length.toNat (H2FrameType.ofUInt8 header.type)) :
    Handled c (c.handleFrame header payload) := by
  rw [handleFrame_eq]
  split
  · rename_i htype
    rw [htype, ← hpayload] at hlen
    exact handled_settings hc hlen
  · rename_i htype
    rw [htype, ← hpayload] at hlen
    exact handled_ping hc hlen
  · rename_i htype
    rw [htype, ← hpayload] at hlen
    exact handled_goaway hc hlen
  · rename_i htype
    rw [htype] at hlen
    exact handled_rstStream hc hlen
  · exact Or.inr ⟨rfl, hc⟩

end handlers

/-! ### The read loop as a parse loop -/

/-- One turn of the loop in `readFrames`. -/
def frameTurn (c : H2Connection) (buffer : Bytes) : Turn H2Connection Error :=
  if buffer.length < 9 then .wait
  else
    match H2FrameParser.parseHeader buffer with
    | none => .fail ⟨.kProtocolError, bytes "Failed to parse HTTP/2 frame header"⟩
    | some header =>
      if buffer.length < header.frameSize then .wait
      else
        let result := c.handleFrame header ((buffer.drop 9).take header.length.toNat)
        if ¬ result.1.isSuccess then .fail result.1 else .consume header.frameSize result.2

lemma frameTurn_consume {c c' : H2Connection} {buffer : Bytes} {n : ℕ}
    (h : c.frameTurn buffer = .consume n c') :
    ∃ header, 9 ≤ buffer.length ∧ H2FrameParser.parseHeader buffer = some header ∧
      header.frameSize ≤ buffer.length ∧ n = header.frameSize ∧
      (c.handleFrame header ((buffer.drop 9).take header.length.toNat)).1.isSuccess ∧
      (c.handleFrame header ((buffer.drop 9).take header.length.toNat)).2 = c' := by
  rw [frameTurn] at h
  split_ifs at h with hnine
  split at h
  · cases h
  · rename_i header hheader
    dsimp only at h
    split_ifs at h with hsize hsuccess
    cases h
    exact ⟨header, by omega, hheader, by omega, rfl, hsuccess, rfl⟩

/-- Both verdicts that end a turn with a complete header look only at the frame itself. -/
lemma frameTurn_append {c : H2Connection} {buffer : Bytes} (more : Bytes)
    (h : c.frameTurn buffer ≠ .wait) : c.frameTurn (buffer ++ more) = c.frameTurn buffer := by
  rw [frameTurn] at h
  by_cases hnine : buffer.length < 9
  · rw [if_pos hnine] at h
    exact absurd rfl h
  have hnine' : 9 ≤ buffer.length := by omega
  have hmore : ¬ (buffer ++ more).length < 9 := by simp only [List.length_append]; omega
  rw [if_neg hnine] at h
  rw [frameTurn, frameTurn, if_neg hnine, if_neg hmore,
    H2FrameParser.parseHeader_append more hnine']
  cases hheader : H2FrameParser.parseHeader buffer with
  | none => rfl
  | some header =>
    rw [hheader] at h
    dsimp only at h ⊢
    by_cases hsize : buffer.length < header.frameSize
    · rw [if_pos hsize] at h
      exact absurd rfl h
    have hsize' : ¬ (buffer ++ more).length < header.frameSize := by
      simp only [List.length_append]
      omega
    have hpayload : header.length.toNat ≤ (buffer.drop 9).length := by
      simp only [H2FrameHeader.frameSize] at hsize
      simp only [List.length_drop]
      omega
    rw [if_neg hsize, if_neg hsize', List.drop_append_of_le_length hnine',
      List.take_append_of_le_length hpayload]

/-- The frame loop as an instance of the general parse loop. -/
def frameLoop : Machine H2Connection UInt8 Error where
  turn := frameTurn
  consume_pos := by
    intro c buffer n c' h
    obtain ⟨header, -, -, hsize, rfl, -⟩ := frameTurn_consume h
    exact ⟨by rw [H2FrameHeader.frameSize]; omega, hsize⟩
  consume_append := by
    intro c buffer n c' more h
    rw [frameTurn_append more (by simp [h]), h]
  fail_append := by
    intro c buffer e more h
    rw [frameTurn_append more (by simp [h]), h]

/-- The payload of a complete frame has the length that the header gives. -/
lemma length_payload {header : H2FrameHeader} {buffer : Bytes}
    (hsize : header.frameSize ≤ buffer.length) :
    ((buffer.drop 9).take header.length.toNat).length = header.length.toNat := by
  simp only [H2FrameHeader.frameSize] at hsize
  simp only [List.length_take, List.length_drop]
  omega

lemma ready_of_frameTurn {c c' : H2Connection} {buffer : Bytes} {n : ℕ}
    (h : c.frameTurn buffer = .consume n c') (hc : c.Ready) : c'.Ready := by
  obtain ⟨header, hnine, hheader, hsize, -, hsuccess, rfl⟩ := frameTurn_consume h
  rcases handleFrame_of_ready hc (length_payload hsize)
    (H2FrameParser.lengthAllowed_of_parseHeader hheader) with ⟨hfail, -⟩ | ⟨-, hready⟩
  · exact absurd hsuccess hfail
  · exact hready

/-- What a call returns when the loop stopped in `o` after `received`. -/
def ofOutcome (o : Outcome H2Connection UInt8 Error) (received : Bytes) : Error × H2Connection :=
  (o.error.getD .success, o.state.withInput o.rest received)

/-- Without a complete frame the loop of the source stops where it is. -/
lemma readFrames_of_wait {c : H2Connection} {buffer : Bytes} (received : Bytes)
    (h : c.frameTurn buffer = .wait) (fuel : ℕ) :
    readFrames fuel (c.withInput buffer received) = (.success, c.withInput buffer received) := by
  cases fuel with
  | zero => rfl
  | succ fuel =>
    rw [frameTurn] at h
    rw [readFrames, show (c.withInput buffer received).readBuffer = buffer from rfl]
    by_cases hnine : buffer.length < 9
    · rw [if_pos hnine]
    · rw [if_neg hnine] at h ⊢
      cases hheader : H2FrameParser.parseHeader buffer with
      | none => simp [hheader] at h
      | some header =>
        rw [hheader] at h
        dsimp only at h ⊢
        by_cases hsize : buffer.length < header.frameSize
        · rw [if_pos hsize]
        · rw [if_neg hsize] at h
          split_ifs at h

/-- The loop of the source returns the error of a frame and leaves the frame where it is. -/
lemma readFrames_of_fail {c : H2Connection} {buffer : Bytes} {e : Error} (received : Bytes)
    (h : c.frameTurn buffer = .fail e) (hc : c.Ready) {fuel : ℕ} (hfuel : buffer.length ≤ fuel) :
    readFrames fuel (c.withInput buffer received) = (e, c.withInput buffer received) := by
  rw [frameTurn] at h
  by_cases hnine : buffer.length < 9
  · rw [if_pos hnine] at h
    cases h
  rw [if_neg hnine] at h
  obtain ⟨fuel, rfl⟩ : ∃ n, fuel = n + 1 := ⟨fuel - 1, by omega⟩
  rw [readFrames, show (c.withInput buffer received).readBuffer = buffer from rfl, if_neg hnine]
  cases hheader : H2FrameParser.parseHeader buffer with
  | none =>
    rw [hheader] at h
    cases h
    rfl
  | some header =>
    rw [hheader] at h
    dsimp only at h ⊢
    by_cases hsize : buffer.length < header.frameSize
    · rw [if_pos hsize] at h
      cases h
    rw [if_neg hsize] at h ⊢
    rw [handleFrame_withInput]
    rcases handleFrame_of_ready hc (length_payload (not_lt.mp hsize))
      (H2FrameParser.lengthAllowed_of_parseHeader hheader) with ⟨hfail, hsame⟩ | ⟨hsuccess, -⟩
    · rw [if_pos hfail] at h ⊢
      cases h
      rw [hsame]
    · rw [if_neg (by simp [hsuccess])] at h
      cases h

/-- The loop of the source, with enough fuel, is the general parse loop. -/
lemma readFrames_eq_drain (received : Bytes) (c : H2Connection) (buffer : Bytes) (fuel : ℕ)
    (hfuel : buffer.length ≤ fuel) (hc : c.Ready) :
    readFrames fuel (c.withInput buffer received) =
      ofOutcome (frameLoop.drain c buffer) received := by
  induction c, buffer using frameLoop.drain_induction generalizing fuel with
  | wait c buffer h =>
    rw [frameLoop.drain_of_wait h]
    exact readFrames_of_wait received h fuel
  | fail c buffer e h =>
    rw [frameLoop.drain_of_fail h]
    exact readFrames_of_fail received h hc hfuel
  | consume c buffer n c' h ih =>
    rw [frameLoop.drain_of_consume h]
    have hready := ready_of_frameTurn h hc
    obtain ⟨header, hnine, hheader, hsize, rfl, hsuccess, rfl⟩ := frameTurn_consume h
    obtain ⟨fuel, rfl⟩ : ∃ n, fuel = n + 1 := ⟨fuel - 1, by omega⟩
    rw [readFrames, show (c.withInput buffer received).readBuffer = buffer from rfl,
      if_neg (not_lt.mpr hnine), hheader]
    dsimp only
    rw [if_neg (not_lt.mpr hsize), handleFrame_withInput]
    dsimp only
    rw [if_neg (not_not.mpr hsuccess)]
    refine ih fuel ?_ hready
    simp only [H2FrameHeader.frameSize, List.length_drop]
    omega

lemma readData_ofOutcome (o : Outcome H2Connection UInt8 Error) (received data : Bytes)
    (ho : o.state.Ready) :
    (ofOutcome o received).2.readData data = ofOutcome (frameLoop.feed o data) (received ++ data) :=
  readFrames_eq_drain (received ++ data) o.state (o.rest ++ data) _ le_rfl ho

lemma processData_of_ready {c : H2Connection} (hc : c.Ready) (data : Bytes) :
    c.processData data = some (c.readData data) := by
  rw [processData, if_neg hc.notClosed, if_neg hc.pastPreface]

lemma ready_withInput {c : H2Connection} (hc : c.Ready) (buffer received : Bytes) :
    (c.withInput buffer received).Ready :=
  ⟨hc.notClosed, hc.pastPreface, hc.callback⟩

lemma ready_feed {o : Outcome H2Connection UInt8 Error} (ho : o.state.Ready) (data : Bytes) :
    (frameLoop.feed o data).state.Ready :=
  frameLoop.drain_preserves (fun _ _ _ _ h hc => ready_of_frameTurn h hc) _ _ ho

/-- Calling `ProcessData` again and again is feeding the parse loop again and again. -/
lemma foldlM_processData (o : Outcome H2Connection UInt8 Error) (received : Bytes)
    (ho : o.state.Ready) (chunks : List Bytes) :
    chunks.foldlM (fun result chunk => result.2.processData chunk) (ofOutcome o received) =
      some (ofOutcome (chunks.foldl frameLoop.feed o) (received ++ chunks.flatten)) := by
  induction chunks generalizing o received with
  | nil => simp
  | cons chunk chunks ih =>
    have hready : (ofOutcome o received).2.Ready := ready_withInput ho _ _
    rw [List.foldlM_cons, processData_of_ready hready, readData_ofOutcome o received chunk ho]
    have := ih (frameLoop.feed o chunk) (received ++ chunk) (ready_feed ho chunk)
    rw [List.append_assoc] at this
    exact this

/-- The connection as a loop that stopped without an error. -/
def toOutcome (c : H2Connection) : Outcome H2Connection UInt8 Error := ⟨c, c.readBuffer, none⟩

lemma processChunks_of_ready {c : H2Connection} (hc : c.Ready) (chunks : List Bytes) :
    c.processChunks chunks =
      some (ofOutcome (chunks.foldl frameLoop.feed c.toOutcome) (c.received ++ chunks.flatten)) :=
  foldlM_processData c.toOutcome c.received hc chunks

end H2Connection

end TinyWebServer
