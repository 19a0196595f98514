import TinyWebServer.Http2.FrameFormat
import TinyWebServer.Http2.FrameLoop

/-!
# Control frames of an HTTP/2 connection

SETTINGS and PING are the frames that a connection answers. A connection past its preface takes a
sequence of complete frames one after another, and what it emits is the sequence of the answers.
-/

namespace TinyWebServer

open ParseLoop

/-- A complete frame with a header that is accepted. -/
structure H2Frame where
  head : Bytes
  header : H2FrameHeader
  payload : Bytes
  length_head : head.length = 9
  parseHeader_head : H2FrameParser.parseHeader head = some header
  length_payload : payload.length = header.length.toNat

namespace H2Frame

/-- The bytes of the frame. -/
def wire (f : H2Frame) : Bytes := f.head ++ f.payload

/-- The header of an acknowledgement with `length` bytes of payload. -/
def ackHeader (type : H2FrameType) (length : ℕ) : H2FrameHeader :=
  { length := BitVec.ofNat 24 length, type := type.toUInt8, flags := H2FrameFlags.ACK
    streamId := 0, reserved := 0 }

/-- What is owed to the peer for the frame. -/
def reply (f : H2Frame) : List (H2FrameHeader × Bytes) :=
  if f.header.hasFlag H2FrameFlags.ACK then []
  else
    match H2FrameType.ofUInt8 f.header.type with
    | some .settings => [(ackHeader .settings 0, [])]
    | some .ping => [(ackHeader .ping 8, f.payload)]
    | _ => []

/-- The settings that the frame asks for. -/
def items (f : H2Frame) : List (UInt16 × UInt32) :=
  if f.header.hasFlag H2FrameFlags.ACK then []
  else
    match H2FrameType.ofUInt8 f.header.type with
    | some .settings => H2FrameParser.settingsItems f.payload
    | _ => []

/-- An acknowledgement of settings is empty. -/
def EmptyAck (f : H2Frame) : Prop :=
  H2FrameType.ofUInt8 f.header.type = some .settings → f.header.hasFlag H2FrameFlags.ACK →
    f.header.length.toNat = 0

lemma lengthAllowed (f : H2Frame) :
    H2FrameParser.lengthAllowed f.header.length.toNat (H2FrameType.ofUInt8 f.header.type) :=
  H2FrameParser.lengthAllowed_of_parseHeader f.parseHeader_head

@[simp] lemma length_wire (f : H2Frame) : f.wire.length = f.header.frameSize := by
  simp [wire, f.length_head, f.length_payload, H2FrameHeader.frameSize]

@[simp] lemma drop_wire (f : H2Frame) (rest : Bytes) :
    (f.wire ++ rest).drop f.header.frameSize = rest := by
  apply List.drop_left'
  exact f.length_wire

lemma parseHeader_wire (f : H2Frame) (rest : Bytes) :
    H2FrameParser.parseHeader (f.wire ++ rest) = some f.header := by
  rw [wire, List.append_assoc, H2FrameParser.parseHeader_append _ f.length_head.ge,
    f.parseHeader_head]

lemma payload_wire (f : H2Frame) (rest : Bytes) :
    ((f.wire ++ rest).drop 9).take f.header.length.toNat = f.payload := by
  rw [wire, List.append_assoc, List.drop_left' f.length_head, List.take_left' f.length_payload]

end H2Frame

namespace H2Connection

/-! ### One frame -/

/-- A frame has been taken: its answer is out, its settings are in force, and more may come. -/
structure Takes (c : H2Connection) (items : List (UInt16 × UInt32))
    (replies : List (H2FrameHeader × Bytes)) (c' : H2Connection) : Prop where
  ready : c'.Ready
  emitted : c'.emitted = c.emitted ++ replies
  settings : c'.settings = items.foldl applySetting c.settings

lemma Takes.nil {c : H2Connection} (hc : c.Ready) : Takes c [] [] c where
  ready := hc
  emitted := (List.append_nil _).symm
  settings := rfl

lemma Takes.append {c c' c'' : H2Connection} {items items' : List (UInt16 × UInt32)}
    {replies replies' : List (H2FrameHeader × Bytes)} (h : Takes c items replies c')
    (h' : Takes c' items' replies' c'') :
    Takes c (items ++ items') (replies ++ replies') c'' where
  ready := h'.ready
  emitted := by rw [h'.emitted, h.emitted, List.append_assoc]
  settings := by rw [h'.settings, h.settings, List.foldl_append]

/-- An acknowledgement goes out. -/
lemma takes_sendFrame_ack {c : H2Connection} (hc : c.Ready) (type : H2FrameType) {payload : Bytes}
    (hlen : H2FrameParser.lengthAllowed (BitVec.ofNat 24 payload.length).toNat (some type)) :
    ∃ c', c.sendFrame type H2FrameFlags.ACK 0 payload = (.success, c') ∧
      Takes c [] [(H2Frame.ackHeader type payload.length, payload)] c' := by
  refine ⟨_, sendFrame_of_ready hc type H2FrameFlags.ACK 0 hlen, ?_⟩
  exact ⟨⟨hc.notClosed, hc.pastPreface, hc.callback⟩, rfl, rfl⟩

lemma takes_handleSettingsFrame {c : H2Connection} (hc : c.Ready) {f : H2Frame}
    (htype : H2FrameType.ofUInt8 f.header.type = some .settings) (hf : f.EmptyAck) :
    ∃ c', c.handleSettingsFrame f.header f.payload = (.success, c') ∧
      Takes c f.items f.reply c' := by
  rw [handleSettingsFrame, H2Frame.items, H2Frame.reply, htype]
  by_cases hack : f.header.hasFlag H2FrameFlags.ACK
  · simp only [if_pos hack, hf htype hack, ne_eq, not_true_eq_false, if_false]
    exact ⟨c, rfl, .nil hc⟩
  · have hsix : ¬ f.payload.length % 6 ≠ 0 := by
      have hallowed := f.lengthAllowed
      rw [htype] at hallowed
      rw [f.length_payload]
      exact not_not.mpr hallowed
    simp only [if_neg hack, H2FrameParser.parseSettingsPayload, if_neg hsix]
    have hready : Ready { c with
        settings := (H2FrameParser.settingsItems f.payload).foldl applySetting c.settings } :=
      ⟨hc.notClosed, hc.pastPreface, hc.callback⟩
    have hempty : H2FrameParser.lengthAllowed (BitVec.ofNat 24 ([] : Bytes).length).toNat
        (some .settings) := rfl
    obtain ⟨c', hsend, htakes⟩ := takes_sendFrame_ack hready .settings hempty
    exact ⟨c', hsend, htakes.ready, htakes.emitted, htakes.settings⟩

lemma takes_handlePingFrame {c : H2Connection} (hc : c.Ready) {f : H2Frame}
    (htype : H2FrameType.ofUInt8 f.header.type = some .ping) :
    ∃ c', c.handlePingFrame f.header f.payload = (.success, c') ∧ Takes c f.items f.reply c' := by
  have height : f.payload.length = 8 := by
    have hallowed := f.lengthAllowed
    rw [htype] at hallowed
    exact f.length_payload.trans hallowed
  rw [handlePingFrame, H2FrameParser.parsePingPayload, if_neg (not_not.mpr height), H2Frame.items,
    H2Frame.reply, htype]
  by_cases hack : f.header.hasFlag H2FrameFlags.ACK
  · simp only [hack, not_true_eq_false, if_false, if_true]
    exact ⟨c, rfl, .nil hc⟩
  · simp only [hack, not_false_eq_true, if_false, if_true]
    have hallowed : H2FrameParser.lengthAllowed (BitVec.ofNat 24 f.payload.length).toNat
        (some .ping) := by
      rw [height]
      rfl
    have hsend := takes_sendFrame_ack hc .ping hallowed
    rwa [height] at hsend

/-- After a GOAWAY the connection is closing, and still answers. -/
lemma takes_handleGoawayFrame {c : H2Connection} (hc : c.Ready) {payload : Bytes}
    (hpayload : 8 ≤ payload.length) :
    ∃ c', c.handleGoawayFrame payload = (.success, c') ∧ Takes c [] [] c' := by
  have hclosing := ready_transitionState_closing hc
  rw [handleGoawayFrame, H2FrameParser.parseGoawayPayload, if_neg (not_lt.mpr hpayload)]
  refine ⟨_, rfl, ⟨hclosing.notClosed, hclosing.pastPreface, hclosing.callback⟩, ?_, ?_⟩
  · simp only [closeStreams, transitionState, List.append_nil]
    split_ifs <;> rfl
  · simp only [closeStreams, transitionState, List.foldl_nil]
    split_ifs <;> rfl

lemma takes_handleRstStreamFrame {c : H2Connection} (hc : c.Ready) {header : H2FrameHeader}
    (payload : Bytes) (hlength : header.length.toNat = 4) :
    ∃ c', c.handleRstStreamFrame header payload = (.success, c') ∧ Takes c [] [] c' := by
  rw [handleRstStreamFrame, if_neg (not_not.mpr hlength)]
  simp only [getOrCreateStream]
  cases c.streams.lookup (UInt32.ofNat header.streamId.toNat) with
  | none =>
    exact ⟨_, rfl, ⟨hc.notClosed, hc.pastPreface, hc.callback⟩, (List.append_nil _).symm, rfl⟩
  | some stream =>
    exact ⟨_, rfl, ⟨hc.notClosed, hc.pastPreface, hc.callback⟩, (List.append_nil _).symm, rfl⟩

/-- The dispatcher answers SETTINGS and PING, and no other type of frame. -/
lemma takes_handleFrame {c : H2Connection} (hc : c.Ready) {f : H2Frame} (hf : f.EmptyAck) :
    ∃ c', c.handleFrame f.header f.payload = (.success, c') ∧ Takes c f.items f.reply c' := by
  have hallowed := f.lengthAllowed
  rw [handleFrame_eq]
  have hother : H2FrameType.ofUInt8 f.header.type ≠ some .settings →
      H2FrameType.ofUInt8 f.header.type ≠ some .ping → f.items = [] ∧ f.reply = [] := by
    intro hsettings hping
    rw [H2Frame.items, H2Frame.reply]
    split_ifs
    · exact ⟨rfl, rfl⟩
    · split <;> simp_all
  split
  · rename_i htype
    exact takes_handleSettingsFrame hc htype hf
  · rename_i htype
    exact takes_handlePingFrame hc htype
  · rename_i htype
    obtain ⟨hitems, hreply⟩ := hother (by simp [htype]) (by simp [htype])
    rw [htype] at hallowed
    rw [hitems, hreply]
    exact takes_handleGoawayFrame hc (f.length_payload.ge.trans' hallowed)
  · rename_i htype
    obtain ⟨hitems, hreply⟩ := hother (by simp [htype]) (by simp [htype])
    rw [htype] at hallowed
    rw [hitems, hreply]
    exact takes_handleRstStreamFrame hc f.payload hallowed
  · rename_i hsettings hping _ _
    obtain ⟨hitems, hreply⟩ := hother hsettings hping
    rw [hitems, hreply]
    exact ⟨c, rfl, .nil hc⟩

/-! ### A sequence of frames -/

lemma frameTurn_nil (c : H2Connection) : c.frameTurn [] = .wait := if_pos (by simp)

lemma frameTurn_wire {c c' : H2Connection} {f : H2Frame} (rest : Bytes)
    (h : c.handleFrame f.header f.payload = (.success, c')) :
    c.frameTurn (f.wire ++ rest) = .consume f.header.frameSize c' := by
  have hnine : ¬ (f.wire ++ rest).length < 9 := by
    rw [List.length_append, f.length_wire, H2FrameHeader.frameSize]
    omega
  have hsize : ¬ (f.wire ++ rest).length < f.header.frameSize := by
    rw [List.length_append, f.length_wire]
    exact not_lt.mpr (Nat.le_add_right _ _)
  rw [frameTurn, if_neg hnine, f.parseHeader_wire]
  dsimp only
  rw [if_neg hsize, f.payload_wire, h]
  exact if_neg (not_not.mpr Error.isSuccess_success)

/-- The loop takes the frames one after another and waits when they are all taken. -/
lemma takes_drain {c : H2Connection} (hc : c.Ready) {frames : List H2Frame}
    (hframes : ∀ f ∈ frames, f.EmptyAck) :
    ∃ c', frameLoop.drain c (frames.map H2Frame.wire).flatten = ⟨c', [], none⟩ ∧
      Takes c (frames.flatMap H2Frame.items) (frames.flatMap H2Frame.reply) c' := by
  induction frames generalizing c with
  | nil => exact ⟨c, frameLoop.drain_of_wait (frameTurn_nil c), .nil hc⟩
  | cons f frames ih =>
    rw [List.forall_mem_cons] at hframes
    obtain ⟨c', hhandle, htakes⟩ := takes_handleFrame hc hframes.1
    obtain ⟨c'', hdrain, hrest⟩ := ih htakes.ready hframes.2
    refine ⟨c'', ?_, ?_⟩
    · rw [List.map_cons, List.flatten_cons, frameLoop.drain_of_consume (frameTurn_wire _ hhandle),
        f.drop_wire, hdrain]
    · rw [List.flatMap_cons, List.flatMap_cons]
      exact htakes.append hrest

/-- Whatever was left in the read buffer, when it ends up as a sequence of frames they are all
taken. -/
lemma takes_processData {c : H2Connection} (hc : c.Ready) {frames : List H2Frame}
    (hframes : ∀ f ∈ frames, f.EmptyAck) {data : Bytes}
    (hdata : c.readBuffer ++ data = (frames.map H2Frame.wire).flatten) :
    ∃ c', c.processData data = some (.success, c') ∧ c'.readBuffer = [] ∧
      Takes c (frames.flatMap H2Frame.items) (frames.flatMap H2Frame.reply) c' := by
  obtain ⟨c', hdrain, htakes⟩ := takes_drain hc hframes
  have hread : c.readData data = ofOutcome (frameLoop.feed c.toOutcome data) (c.received ++ data) :=
    readData_ofOutcome c.toOutcome c.received data hc
  refine ⟨c'.withInput [] (c.received ++ data), ?_, rfl, ready_withInput htakes.ready _ _,
    htakes.emitted, htakes.settings⟩
  rw [processData_of_ready hc, hread, Machine.feed]
  change some (ofOutcome (frameLoop.drain c (c.readBuffer ++ data)) _) = _
  rw [hdata, hdrain]
  rfl

/-! ### The settings in force -/

/-- The value in force for an identifier, where the identifier is known. -/
def valueOf (settings : H2Settings) (identifier : UInt16) : Option UInt32 :=
  match identifier.toNat with
  | 1 => some settings.headerTableSize
  | 2 => some settings.enablePush
  | 3 => some settings.maxConcurrentStreams
  | 4 => some settings.initialWindowSize
  | 5 => some settings.maxFrameSize
  | 6 => some settings.maxHeaderListSize
  | _ => none

/-- The values that a list of items has for an identifier. -/
def valuesFor (items : List (UInt16 × UInt32)) (identifier : UInt16) : List UInt32 :=
  (items.filter fun item => item.1 = identifier).map Prod.snd

lemma valuesFor_cons_of_eq {item : UInt16 × UInt32} {identifier : UInt16}
    (items : List (UInt16 × UInt32)) (h : item.1 = identifier) :
    valuesFor (item :: items) identifier = item.2 :: valuesFor items identifier := by
  simp [valuesFor, h]

lemma valuesFor_cons_of_ne {item : UInt16 × UInt32} {identifier : UInt16}
    (items : List (UInt16 × UInt32)) (h : item.1 ≠ identifier) :
    valuesFor (item :: items) identifier = valuesFor items identifier := by
  simp [valuesFor, h]

lemma valueOf_applySetting (settings : H2Settings) (item : UInt16 × UInt32) (identifier : UInt16) :
    valueOf (applySetting settings item) identifier =
      if item.1 = identifier then (valueOf settings identifier).map fun _ => item.2
      else valueOf settings identifier := by
  simp only [← UInt16.toNat_inj, applySetting, valueOf]
  split <;> split <;> simp_all

/-- The last value wins, and an identifier that is not known has no effect. -/
lemma valueOf_foldl_applySetting (settings : H2Settings) (items : List (UInt16 × UInt32))
    (identifier : UInt16) :
    valueOf (items.foldl applySetting settings) identifier =
      (valueOf settings identifier).map fun old => (valuesFor items identifier).getLastD old := by
  induction items generalizing settings with
  | nil => simp [valuesFor]
  | cons item items ih =>
    rw [List.foldl_cons, ih, valueOf_applySetting]
    by_cases h : item.1 = identifier
    · rw [if_pos h, Option.map_map, valuesFor_cons_of_eq items h]
      simp only [List.getLastD_cons, Function.comp_def]
    · rw [if_neg h, valuesFor_cons_of_ne items h]

/-- An open connection takes every sequence of complete frames. It emits one empty SETTINGS
acknowledgement for each request for settings and one PING acknowledgement with the same bytes for
each ping, in the order in which they came, and the last value for each known setting is in force. -/
theorem processData_frames {c : H2Connection} (hopen : c.isOpen)
    (hcallback : c.hasFrameCallback = true) {frames : List H2Frame}
    (hframes : ∀ f ∈ frames, f.EmptyAck) {data : Bytes}
    (hdata : c.readBuffer ++ data = (frames.map H2Frame.wire).flatten) :
    ∃ c', c.processData data = some (.success, c') ∧
      c'.emitted = c.emitted ++ frames.flatMap H2Frame.reply ∧
      ∀ identifier, valueOf c'.settings identifier = (valueOf c.settings identifier).map fun old =>
        (valuesFor (frames.flatMap H2Frame.items) identifier).getLastD old := by
  have hc : c.Ready := by
    rw [isOpen] at hopen
    refine ⟨?_, ?_, hcallback⟩
    · simp [isClosed, hopen]
    · simp [hopen]
  obtain ⟨c', hprocess, -, htakes⟩ := takes_processData hc hframes hdata
  refine ⟨c', hprocess, htakes.emitted, ?_⟩
  intro identifier
  rw [htakes.settings]
  exact valueOf_foldl_applySetting _ _ _

/-- Settings, a ping, the announcement that the peer goes away, and another ping. -/
theorem processData_frames_goaway :
    let c := { (new 3 true).setFrameCallback with state := .H2_OPEN, prefaceRemaining := 0 }
    let frames : List H2Frame :=
      [⟨[0, 0, 6, 4, 0, 0, 0, 0, 0], ⟨6, 4, 0, 0, 0⟩, [0, 4, 0, 0, 1, 0], rfl, by decide, rfl⟩,
        ⟨[0, 0, 8, 6, 0, 0, 0, 0, 0], ⟨8, 6, 0, 0, 0⟩, [1, 2, 3, 4, 5, 6, 7, 8], rfl, by decide, rfl⟩,
        ⟨[0, 0, 8, 7, 0, 0, 0, 0, 0], ⟨8, 7, 0, 0, 0⟩, [0, 0, 0, 1, 0, 0, 0, 0], rfl, by decide, rfl⟩,
        ⟨[0, 0, 8, 6, 0, 0, 0, 0, 0], ⟨8, 6, 0, 0, 0⟩, [8, 7, 6, 5, 4, 3, 2, 1], rfl, by decide, rfl⟩]
    ∃ c', c.processData (frames.map H2Frame.wire).flatten = some (.success, c') ∧
      c'.emitted = c.emitted ++ frames.flatMap H2Frame.reply ∧
      ∀ identifier, valueOf c'.settings identifier = (valueOf c.settings identifier).map fun old =>
        (valuesFor (frames.flatMap H2Frame.items) identifier).getLastD old := by
  intro c frames
  have hframes : ∀ f ∈ frames, f.EmptyAck := by
    simp [frames, H2Frame.EmptyAck, H2FrameHeader.hasFlag, H2FrameFlags.ACK]
  exact processData_frames (c := c) rfl rfl hframes (List.nil_append _)

/-! ### Two endpoints -/

/-- A frame that was emitted, as it goes over the wire. -/
def wireFrame (header : H2FrameHeader) (payload : Bytes) (hvalid : header.validate.isSuccess)
    (hlength : payload.length = header.length.toNat) : H2Frame where
  head := H2FrameParser.serializeHeader header
  header := header
  payload := payload
  length_head := H2FrameParser.length_serializeHeader header
  parseHeader_head := by
    have h := H2FrameParser.parseHeader_serializeHeader [] hvalid
    rwa [List.append_nil] at h
  length_payload := hlength

/-- The header of the frame that `SendSettings` makes. -/
def settingsHeader (settings : List (UInt16 × UInt32)) : H2FrameHeader :=
  { length := BitVec.ofNat 24 (6 * settings.length), type := H2FrameType.settings.toUInt8, flags := 0
    streamId := 0, reserved := 0 }

lemma toNat_length_settingsHeader {settings : List (UInt16 × UInt32)}
    (hlen : 6 * settings.length < 2 ^ 24) :
    (settingsHeader settings).length.toNat = 6 * settings.length := by
  rw [settingsHeader, BitVec.toNat_ofNat, Nat.mod_eq_of_lt hlen]

lemma isSuccess_validate_settingsHeader {settings : List (UInt16 × UInt32)}
    (hlen : 6 * settings.length < 2 ^ 24) : (settingsHeader settings).validate.isSuccess := by
  rw [H2FrameHeader.validate, if_neg (by simp [settingsHeader]),
    if_neg (by simp [H2FrameParser.isValidStreamId]), H2FrameParser.isSuccess_validateFrameLength,
    toNat_length_settingsHeader hlen]
  simp [settingsHeader, H2FrameParser.lengthAllowed]

lemma sendSettings_of_ready {c : H2Connection} (hc : c.Ready)
    {settings : List (UInt16 × UInt32)} (hlen : 6 * settings.length < 2 ^ 24) :
    c.sendSettings settings false = (.success,
      { c with emitted := c.emitted ++ [(settingsHeader settings, settingsPayload settings)] }) := by
  have hpayload := H2FrameParser.length_settingsPayload settings
  have hallowed : H2FrameParser.lengthAllowed
      (BitVec.ofNat 24 (settingsPayload settings).length).toNat (some .settings) := by
    rw [hpayload, BitVec.toNat_ofNat, Nat.mod_eq_of_lt hlen]
    exact Nat.mul_mod_right 6 settings.length
  rw [sendSettings, if_neg Bool.false_ne_true, sendFrame_of_ready hc .settings 0 0 hallowed, hpayload]
  rfl

/-- What `SendSettings` emits, as it goes over the wire. -/
def settingsFrame (settings : List (UInt16 × UInt32)) (hlen : 6 * settings.length < 2 ^ 24) :
    H2Frame :=
  wireFrame (settingsHeader settings) (settingsPayload settings)
    (isSuccess_validate_settingsHeader hlen)
    ((H2FrameParser.length_settingsPayload settings).trans (toNat_length_settingsHeader hlen).symm)

def settingsAckFrame : H2Frame := wireFrame (H2Frame.ackHeader .settings 0) [] (by decide) rfl

section

variable {settings : List (UInt16 × UInt32)} (hlen : 6 * settings.length < 2 ^ 24)

lemma not_hasFlag_settingsFrame : ¬ (settingsFrame settings hlen).header.hasFlag H2FrameFlags.ACK := by
  simp [settingsFrame, wireFrame, H2FrameHeader.hasFlag, settingsHeader, H2FrameFlags.ACK]

lemma emptyAck_settingsFrame : (settingsFrame settings hlen).EmptyAck := fun _ hack =>
  absurd hack (not_hasFlag_settingsFrame hlen)

lemma items_settingsFrame : (settingsFrame settings hlen).items = settings := by
  rw [H2Frame.items, if_neg (not_hasFlag_settingsFrame hlen)]
  exact H2FrameParser.settingsItems_settingsPayload settings

lemma reply_settingsFrame :
    (settingsFrame settings hlen).reply = [(H2Frame.ackHeader .settings 0, [])] :=
  if_neg (not_hasFlag_settingsFrame hlen)

end

lemma emptyAck_settingsAckFrame : settingsAckFrame.EmptyAck := fun _ _ => rfl

/-- No acknowledgement is acknowledged. -/
lemma reply_settingsAckFrame : settingsAckFrame.reply = [] := by decide

/-- One whole frame arrives at a connection that is at the boundary between two frames. -/
lemma takes_processData_wire {c : H2Connection} (hc : c.Ready) (hbuffer : c.readBuffer = [])
    {f : H2Frame} (hf : f.EmptyAck) :
    ∃ c', c.processData f.wire = some (.success, c') ∧ Takes c f.items f.reply c' := by
  have hdata : c.readBuffer ++ f.wire = ([f].map H2Frame.wire).flatten := by simp [hbuffer]
  have hframes : ∀ g ∈ [f], g.EmptyAck := by simpa using hf
  obtain ⟨c', hprocess, -, htakes⟩ := takes_processData hc hframes hdata
  rw [List.flatMap_singleton, List.flatMap_singleton] at htakes
  exact ⟨c', hprocess, htakes⟩

/-- The settings that one endpoint sends arrive at the other one as they were, and are answered by
one acknowledgement, which ends the exchange. -/
theorem settings_agreement {sender receiver : H2Connection} (hs : sender.Ready)
    (hsbuffer : sender.readBuffer = []) (hr : receiver.Ready) (hrbuffer : receiver.readBuffer = [])
    {settings : List (UInt16 × UInt32)} (hlen : 6 * settings.length < 2 ^ 24) :
    ∃ header payload sender' receiver' sender'',
      sender.sendSettings settings false = (.success, sender') ∧
      sender'.emitted = sender.emitted ++ [(header, payload)] ∧
      H2FrameParser.parseSettingsPayload payload = some settings ∧
      receiver.processData (H2FrameParser.serializeHeader header ++ payload) =
        some (.success, receiver') ∧
      receiver'.settings = settings.foldl applySetting receiver.settings ∧
      receiver'.emitted = receiver.emitted ++ [(H2Frame.ackHeader .settings 0, [])] ∧
      sender'.processData (H2FrameParser.serializeHeader (H2Frame.ackHeader .settings 0) ++ []) =
        some (.success, sender'') ∧
      sender''.emitted = sender'.emitted := by
  obtain ⟨receiver', hreceive, hreceived⟩ :=
    takes_processData_wire hr hrbuffer (emptyAck_settingsFrame hlen)
  rw [items_settingsFrame, reply_settingsFrame] at hreceived
  let sender' : H2Connection := { sender with
    emitted := sender.emitted ++ [(settingsHeader settings, settingsPayload settings)] }
  have hs' : sender'.Ready := ⟨hs.notClosed, hs.pastPreface, hs.callback⟩
  obtain ⟨sender'', hack, hacked⟩ := takes_processData_wire hs' hsbuffer emptyAck_settingsAckFrame
  refine ⟨settingsHeader settings, settingsPayload settings, sender', receiver', sender'',
    sendSettings_of_ready hs hlen, rfl, H2FrameParser.parseSettingsPayload_settingsPayload settings,
    hreceive, hreceived.settings, hreceived.emitted, hack, ?_⟩
  rw [hacked.emitted, reply_settingsAckFrame, List.append_nil]

/-- A client and a server with a header table size that is larger than the default. -/
theorem settings_agreement_client :
    let sender := (new 3 false).setFrameCallback
    let receiver := { (new 4 true).setFrameCallback with state := .H2_OPEN, prefaceRemaining := 0 }
    let settings : List (UInt16 × UInt32) := [(1, 8192)]
    ∃ header payload sender' receiver' sender'',
      sender.sendSettings settings false = (.success, sender') ∧
      sender'.emitted = sender.emitted ++ [(header, payload)] ∧
      H2FrameParser.parseSettingsPayload payload = some settings ∧
      receiver.processData (H2FrameParser.serializeHeader header ++ payload) =
        some (.success, receiver') ∧
      receiver'.settings = settings.foldl applySetting receiver.settings ∧
      receiver'.emitted = receiver.emitted ++ [(H2Frame.ackHeader .settings 0, [])] ∧
      sender'.processData (H2FrameParser.serializeHeader (H2Frame.ackHeader .settings 0) ++ []) =
        some (.success, sender'') ∧
      sender''.emitted = sender'.emitted :=
  settings_agreement ⟨by decide, by decide, rfl⟩ rfl ⟨by decide, by decide, rfl⟩ rfl (by decide)

end H2Connection

end TinyWebServer
