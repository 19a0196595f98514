import TinyWebServer.Http2.ConnectionLife
import TinyWebServer.Http2.ControlFrames
import TinyWebServer.Http2.FrameSending
import TinyWebServer.Http2.Reassembly
import TinyWebServer.Library.Exchange

/-!
# Two HTTP/2 endpoints that talk to each other

What an endpoint hands to its frame callback goes over a byte stream to the other endpoint, which
is given the bytes in pieces of any size. As long as their owners leave the acknowledgements to the
endpoints and send no frame that is too long for its header, then whatever the endpoints say of
their own accord and however the bytes are cut, they run the exchange of `Exchange`: every frame is
taken once and in order, and the acknowledgements are those that are owed for the frames taken.
-/

namespace TinyWebServer

open ParseLoop Exchange

namespace H2Connection

/-! ### Frames as messages -/

/-- What the owner of a connection writes for a frame that the callback is given. -/
def wire (m : H2FrameHeader × Bytes) : Bytes := H2FrameParser.serializeHeader m.1 ++ m.2

def wires (ms : List (H2FrameHeader × Bytes)) : Bytes := ms.flatMap wire

@[simp] lemma wires_nil : wires [] = [] := rfl

@[simp] lemma wires_cons (m : H2FrameHeader × Bytes) (ms : List (H2FrameHeader × Bytes)) :
    wires (m :: ms) = wire m ++ wires ms := List.flatMap_cons

@[simp] lemma wires_append (ms ms' : List (H2FrameHeader × Bytes)) :
    wires (ms ++ ms') = wires ms ++ wires ms' := List.flatMap_append

/-- A frame that the other endpoint can read. -/
structure Readable (m : H2FrameHeader × Bytes) : Prop where
  valid : m.1.validate.isSuccess
  length : m.2.length = m.1.length.toNat
  emptyAck : H2FrameType.ofUInt8 m.1.type = some .settings → m.1.hasFlag H2FrameFlags.ACK →
    m.1.length.toNat = 0

/-- The frame on the wire. -/
def Readable.frame {m : H2FrameHeader × Bytes} (hm : Readable m) : H2Frame :=
  wireFrame m.1 m.2 hm.valid hm.length

/-- What is owed for a frame. -/
def answers (m : H2FrameHeader × Bytes) : List (H2FrameHeader × Bytes) :=
  if m.1.hasFlag H2FrameFlags.ACK then []
  else
    match H2FrameType.ofUInt8 m.1.type with
    | some .settings => [(H2Frame.ackHeader .settings 0, [])]
    | some .ping => [(H2Frame.ackHeader .ping 8, m.2)]
    | _ => []

/-- The settings that a frame asks for. -/
def asked (m : H2FrameHeader × Bytes) : List (UInt16 × UInt32) :=
  if m.1.hasFlag H2FrameFlags.ACK then []
  else
    match H2FrameType.ofUInt8 m.1.type with
    | some .settings => H2FrameParser.settingsItems m.2
    | _ => []

def isAcknowledgement (m : H2FrameHeader × Bytes) : Bool :=
  m.1.hasFlag H2FrameFlags.ACK ∧
    (H2FrameType.ofUInt8 m.1.type = some .settings ∨ H2FrameType.ofUInt8 m.1.type = some .ping)

lemma isAcknowledgement_ackHeader {type : H2FrameType} (h : type = .settings ∨ type = .ping)
    (length : ℕ) (payload : Bytes) :
    isAcknowledgement (H2Frame.ackHeader type length, payload) := by
  rcases h with rfl | rfl <;>
    simp [isAcknowledgement, H2Frame.ackHeader, H2FrameHeader.hasFlag]

/-- SETTINGS and PING are answered by acknowledgements, which are not answered. -/
def acknowledging : Rules (H2FrameHeader × Bytes) where
  answers := answers
  isAnswer := isAcknowledgement
  isAnswer_of_mem := by
    intro m a ha
    rw [answers] at ha
    split_ifs at ha
    · simp at ha
    · split at ha
      · rw [List.mem_singleton.mp ha]
        exact isAcknowledgement_ackHeader (Or.inl rfl) 0 []
      · rw [List.mem_singleton.mp ha]
        exact isAcknowledgement_ackHeader (Or.inr rfl) 8 m.2
      · simp at ha
  answers_of_isAnswer := by
    intro m hm
    rw [isAcknowledgement, decide_eq_true_iff] at hm
    exact if_pos hm.1

/-! ### A piece of the byte stream -/

/-- The loop does not start on a frame that is not there as a whole. -/
lemma frameTurn_of_short {c : H2Connection} {f : H2Frame} {buffer later rest : Bytes}
    (h : buffer ++ later = f.wire ++ rest) (hshort : buffer.length < f.header.frameSize) :
    c.frameTurn buffer = .wait := by
  rw [frameTurn]
  by_cases hnine : buffer.length < 9
  · rw [if_pos hnine]
  · have hheader : H2FrameParser.parseHeader buffer = some f.header := by
      rw [← H2FrameParser.parseHeader_append later (not_lt.mp hnine), h, f.parseHeader_wire]
    rw [if_neg hnine, hheader]
    exact if_pos hshort

/-- The loop takes the frames that are in the buffer and leaves the beginning of the next one. -/
lemma takes_drain_piece {c : H2Connection} (hc : c.Ready) {ms : List (H2FrameHeader × Bytes)}
    (hms : ∀ m ∈ ms, Readable m) {buffer later : Bytes} (h : buffer ++ later = wires ms) :
    ∃ k c' rest, k ≤ ms.length ∧ frameLoop.drain c buffer = ⟨c', rest, none⟩ ∧
      Takes c ((ms.take k).flatMap asked) ((ms.take k).flatMap answers) c' ∧
      rest ++ later = wires (ms.drop k) ∧ (later = [] → k = ms.length) := by
  induction ms generalizing c buffer with
  | nil =>
    obtain ⟨rfl, rfl⟩ := List.append_eq_nil_iff.mp h
    exact ⟨0, c, [], le_rfl, frameLoop.drain_of_wait (frameTurn_nil c), .nil hc, rfl, fun _ => rfl⟩
  | cons m ms ih =>
    rw [List.forall_mem_cons] at hms
    have hm := hms.1
    rw [wires_cons] at h
    by_cases hwhole : hm.frame.header.frameSize ≤ buffer.length
    · -- the first frame is there, and the others stand in what is left of the buffer
      have hlength : (wire m).length ≤ buffer.length := hm.frame.length_wire.trans_le hwhole
      obtain ⟨rest, hrest⟩ := List.prefix_of_prefix_length_le (List.prefix_append (wire m) (wires ms))
        (h ▸ List.prefix_append buffer later) hlength
      subst hrest
      rw [List.append_assoc, List.append_cancel_left_eq] at h
      obtain ⟨c', hhandle, htakes⟩ := takes_handleFrame (f := hm.frame) hc hm.emptyAck
      obtain ⟨k, c'', left, hk, hdrain, hmore, hleft, hall⟩ := ih htakes.ready hms.2 h
      refine ⟨k + 1, c'', left, Nat.succ_le_succ hk, ?_, htakes.append hmore, hleft, ?_⟩
      · have hturn : frameLoop.turn c (wire m ++ rest) = .consume hm.frame.header.frameSize c' :=
          frameTurn_wire rest hhandle
        have hdrop : (wire m ++ rest).drop hm.frame.header.frameSize = rest :=
          hm.frame.drop_wire rest
        rw [frameLoop.drain_of_consume hturn, hdrop, hdrain]
      · intro hnil
        rw [hall hnil, List.length_cons]
    · have hshort := frameTurn_of_short (c := c) (f := hm.frame) h (not_le.mp hwhole)
      refine ⟨0, c, buffer, Nat.zero_le _, frameLoop.drain_of_wait hshort, .nil hc, h, ?_⟩
      intro hnil
      rw [hnil, List.append_nil] at h
      have hlength : (wire m).length ≤ buffer.length := by
        rw [h, List.length_append]
        exact Nat.le_add_right _ _
      exact absurd (hm.frame.length_wire.symm.trans_le hlength) hwhole

/-- A piece of the byte stream is read to the end of the last frame that is complete. -/
lemma takes_processData_piece {c : H2Connection} (hc : c.Ready)
    {ms : List (H2FrameHeader × Bytes)} (hms : ∀ m ∈ ms, Readable m) {piece later : Bytes}
    (h : c.readBuffer ++ (piece ++ later) = wires ms) :
    ∃ k c', k ≤ ms.length ∧ c.processData piece = some (.success, c') ∧
      Takes c ((ms.take k).flatMap asked) ((ms.take k).flatMap answers) c' ∧
      c'.readBuffer ++ later = wires (ms.drop k) ∧ (later = [] → k = ms.length) := by
  rw [← List.append_assoc] at h
  obtain ⟨k, c', rest, hk, hdrain, htakes, hrest, hall⟩ := takes_drain_piece hc hms h
  have hread : c.readData piece =
      ofOutcome (frameLoop.feed c.toOutcome piece) (c.received ++ piece) :=
    readData_ofOutcome c.toOutcome c.received piece hc
  refine ⟨k, c'.withInput rest (c.received ++ piece), hk, ?_,
    ⟨ready_withInput htakes.ready _ _, htakes.emitted, htakes.settings⟩, hrest, hall⟩
  rw [processData_of_ready hc, hread, Machine.feed]
  change some (ofOutcome (frameLoop.drain c (c.readBuffer ++ piece)) _) = _
  rw [hdrain]
  rfl

/-! ### What an endpoint says of its own accord -/

end H2Connection

/-- The frame that is sent fits into the length of its header, and the owner of the connection
leaves the acknowledgements and the reading to the connection. -/
def H2ConnectionOp.Speaks : H2ConnectionOp → Prop
  | .processData _ => False
  | .sendFrame type flags _ payload => payload.length < 2 ^ 24 ∧
    ¬ (flags &&& H2FrameFlags.ACK = H2FrameFlags.ACK ∧ (type = .settings ∨ type = .ping))
  | .sendSettings settings ack => 6 * settings.length < 2 ^ 24 ∧ ack = false
  | .sendPing opaqueData ack => opaqueData.length = 8 ∧ ack = false
  | .sendGoaway _ _ debugData => debugData.length + 8 < 2 ^ 24
  | .close _ => True

namespace H2Connection

lemma readable_headerOf {type : H2FrameType} {flags : UInt8} {streamId : UInt32} {payload : Bytes}
    (hlength : payload.length < 2 ^ 24)
    (hack : ¬ (flags &&& H2FrameFlags.ACK = H2FrameFlags.ACK ∧ (type = .settings ∨ type = .ping)))
    (hvalid : (headerOf type flags streamId payload).validate.isSuccess) :
    Readable (headerOf type flags streamId payload, payload) ∧
      ¬ isAcknowledgement (headerOf type flags streamId payload, payload) := by
  have htype : H2FrameType.ofUInt8 (headerOf type flags streamId payload).type = some type :=
    H2FrameType.ofUInt8_toUInt8 type
  refine ⟨⟨hvalid, ?_, ?_⟩, ?_⟩
  · rw [headerOf, BitVec.toNat_ofNat, Nat.mod_eq_of_lt hlength]
  · rw [htype]
    intro hsettings hflag
    exact absurd ⟨hflag, Or.inl (Option.some.inj hsettings)⟩ hack
  · rw [isAcknowledgement, decide_eq_true_iff, htype, Option.some.injEq, Option.some.injEq]
    exact hack

/-- What a call leaves behind that reads nothing: the frames in `out` have been sent. -/
structure Says (c : H2Connection) (out : List (H2FrameHeader × Bytes)) (c' : H2Connection) :
    Prop where
  emitted : c'.emitted = c.emitted ++ out
  readable : ∀ m ∈ out, Readable m
  asks : ∀ m ∈ out, ¬ isAcknowledgement m
  settings : c'.settings = c.settings
  readBuffer : c'.readBuffer = c.readBuffer
  notClosed : ¬ c'.isClosed → ¬ c.isClosed
  ready : ¬ c'.isClosed → c'.Ready

lemma Says.nothing {c : H2Connection} (hc : ¬ c.isClosed → c.Ready) : Says c [] c where
  emitted := (List.append_nil _).symm
  readable := by simp
  asks := by simp
  settings := rfl
  readBuffer := rfl
  notClosed := id
  ready := hc

lemma says_sendFrame {c : H2Connection} (hc : ¬ c.isClosed → c.Ready) {type : H2FrameType}
    {flags : UInt8} {streamId : UInt32} {payload : Bytes} (hlength : payload.length < 2 ^ 24)
    (hack : ¬ (flags &&& H2FrameFlags.ACK = H2FrameFlags.ACK ∧
      (type = .settings ∨ type = .ping))) :
    ∃ out, Says c out (c.sendFrame type flags streamId payload).2 := by
  by_cases hclosed : c.isClosed
  · rw [sendFrame, if_pos hclosed]
    exact ⟨[], .nothing hc⟩
  · have hready := hc hclosed
    by_cases hvalid : (headerOf type flags streamId payload).validate.isSuccess
    · have hallowed := (isSuccess_validate_headerOf type flags streamId payload).mp hvalid
      rw [← BitVec.toNat_ofNat] at hallowed
      rw [sendFrame_of_ready hready type flags streamId hallowed]
      obtain ⟨hread, hasks⟩ := readable_headerOf hlength hack hvalid
      exact ⟨[(headerOf type flags streamId payload, payload)], rfl, by simpa using hread,
        by simpa using hasks, rfl, rfl, id, fun _ => ⟨hclosed, hready.pastPreface, hready.callback⟩⟩
    · rw [sendFrame, if_neg hclosed]
      dsimp only
      rw [headerOf] at hvalid
      rw [if_pos hvalid]
      exact ⟨[], .nothing hc⟩

lemma says_close {c : H2Connection} (hc : ¬ c.isClosed → c.Ready) (reason : Error) :
    ∃ out, Says c out (c.close reason) := by
  by_cases hclosed : c.isClosed
  · rw [close_of_closed hclosed]
    exact ⟨[], .nothing hc⟩
  · have hgoaway : ∃ out, Says c out (if c.isOpen then (c.sendGoaway 0 1 []).2 else c) := by
      split_ifs
      · exact says_sendFrame hc (by simp [uint32Bytes]) (by simp)
      · exact ⟨[], .nothing hc⟩
    obtain ⟨out, hout⟩ := hgoaway
    have hclosing : (c.close reason).isClosed := (close_of_not_closed hclosed reason).1
    refine ⟨out, ?_⟩
    rw [close, if_neg hclosed] at hclosing ⊢
    dsimp only at hclosing ⊢
    generalize (if c.isOpen then (c.sendGoaway 0 1 []).2 else c) = d at hout hclosing ⊢
    refine ⟨?_, hout.readable, hout.asks, ?_, ?_, fun _ => hclosed, fun h => absurd hclosing h⟩
    · rw [← hout.emitted, transitionState]
      split_ifs <;> rfl
    · rw [← hout.settings, transitionState]
      split_ifs <;> rfl
    · rw [← hout.readBuffer, transitionState]
      split_ifs <;> rfl

/-- A call that reads nothing. -/
lemma says_operate {c : H2Connection} (hc : ¬ c.isClosed → c.Ready) {op : H2ConnectionOp}
    (hop : op.Speaks) : ∃ out, Says c out (c.operate op).2 := by
  cases op with
  | processData data => exact hop.elim
  | sendFrame type flags streamId payload => exact says_sendFrame hc hop.1 hop.2
  | sendSettings settings ack =>
    obtain ⟨hlength, rfl⟩ := hop
    refine says_sendFrame hc ?_ (by simp [H2FrameFlags.ACK])
    rwa [H2FrameParser.length_settingsPayload]
  | sendPing opaqueData ack =>
    obtain ⟨hlength, rfl⟩ := hop
    exact says_sendFrame hc (by omega) (by simp [H2FrameFlags.ACK])
  | sendGoaway lastStreamId errorCode debugData =>
    refine says_sendFrame hc ?_ (by simp)
    rw [H2ConnectionOp.Speaks] at hop
    simp only [List.length_append, uint32Bytes, List.length_cons, List.length_nil]
    omega
  | close reason => exact says_close hc reason

end H2Connection

/-! ### The conversation -/

open H2Connection

/-- The two endpoints, and the bytes on their way to each of them. -/
structure H2Conversation where
  conn : Party → H2Connection
  pipe : Party → Bytes

namespace H2Conversation

inductive Move where
  /-- The owner of an endpoint calls one of its operations. -/
  | call (p : Party) (op : H2ConnectionOp)
  /-- An endpoint is given the next `n` bytes that are on their way to it. -/
  | deliver (p : Party) (n : ℕ)

/-- The frames that an operation has handed to the frame callback go to the other endpoint. -/
def after (s : H2Conversation) (p : Party) (c : H2Connection) : H2Conversation where
  conn := Function.update s.conn p c
  pipe := Function.update s.pipe p.other
    (s.pipe p.other ++ wires (c.emitted.drop (s.conn p).emitted.length))

/-- The first `n` bytes leave the pipe. -/
def shift (s : H2Conversation) (p : Party) (n : ℕ) : H2Conversation :=
  { s with pipe := Function.update s.pipe p ((s.pipe p).drop n) }

def deliver (s : H2Conversation) (p : Party) (n : ℕ) : H2Conversation :=
  (s.shift p n).after p ((s.conn p).operate (.processData ((s.pipe p).take n))).2

def next (s : H2Conversation) : Move → Option H2Conversation
  | .call p op => some (s.after p ((s.conn p).operate op).2)
  | .deliver p n => some (s.deliver p n)

/-- The calls of the owners are of the kind that the exchange is about. -/
def Move.Speaks : Move → Prop
  | .call _ op => op.Speaks
  | .deliver _ _ => True

/-- The server has just read the preface, and its settings are on their way to the client. -/
def opening (fd fd' : ℤ) : H2Conversation :=
  let endpoint := ((server fd).operate (.processData clientPreface)).2
  { conn := fun
      | .client => (new fd' false).setFrameCallback
      | .server => endpoint
    pipe := fun
      | .client => wires endpoint.emitted
      | .server => [] }

/-! ### The exchange that it runs -/

section after

variable (s : H2Conversation) (p : Party) (c : H2Connection)

@[simp] lemma conn_after : (s.after p c).conn p = c := Function.update_self ..

@[simp] lemma conn_other_after : (s.after p c).conn p.other = s.conn p.other :=
  Function.update_of_ne p.other_ne ..

@[simp] lemma pipe_after : (s.after p c).pipe p = s.pipe p := Function.update_of_ne p.ne_other ..

@[simp] lemma pipe_other_after : (s.after p c).pipe p.other =
    s.pipe p.other ++ wires (c.emitted.drop (s.conn p).emitted.length) := Function.update_self ..

@[simp] lemma conn_shift (n : ℕ) : (s.shift p n).conn = s.conn := rfl

@[simp] lemma pipe_shift (n : ℕ) : (s.shift p n).pipe p = (s.pipe p).drop n :=
  Function.update_self ..

@[simp] lemma pipe_other_shift (n : ℕ) : (s.shift p n).pipe p.other = s.pipe p.other :=
  Function.update_of_ne p.other_ne ..

end after

/-- How one endpoint stands to the exchange: the bytes that an open endpoint has not read are those
of the frames that are pending for it. -/
structure PartyAbstracts (s : H2Conversation) (a : State (H2FrameHeader × Bytes)) (p : Party) :
    Prop where
  sent : a.sent p = (s.conn p).emitted
  readable : ∀ m ∈ (s.conn p).emitted, Readable m
  settings : (s.conn p).settings =
    (((a.sent p.other).take (a.taken p)).flatMap asked).foldl applySetting .default
  ready : ¬ (s.conn p).isClosed → (s.conn p).Ready
  unread : ¬ (s.conn p).isClosed → (s.conn p).readBuffer ++ s.pipe p = wires (a.pending p)

def Abstracts (s : H2Conversation) (a : State (H2FrameHeader × Bytes)) : Prop :=
  ∀ p, s.PartyAbstracts a p

section steps

variable {s : H2Conversation} {a : State (H2FrameHeader × Bytes)} {p : Party}

/-- An endpoint says something. -/
lemma Abstracts.says (hs : s.Abstracts a) (ha : Balanced acknowledging a) {c : H2Connection}
    {out : List (H2FrameHeader × Bytes)} (h : Says (s.conn p) out c) :
    (s.after p c).Abstracts (a.post p out) := by
  have hp := hs p
  have hother := hs p.other
  refine (Party.forall_iff p).mpr ⟨⟨?_, ?_, ?_, ?_, ?_⟩, ⟨?_, ?_, ?_, ?_, ?_⟩⟩
  · rw [State.sent_post, conn_after, h.emitted, hp.sent]
  · rw [conn_after, h.emitted]
    intro m hm
    rcases List.mem_append.mp hm with hm | hm
    · exact hp.readable m hm
    · exact h.readable m hm
  · rw [conn_after, h.settings, State.sent_other_post, State.taken_post, hp.settings]
  · rw [conn_after]
    exact h.ready
  · rw [conn_after, pipe_after, h.readBuffer, State.pending_post]
    exact fun hopen => hp.unread (h.notClosed hopen)
  · rw [State.sent_other_post, conn_other_after, hother.sent]
  · rw [conn_other_after]
    exact hother.readable
  · have hsettings := hother.settings
    rw [Party.other_other] at hsettings ⊢
    rw [conn_other_after, State.sent_post, State.taken_post, ha.take_append, hsettings]
  · rw [conn_other_after]
    exact hother.ready
  · rw [conn_other_after, pipe_other_after, h.emitted, List.drop_left, ha.pending_other_post,
      wires_append, ← List.append_assoc]
    intro hopen
    rw [hother.unread hopen]

/-- Acknowledgements can be read. -/
lemma readable_answers {m : H2FrameHeader × Bytes} (hm : Readable m) :
    ∀ a ∈ answers m, Readable a := by
  intro a ha
  rw [answers] at ha
  split_ifs at ha
  · simp at ha
  · have hallowed := hm.frame.lengthAllowed
    rw [show hm.frame.header = m.1 from rfl, ← hm.length] at hallowed
    split at ha
    · rw [List.mem_singleton.mp ha]
      exact ⟨by decide, rfl, fun _ _ => rfl⟩
    · rename_i htype
      rw [htype] at hallowed
      rw [List.mem_singleton.mp ha]
      exact ⟨(isSuccess_validate_headerOf .ping H2FrameFlags.ACK 0 (List.replicate 8 0)).mpr rfl,
        hallowed, fun h => by cases h⟩
    · simp at ha

/-- An open endpoint is given bytes. -/
lemma Abstracts.reads (hs : s.Abstracts a) (ha : Balanced acknowledging a)
    (hopen : ¬ (s.conn p).isClosed) (n : ℕ) :
    ∃ k c, k ≤ (a.pending p).length ∧
      (s.conn p).processData ((s.pipe p).take n) = some (.success, c) ∧
      ((s.deliver p n).conn p).Ready ∧ (s.deliver p n).Abstracts (a.takes acknowledging p k) ∧
      ((s.pipe p).length ≤ n → k = (a.pending p).length) := by
  have hp := hs p
  have hother := hs p.other
  have hpending : ∀ m ∈ a.pending p, Readable m := by
    intro m hm
    rw [State.pending, hother.sent] at hm
    exact hother.readable m (List.mem_of_mem_drop hm)
  have hunread := hp.unread hopen
  rw [← List.take_append_drop n (s.pipe p)] at hunread
  obtain ⟨k, c, hk, hprocess, htakes, hrest, hall⟩ :=
    takes_processData_piece (hp.ready hopen) hpending hunread
  have hdeliver : s.deliver p n = (s.shift p n).after p c := by
    rw [deliver, operate, hprocess]
  rw [hdeliver]
  refine ⟨k, c, hk, hprocess, ?_, ?_, fun hn => hall (List.drop_of_length_le hn)⟩
  · rw [conn_after]
    exact htakes.ready
  refine (Party.forall_iff p).mpr ⟨⟨?_, ?_, ?_, ?_, ?_⟩, ⟨?_, ?_, ?_, ?_, ?_⟩⟩
  · rw [sent_takes, conn_after, htakes.emitted, hp.sent]
    rfl
  · rw [conn_after, htakes.emitted]
    intro m hm
    rcases List.mem_append.mp hm with hm | hm
    · exact hp.readable m hm
    · obtain ⟨m', hm', hm⟩ := List.mem_flatMap.mp hm
      exact readable_answers (hpending m' (List.mem_of_mem_take hm')) m hm
  · rw [conn_after, htakes.settings, hp.settings, sent_other_takes, taken_takes, List.take_add,
      List.flatMap_append, List.foldl_append, State.pending]
  · rw [conn_after]
    exact fun _ => htakes.ready
  · rw [conn_after, pipe_after, pending_takes]
    intro _
    rw [pipe_shift, hrest]
  · rw [sent_other_takes, conn_other_after, conn_shift, hother.sent]
  · rw [conn_other_after, conn_shift]
    exact hother.readable
  · have hsettings := hother.settings
    rw [Party.other_other] at hsettings ⊢
    rw [conn_other_after, conn_shift, sent_takes, taken_other_takes, ha.take_append, hsettings]
  · rw [conn_other_after, conn_shift]
    exact hother.ready
  · rw [conn_other_after, pipe_other_after, conn_shift, htakes.emitted, List.drop_left,
      ha.pending_other_takes, wires_append, pipe_other_shift, ← List.append_assoc]
    intro hopen'
    rw [hother.unread hopen']
    rfl

/-- What a closed endpoint is given is lost, and nothing comes of it. -/
lemma Abstracts.ignores (hs : s.Abstracts a) (hclosed : (s.conn p).isClosed) (n : ℕ) :
    (s.deliver p n).Abstracts a := by
  obtain ⟨err, hrefused, -⟩ :=
    @operate_of_closed _ hclosed (.processData ((s.pipe p).take n)) fun _ h => by cases h
  have hp := hs p
  have hother := hs p.other
  rw [deliver, hrefused]
  refine (Party.forall_iff p).mpr ⟨⟨?_, ?_, ?_, ?_, ?_⟩, ⟨?_, ?_, ?_, ?_, ?_⟩⟩
  · rw [conn_after, hp.sent]
  · rw [conn_after]
    exact hp.readable
  · rw [conn_after, hp.settings]
  · rw [conn_after]
    exact hp.ready
  · rw [conn_after]
    exact fun hopen => absurd hclosed hopen
  · rw [conn_other_after, conn_shift, hother.sent]
  · rw [conn_other_after, conn_shift]
    exact hother.readable
  · rw [conn_other_after, conn_shift, hother.settings]
  · rw [conn_other_after, conn_shift]
    exact hother.ready
  · rw [conn_other_after, pipe_other_after, conn_shift, List.drop_length, wires_nil, List.append_nil,
      pipe_other_shift]
    exact hother.unread

/-- What an endpoint does is what a party of the exchange can do. -/
lemma Abstracts.next (hs : s.Abstracts a) (ha : Balanced acknowledging a) {m : Move}
    (hm : m.Speaks) {t : H2Conversation} (h : s.next m = some t) :
    ∃ b, Runs.Reachable (Exchange.step acknowledging) a b ∧ t.Abstracts b := by
  cases m with
  | call p op =>
    cases h
    obtain ⟨out, hout⟩ := says_operate (hs p).ready hm
    exact ⟨a.post p out, ⟨_, run_ask hout.asks⟩, hs.says ha hout⟩
  | deliver p n =>
    cases h
    by_cases hclosed : (s.conn p).isClosed
    · exact ⟨a, .refl _ a, hs.ignores hclosed n⟩
    · obtain ⟨k, c, hk, -, -, habs, -⟩ := hs.reads ha hclosed n
      exact ⟨a.takes acknowledging p k, ⟨_, run_take hk⟩, habs⟩

end steps

/-! ### The opening -/

section opening

variable (fd fd' : ℤ)

/-- The settings that the server starts with. -/
def serverSettings : H2FrameHeader × Bytes :=
  (settingsHeader (initialSettings .default), settingsPayload (initialSettings .default))

/-- The server has sent its settings. -/
def started : State (H2FrameHeader × Bytes) :=
  State.post ⟨fun _ => [], fun _ => 0⟩ .server [serverSettings]

lemma balanced_started : Balanced acknowledging started := Balanced.start.ask (by decide)

lemma readable_serverSettings : Readable serverSettings :=
  ⟨by decide, rfl, fun _ h => absurd h (by decide)⟩

lemma conn_opening_client : (opening fd fd').conn .client = (new fd' false).setFrameCallback := rfl

lemma processData_clientPreface :
    (server fd).processData clientPreface = some (.success, opened fd) := by
  have h := @processData_waiting fd 0 clientPreface [] [] (by decide) rfl
  rw [length_clientPreface, if_neg (by decide), if_neg (by decide), ← length_clientPreface,
    List.drop_length] at h
  exact h

lemma conn_opening_server : (opening fd fd').conn .server = opened fd := by
  rw [opening, operate, processData_clientPreface]

lemma pipe_opening_client : (opening fd fd').pipe .client = wires [serverSettings] := by
  rw [opening, operate, processData_clientPreface]
  rfl

lemma pipe_opening_server : (opening fd fd').pipe .server = [] := rfl

lemma ready_client : ((new fd' false).setFrameCallback).Ready :=
  ⟨H2ConnectionState.noConfusion, fun h => Bool.noConfusion h.2, rfl⟩

lemma abstracts_opening : (opening fd fd').Abstracts started := by
  intro p
  cases p with
  | client =>
    refine ⟨rfl, ?_, ?_, ?_, ?_⟩
    · rw [conn_opening_client]
      intro m hm
      exact absurd hm List.not_mem_nil
    · rw [conn_opening_client]
      rfl
    · rw [conn_opening_client]
      exact fun _ => ready_client fd'
    · rw [conn_opening_client, pipe_opening_client]
      exact fun _ => rfl
  | server =>
    refine ⟨?_, ?_, ?_, ?_, ?_⟩
    · rw [conn_opening_server]
      rfl
    · rw [conn_opening_server]
      intro m hm
      rw [opened, List.mem_singleton] at hm
      exact hm ▸ readable_serverSettings
    · rw [conn_opening_server]
      rfl
    · rw [conn_opening_server]
      exact fun _ => ready_opened fd
    · rw [conn_opening_server, pipe_opening_server]
      exact fun _ => rfl

/-- Every conversation is an exchange. -/
lemma exists_abstracts {ms : List Move} (hms : ∀ m ∈ ms, m.Speaks) {s : H2Conversation}
    (h : Runs.run H2Conversation.next (opening fd fd') ms = some s) :
    ∃ a, Runs.Reachable (Exchange.step acknowledging) started a ∧ s.Abstracts a := by
  refine Runs.invariant_run_of _ (P := fun s => ∃ a,
    Runs.Reachable (Exchange.step acknowledging) started a ∧ s.Abstracts a) ?_ hms
    ⟨started, .refl _ _, abstracts_opening fd fd'⟩ h
  rintro s m t hm ⟨a, ha, hs⟩ hnext
  obtain ⟨b, hb, ht⟩ := hs.next (balanced_started.reachable ha) hm hnext
  exact ⟨b, ha.trans _ hb, ht⟩

end opening

/-! ### Agreement -/

/-- In every conversation of this kind an endpoint has taken some of the frames of the other one, in
order. Its acknowledgements are those that are owed for them, one each, and its settings are those
that they ask for. What an open endpoint has not read yet are the bytes of all the frames that
follow, and no piece of them is refused. -/
theorem conversation_agreement {fd fd' : ℤ} {ms : List Move} (hms : ∀ m ∈ ms, m.Speaks)
    {s : H2Conversation} (h : Runs.run next (opening fd fd') ms = some s) (p : Party) :
    ∃ k ≤ (s.conn p.other).emitted.length,
      (s.conn p).emitted.filter isAcknowledgement =
        ((s.conn p.other).emitted.take k).flatMap answers ∧
      (s.conn p).settings =
        (((s.conn p.other).emitted.take k).flatMap asked).foldl applySetting .default ∧
      (¬ (s.conn p).isClosed →
        (s.conn p).readBuffer ++ s.pipe p = wires ((s.conn p.other).emitted.drop k) ∧
        ∀ n, ∃ c, (s.conn p).processData ((s.pipe p).take n) = some (.success, c)) := by
  obtain ⟨a, ha, hs⟩ := exists_abstracts fd fd' hms h
  have hbalanced := balanced_started.reachable ha
  have hsent := (hs p.other).sent
  have hle := hbalanced.taken_le p
  have hanswered := hbalanced.answered p
  have hsettings := (hs p).settings
  rw [(hs p).sent, hsent] at hanswered
  rw [hsent] at hle hsettings
  refine ⟨a.taken p, hle, hanswered, hsettings, fun hopen => ⟨?_, fun n => ?_⟩⟩
  · rw [(hs p).unread hopen, State.pending, hsent]
  · obtain ⟨k, c, -, hprocess, -⟩ := hs.reads hbalanced hopen n
    exact ⟨c, hprocess⟩

/-- A client that pings and is given the settings of the server in two pieces. -/
theorem conversation_agreement_ping :
    let s := (((opening 3 4).after .client (((opening 3 4).conn .client).operate
      (.sendPing [1, 2, 3, 4, 5, 6, 7, 8] false)).2).deliver .client 20).deliver .client 25
    ∃ k ≤ (s.conn .server).emitted.length,
      (s.conn .client).emitted.filter isAcknowledgement =
        ((s.conn .server).emitted.take k).flatMap answers ∧
      (s.conn .client).settings =
        (((s.conn .server).emitted.take k).flatMap asked).foldl applySetting .default ∧
      (¬ (s.conn .client).isClosed →
        (s.conn .client).readBuffer ++ s.pipe .client =
          wires ((s.conn .server).emitted.drop k) ∧
        ∀ n, ∃ c, (s.conn .client).processData ((s.pipe .client).take n) = some (.success, c)) := by
  intro s
  have hspeaks : ∀ m ∈ [Move.call .client (.sendPing [1, 2, 3, 4, 5, 6, 7, 8] false),
      .deliver .client 20, .deliver .client 25], m.Speaks := by
    simp [Move.Speaks, H2ConnectionOp.Speaks]
  have hrun : Runs.run next (opening 3 4) [.call .client (.sendPing [1, 2, 3, 4, 5, 6, 7, 8] false),
      .deliver .client 20, .deliver .client 25] = some s := rfl
  exact conversation_agreement hspeaks hrun .client

/-- An endpoint is given everything that is on its way to it. -/
def deliverAll (s : H2Conversation) (p : Party) : H2Conversation := s.deliver p (s.pipe p).length

lemma Abstracts.deliverAll {s : H2Conversation} {a : State (H2FrameHeader × Bytes)} {p : Party}
    (hs : s.Abstracts a) (ha : Balanced acknowledging a) (hopen : ∀ q, ¬ (s.conn q).isClosed) :
    (s.deliverAll p).Abstracts (takesAll acknowledging a p) ∧
      ∀ q, ¬ ((s.deliverAll p).conn q).isClosed := by
  obtain ⟨k, c, -, -, hready, habs, hall⟩ := hs.reads ha (hopen p) (s.pipe p).length
  rw [hall le_rfl] at habs
  refine ⟨habs, (Party.forall_iff p).mpr ⟨hready.notClosed, ?_⟩⟩
  rw [H2Conversation.deliverAll, deliver, conn_other_after, conn_shift]
  exact hopen p.other

/-- A conversation in which nobody says anything of his own accord any more comes to rest after
three deliveries: each endpoint has then read and acknowledged everything that the other one has
ever sent, and its settings are in force as the other one asked. -/
theorem conversation_settles {fd fd' : ℤ} {ms : List Move} (hms : ∀ m ∈ ms, m.Speaks)
    {s : H2Conversation} (h : Runs.run next (opening fd fd') ms = some s)
    (hopen : ∀ q, ¬ (s.conn q).isClosed) (p q : Party) :
    let t := ((s.deliverAll p).deliverAll p.other).deliverAll p
    t.pipe q = [] ∧ (t.conn q).readBuffer = [] ∧
      (t.conn q).emitted.filter isAcknowledgement = (t.conn q.other).emitted.flatMap answers ∧
      (t.conn q).settings = ((t.conn q.other).emitted.flatMap asked).foldl applySetting .default := by
  intro t
  obtain ⟨a, ha, hs⟩ := exists_abstracts fd fd' hms h
  have hbalanced := balanced_started.reachable ha
  obtain ⟨hfirst, hopen₁⟩ := hs.deliverAll (p := p) hbalanced hopen
  obtain ⟨hsecond, hopen₂⟩ := hfirst.deliverAll (p := p.other) (hbalanced.takesAll p) hopen₁
  have hbalanced₂ := (hbalanced.takesAll p).takesAll p.other
  obtain ⟨ht, hopen₃⟩ := hsecond.deliverAll (p := p) hbalanced₂ hopen₂
  have hpending := pending_settled hbalanced p q
  have hanswered := (hbalanced₂.takesAll p).answered_of_pending_eq_nil hpending
  have hunread := (ht q).unread (hopen₃ q)
  have hsettings := (ht q).settings
  rw [hpending, wires_nil, List.append_eq_nil_iff] at hunread
  rw [(ht q).sent, (ht q.other).sent] at hanswered
  rw [List.take_of_length_le (List.drop_eq_nil_iff.mp hpending), (ht q.other).sent] at hsettings
  exact ⟨hunread.2, hunread.1, hanswered, hsettings⟩

/-- The settings of the server, a ping of the client, and their acknowledgements. -/
theorem conversation_settles_ping :
    let s := (opening 3 4).after .client (((opening 3 4).conn .client).operate
      (.sendPing [1, 2, 3, 4, 5, 6, 7, 8] false)).2
    let t := ((s.deliverAll .client).deliverAll .server).deliverAll .client
    t.pipe .server = [] ∧ (t.conn .server).readBuffer = [] ∧
      (t.conn .server).emitted.filter isAcknowledgement =
        (t.conn .client).emitted.flatMap answers ∧
      (t.conn .server).settings =
        ((t.conn .client).emitted.flatMap asked).foldl applySetting .default := by
  intro s
  have hserver : s.conn .server = opened 3 := conn_opening_server 3 4
  have hclient : (s.conn .client).Ready := by
    have hsays := @sendFrame_of_ready _ (ready_client 4) .ping 0 0 [1, 2, 3, 4, 5, 6, 7, 8] rfl
    rw [conn_after, conn_opening_client, operate, sendPing, if_neg Bool.false_ne_true, hsays]
    exact ⟨(ready_client 4).notClosed, (ready_client 4).pastPreface, rfl⟩
  have hopen : ∀ q, ¬ (s.conn q).isClosed := by
    refine (Party.forall_iff .client).mpr ⟨hclient.notClosed, ?_⟩
    rw [Party.other, hserver]
    exact (ready_opened 3).notClosed
  have hspeaks : ∀ m ∈ [Move.call .client (.sendPing [1, 2, 3, 4, 5, 6, 7, 8] false)],
      m.Speaks := by
    simp [Move.Speaks, H2ConnectionOp.Speaks]
  have hrun : Runs.run next (opening 3 4)
      [.call .client (.sendPing [1, 2, 3, 4, 5, 6, 7, 8] false)] = some s := rfl
  simpa only [Party.other] using conversation_settles hspeaks hrun hopen .client .server

end H2Conversation

end TinyWebServer
