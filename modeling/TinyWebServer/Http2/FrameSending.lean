import TinyWebServer.Http2.FrameFormat

/-!
# What the header of a sent frame announces

`SendFrame` stores the length of the payload in the 24 bits of the header's length field and the
stream id in the 31 bits of its stream field, and checks the header after that. A frame whose
length or stream id does not fit is sent under another one.
-/

namespace TinyWebServer

namespace H2Connection

open H2FrameParser

/-- The header that `SendFrame` fills in. -/
def headerOf (type : H2FrameType) (flags : UInt8) (streamId : UInt32) (payload : Bytes) :
    H2FrameHeader :=
  { length := BitVec.ofNat 24 payload.length
    type := type.toUInt8
    flags := flags
    streamId := BitVec.ofNat 31 streamId.toNat
    reserved := 0 }

lemma isSuccess_validate_headerOf (type : H2FrameType) (flags : UInt8) (streamId : UInt32)
    (payload : Bytes) :
    (headerOf type flags streamId payload).validate.isSuccess ↔
      lengthAllowed (payload.length % 2 ^ 24) (some type) := by
  rw [H2FrameHeader.validate, if_neg (by simp [headerOf]), if_neg (by simp [isValidStreamId]),
    isSuccess_validateFrameLength]
  simp only [headerOf, BitVec.toNat_ofNat, H2FrameType.ofUInt8_toUInt8]

/-- A call succeeds when the connection can send and the checks pass for the length as it was
stored. -/
lemma isSuccess_sendFrame (c : H2Connection) (type : H2FrameType) (flags : UInt8)
    (streamId : UInt32) (payload : Bytes) :
    (c.sendFrame type flags streamId payload).1.isSuccess ↔
      ¬ c.isClosed ∧ c.hasFrameCallback ∧ lengthAllowed (payload.length % 2 ^ 24) (some type) := by
  rw [← isSuccess_validate_headerOf type flags streamId payload]
  simp only [sendFrame, headerOf]
  split_ifs with hclosed hvalid hcallback
  · exact iff_of_false (Error.not_isSuccess_kProtocolError _) fun h => h.1 hclosed
  · exact iff_of_true Error.isSuccess_success ⟨hclosed, hcallback, hvalid⟩
  · exact iff_of_false (by simp [Error.isSuccess]) fun h => hcallback h.2.1
  · exact iff_of_false hvalid fun h => hvalid h.2.2

lemma emitted_sendFrame {c : H2Connection} {type : H2FrameType} {flags : UInt8}
    {streamId : UInt32} {payload : Bytes}
    (h : (c.sendFrame type flags streamId payload).1.isSuccess) :
    (c.sendFrame type flags streamId payload).2.emitted =
      c.emitted ++ [(headerOf type flags streamId payload, payload)] := by
  obtain ⟨hclosed, hcallback, hallowed⟩ := (isSuccess_sendFrame c type flags streamId payload).mp h
  have hvalid := (isSuccess_validate_headerOf type flags streamId payload).mpr hallowed
  rw [headerOf] at hvalid ⊢
  simp only [sendFrame, if_neg hclosed, hvalid, hcallback, not_true, if_false, if_true]

/-- The frame that the callback is given, with its header written out and read back, has the
type, the flags and the stream id that were asked for and is as long as its header says. -/
def SendsAsAnnounced (c : H2Connection) (type : H2FrameType) (flags : UInt8) (streamId : UInt32)
    (payload : Bytes) : Prop :=
  ∃ header sent parsed,
    (c.sendFrame type flags streamId payload).2.emitted = c.emitted ++ [(header, sent)] ∧
    parseHeader (serializeHeader header) = some parsed ∧
    parsed.type = type.toUInt8 ∧ parsed.flags = flags ∧
    parsed.streamId.toNat = streamId.toNat ∧ parsed.length.toNat = sent.length

lemma sendsAsAnnounced_iff {c : H2Connection} {type : H2FrameType} {flags : UInt8}
    {streamId : UInt32} {payload : Bytes}
    (h : (c.sendFrame type flags streamId payload).1.isSuccess) :
    c.SendsAsAnnounced type flags streamId payload ↔
      payload.length < 2 ^ 24 ∧ streamId.toNat < 2 ^ 31 := by
  have hallowed := ((isSuccess_sendFrame c type flags streamId payload).mp h).2.2
  have hvalid := (isSuccess_validate_headerOf type flags streamId payload).mpr hallowed
  have hparse : parseHeader (serializeHeader (headerOf type flags streamId payload)) =
      some (headerOf type flags streamId payload) := by
    simpa only [List.append_nil] using parseHeader_serializeHeader [] hvalid
  constructor
  · rintro ⟨header, sent, parsed, hemitted, hparsed, -, -, hstream, hlength⟩
    rw [emitted_sendFrame h] at hemitted
    obtain ⟨rfl, rfl⟩ : headerOf type flags streamId payload = header ∧ payload = sent := by
      simpa using hemitted
    cases hparse.symm.trans hparsed
    simp only [headerOf, BitVec.toNat_ofNat] at hstream hlength
    omega
  · rintro ⟨hlength, hstream⟩
    refine ⟨_, _, _, emitted_sendFrame h, hparse, rfl, rfl, ?_, ?_⟩
    · exact (BitVec.toNat_ofNat _ _).trans (Nat.mod_eq_of_lt hstream)
    · exact (BitVec.toNat_ofNat _ _).trans (Nat.mod_eq_of_lt hlength)

/-- Every frame that a call sends is sent as announced, if and only if the call fails or the
length and the stream id fit into their fields. -/
theorem sendFrame_announces_iff (c : H2Connection) (type : H2FrameType) (flags : UInt8)
    (streamId : UInt32) (payload : Bytes) :
    ((c.sendFrame type flags streamId payload).1.isSuccess →
      c.SendsAsAnnounced type flags streamId payload) ↔
    (¬ c.isClosed → c.hasFrameCallback → lengthAllowed (payload.length % 2 ^ 24) (some type) →
      payload.length < 2 ^ 24 ∧ streamId.toNat < 2 ^ 31) := by
  constructor
  · intro h hclosed hcallback hallowed
    have hsuccess := (isSuccess_sendFrame c type flags streamId payload).mpr
      ⟨hclosed, hcallback, hallowed⟩
    exact (sendsAsAnnounced_iff hsuccess).mp (h hsuccess)
  · intro h hsuccess
    obtain ⟨hclosed, hcallback, hallowed⟩ :=
      (isSuccess_sendFrame c type flags streamId payload).mp hsuccess
    exact (sendsAsAnnounced_iff hsuccess).mpr (h hclosed hcallback hallowed)

/-- A payload of 16 MiB goes out under the length 0. -/
theorem sendFrame_oversized :
    let c := (new 3 false).setFrameCallback
    let payload := List.replicate (2 ^ 24) 0
    (c.sendFrame .data 0 1 payload).1.isSuccess ∧ ¬ c.SendsAsAnnounced .data 0 1 payload := by
  intro c payload
  have hlength : payload.length = 2 ^ 24 := List.length_replicate
  have hsuccess : (c.sendFrame .data 0 1 payload).1.isSuccess :=
    (isSuccess_sendFrame c .data 0 1 payload).mpr ⟨by decide, rfl, trivial⟩
  refine ⟨hsuccess, fun h => ?_⟩
  exact absurd ((sendsAsAnnounced_iff hsuccess).mp h).1 (by rw [hlength]; decide)

end H2Connection

end TinyWebServer
