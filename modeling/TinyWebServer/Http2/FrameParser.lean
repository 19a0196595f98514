import TinyWebServer.Error

/-!
# HTTP/2 frame headers and payloads

The nine-byte frame header with its bit fields, its checks, and the parsers of the payloads
that the connection looks into. All numbers are in network byte order.
-/

namespace TinyWebServer

inductive H2FrameType where
  | data | headers | priority | rstStream | settings | pushPromise | ping | goaway
  | windowUpdate | continuation
  deriving DecidableEq, Repr

namespace H2FrameType

def toUInt8 : H2FrameType → UInt8
  | data => 0x0
  | headers => 0x1
  | priority => 0x2
  | rstStream => 0x3
  | settings => 0x4
  | pushPromise => 0x5
  | ping => 0x6
  | goaway => 0x7
  | windowUpdate => 0x8
  | continuation => 0x9

/-- The enumerator that a `switch` over the raw type byte selects, if any. -/
def ofUInt8 (type : UInt8) : Option H2FrameType :=
  [data, headers, priority, rstStream, settings, pushPromise, ping, goaway, windowUpdate,
    continuation].find? (·.toUInt8 = type)

@[simp] lemma ofUInt8_toUInt8 (type : H2FrameType) : ofUInt8 type.toUInt8 = some type := by
  cases type <;> rfl

end H2FrameType

namespace H2FrameFlags

def ACK : UInt8 := 0x1

end H2FrameFlags

structure H2FrameHeader where
  length : BitVec 24
  type : UInt8
  flags : UInt8
  streamId : BitVec 31
  reserved : BitVec 1
  deriving DecidableEq

namespace H2FrameParser

/-- The number that bytes denote, the first one most significant. -/
def bigEndian (s : Bytes) : ℕ := s.foldl (fun n b => n * 256 + b.toNat) 0

def isValidStreamId (_streamId : BitVec 31) : Bool := true

def validateFrameLength (length : ℕ) (type : UInt8) : Error :=
  match H2FrameType.ofUInt8 type with
  | some .settings =>
    if length % 6 ≠ 0 then
      ⟨.kProtocolError, bytes "Invalid SETTINGS frame length: " ++ Bytes.ofNat length ++
        bytes " (must be multiple of 6)"⟩
    else .success
  | some .ping =>
    if length ≠ 8 then
      ⟨.kProtocolError, bytes "Invalid PING frame length: " ++ Bytes.ofNat length ++
        bytes " (must be 8)"⟩
    else .success
  | some .windowUpdate =>
    if length ≠ 4 then
      ⟨.kProtocolError, bytes "Invalid WINDOW_UPDATE frame length: " ++ Bytes.ofNat length ++
        bytes " (must be 4)"⟩
    else .success
  | some .priority =>
    if length ≠ 5 then
      ⟨.kProtocolError, bytes "Invalid PRIORITY frame length: " ++ Bytes.ofNat length ++
        bytes " (must be 5)"⟩
    else .success
  | some .rstStream =>
    if length ≠ 4 then
      ⟨.kProtocolError, bytes "Invalid RST_STREAM frame length: " ++ Bytes.ofNat length ++
        bytes " (must be 4)"⟩
    else .success
  | some .goaway =>
    if length < 8 then
      ⟨.kProtocolError, bytes "Invalid GOAWAY frame length: " ++ Bytes.ofNat length ++
        bytes " (must be at least 8)"⟩
    else .success
  -- A length over 16383 is only logged.
  | _ => .success

end H2FrameParser

namespace H2FrameHeader

open H2FrameParser

def validate (header : H2FrameHeader) : Error :=
  if header.reserved ≠ 0 then
    ⟨.kProtocolError, bytes "HTTP/2 frame reserved bit must be 0"⟩
  else if ¬ isValidStreamId header.streamId then
    ⟨.kProtocolError, bytes "Invalid HTTP/2 stream ID: " ++ Bytes.ofNat header.streamId.toNat⟩
  else validateFrameLength header.length.toNat header.type

def hasFlag (header : H2FrameHeader) (flag : UInt8) : Prop := header.flags &&& flag = flag

instance (header : H2FrameHeader) (flag : UInt8) : Decidable (header.hasFlag flag) :=
  inferInstanceAs (Decidable (header.flags &&& flag = flag))

/-- The size of the whole frame that the header announces. -/
def frameSize (header : H2FrameHeader) : ℕ := 9 + header.length.toNat

end H2FrameHeader

namespace H2FrameParser

def parseHeader : Bytes → Option H2FrameHeader
  | l₀ :: l₁ :: l₂ :: type :: flags :: s₀ :: s₁ :: s₂ :: s₃ :: _ =>
    let streamIdAndReserved := bigEndian [s₀, s₁, s₂, s₃]
    let header : H2FrameHeader :=
      { length := BitVec.ofNat 24 (bigEndian [l₀, l₁, l₂])
        type := type
        flags := flags
        streamId := BitVec.ofNat 31 streamIdAndReserved
        reserved := BitVec.ofNat 1 (streamIdAndReserved / 2 ^ 31) }
    if header.validate.isSuccess then some header else none
  | _ => none

def serializeHeader (header : H2FrameHeader) : Bytes :=
  let streamIdAndReserved := header.streamId.toNat + header.reserved.toNat * 2 ^ 31
  [ UInt8.ofNat (header.length.toNat / 2 ^ 16), UInt8.ofNat (header.length.toNat / 2 ^ 8),
    UInt8.ofNat header.length.toNat, header.type, header.flags,
    UInt8.ofNat (streamIdAndReserved / 2 ^ 24), UInt8.ofNat (streamIdAndReserved / 2 ^ 16),
    UInt8.ofNat (streamIdAndReserved / 2 ^ 8), UInt8.ofNat streamIdAndReserved ]

/-- The items of a payload whose length was checked. -/
def settingsItems : Bytes → List (UInt16 × UInt32)
  | i₀ :: i₁ :: v₀ :: v₁ :: v₂ :: v₃ :: payload =>
    (UInt16.ofNat (bigEndian [i₀, i₁]), UInt32.ofNat (bigEndian [v₀, v₁, v₂, v₃])) ::
      settingsItems payload
  | _ => []

def parseSettingsPayload (payload : Bytes) : Option (List (UInt16 × UInt32)) :=
  if payload.length % 6 ≠ 0 then none else some (settingsItems payload)

def parsePingPayload (payload : Bytes) : Option Bytes :=
  if payload.length ≠ 8 then none else some payload

/-- The last stream id and the error code. -/
def parseGoawayPayload (payload : Bytes) : Option (UInt32 × UInt32) :=
  if payload.length < 8 then none
  else some (UInt32.ofNat (bigEndian (payload.take 4)),
    UInt32.ofNat (bigEndian ((payload.drop 4).take 4)))

def validatePayloadLength (header : H2FrameHeader) (payloadLen : ℕ) : Error :=
  if header.length.toNat ≠ payloadLen then
    ⟨.kProtocolError, bytes "HTTP/2 frame payload length mismatch: header=" ++
      Bytes.ofNat header.length.toNat ++ bytes ", actual=" ++ Bytes.ofNat payloadLen⟩
  else .success

/-! ### What an accepted header says -/

/-- The header only depends on the first nine bytes. -/
lemma parseHeader_append {data : Bytes} (more : Bytes) (h : 9 ≤ data.length) :
    parseHeader (data ++ more) = parseHeader data := by
  match data, h with
  | _ :: _ :: _ :: _ :: _ :: _ :: _ :: _ :: _ :: _, _ => rfl

lemma length_of_parseHeader {data : Bytes} {header : H2FrameHeader}
    (h : parseHeader data = some header) : header.length.toNat = bigEndian (data.take 3) := by
  rw [parseHeader.eq_def] at h
  split at h
  · rename_i l₀ l₁ l₂ _ _ _ _ _ _ _
    dsimp only at h
    split_ifs at h
    cases h
    have h₀ := l₀.toNat_lt
    have h₁ := l₁.toNat_lt
    have h₂ := l₂.toNat_lt
    simp only [bigEndian, List.foldl_cons, List.foldl_nil, BitVec.toNat_ofNat,
      List.take_succ_cons, List.take_zero]
    apply Nat.mod_eq_of_lt
    omega
  · cases h

lemma validate_of_parseHeader {data : Bytes} {header : H2FrameHeader}
    (h : parseHeader data = some header) : header.validate.isSuccess := by
  rw [parseHeader.eq_def] at h
  split at h
  · dsimp only at h
    split_ifs at h with hvalid
    cases h
    exact hvalid
  · cases h

/-- The payload lengths that the frame types with a length rule admit. -/
def lengthAllowed (length : ℕ) : Option H2FrameType → Prop
  | some .settings => length % 6 = 0
  | some .ping => length = 8
  | some .windowUpdate => length = 4
  | some .priority => length = 5
  | some .rstStream => length = 4
  | some .goaway => 8 ≤ length
  | _ => True

lemma isSuccess_validateFrameLength (length : ℕ) (type : UInt8) :
    (validateFrameLength length type).isSuccess ↔
      lengthAllowed length (H2FrameType.ofUInt8 type) := by
  rw [validateFrameLength.eq_def]
  split <;> rename_i htype <;> simp only [htype, lengthAllowed]
  case h_7 => simp
  all_goals split_ifs <;> simp_all

lemma lengthAllowed_of_parseHeader {data : Bytes} {header : H2FrameHeader}
    (h : parseHeader data = some header) :
    lengthAllowed header.length.toNat (H2FrameType.ofUInt8 header.type) := by
  have hvalid := validate_of_parseHeader h
  rw [H2FrameHeader.validate] at hvalid
  split_ifs at hvalid with hreserved hstreamId
  · exact absurd hvalid (Error.not_isSuccess_kProtocolError _)
  · exact (isSuccess_validateFrameLength _ _).mp hvalid
  · exact absurd rfl hstreamId

end H2FrameParser

end TinyWebServer
