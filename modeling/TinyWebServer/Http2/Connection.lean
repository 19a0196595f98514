import TinyWebServer.Http2.FrameParser
import TinyWebServer.Http2.Stream

/-!
# HTTP/2 connections

The connection reads its bytes into a buffer, checks the client preface, and takes complete
frames off the front of the buffer. The frames handed to the frame callback are logged in
`emitted`, and `received` logs every byte that was put into the buffer.
-/

namespace TinyWebServer

inductive H2ConnectionState where
  | H2_IDLE | H2_PREFACE_SENT | H2_OPEN | H2_CLOSING | H2_CLOSED
  deriving DecidableEq, Repr

structure H2Settings where
  headerTableSize : UInt32
  enablePush : UInt32
  maxConcurrentStreams : UInt32
  initialWindowSize : UInt32
  maxFrameSize : UInt32
  maxHeaderListSize : UInt32
  deriving DecidableEq

def H2Settings.default : H2Settings :=
  { headerTableSize := 4096, enablePush := 1, maxConcurrentStreams := 100
    initialWindowSize := 65535, maxFrameSize := 16384, maxHeaderListSize := 65536 }

structure H2Connection where
  fd : ℤ
  isServer : Bool
  state : H2ConnectionState
  settings : H2Settings
  streams : List (UInt32 × H2Stream)
  readBuffer : Bytes
  prefaceRemaining : ℕ
  hasFrameCallback : Bool
  hasCloseCallback : Bool
  /-- The frames handed to the frame callback. -/
  emitted : List (H2FrameHeader × Bytes)
  /-- The reasons handed to the close callback. -/
  closeCalls : List Error
  /-- The streams taken out of the table, as their other owners still see them. -/
  retired : List H2Stream
  /-- Everything that was ever appended to the read buffer. -/
  received : Bytes
  deriving DecidableEq

namespace H2Connection

def clientPreface : Bytes := bytes "PRI * HTTP/2.0\r\n\r\nSM\r\n\r\n"

def clientPrefaceLen : ℕ := 24

def isOpen (c : H2Connection) : Prop := c.state = .H2_OPEN

def isClosed (c : H2Connection) : Prop := c.state = .H2_CLOSED

instance (c : H2Connection) : Decidable c.isOpen := inferInstanceAs (Decidable (c.state = .H2_OPEN))

instance (c : H2Connection) : Decidable c.isClosed :=
  inferInstanceAs (Decidable (c.state = .H2_CLOSED))

/-! ### State transitions -/

def canTransition (c : H2Connection) (newState : H2ConnectionState) : Bool :=
  match c.state with
  | .H2_IDLE => newState ∈ [.H2_OPEN, .H2_CLOSED]
  | .H2_PREFACE_SENT => newState ∈ [.H2_OPEN, .H2_CLOSED]
  | .H2_OPEN => newState ∈ [.H2_CLOSING, .H2_CLOSED]
  | .H2_CLOSING => newState = .H2_CLOSED
  | .H2_CLOSED => false

/-- A transition that is not allowed is logged and dropped. -/
def transitionState (c : H2Connection) (newState : H2ConnectionState) : H2Connection :=
  if c.state = newState then c
  else if ¬ c.canTransition newState then c
  else { c with state := newState }

/-- The connection that the constructor makes. -/
def new (fd : ℤ) (isServer : Bool) : H2Connection :=
  let c : H2Connection :=
    { fd := fd, isServer := isServer, state := .H2_IDLE, settings := .default, streams := []
      readBuffer := [], prefaceRemaining := if isServer then clientPrefaceLen else 0
      hasFrameCallback := false, hasCloseCallback := false
      emitted := [], closeCalls := [], retired := [], received := [] }
  if isServer then c else c.transitionState .H2_PREFACE_SENT

def setFrameCallback (c : H2Connection) : H2Connection := { c with hasFrameCallback := true }

/-! ### Sending -/

def sendFrame (c : H2Connection) (type : H2FrameType) (flags : UInt8) (streamId : UInt32)
    (payload : Bytes) : Error × H2Connection :=
  if c.isClosed then (⟨.kProtocolError, bytes "Connection is closed"⟩, c)
  else
    let header : H2FrameHeader :=
      { length := BitVec.ofNat 24 payload.length
        type := type.toUInt8
        flags := flags
        streamId := BitVec.ofNat 31 streamId.toNat
        reserved := 0 }
    let err := header.validate
    if ¬ err.isSuccess then (err, c)
    else if c.hasFrameCallback then
      (.success, { c with emitted := c.emitted ++ [(header, payload)] })
    else (⟨.kInternalError, bytes "No frame callback"⟩, c)

/-- The four bytes of a number, the first one most significant. -/
def uint32Bytes (n : UInt32) : Bytes :=
  [(n >>> 24).toUInt8, (n >>> 16).toUInt8, (n >>> 8).toUInt8, n.toUInt8]

def settingsPayload : List (UInt16 × UInt32) → Bytes
  | [] => []
  | (identifier, value) :: settings =>
    (identifier >>> 8).toUInt8 :: identifier.toUInt8 :: (uint32Bytes value ++ settingsPayload settings)

def sendSettings (c : H2Connection) (settings : List (UInt16 × UInt32)) (ack : Bool) :
    Error × H2Connection :=
  c.sendFrame .settings (if ack then H2FrameFlags.ACK else 0) 0 (settingsPayload settings)

def sendGoaway (c : H2Connection) (lastStreamId errorCode : UInt32) (debugData : Bytes) :
    Error × H2Connection :=
  c.sendFrame .goaway 0 0 (uint32Bytes lastStreamId ++ uint32Bytes errorCode ++ debugData)

def sendPing (c : H2Connection) (opaqueData : Bytes) (ack : Bool) : Error × H2Connection :=
  c.sendFrame .ping (if ack then H2FrameFlags.ACK else 0) 0 opaqueData

/-! ### Streams -/

def getOrCreateStream (c : H2Connection) (streamId : UInt32) : H2Stream × H2Connection :=
  match c.streams.lookup streamId with
  | some stream => (stream, c)
  | none =>
    let stream := H2Stream.new streamId
    (stream, { c with streams := c.streams ++ [(streamId, stream)] })

/-- Close the streams that satisfy `p` and take them out of the table. -/
def closeStreams (c : H2Connection) (p : UInt32 → Bool) (errorCode : UInt32) : H2Connection :=
  { c with
    streams := c.streams.filter fun entry => !p entry.1
    retired := c.retired ++
      (c.streams.filter fun entry => p entry.1).map fun entry => entry.2.close errorCode }

def closeAllStreams (c : H2Connection) : H2Connection := c.closeStreams (fun _ => true) 1

def close (c : H2Connection) (reason : Error) : H2Connection :=
  if c.isClosed then c
  else
    let c := if c.isOpen then (c.sendGoaway 0 1 []).2 else c
    let c := c.transitionState .H2_CLOSED
    let c := c.closeAllStreams
    if c.hasCloseCallback then { c with closeCalls := c.closeCalls ++ [reason] } else c

/-! ### Frame handlers -/

def applySetting (settings : H2Settings) (item : UInt16 × UInt32) : H2Settings :=
  match item.1.toNat with
  | 1 => { settings with headerTableSize := item.2 }
  | 2 => { settings with enablePush := item.2 }
  | 3 => { settings with maxConcurrentStreams := item.2 }
  | 4 => { settings with initialWindowSize := item.2 }
  | 5 => { settings with maxFrameSize := item.2 }
  | 6 => { settings with maxHeaderListSize := item.2 }
  | _ => settings

def handleSettingsFrame (c : H2Connection) (header : H2FrameHeader) (payload : Bytes) :
    Error × H2Connection :=
  if header.hasFlag H2FrameFlags.ACK then
    if header.length.toNat ≠ 0 then
      (⟨.kProtocolError, bytes "SETTINGS ACK frame must have zero length"⟩, c)
    else (.success, c)
  else
    match H2FrameParser.parseSettingsPayload payload with
    | none => (⟨.kProtocolError, bytes "Invalid SETTINGS payload"⟩, c)
    | some settings =>
      { c with settings := settings.foldl applySetting c.settings }.sendSettings [] true

def handlePingFrame (c : H2Connection) (header : H2FrameHeader) (payload : Bytes) :
    Error × H2Connection :=
  match H2FrameParser.parsePingPayload payload with
  | none => (⟨.kProtocolError, bytes "Invalid PING payload"⟩, c)
  | some pingData =>
    if ¬ header.hasFlag H2FrameFlags.ACK then c.sendPing pingData true else (.success, c)

def handleGoawayFrame (c : H2Connection) (payload : Bytes) : Error × H2Connection :=
  match H2FrameParser.parseGoawayPayload payload with
  | none => (⟨.kProtocolError, bytes "Invalid GOAWAY payload"⟩, c)
  | some (lastStreamId, errorCode) =>
    (.success, (c.transitionState .H2_CLOSING).closeStreams (fun id => lastStreamId < id) errorCode)

def handleRstStreamFrame (c : H2Connection) (header : H2FrameHeader) (payload : Bytes) :
    Error × H2Connection :=
  if header.length.toNat ≠ 4 then
    (⟨.kProtocolError, bytes "RST_STREAM frame must have 4-byte payload"⟩, c)
  else
    let errorCode := UInt32.ofNat (H2FrameParser.bigEndian (payload.take 4))
    let streamId := UInt32.ofNat header.streamId.toNat
    let c := (c.getOrCreateStream streamId).2
    (.success, c.closeStreams (· = streamId) errorCode)

/-- The handlers of the other frame types do nothing yet, and unknown types are ignored. -/
def handleFrame (c : H2Connection) (header : H2FrameHeader) (payload : Bytes) :
    Error × H2Connection :=
  let lengthErr := H2FrameParser.validatePayloadLength header header.length.toNat
  if ¬ lengthErr.isSuccess then (lengthErr, c)
  else
    match H2FrameType.ofUInt8 header.type with
    | some .settings => c.handleSettingsFrame header payload
    | some .ping => c.handlePingFrame header payload
    | some .goaway => c.handleGoawayFrame payload
    | some .rstStream => c.handleRstStreamFrame header payload
    | _ => (.success, c)

/-! ### Receiving -/

/-- The loop of `ProcessData` over the complete frames of the buffer. Every turn that goes on
erases a frame of at least nine bytes, so the buffer's length is enough fuel. -/
def readFrames : ℕ → H2Connection → Error × H2Connection
  | 0, c => (.success, c)
  | fuel + 1, c =>
    if c.readBuffer.length < 9 then (.success, c)
    else
      match H2FrameParser.parseHeader c.readBuffer with
      | none => (⟨.kProtocolError, bytes "Failed to parse HTTP/2 frame header"⟩, c)
      | some header =>
        if c.readBuffer.length < header.frameSize then (.success, c)
        else
          let payload := (c.readBuffer.drop 9).take header.length.toNat
          let (err, c) := c.handleFrame header payload
          if ¬ err.isSuccess then (err, c)
          else readFrames fuel { c with readBuffer := c.readBuffer.drop header.frameSize }

/-- Append to the read buffer and handle the frames that are complete. -/
def readData (c : H2Connection) (data : Bytes) : Error × H2Connection :=
  let c := { c with readBuffer := c.readBuffer ++ data, received := c.received ++ data }
  readFrames c.readBuffer.length c

def initialSettings (settings : H2Settings) : List (UInt16 × UInt32) :=
  [(1, settings.headerTableSize), (2, settings.enablePush), (3, settings.maxConcurrentStreams),
    (4, settings.initialWindowSize), (5, settings.maxFrameSize), (6, settings.maxHeaderListSize)]

def processPreface (c : H2Connection) (data : Bytes) : Bool × H2Connection :=
  if c.prefaceRemaining = 0 then (true, c)
  else
    let toCompare := min data.length c.prefaceRemaining
    let expected := clientPreface.drop (clientPrefaceLen - c.prefaceRemaining)
    if data.take toCompare ≠ expected.take toCompare then (false, c)
    else
      let c := { c with prefaceRemaining := c.prefaceRemaining - toCompare }
      if c.prefaceRemaining = 0 then
        let c := c.transitionState .H2_OPEN
        -- A failure to send the settings is only logged.
        (true, (c.sendSettings (initialSettings c.settings) false).2)
      else (true, c)

/-- `none` stands for `len -= preface_consumed` going below zero, after which an invalid range is
appended to the buffer. -/
def processData (c : H2Connection) (data : Bytes) : Option (Error × H2Connection) :=
  if c.isClosed then some (⟨.kProtocolError, bytes "Connection is closed"⟩, c)
  else if c.state = .H2_IDLE ∧ c.isServer then
    let (ok, c) := c.processPreface data
    if ¬ ok then some (⟨.kProtocolError, bytes "Invalid HTTP/2 preface"⟩, c)
    else
      let prefaceConsumed := clientPrefaceLen - c.prefaceRemaining
      if data.length < prefaceConsumed then none
      else some (c.readData (data.drop prefaceConsumed))
  else some (c.readData data)

/-- One call of `ProcessData` after another, with the result of the last one. -/
def processChunks (c : H2Connection) (chunks : List Bytes) : Option (Error × H2Connection) :=
  chunks.foldlM (fun result chunk => result.2.processData chunk) (Error.success, c)

end H2Connection

end TinyWebServer
