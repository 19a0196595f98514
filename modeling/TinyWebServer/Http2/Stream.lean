import TinyWebServer.Error

/-!
# HTTP/2 streams

The life of one stream: its state machine, the headers and the body seen in each direction, and
the callbacks that the owner of the stream registered.
-/

namespace TinyWebServer

inductive H2StreamState where
  | idle | reservedLocal | reservedRemote | open | halfClosedLocal | halfClosedRemote | closed
  deriving DecidableEq, Repr

/-- A header map: at most one value for a name. -/
abbrev H2Headers := List (Bytes × Bytes)

/-- `map.insert(first, last)`: a name that is already there keeps its value. -/
def H2Headers.insert (headers new : H2Headers) : H2Headers :=
  headers ++ new.filter fun field => headers.all fun old => old.1 ≠ field.1

/-- A call of one of the stream's callbacks. -/
inductive H2StreamCall where
  | data (data : Bytes) (endStream : Bool)
  | headers (headers : H2Headers) (endStream : Bool)
  | close (errorCode : UInt32)
  deriving DecidableEq

structure H2Stream where
  streamId : UInt32
  state : H2StreamState
  requestHeaders : H2Headers
  responseHeaders : H2Headers
  requestBody : Bytes
  responseBody : Bytes
  hasDataCallback : Bool
  hasHeadersCallback : Bool
  hasCloseCallback : Bool
  calls : List H2StreamCall
  deriving DecidableEq

namespace H2Stream

/-- The stream that the constructor makes. -/
def new (streamId : UInt32) : H2Stream :=
  { streamId := streamId, state := .idle, requestHeaders := [], responseHeaders := []
    requestBody := [], responseBody := [], hasDataCallback := false, hasHeadersCallback := false
    hasCloseCallback := false, calls := [] }

def canTransition (s : H2Stream) (newState : H2StreamState) : Bool :=
  match s.state with
  | .idle => newState ∈ [.open, .reservedLocal, .reservedRemote, .closed]
  | .open => newState ∈ [.halfClosedLocal, .halfClosedRemote, .closed]
  | .halfClosedLocal | .halfClosedRemote => newState = .closed
  | .reservedLocal | .reservedRemote => newState ∈ [.halfClosedRemote, .closed]
  | .closed => false

/-- A transition that is not allowed is logged and dropped. -/
def transitionState (s : H2Stream) (newState : H2StreamState) : H2Stream :=
  if s.state = newState then s
  else if ¬ s.canTransition newState then s
  else { s with state := newState }

/-- The values behind the enumerators. -/
def stateNumber : H2StreamState → ℕ
  | .idle => 0
  | .reservedLocal => 1
  | .reservedRemote => 2
  | .open => 3
  | .halfClosedLocal => 4
  | .halfClosedRemote => 5
  | .closed => 6

def validateTransition (s : H2Stream) (newState : H2StreamState) : Error :=
  if ¬ s.canTransition newState then
    ⟨.kProtocolError, bytes "Invalid stream state transition: " ++
      Bytes.ofNat (stateNumber s.state) ++ bytes " -> " ++ Bytes.ofNat (stateNumber newState)⟩
  else .success

def isReadable (s : H2Stream) : Bool := s.state = .open || s.state = .halfClosedLocal

def isWritable (s : H2Stream) : Bool := s.state = .open || s.state = .halfClosedRemote

def handleHeaders (s : H2Stream) (headers : H2Headers) (endStream : Bool) : Error × H2Stream :=
  let newState := if endStream then .halfClosedRemote else .open
  let err := s.validateTransition newState
  if ¬ err.isSuccess then (err, s)
  else
    let s := { s with requestHeaders := s.requestHeaders.insert headers }
    let s := s.transitionState newState
    (.success, if s.hasHeadersCallback then { s with calls := s.calls ++ [.headers headers endStream] }
      else s)

def handleData (s : H2Stream) (data : Bytes) (endStream : Bool) : Error × H2Stream :=
  let err := if endStream then s.validateTransition .halfClosedRemote else .success
  if ¬ err.isSuccess then (err, s)
  else
    let s := { s with requestBody := s.requestBody ++ data }
    let s := if endStream then s.transitionState .halfClosedRemote else s
    (.success, if s.hasDataCallback then { s with calls := s.calls ++ [.data data endStream] } else s)

def sendHeaders (s : H2Stream) (headers : H2Headers) (endStream : Bool) : Error × H2Stream :=
  let newState := if endStream then .halfClosedLocal else .open
  let err := s.validateTransition newState
  if ¬ err.isSuccess then (err, s)
  else
    let s := { s with responseHeaders := s.responseHeaders.insert headers }
    (.success, s.transitionState newState)

def sendData (s : H2Stream) (data : Bytes) (endStream : Bool) : Error × H2Stream :=
  let err := if endStream then s.validateTransition .halfClosedLocal else .success
  if ¬ err.isSuccess then (err, s)
  else
    let s := { s with responseBody := s.responseBody ++ data }
    (.success, if endStream then s.transitionState .halfClosedLocal else s)

def close (s : H2Stream) (errorCode : UInt32) : H2Stream :=
  if s.state = .closed then s
  else
    let s := s.transitionState .closed
    if s.hasCloseCallback then { s with calls := s.calls ++ [.close errorCode] } else s

def sendRstStream (s : H2Stream) (errorCode : UInt32) : Error × H2Stream :=
  (.success, s.close errorCode)

lemma transitionState_closed (s : H2Stream) :
    s.transitionState .closed = { s with state := .closed } := by
  obtain ⟨id, state⟩ := s
  cases state <;> rfl

/-- A stream ends up closed whatever state it was in. -/
lemma state_close (s : H2Stream) (errorCode : UInt32) : (s.close errorCode).state = .closed := by
  rw [close, transitionState_closed]
  dsimp only
  split_ifs with hclosed
  · exact hclosed
  · rfl
  · rfl

end H2Stream

end TinyWebServer
