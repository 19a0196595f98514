import TinyWebServer.Library.Bytes
import TinyWebServer.Library.Runs

/-!
# The asynchronous logger

Producers append lines to a buffer under a mutex; a backend thread takes all filled buffers, writes
them to the file and hands two of them back. A step is one section under the mutex or one operation
on the file; `fopen` and `fwrite` succeed. The owner calls `Stop` once, when no call of `Append` is
under way, and does not start the logger again.
-/

namespace TinyWebServer

/-! ### Buffers -/

structure FixedBuffer (kSize : ℕ) where
  data : Bytes
  length_le : data.length ≤ kSize
  deriving DecidableEq

namespace FixedBuffer

variable {kSize : ℕ}

def empty : FixedBuffer kSize := ⟨[], Nat.zero_le _⟩

def avail (b : FixedBuffer kSize) : ℕ := kSize - b.data.length

/-- The number of bytes that were copied. -/
def append (b : FixedBuffer kSize) (line : Bytes) : ℕ × FixedBuffer kSize :=
  if h : line.length ≤ b.avail then
    (line.length, ⟨b.data ++ line, by
      have := b.length_le
      rw [avail] at h
      rw [List.length_append]
      omega⟩)
  else (0, b)

/-- Copies what fits. -/
def appendSafe (b : FixedBuffer kSize) (line : Bytes) : Bool × FixedBuffer kSize :=
  (min line.length b.avail = line.length, ⟨b.data ++ line.take b.avail, by
    have := b.length_le
    rw [List.length_append, List.length_take, avail]
    omega⟩)

end FixedBuffer

namespace AsyncLogger

def kLargeBuffer : ℕ := 4000 * 1024

/-- `unique_ptr<Buffer>`. -/
abbrev BufferPtr := Option (FixedBuffer kLargeBuffer)

/-- What a pointer contributes to the file. -/
def contents (p : BufferPtr) : Bytes := p.elim [] (·.data)

/-- `static_cast<int>`. -/
def toInt (n : ℕ) : ℤ := Int.bmod n (2 ^ 32)

end AsyncLogger

open AsyncLogger

/-- `WriteBuffersToFile`: the section that takes what is left, and the loop over it. -/
inductive Remainder where
  | collect
  | write (buffers : List BufferPtr)
  | done
  deriving DecidableEq

/-- Where the backend thread stands in `ThreadFunc`. -/
inductive BackendPc where
  /-- In front of `while (running_)`. -/
  | check
  /-- In front of the section, or in `wait_for`, which leaves everything as it is. -/
  | take
  /-- In the loop over the buffers that it took. -/
  | write (buffersToWrite : List BufferPtr)
  | notify
  | leave (remainder : Remainder)
  deriving DecidableEq

/-- Where the thread that called `Stop` stands. -/
inductive StopPc where
  | idle
  | join
  | leave (remainder : Remainder)
  deriving DecidableEq

/-- A call of `Append`, and what it returned. -/
structure AppendCall where
  line : Bytes
  result : Bool
  deriving DecidableEq

/-- What the call left in the buffers: a line that is too long leaves its front there. -/
def AppendCall.stored (call : AppendCall) : Bytes :=
  if call.result then call.line else call.line.take kLargeBuffer

/-- A call of `Flush`, and the calls of `Append` that returned before it. -/
structure FlushCall where
  before : List AppendCall
  /-- It has gone through the section that queues the current buffer. -/
  waiting : Bool
  deriving DecidableEq

structure AsyncLogger where
  running : Bool
  currentBuffer : BufferPtr
  nextBuffer : BufferPtr
  buffers : List BufferPtr
  /-- The backend's own buffers. -/
  buffer1 : BufferPtr
  buffer2 : BufferPtr
  backend : BackendPc
  stopper : StopPc
  /-- What has been passed to `fwrite` and is still in the buffer of the stream. -/
  stream : Bytes
  file : Bytes
  /-- The calls of `Append` in the order of their sections. -/
  calls : List AppendCall
  flushes : List FlushCall
  deriving DecidableEq

namespace AsyncLogger

/-- A logger behind `Start`. -/
def started : AsyncLogger :=
  { running := true, currentBuffer := some .empty, nextBuffer := some .empty, buffers := []
    buffer1 := some .empty, buffer2 := some .empty, backend := .check, stopper := .idle
    stream := [], file := [], calls := [], flushes := [] }

/-! ### The sections under the mutex -/

/-- Queue the current buffer if there is anything in it. -/
def queueCurrent (s : AsyncLogger) (replacement : BufferPtr) : AsyncLogger :=
  if contents s.currentBuffer = [] then s
  else { s with buffers := s.buffers ++ [s.currentBuffer], currentBuffer := replacement }

/-- The attempt to append to the current buffer as it is. -/
def appendCurrent (s : AsyncLogger) (line : Bytes) : Option (FixedBuffer kLargeBuffer) :=
  match s.currentBuffer with
  | none => none
  | some b =>
    if toInt line.length ≤ b.avail then
      let result := b.append line
      if result.1 ≠ 0 then some result.2 else none
    else none

def append (s : AsyncLogger) (line : Bytes) : Bool × AsyncLogger :=
  if s.running = false ∨ line = [] then (false, s)
  else
    match s.appendCurrent line with
    | some b => (true, { s with currentBuffer := some b })
    | none =>
      let s := s.queueCurrent none
      let current := s.nextBuffer.getD .empty
      let s := { s with nextBuffer := none }
      let result := current.appendSafe line
      if result.1 then (true, { s with currentBuffer := some result.2 })
      else
        -- the front of a line that is too long goes out all the same
        (false, { s with
          buffers := s.buffers ++ [some (FixedBuffer.empty.appendSafe line).2]
          currentBuffer := some .empty })

/-- The section of `Flush`. -/
def flush (s : AsyncLogger) : AsyncLogger := s.queueCurrent (some .empty)

/-- The section of `ThreadFunc`. -/
def takeBuffers (s : AsyncLogger) : AsyncLogger :=
  let s := { s with
    backend := .write (s.buffers ++ [s.currentBuffer]), buffers := []
    currentBuffer := s.buffer1, buffer1 := none }
  if s.nextBuffer = none then { s with nextBuffer := s.buffer2, buffer2 := none } else s

/-- The section of `WriteBuffersToFile`. -/
def collect (s : AsyncLogger) : List BufferPtr × AsyncLogger :=
  let s := s.queueCurrent none
  (s.buffers, { s with buffers := [] })

/-! ### The backend -/

/-- The turn of the loop in `ThreadFunc` for one buffer. -/
def writeBuffer (s : AsyncLogger) (buffer : BufferPtr) : AsyncLogger :=
  if contents buffer = [] then s
  else
    let s := { s with stream := s.stream ++ contents buffer }
    if s.buffer1 = none then { s with buffer1 := some .empty }
    else if s.buffer2 = none then { s with buffer2 := some .empty }
    else s

/-- `fflush`. -/
def fflush (s : AsyncLogger) : AsyncLogger := { s with file := s.file ++ s.stream, stream := [] }

/-- A step of `WriteBuffersToFile`. -/
def writeRemainder (s : AsyncLogger) : Remainder → Option (Remainder × AsyncLogger)
  | .collect =>
    let result := s.collect
    some (.write result.1, result.2)
  | .write (buffer :: rest) =>
    some (.write rest, { s with stream := s.stream ++ contents buffer })
  | .write [] => some (.done, s.fflush)
  | .done => none

/-- A step of `ThreadFunc`. -/
def backendStep (s : AsyncLogger) : Option AsyncLogger :=
  match s.backend with
  | .check => some { s with backend := if s.running then .take else .leave .collect }
  | .take => some s.takeBuffers
  | .write (buffer :: rest) => some { s.writeBuffer buffer with backend := .write rest }
  | .write [] => some { s.fflush with backend := .notify }
  | .notify => some { s with backend := .check }
  | .leave remainder =>
    (s.writeRemainder remainder).map fun result => { result.2 with backend := .leave result.1 }

/-- A step of `Stop`. -/
def stopStep (s : AsyncLogger) : Option AsyncLogger :=
  match s.stopper with
  | .idle => some { s with running := false, stopper := .join }
  | .join => if s.backend = .leave .done then some { s with stopper := .leave .collect } else none
  | .leave remainder =>
    (s.writeRemainder remainder).map fun result => { result.2 with stopper := .leave result.1 }

/-! ### Interleavings -/

inductive Move where
  /-- A call of `Append`; all of them return before `Stop` is called. -/
  | append (line : Bytes)
  /-- A thread enters `Flush` and finds the logger running. -/
  | flushCall
  /-- The section of a call of `Flush`. -/
  | flushQueue (i : ℕ)
  /-- A call of `Flush` finds the queue empty and returns. -/
  | flushReturn (i : ℕ)
  | backend
  | stop
  /-- The stream passes some bytes on to the file. -/
  | commit (n : ℕ)

def step (s : AsyncLogger) : Move → Option AsyncLogger
  | .append line =>
    if s.stopper = .idle then
      let result := s.append line
      some { result.2 with calls := s.calls ++ [⟨line, result.1⟩] }
    else none
  | .flushCall =>
    if s.running then some { s with flushes := s.flushes ++ [⟨s.calls, false⟩] } else none
  | .flushQueue i =>
    match s.flushes[i]? with
    | none => none
    | some call =>
      if call.waiting then none
      else some { s.flush with flushes := s.flushes.set i { call with waiting := true } }
  | .flushReturn i =>
    match s.flushes[i]? with
    | none => none
    | some call =>
      if call.waiting ∧ s.buffers = [] then some { s with flushes := s.flushes.eraseIdx i }
      else none
  | .backend => s.backendStep
  | .stop => s.stopStep
  | .commit n => some { s with file := s.file ++ s.stream.take n, stream := s.stream.drop n }

end AsyncLogger

end TinyWebServer
