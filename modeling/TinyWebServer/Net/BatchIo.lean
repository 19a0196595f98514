import TinyWebServer.Net.EventLoop

/-!
# Batched dispatch of epoll events

`BatchIOHandler` sorts the events of one `epoll_wait` into readable, writable and broken
descriptors and runs one callback per list. The plain path of the loop, `HandleEvent`, looks at
every bit of an event.
-/

namespace TinyWebServer

open Epoll

structure EpollEvent where
  fd : ℤ
  events : UInt32
  deriving DecidableEq

namespace BatchIoHandler

structure BatchResult where
  totalProcessed : ℕ
  readProcessed : ℕ
  writeProcessed : ℕ
  errorProcessed : ℕ
  deriving DecidableEq

def isReadable (events : UInt32) : Bool := events &&& (EPOLLIN ||| EPOLLPRI) ≠ 0

def isWritable (events : UInt32) : Bool := events &&& EPOLLOUT ≠ 0

def isError (events : UInt32) : Bool := events &&& (EPOLLERR ||| EPOLLHUP ||| EPOLLRDHUP) ≠ 0

/-- `std::sort` followed by `std::unique`. -/
def removeDuplicates (fds : List ℤ) : List ℤ := (fds.insertionSort (· ≤ ·)).dedup

/-- The descriptors the loop of `GroupEvents` pushes to the three vectors. -/
def classify : List EpollEvent → List ℤ × List ℤ × List ℤ
  | [] => ([], [], [])
  | event :: events =>
    let (readable, writable, errors) := classify events
    if isError event.events then (readable, writable, event.fd :: errors)
    else if isReadable event.events then (event.fd :: readable, writable, errors)
    else if isWritable event.events then (readable, event.fd :: writable, errors)
    -- An event of an unknown type counts as an error.
    else (readable, writable, event.fd :: errors)

def groupEvents (events : List EpollEvent) : List ℤ × List ℤ × List ℤ :=
  let (readable, writable, errors) := classify events
  let errors := removeDuplicates errors
  ((removeDuplicates readable).filter (· ∉ errors), (removeDuplicates writable).filter (· ∉ errors),
    errors)

/-- Run the callback on one descriptor after another. An exception ends the call that throws it
and nothing else. -/
def batch {σ : Type*} (callback : ℤ → σ → σ) (fds : List ℤ) (s : σ) : σ :=
  fds.foldl (fun s fd => callback fd s) s

/-- The part of `ProcessBatch` for one of the three vectors: how many descriptors it counts, and
the state behind the callbacks. -/
def batchIfSet {σ : Type*} (callback : Option (ℤ → σ → σ)) (fds : List ℤ) (s : σ) : ℕ × σ :=
  match callback with
  | some callback => if fds = [] then (0, s) else (fds.length, batch callback fds s)
  | none => (0, s)

def processBatch {σ : Type*} (events : List EpollEvent)
    (readCallback writeCallback errorCallback : Option (ℤ → σ → σ)) (s : σ) : BatchResult × σ :=
  if events = [] then (⟨0, 0, 0, 0⟩, s)
  else
    let (readable, writable, errors) := groupEvents events
    let (readProcessed, s) := batchIfSet readCallback readable s
    let (writeProcessed, s) := batchIfSet writeCallback writable s
    let (errorProcessed, s) := batchIfSet errorCallback errors s
    (⟨events.length, readProcessed, writeProcessed, errorProcessed⟩, s)

end BatchIoHandler

end TinyWebServer
