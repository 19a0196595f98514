import TinyWebServer.Error

/-!
# The timer wheel

A ring of slots with the tasks that are due when the wheel comes round. The mutex is a flag that
every public operation takes and gives back; an operation that finds it taken never returns, which
sets `reentered` for good. `fault` records a division by zero or an index behind the last slot.
-/

namespace TinyWebServer

structure TimerTask (κ : Type*) where
  fd : ℤ
  callback : κ
  remainingTicks : ℤ

structure TimerWheel (κ : Type*) where
  wheel : ℕ → List (TimerTask κ)
  /-- `wheel_.size()`. -/
  slotCount : ℕ
  /-- The keys of the map from descriptors to list nodes; a descriptor has one node at most. -/
  timers : List ℤ
  currentSlot : ℕ
  wheelSize : ℕ
  tickIntervalMs : ℤ
  totalTasksAdded : ℕ
  totalTasksTriggered : ℕ
  totalTasksCancelled : ℕ
  mutexHeld : Bool
  reentered : Bool
  fault : Bool

namespace TimerWheel

variable {κ ω : Type*}

def kMaxCycles : ℕ := 10

/-- `static_cast<int>` of a `size_t`. -/
def toInt (n : ℕ) : ℤ := Int.bmod n (2 ^ 32)

/-- A slot number plus an `int`, as a `size_t`: only a sum below zero wraps around. -/
def addInt (slot : ℕ) (k : ℤ) : ℕ := (if slot + k < 0 then slot + k + 2 ^ 64 else slot + k).toNat

def new (wheelSize : ℕ) (tickIntervalMs : ℤ) : TimerWheel κ :=
  { wheel := fun _ => [], slotCount := wheelSize, timers := [], currentSlot := 0
    wheelSize := if 0 < wheelSize then wheelSize else 60
    tickIntervalMs := if 0 < tickIntervalMs then tickIntervalMs else 1000
    totalTasksAdded := 0, totalTasksTriggered := 0, totalTasksCancelled := 0
    mutexHeld := false, reentered := false, fault := false }

/-- Run `op` under a `lock_guard`. -/
def withLock {α : Type*} (w : TimerWheel κ) (stuck : α)
    (op : TimerWheel κ → α × TimerWheel κ) : α × TimerWheel κ :=
  if w.mutexHeld then (stuck, { w with reentered := true })
  else
    let result := op { w with mutexHeld := true }
    (result.1, { result.2 with mutexHeld := false })

/-- Every pending task, slot by slot. -/
def tasks (w : TimerWheel κ) : List (TimerTask κ) := (List.range w.slotCount).flatMap w.wheel

/-- The node that the map holds for the descriptor. -/
def node (w : TimerWheel κ) (fd : ℤ) : Option (TimerTask κ) := w.tasks.find? (·.fd = fd)

/-- `wheel_[slot].erase(node)`: the list unlinks the node from wherever it hangs. -/
def erase (w : TimerWheel κ) (slot : ℕ) (fd : ℤ) : TimerWheel κ :=
  if slot < w.slotCount then
    { w with wheel := fun i => (w.wheel i).filter (·.fd ≠ fd) }
  else { w with fault := true }

/-- The steps that take a pending task out: the slot is computed from the task, and the map and
the statistics follow. -/
def cancel (w : TimerWheel κ) (fd : ℤ) : TimerWheel κ :=
  let remainingTicks := (w.node fd).elim 0 (·.remainingTicks)
  let slot := addInt w.currentSlot remainingTicks % w.wheelSize
  let w := w.erase slot fd
  { w with
    timers := w.timers.filter (· ≠ fd)
    totalTasksCancelled := w.totalTasksCancelled + 1 }

/-- The slot and the remaining ticks. -/
def calculateSlot (w : TimerWheel κ) (timeoutSeconds : ℤ) : Except Error (ℕ × ℤ) :=
  if timeoutSeconds ≤ 0 then .error ⟨.kInvalidArgument, bytes "Timeout must be positive"⟩
  else if timeoutSeconds ≤ toInt w.wheelSize then
    .ok ((w.currentSlot + timeoutSeconds.toNat) % w.wheelSize, 0)
  else
    let cycles := timeoutSeconds.tdiv (toInt w.wheelSize)
    if toInt kMaxCycles < cycles then
      .error ⟨.kInvalidArgument, bytes "Timeout exceeds maximum cycles"⟩
    else
      let offset := timeoutSeconds.tmod (toInt w.wheelSize)
      .ok ((w.currentSlot + offset.toNat) % w.wheelSize, cycles)

def addTaskToSlot (w : TimerWheel κ) (slot : ℕ) (task : TimerTask κ) : TimerWheel κ :=
  if w.slotCount = 0 then { w with fault := true }
  else
    let slot := if w.slotCount ≤ slot then slot % w.slotCount else slot
    { w with
      wheel := Function.update w.wheel slot (task :: w.wheel slot)
      timers := task.fd :: w.timers.filter (· ≠ task.fd) }

/-- An older task of the same descriptor goes first. -/
def detach (w : TimerWheel κ) (fd : ℤ) : TimerWheel κ :=
  if fd ∈ w.timers then w.cancel fd else w

/-- The part of `AddTimeout` under the lock. -/
def addTimeoutLocked (fd timeoutSeconds : ℤ) (callback : κ) (w : TimerWheel κ) :
    Error × TimerWheel κ :=
  let w := w.detach fd
  match w.calculateSlot timeoutSeconds with
  | .error err => (err, w)
  | .ok (slot, remainingTicks) =>
    let w := w.addTaskToSlot slot ⟨fd, callback, remainingTicks⟩
    (.success, { w with totalTasksAdded := w.totalTasksAdded + 1 })

def addTimeout (w : TimerWheel κ) (fd timeoutSeconds : ℤ) (callback : Option κ) :
    Error × TimerWheel κ :=
  let maxTimeout := toInt (w.wheelSize * kMaxCycles)
  if fd < 0 then (⟨.kInvalidArgument, bytes "Invalid file descriptor"⟩, w)
  else if timeoutSeconds ≤ 0 then (⟨.kInvalidArgument, bytes "Timeout must be positive"⟩, w)
  else
    match callback with
    | none => (⟨.kInvalidArgument, bytes "Callback function cannot be null"⟩, w)
    | some callback =>
      if maxTimeout < timeoutSeconds then
        (⟨.kInvalidArgument, bytes "Timeout " ++ Bytes.ofInt timeoutSeconds ++
          bytes "s exceeds maximum " ++ Bytes.ofInt maxTimeout ++ bytes "s"⟩, w)
      else w.withLock .success (addTimeoutLocked fd timeoutSeconds callback)

/-- A descriptor without a task is no error. -/
def removeTimeout (w : TimerWheel κ) (fd : ℤ) : Error × TimerWheel κ :=
  if fd < 0 then (⟨.kInvalidArgument, bytes "Invalid file descriptor"⟩, w)
  else w.withLock .success fun w => (.success, w.detach fd)

/-- Milliseconds, or `-1` for an empty wheel. -/
def getNextTickTimeout (w : TimerWheel κ) : ℤ × TimerWheel κ :=
  w.withLock (-1) fun w => (if w.timers = [] then -1 else w.tickIntervalMs, w)

def hasTimer (w : TimerWheel κ) (fd : ℤ) : Bool × TimerWheel κ :=
  if fd < 0 then (false, w) else w.withLock false fun w => (fd ∈ w.timers, w)

def getActiveTimerCount (w : TimerWheel κ) : ℕ × TimerWheel κ :=
  w.withLock 0 fun w => (w.timers.length, w)

/-- The map is empty by the time its size is added to the statistics. -/
def clear (w : TimerWheel κ) : TimerWheel κ :=
  (w.withLock () fun w => ((), { w with wheel := fun _ => [], timers := [], currentSlot := 0 })).2

/-! ### Ticks

The callbacks of a tick see the wheel and the rest `ω` of the program's state; `call` runs the
callback of a task. -/

/-- The turn of `ProcessSlot` for a task that has more rounds to wait. -/
def moveOn (slot : ℕ) (task : TimerTask κ) (w : TimerWheel κ) : TimerWheel κ :=
  let w := { w with
    wheel := fun i => (w.wheel i).filter (·.fd ≠ task.fd)
    timers := w.timers.filter (· ≠ task.fd) }
  w.addTaskToSlot ((slot + 1) % w.wheelSize) { task with remainingTicks := task.remainingTicks - 1 }

/-- What follows the callback of an expired task. -/
def retire (task : TimerTask κ) (w : TimerWheel κ) : TimerWheel κ :=
  { w with
    wheel := fun i => (w.wheel i).filter (·.fd ≠ task.fd)
    timers := w.timers.filter (· ≠ task.fd)
    totalTasksTriggered := w.totalTasksTriggered + 1 }

/-- The loop of `ProcessSlot` over the tasks that the slot holds at its start: a task that is put
into the same list goes to its front, which the iterator has passed. -/
def processTasks (call : TimerTask κ → TimerWheel κ × ω → TimerWheel κ × ω) (slot : ℕ) :
    List (TimerTask κ) → TimerWheel κ × ω → ℕ × (TimerWheel κ × ω)
  | [], s => (0, s)
  | task :: rest, s =>
    if 0 < task.remainingTicks then processTasks call slot rest (s.1.moveOn slot task, s.2)
    else
      let s := call task s
      let result := processTasks call slot rest (s.1.retire task, s.2)
      (result.1 + 1, result.2)

def processSlot (call : TimerTask κ → TimerWheel κ × ω → TimerWheel κ × ω) (slot : ℕ)
    (s : TimerWheel κ × ω) : ℕ × (TimerWheel κ × ω) :=
  if s.1.slotCount ≤ slot then (0, s) else processTasks call slot (s.1.wheel slot) s

/-- The mutex stays held while the callbacks run. -/
def tick (call : TimerTask κ → TimerWheel κ × ω → TimerWheel κ × ω) (s : TimerWheel κ × ω) :
    ℕ × (TimerWheel κ × ω) :=
  if s.1.mutexHeld then (0, { s.1 with reentered := true }, s.2)
  else
    let result := processSlot call s.1.currentSlot ({ s.1 with mutexHeld := true }, s.2)
    let w := result.2.1
    (result.1,
      { w with currentSlot := (w.currentSlot + 1) % w.wheelSize, mutexHeld := false }, result.2.2)

end TimerWheel

end TinyWebServer
