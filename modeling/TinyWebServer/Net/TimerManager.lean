import Mathlib

/-!
# The timer heap

`TimerManager` keeps its timers in a heap by expiry, beside a map from the descriptors to their
places in it. Points in time are nanoseconds of the steady clock, timeouts are milliseconds. A
callback is a value of some type; `none` is an empty one.
-/

namespace TinyWebServer

structure TimerNode (κ : Type*) where
  fd : ℤ
  expire : ℤ
  cb : Option κ
  deriving DecidableEq

structure TimerManager (κ : Type*) where
  heap : List (TimerNode κ)
  ref : ℤ → Option ℕ

namespace TimerManager

variable {κ : Type*}

def new : TimerManager κ := ⟨[], fun _ => none⟩

/-- `heap_[i] < heap_[j]`. The code asks only about places that the heap has. -/
def less (m : TimerManager κ) (i j : ℕ) : Bool :=
  match m.heap[i]?, m.heap[j]? with
  | some a, some b => a.expire < b.expire
  | _, _ => false

def swapNode (m : TimerManager κ) (i j : ℕ) : TimerManager κ :=
  match m.heap[i]?, m.heap[j]? with
  | some a, some b =>
    { heap := (m.heap.set i b).set j a
      ref := Function.update (Function.update m.ref b.fd (some i)) a.fd (some j) }
  | _, _ => m

/-- The loop of `siftup_`, for so many rounds at most. -/
def siftupLoop : ℕ → TimerManager κ → ℕ → TimerManager κ
  | 0, m, _ => m
  | fuel + 1, m, i =>
    if 0 < i then
      let j := (i - 1) / 2
      if m.less i j then siftupLoop fuel (m.swapNode i j) j else m
    else m

/-- Every round of the loop goes to a smaller place. -/
def siftup (m : TimerManager κ) (i : ℕ) : TimerManager κ := siftupLoop i m i

/-- The loop of `siftdown_`, for so many rounds at most, and where it ends. -/
def siftdownLoop (n : ℕ) : ℕ → TimerManager κ → ℕ → TimerManager κ × ℕ
  | 0, m, i => (m, i)
  | fuel + 1, m, i =>
    let j := i * 2 + 1
    if j < n then
      let j := if j + 1 < n ∧ m.less (j + 1) j then j + 1 else j
      if m.less j i then siftdownLoop n fuel (m.swapNode i j) j else (m, i)
    else (m, i)

/-- Every round of the loop goes to a greater place, and none of them is `n` or more. -/
def siftdown (m : TimerManager κ) (index n : ℕ) : TimerManager κ × Bool :=
  let (m, i) := siftdownLoop n n m index
  (m, index < i)

/-- `if (!siftdown_(i, n)) siftup_(i)`. -/
def restore (m : TimerManager κ) (i n : ℕ) : TimerManager κ :=
  let (m, moved) := m.siftdown i n
  if moved then m else m.siftup i

def expireAt (now timeoutMs : ℤ) : ℤ := now + timeoutMs * 1000000

def adjustTimer (m : TimerManager κ) (fd timeoutMs now : ℤ) : TimerManager κ :=
  match m.ref fd with
  | none => m
  | some i =>
    let m := { m with
      heap := m.heap.modify i fun node => { node with expire := expireAt now timeoutMs } }
    m.restore i m.heap.length

def addTimer (m : TimerManager κ) (fd timeoutMs : ℤ) (cb : Option κ) (now : ℤ) : TimerManager κ :=
  match m.ref fd with
  | some _ => m.adjustTimer fd timeoutMs now
  | none =>
    let m : TimerManager κ :=
      { heap := m.heap ++ [⟨fd, expireAt now timeoutMs, cb⟩]
        ref := Function.update m.ref fd (some m.heap.length) }
    m.siftup (m.heap.length - 1)

def del (m : TimerManager κ) (index : ℕ) : TimerManager κ :=
  if m.heap.length ≤ index then m
  else
    let n := m.heap.length - 1
    let m := if index < n then (m.swapNode index n).restore index n else m
    match m.heap.getLast? with
    | some node => { heap := m.heap.dropLast, ref := Function.update m.ref node.fd none }
    | none => m

def removeTimer (m : TimerManager κ) (fd : ℤ) : TimerManager κ :=
  match m.ref fd with
  | some i => m.del i
  | none => m

end TimerManager

/-- A call on the manager, with the time that the clock shows in it. -/
inductive TimerCall (κ : Type*)
  | add (fd timeoutMs : ℤ) (cb : Option κ) (now : ℤ)
  | adjust (fd timeoutMs now : ℤ)
  | remove (fd : ℤ)

/-- What happens to the timer of a descriptor. -/
inductive TimerEvent
  /-- A new timer is entered. -/
  | added (fd : ℤ)
  /-- `RemoveTimer` takes the timer out. -/
  | removed (fd : ℤ)
  /-- `HandleExpiredTimers` runs the callback, or sees that there is none. -/
  | fired (fd : ℤ)
  /-- `HandleExpiredTimers` takes the timer out. -/
  | deleted (fd : ℤ)
  deriving DecidableEq

namespace TimerManager

variable {κ : Type*}

def apply (m : TimerManager κ) : TimerCall κ → TimerManager κ
  | .add fd timeoutMs cb now => m.addTimer fd timeoutMs cb now
  | .adjust fd timeoutMs now => m.adjustTimer fd timeoutMs now
  | .remove fd => m.removeTimer fd

/-- The events of a call. -/
def events (m : TimerManager κ) : TimerCall κ → List TimerEvent
  | .add fd .. => if m.ref fd = none then [.added fd] else []
  | .adjust .. => []
  | .remove fd => if m.ref fd = none then [] else [.removed fd]

/-- One call after another. -/
def applyAll (m : TimerManager κ) : List (TimerCall κ) → TimerManager κ × List TimerEvent
  | [] => (m, [])
  | call :: calls =>
    let (m', es) := (m.apply call).applyAll calls
    (m', m.events call ++ es)

end TimerManager

/-- What the code around a call of `HandleExpiredTimers` does: the time that the clock shows at
the beginning of a round of the loop, and the calls a callback makes when it runs in that round. -/
structure ExpiryWorld (κ : Type*) where
  now : ℕ → ℤ
  program : ℕ → κ → List (TimerCall κ)

/-- The loop of `HandleExpiredTimers`, and what has happened in it so far. -/
structure ExpiryLoop (κ : Type*) where
  manager : TimerManager κ
  events : List TimerEvent
  running : Bool

namespace TimerManager

variable {κ : Type*}

/-- `duration_cast<milliseconds>(node.expire - now).count() > 0`. The cast cuts off the
fraction. -/
def isPending (node : TimerNode κ) (now : ℤ) : Bool := 0 < (node.expire - now).tdiv 1000000

/-- The callback of the timer, if it has one. It is a value of its own here; in the source it lies in
the node on the heap, and one that makes the vector grow goes on in storage that has been freed. -/
def runCallback (m : TimerManager κ) (node : TimerNode κ) (program : κ → List (TimerCall κ)) :
    TimerManager κ × List TimerEvent :=
  match node.cb with
  | some cb => m.applyAll (program cb)
  | none => (m, [])

/-- The event of `del_(0)`. -/
def deletion (m : TimerManager κ) : List TimerEvent :=
  match m.heap.head? with
  | some node => [.deleted node.fd]
  | none => []

/-- One round of the loop. -/
def expiryRound (program : κ → List (TimerCall κ)) (now : ℤ) (e : ExpiryLoop κ) : ExpiryLoop κ :=
  if e.running then
    match e.manager.heap.head? with
    | none => { e with running := false }
    | some node =>
      if isPending node now then { e with running := false }
      else
        let (m, es) := e.manager.runCallback node program
        { e with
          manager := m.del 0
          events := e.events ++ .fired node.fd :: es ++ m.deletion }
  else e

/-- `HandleExpiredTimers` after so many rounds. A callback may keep the loop going forever. -/
def handleExpiredTimers (m : TimerManager κ) (world : ExpiryWorld κ) : ℕ → ExpiryLoop κ
  | 0 => ⟨m, [], true⟩
  | n + 1 => expiryRound (world.program n) (world.now n) (m.handleExpiredTimers world n)

end TimerManager

end TinyWebServer
