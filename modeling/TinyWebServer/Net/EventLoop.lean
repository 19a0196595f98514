import TinyWebServer.Net.TimerWheel

/-!
# The event loop

The part of an event loop that its own thread works on: the registered descriptors, the
descriptors with callbacks, and the timer wheel. `epoll_ctl` is taken to succeed.
-/

namespace TinyWebServer

namespace Epoll

def EPOLLIN : UInt32 := 0x001
def EPOLLPRI : UInt32 := 0x002
def EPOLLOUT : UInt32 := 0x004
def EPOLLERR : UInt32 := 0x008
def EPOLLHUP : UInt32 := 0x010
def EPOLLRDHUP : UInt32 := 0x2000
def EPOLLET : UInt32 := 0x80000000

end Epoll

structure EventLoop (κ : Type*) where
  registeredFds : ℤ → Option UInt32
  /-- The descriptors with a read callback. -/
  readCallbacks : List ℤ
  writeCallbacks : List ℤ
  timerWheel : TimerWheel κ

namespace EventLoop

variable {κ : Type*}

/-- The loop that the constructor makes, without its wake-up descriptor. -/
def new : EventLoop κ :=
  { registeredFds := fun _ => none, readCallbacks := [], writeCallbacks := []
    timerWheel := .new 60 1000 }

def setReadCallback (l : EventLoop κ) (fd : ℤ) : EventLoop κ :=
  { l with readCallbacks := fd :: l.readCallbacks.filter (· ≠ fd) }

def setWriteCallback (l : EventLoop κ) (fd : ℤ) : EventLoop κ :=
  { l with writeCallbacks := fd :: l.writeCallbacks.filter (· ≠ fd) }

def updateEvent (l : EventLoop κ) (fd : ℤ) (events : UInt32) : EventLoop κ :=
  { l with registeredFds := Function.update l.registeredFds fd (some events) }

def removeEvent (l : EventLoop κ) (fd : ℤ) : EventLoop κ :=
  { l with registeredFds := Function.update l.registeredFds fd none }

def addTimer (l : EventLoop κ) (fd timeoutSeconds : ℤ) (callback : κ) : Error × EventLoop κ :=
  let result := l.timerWheel.addTimeout fd timeoutSeconds (some callback)
  (result.1, { l with timerWheel := result.2 })

def removeTimer (l : EventLoop κ) (fd : ℤ) : Error × EventLoop κ :=
  let result := l.timerWheel.removeTimeout fd
  (result.1, { l with timerWheel := result.2 })

/-- The timeout that `Loop` passes to `epoll_wait`, in milliseconds. -/
def clampTimeout (nextTimeout : ℤ) : ℤ :=
  if nextTimeout < 0 then 100
  else if 1000 < nextTimeout then 1000
  else nextTimeout

end EventLoop

end TinyWebServer
