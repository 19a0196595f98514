import Mathlib

/-!
# The keep-alive manager

The persistent connections by descriptor, with the requests each has made.
-/

namespace TinyWebServer

structure KeepAliveState where
  requestCount : ℕ
  keepAlive : Bool
  idleTimeout : ℤ
  deriving DecidableEq

structure KeepAliveManager where
  connections : List (ℤ × KeepAliveState)
  defaultIdleTimeout : ℤ
  totalRequests : ℕ
  deriving DecidableEq

namespace KeepAliveManager

def new (defaultIdleTimeout : ℤ) : KeepAliveManager := ⟨[], defaultIdleTimeout, 0⟩

def getConnectionState (m : KeepAliveManager) (fd : ℤ) : Option KeepAliveState :=
  m.connections.lookup fd

def erase (m : KeepAliveManager) (fd : ℤ) : List (ℤ × KeepAliveState) :=
  m.connections.filter (·.1 ≠ fd)

def onRequestStart (m : KeepAliveManager) (fd : ℤ) (keepAlive : Bool) (idleTimeout : ℤ) :
    KeepAliveManager :=
  let state : KeepAliveState :=
    match m.getConnectionState fd with
    | none => ⟨1, keepAlive, if 0 < idleTimeout then idleTimeout else m.defaultIdleTimeout⟩
    | some state =>
      ⟨state.requestCount + 1, keepAlive,
        if 0 < idleTimeout then idleTimeout else state.idleTimeout⟩
  { m with connections := (fd, state) :: m.erase fd, totalRequests := m.totalRequests + 1 }

/-- Only notes the time: the connection stays, whether it is persistent or not. -/
def onRequestComplete (m : KeepAliveManager) (_fd : ℤ) : KeepAliveManager := m

def onConnectionClose (m : KeepAliveManager) (fd : ℤ) : KeepAliveManager :=
  { m with connections := m.erase fd }

end KeepAliveManager

end TinyWebServer
