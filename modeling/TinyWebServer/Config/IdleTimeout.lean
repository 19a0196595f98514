import TinyWebServer.Config.ServerConfig
import TinyWebServer.Net.TimerFlags
import TinyWebServer.Net.TimerPace

/-!
# Idle timeouts of a valid configuration

`Validate` accepts a keep-alive timeout of up to an hour, and the wheel of an event loop takes
timeouts of up to ten minutes. A connection whose timeout lies in between has no idle timer.
-/

namespace TinyWebServer

namespace LoopState

variable {κ : Type*}

/-- The wheel of a running loop is in order. -/
lemma Reachable.sound {l : LoopState κ} (h : l.Reachable) :
    l.loop.timerWheel.Sound fun _ _ => True := by
  have happly : ∀ (l : LoopState κ) (op : TimerOp κ), (l.loop.timerWheel.Sound fun _ _ => True) →
      (l.apply op).loop.timerWheel.Sound fun _ _ => True := by
    intro l op hl
    cases op with
    | addTimer fd timeoutSeconds callback => exact hl.addTimeout timeoutSeconds fun _ => trivial
    | removeTimer fd => exact hl.removeTimeout fd
  induction h with
  | new => exact TimerWheel.sound_new
  | apply op _ ih => exact happly _ op ih
  | @turn l turn hreach _ ih =>
    have htick : l.processTimers.2.loop.timerWheel.Sound fun _ _ => True :=
      TimerWheel.Sound.tick (keepsWheel_note l.clock) ih hreach.ready.free
    have hnext := (nextTimeout_spec (processTimers_spec hreach.ready).1).1
    simp only [LoopState.turn, hnext]
    exact List.foldlRecOn (motive := fun l : LoopState κ => l.loop.timerWheel.Sound fun _ _ => True)
      turn.ops LoopState.apply htick fun l hl op _ => happly l op hl

end LoopState

namespace Session

variable {P : ℤ → TimerCallback → Prop}

/-- The wheel of the connection's loop holds its idle timer. -/
def IdleTimerPending (s : Session) : Prop :=
  s.loop.timerWheel.Pending s.conn.fd ⟨s.conn.id, .idle⟩

lemma timerWheel_setupTimeout (s : Session) {seconds : ℤ} (hpos : 0 < seconds)
    (timeoutType : TimeoutType) : (s.setupTimeout seconds timeoutType).loop.timerWheel =
      (s.loop.timerWheel.addTimeout s.conn.fd seconds (some ⟨s.conn.id, timeoutType⟩)).2 := by
  rw [setupTimeout, if_neg (not_le.mpr hpos)]
  dsimp only
  split_ifs <;> rfl

/-- What `ConnectEstablished` does with the wheel: the other timeouts are cancelled, and the idle
timeout goes into a wheel without a timer of the descriptor. -/
lemma timerWheel_connectEstablished {s : Session} (h : s.Ready P)
    (hstate : s.conn.state = .kConnecting) (hpos : 0 < s.conn.idleTimeoutSeconds) :
    ∃ w : TimerWheel TimerCallback, w.Sound P ∧ w.mutexHeld = false ∧ w.Vacant s.conn.fd ∧
      s.connectEstablished.loop.timerWheel =
        (w.addTimeout s.conn.fd s.conn.idleTimeoutSeconds (some ⟨s.conn.id, .idle⟩)).2 := by
  let entered : Session := { s with conn := { s.conn with state := .kConnected } }
  have hentered : entered.Ready P := ⟨h.fd_nonneg, h.wheel, h.free, h.owns⟩
  have hread := ready_cancelTimeout hentered .read
  have hwrite := ready_cancelTimeout hread .write
  have hvacant := vacant_cancelTimeout hread .write
  have htimers := (timersOnly_cancelTimeout entered .read).trans (timersOnly_cancelTimeout _ .write)
  have hconn := (timersOnly_cancelTimeout entered .read).keepsInput.fd
  rw [hconn] at hvacant
  refine ⟨_, hwrite.wheel, hwrite.free, hvacant, ?_⟩
  have hcan : s.conn.canTransition .kConnected = true := by
    rw [Connection.canTransition, hstate]
    decide
  rw [connectEstablished, transition, if_neg (by simp [hcan])]
  change entered.checkAndSetTimeouts.loop.timerWheel = _
  rw [checkAndSetTimeouts_of_state (by simp [entered]) (by simp [entered])]
  generalize (entered.cancelTimeout .read).cancelTimeout .write = t at htimers ⊢
  obtain ⟨wheel, read, write, idle, rfl⟩ := htimers
  dsimp only
  rw [if_pos ⟨hpos, rfl⟩]
  exact timerWheel_setupTimeout _ hpos .idle

lemma conn_connectEstablished {s : Session} (hstate : s.conn.state = .kConnecting) :
    s.connectEstablished.conn.fd = s.conn.fd ∧ s.connectEstablished.conn.id = s.conn.id := by
  have hacts : Acts (fun _ _ => True) True s s.connectEstablished := acts_connectEstablished hstate
  have hgoverned := hacts.governed (Q := fun _ => True) ⟨fun _ _ _ _ => trivial, fun _ _ => trivial⟩
    ⟨rfl, rfl, trivial⟩
  exact ⟨hgoverned.fd_eq, hgoverned.id_eq⟩

/-- The idle timer of a connection is pending behind `ConnectEstablished` if ten rounds of the wheel
are enough for it. -/
lemma idleTimerPending_iff {s : Session} (h : s.Ready P) (hstate : s.conn.state = .kConnecting)
    (hpos : 0 < s.conn.idleTimeoutSeconds) :
    s.connectEstablished.IdleTimerPending ↔ s.conn.idleTimeoutSeconds ≤ 600 := by
  obtain ⟨w, hw, hfree, hvacant, heq⟩ := timerWheel_connectEstablished h hstate hpos
  obtain ⟨hfd, hid⟩ := conn_connectEstablished hstate
  rw [IdleTimerPending, heq, hfd, hid]
  constructor
  · intro hpending
    by_contra hlong
    rw [TimerWheel.addTimeout_of_lt hw.wheelSize _ (not_le.mp hlong)] at hpending
    exact hvacant.not_pending _ hpending
  · intro hle
    exact (TimerWheel.pending_addTimeout hw hfree h.fd_nonneg hpos hle _).2

end Session

namespace ServerConfig

/-- A connection that is created under the configuration, in a loop that runs. -/
def connecting (config : ServerConfig) (s : Session) (l : LoopState TimerCallback) (id : ℕ) (fd : ℤ)
    (hasKeepAliveManager : Bool) : Session :=
  { s with
    conn := .new id fd (some config.limits.toLimitsOptions) hasKeepAliveManager, loop := l.loop }

/-- A keep-alive timeout can be armed exactly if it is at most ten minutes. -/
theorem connecting_idleTimerPending_iff {config : ServerConfig} (_ : config.validate = [])
    (hpos : 0 < config.limits.keepAliveTimeout) {fd : ℤ} (hfd : 0 ≤ fd)
    {l : LoopState TimerCallback} (hl : l.Reachable) (s : Session) (id : ℕ)
    (hasKeepAliveManager : Bool) :
    (config.connecting s l id fd hasKeepAliveManager).connectEstablished.IdleTimerPending ↔
      config.limits.keepAliveTimeout ≤ 600 := by
  have hready : (config.connecting s l id fd hasKeepAliveManager).Ready fun _ _ => True :=
    ⟨hfd, hl.sound, hl.ready.free, fun _ => trivial⟩
  exact Session.idleTimerPending_iff hready rfl hpos

/-- The fifteen seconds of the defaults, on a loop that has just started. -/
theorem connecting_idleTimerPending_default :
    (connecting {} (.new (.new 0 5 none false) fun _ => .again) .new 0 5
      false).connectEstablished.IdleTimerPending :=
  (connecting_idleTimerPending_iff validate_default (by decide) (by decide) .new _ 0 false).mpr
    (by decide)

/-- The first value behind ten minutes is valid, and its timer is refused. -/
theorem connecting_not_idleTimerPending :
    ¬ ∀ (config : ServerConfig) (fd : ℤ) (l : LoopState TimerCallback) (s : Session) (id : ℕ)
      (hasKeepAliveManager : Bool), config.validate = [] → 0 < config.limits.keepAliveTimeout →
        0 ≤ fd → l.Reachable →
        (config.connecting s l id fd hasKeepAliveManager).connectEstablished.IdleTimerPending := by
  intro h
  let config : ServerConfig := { limits := { keepAliveTimeout := 601 } }
  have hready : (config.connecting (.new (.new 0 5 none false) fun _ => .again) .new 0 5
      false).Ready fun _ _ => True :=
    ⟨by decide, TimerWheel.sound_new, rfl, fun _ => trivial⟩
  have hpending := h config 5 .new (.new (.new 0 5 none false) fun _ => .again) 0 false (by decide)
    (by decide) (by decide) .new
  rw [Session.idleTimerPending_iff hready rfl (by decide)] at hpending
  exact absurd hpending (by decide)

end ServerConfig

end TinyWebServer
