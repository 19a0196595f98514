import TinyWebServer.Net.Handlers
import TinyWebServer.Net.Reentry
import TinyWebServer.Net.WheelTimers

/-!
# The timers of one connection

The acts of a handler set and cancel the timer of one descriptor. They leave the wheel in order
and the timers of other descriptors alone, and a closed connection has no timer left.
-/

namespace TinyWebServer

namespace Session

variable {sets : ℤ → TimeoutType → Prop} {late : Prop}

/-! ### Wheels in order -/

lemma timerWheel_cancelTimeout (s : Session) (timeoutType : TimeoutType) :
    (s.cancelTimeout timeoutType).loop.timerWheel =
      (s.loop.timerWheel.removeTimeout s.conn.fd).2 := by
  rw [cancelTimeout]
  split_ifs <;> rfl

lemma timerWheel_handleClose (s : Session) :
    s.handleClose.loop.timerWheel = (s.enterState .kClosed).loop.timerWheel := by
  simp only [handleClose]
  split_ifs <;> rfl

/-- The wheel is in order, nobody holds it, and the connection may have timers. -/
structure Ready (P : ℤ → TimerCallback → Prop) (s : Session) : Prop where
  fd_nonneg : 0 ≤ s.conn.fd
  wheel : s.loop.timerWheel.Sound P
  free : s.loop.timerWheel.mutexHeld = false
  owns : ∀ timeoutType, P s.conn.fd ⟨s.conn.id, timeoutType⟩

/-- A closed connection has left nothing in the wheel. -/
def Left (s : Session) : Prop := s.conn.state = .kClosed → s.loop.timerWheel.Vacant s.conn.fd

variable {P : ℤ → TimerCallback → Prop}

lemma keptByTimers_sound {fd : ℤ} {id : ℕ} (hP : ∀ timeoutType, P fd ⟨id, timeoutType⟩) :
    KeptByTimers fd id fun w => w.Sound P ∧ w.mutexHeld = false := by
  have hkept := keptByTimers_free (P := P) fun timeoutType (_ : 0 ≤ fd) => hP timeoutType
  constructor
  · rintro w seconds timeoutType ⟨hsound, hfree⟩
    exact ⟨hsound.addTimeout seconds fun _ => hP timeoutType,
      ((hkept w.reentered).add w seconds timeoutType ⟨hsound.inv, hfree, rfl⟩).2.1⟩
  · rintro w ⟨hsound, hfree⟩
    exact ⟨hsound.removeTimeout fd,
      ((hkept w.reentered).remove w ⟨hsound.inv, hfree, rfl⟩).2.1⟩

/-- The timers of other descriptors stay. -/
lemma keptByTimers_agree {fd fd' : ℤ} (hne : fd ≠ fd') {id : ℕ}
    (hP : ∀ timeoutType, P fd ⟨id, timeoutType⟩) (w₀ : TimerWheel TimerCallback) :
    KeptByTimers fd id fun w => w.Sound P ∧ TimerWheel.Agree fd' w₀ w := by
  constructor
  · rintro w seconds timeoutType ⟨hsound, hagree⟩
    exact ⟨hsound.addTimeout seconds fun _ => hP timeoutType,
      hagree.trans (TimerWheel.agree_addTimeout hsound.inv seconds _ hne)⟩
  · rintro w ⟨hsound, hagree⟩
    exact ⟨hsound.removeTimeout fd, hagree.trans (TimerWheel.agree_removeTimeout hsound.inv hne)⟩

lemma Ready.of_governed {s t : Session} (h : s.Ready P)
    (hgoverned : ∀ Q, KeptByTimers s.conn.fd s.conn.id Q → Governed s.conn.fd s.conn.id Q s →
      Governed s.conn.fd s.conn.id Q t) : t.Ready P := by
  obtain ⟨hfd, hid, hsound, hfree⟩ :=
    hgoverned _ (keptByTimers_sound h.owns) ⟨rfl, rfl, h.wheel, h.free⟩
  refine ⟨?_, hsound, hfree, ?_⟩
  · rw [hfd]
    exact h.fd_nonneg
  · rw [hfd, hid]
    exact h.owns

lemma Acts.ready {s t : Session} (h : Acts sets late s t) (hs : s.Ready P) : t.Ready P :=
  hs.of_governed fun _ hQ hgoverned => h.governed hQ hgoverned

lemma Acts.agree {s t : Session} (h : Acts sets late s t) (hs : s.Ready P) {fd : ℤ}
    (hne : s.conn.fd ≠ fd) : TimerWheel.Agree fd s.loop.timerWheel t.loop.timerWheel :=
  (h.governed (keptByTimers_agree hne hs.owns s.loop.timerWheel)
    ⟨rfl, rfl, hs.wheel, TimerWheel.Agree.refl fd _⟩).wheel.2

/-! ### Closed connections -/

lemma ready_cancelTimeout {s : Session} (h : s.Ready P) (timeoutType : TimeoutType) :
    (s.cancelTimeout timeoutType).Ready P :=
  h.of_governed fun _ hQ hs => governed_cancelTimeout hQ hs timeoutType

lemma ready_setupOrCancel {s : Session} (h : s.Ready P) (p : Prop) [Decidable p] (seconds : ℤ)
    (timeoutType : TimeoutType) :
    Ready P (if p then s.setupTimeout seconds timeoutType else s.cancelTimeout timeoutType) :=
  h.of_governed fun _ hQ hs => governed_setupOrCancel hQ hs p seconds timeoutType

lemma vacant_cancelTimeout {s : Session} (h : s.Ready P) (timeoutType : TimeoutType) :
    (s.cancelTimeout timeoutType).loop.timerWheel.Vacant s.conn.fd := by
  rw [timerWheel_cancelTimeout]
  exact TimerWheel.vacant_removeTimeout h.wheel.inv h.free h.fd_nonneg

/-- The timeouts are set anew in three turns, and the last is that of the idle timeout. -/
lemma checkAndSetTimeouts_eq {s : Session} (h : s.Ready P) :
    ∃ t, t.Ready P ∧ TimersOnly s t ∧ s.checkAndSetTimeouts =
      if 0 < t.conn.idleTimeoutSeconds ∧ t.conn.state = .kConnected then
        t.setupTimeout t.conn.idleTimeoutSeconds .idle
      else t.cancelTimeout .idle := by
  let t : Session := if 0 < s.conn.readTimeoutSeconds ∧ s.conn.state = .kReading then
    s.setupTimeout s.conn.readTimeoutSeconds .read else s.cancelTimeout .read
  have ht : t.Ready P := ready_setupOrCancel h _ _ .read
  exact ⟨_, ready_setupOrCancel ht _ _ .write, (timersOnly_setupOrCancel _ s _ .read).trans
    (timersOnly_setupOrCancel _ t _ .write), rfl⟩

/-- Only a connected connection keeps a timer when its timeouts are set anew. -/
lemma vacant_checkAndSetTimeouts {s : Session} (h : s.Ready P)
    (hstate : s.conn.state ≠ .kConnected) :
    s.checkAndSetTimeouts.loop.timerWheel.Vacant s.conn.fd := by
  obtain ⟨t, ht, htimers, heq⟩ := checkAndSetTimeouts_eq h
  rw [heq, if_neg, ← htimers.keepsInput.fd]
  · exact vacant_cancelTimeout ht .idle
  · rintro ⟨-, hconnected⟩
    exact hstate (htimers.state_eq.symm.trans hconnected)

lemma vacant_handleClose {s : Session} (h : s.Ready P) :
    s.handleClose.loop.timerWheel.Vacant s.conn.fd := by
  rw [timerWheel_handleClose]
  exact vacant_checkAndSetTimeouts (s := { s with conn := { s.conn with state := .kClosed } })
    ⟨h.fd_nonneg, h.wheel, h.free, h.owns⟩ (by simp)

/-- A timeout that is set for a closed connection sets no timer. -/
lemma left_setTimeout {s : Session} (h : s.Ready P) (seconds : ℤ) (timeoutType : TimeoutType) :
    (s.setTimeout seconds timeoutType).Left := by
  intro hclosed
  rw [state_setTimeout] at hclosed
  have hready : ∀ seconds, Ready P { s with conn := s.conn.setTimeoutSeconds seconds timeoutType } :=
    fun seconds => h.of_governed fun _ _ hs => governed_setTimeoutSeconds hs seconds timeoutType
  have hfd : ∀ seconds, (s.conn.setTimeoutSeconds seconds timeoutType).fd = s.conn.fd := by
    intro seconds
    cases timeoutType <;> rfl
  rw [(governed_setTimeout (Q := fun _ => True) ⟨fun _ _ _ _ => trivial, fun _ _ => trivial⟩
    ⟨rfl, rfl, trivial⟩ seconds timeoutType).fd_eq, Session.setTimeout]
  split_ifs
  · rw [← hfd 0]
    exact vacant_cancelTimeout (hready 0) timeoutType
  · rw [← hfd seconds]
    refine vacant_checkAndSetTimeouts (hready seconds) ?_
    rw [state_setTimeoutSeconds, hclosed]
    simp

lemma Act.left {s t : Session} (h : Act sets late s t) (hs : s.Ready P) (hleft : s.Left) :
    t.Left := by
  have hfd := h.serves.fd
  cases h with
  | activity hopen =>
    intro hclosed
    exact absurd ((timersOnly_updateActivityTimestamp s).state_eq.symm.trans hclosed) hopen
  | setTimeout seconds timeoutType _ => exact left_setTimeout hs seconds timeoutType
  | disable =>
    intro _
    have hzero : Ready P { s with conn := { s.conn with
        readTimeoutSeconds := 0, writeTimeoutSeconds := 0, idleTimeoutSeconds := 0 } } :=
      ⟨hs.fd_nonneg, hs.wheel, hs.free, hs.owns⟩
    have hvacant :=
      vacant_cancelTimeout (ready_cancelTimeout (ready_cancelTimeout hzero .read) .write) .idle
    rw [((timersOnly_cancelTimeout _ .read).trans
      (timersOnly_cancelTimeout _ .write)).keepsInput.fd] at hvacant
    rw [hfd]
    exact hvacant
  | enter newState _ hnew =>
    intro hclosed
    exact absurd hclosed (enterState_open s hnew)
  | close =>
    intro _
    rw [hfd]
    exact vacant_handleClose hs
  | expire timeoutType =>
    intro _
    have hready : Ready P { s with conn := s.conn.setTimeoutActive false timeoutType } :=
      hs.of_governed fun _ _ hgoverned => governed_setTimeoutActive hgoverned false timeoutType
    have hflag : (s.conn.setTimeoutActive false timeoutType).fd = s.conn.fd := by
      cases timeoutType <;> rfl
    rw [hfd, onTimeout_eq, ← hflag]
    exact vacant_handleClose hready
  | callbacks => exact hleft
  | interest events _ => exact hleft
  | note event _ => exact hleft
  | buffers => exact hleft
  | shared => exact hleft

lemma Acts.left {s t : Session} (h : Acts sets late s t) (hs : s.Ready P) (hleft : s.Left) :
    t.Left := by
  have hboth : t.Ready P ∧ t.Left :=
    h.induction (P := fun s => s.Ready P ∧ s.Left)
      (fun _ _ hact hs => ⟨hact.acts.ready hs.1, hact.left hs.1 hs.2⟩) ⟨hs, hleft⟩
  exact hboth.2

end Session

end TinyWebServer
