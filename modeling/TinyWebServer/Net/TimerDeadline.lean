import TinyWebServer.Net.TimerPace
import TinyWebServer.Net.WheelFirings

/-!
# No timer is late

Seen from one descriptor the wheel of a running loop is an alarm that counts turns: the slots and
laps of a timeout are so many turns, never more than its seconds. Since no wait of the loop is
longer than a second, a timer fires at its deadline at the latest.
-/

namespace Countdown

variable {α : Type*}

/-- The ticks in front of the one that fires. -/
def ticksLeft : Countdown α → Option ℕ
  | .pending _ waits laps => some (waits + laps.toNat)
  | .spent => none

end Countdown

namespace TinyWebServer

open TimerWheel

variable {κ : Type*}

/-! ### The alarm of a descriptor -/

/-- What is left of a timeout, and the millisecond by which it is over. -/
structure Alarm where
  turnsLeft : ℕ
  deadline : ℕ
  deriving DecidableEq

namespace Alarm

/-- The turns of the loop in front of the one that fires a timer of so many seconds. -/
def turnsOf (timeoutSeconds : ℤ) : ℕ := waitsOf 60 timeoutSeconds + (lapsOf 60 timeoutSeconds).toNat

/-- A timer that is accepted replaces the one before. -/
def set (fd : ℤ) (clock : ℕ) (alarm : Option Alarm) : TimerOp κ → Option Alarm
  | .addTimer fd' timeoutSeconds _ =>
    if fd' = fd ∧ 0 ≤ fd ∧ 0 < timeoutSeconds ∧ timeoutSeconds ≤ 600 then
      some ⟨turnsOf timeoutSeconds, clock + 1000 * timeoutSeconds.toNat⟩
    else alarm
  | .removeTimer fd' => if fd' = fd ∧ 0 ≤ fd then none else alarm

def tick : Option Alarm → Option Alarm
  | some ⟨turnsLeft + 1, deadline⟩ => some ⟨turnsLeft, deadline⟩
  | _ => none

/-- The time and the deadline, if the alarm rings in this turn. -/
def ring (clock : ℕ) : Option Alarm → List (ℕ × ℕ)
  | some ⟨0, deadline⟩ => [(clock, deadline)]
  | _ => []

/-- The alarm behind a turn and the operations in it. -/
def after (fd : ℤ) (clock : ℕ) (alarm : Option Alarm) (turn : LoopTurn κ) : Option Alarm :=
  turn.ops.foldl (set fd (clock + turn.wait)) (tick alarm)

/-- When the alarm rings along a run, each time with the deadline. -/
def rings (fd : ℤ) (clock : ℕ) (alarm : Option Alarm) : List (LoopTurn κ) → List (ℕ × ℕ)
  | [] => []
  | turn :: turns =>
    ring clock alarm ++ rings fd (clock + turn.wait) (after fd clock alarm turn) turns

lemma turnsOf_le {timeoutSeconds : ℤ} (hpos : 0 < timeoutSeconds) :
    turnsOf timeoutSeconds ≤ timeoutSeconds.toNat := by
  obtain ⟨t, rfl⟩ := Int.eq_ofNat_of_zero_le hpos.le
  have hle := waits_add_laps_le 60 t
  rw [turnsOf, waitsOf_of_lt (by norm_num), lapsOf_of_lt (by norm_num), Int.toNat_natCast]
  exact hle

/-- The turns that are left take until the deadline at most. -/
def InTime (clock : ℕ) (alarm : Option Alarm) : Prop :=
  ∀ a ∈ alarm, clock + 1000 * a.turnsLeft ≤ a.deadline

lemma inTime_set {fd : ℤ} {clock : ℕ} {alarm : Option Alarm} (h : InTime clock alarm)
    (op : TimerOp κ) : InTime clock (set fd clock alarm op) := by
  cases op with
  | addTimer fd' timeoutSeconds callback =>
    rw [set]
    split_ifs with haccepted
    · intro a ha
      cases ha
      have hle := turnsOf_le haccepted.2.2.1
      dsimp only
      omega
    · exact h
  | removeTimer fd' =>
    rw [set]
    split_ifs
    · intro a ha
      cases ha
    · exact h

lemma inTime_foldl_set {fd : ℤ} {clock : ℕ} {alarm : Option Alarm} (h : InTime clock alarm)
    (ops : List (TimerOp κ)) : InTime clock (ops.foldl (set fd clock) alarm) := by
  induction ops generalizing alarm with
  | nil => exact h
  | cons op ops ih => exact ih (inTime_set h op)

lemma inTime_after {fd : ℤ} {clock : ℕ} {alarm : Option Alarm} (h : InTime clock alarm)
    {turn : LoopTurn κ} (hwait : turn.wait ≤ 1000) :
    InTime (clock + turn.wait) (after fd clock alarm turn) := by
  apply inTime_foldl_set
  intro a ha
  match alarm, ha with
  | some ⟨turnsLeft + 1, deadline⟩, rfl =>
    have hle := h _ rfl
    dsimp only at hle ⊢
    omega

/-- An alarm whose turns take a second at most rings in time. -/
lemma time_le_deadline {fd : ℤ} {clock : ℕ} {alarm : Option Alarm} (h : InTime clock alarm)
    {turns : List (LoopTurn κ)} (hwaits : ∀ turn ∈ turns, turn.wait ≤ 1000) :
    ∀ r ∈ rings fd clock alarm turns, r.1 ≤ r.2 := by
  induction turns generalizing clock alarm with
  | nil =>
    intro r hr
    cases hr
  | cons turn turns ih =>
    rw [List.forall_mem_cons] at hwaits
    intro r hr
    rcases List.mem_append.mp hr with hring | hrest
    · match alarm, hring with
      | some ⟨0, deadline⟩, hring =>
        rw [ring, List.mem_singleton] at hring
        subst hring
        exact h _ rfl
    · exact ih (inTime_after h hwaits.1) hwaits.2 r hrest

lemma ticksLeft_tick {α : Type*} {c : Countdown α} {alarm : Option Alarm}
    (h : c.ticksLeft = alarm.map (·.turnsLeft)) :
    c.tick.ticksLeft = (tick alarm).map (·.turnsLeft) ∧
      ∀ clock, c.fires.length = (ring clock alarm).length := by
  cases c with
  | spent =>
    obtain rfl : alarm = none := by simpa [Countdown.ticksLeft] using h.symm
    exact ⟨rfl, fun _ => rfl⟩
  | pending item waits laps =>
    obtain ⟨⟨turnsLeft, deadline⟩, rfl, hleft⟩ := Option.map_eq_some_iff.mp h.symm
    dsimp only at hleft
    subst hleft
    rw [Countdown.fires_pending]
    cases waits with
    | succ waits =>
      rw [Nat.add_right_comm]
      exact ⟨rfl, fun _ => by simp [ring]⟩
    | zero =>
      rw [Nat.zero_add]
      rcases lt_or_ge 0 laps with hlaps | hlaps
      · obtain ⟨n, rfl⟩ := Int.eq_succ_of_zero_lt hlaps
        rw [Countdown.tick_lap item hlaps]
        refine ⟨?_, fun _ => by simp [ring]⟩
        simp [Countdown.ticksLeft, tick]
      · rw [Countdown.tick_fire item hlaps, Int.toNat_of_nonpos hlaps]
        exact ⟨rfl, fun _ => by simp [ring, hlaps]⟩

end Alarm

/-! ### The loop and its alarms -/

namespace LoopState

variable {s : LoopState κ} {fd : ℤ}

/-- Between two turns nobody works on the wheel. -/
structure Turning (s : LoopState κ) : Prop where
  ready : Ready s
  idle : Idle 60 s.loop.timerWheel

/-- What the wheel holds of a descriptor has as many ticks left as the alarm has turns. -/
def Shows (fd : ℤ) (s : LoopState κ) (alarm : Option Alarm) : Prop :=
  ∃ c, TimerWheel.Shows fd c s.loop.timerWheel ∧ c.ticksLeft = alarm.map (·.turnsLeft)

/-- The callbacks of a tick call nothing. -/
def quiet : κ → List (WheelMove κ) := fun _ => []

lemma wheel_processTasks_note (clock slot : ℕ) (tasks : List (TimerTask κ)) (w : TimerWheel κ)
    (noted : List (ℤ × ℕ)) (ran : List (TimerTask κ)) :
    (processTasks (note clock) slot tasks (w, noted)).2.1 =
      (processTasks (runCallback quiet) slot tasks (w, ran)).2.1 := by
  induction tasks generalizing w noted ran with
  | nil => rfl
  | cons task rest ih =>
    rw [processTasks, processTasks]
    split_ifs
    · exact ih _ _ _
    · exact ih _ _ _

lemma processTimers_eq (h : Turning s) : s.processTimers =
    ((s.loop.timerWheel.next quiet .tick).2.map fun task => (task.fd, s.clock),
      { s with loop := { s.loop with timerWheel := (s.loop.timerWheel.next quiet .tick).1 } }) := by
  have hfired := (processTimers_spec h.ready).2.2.1
  have hinv := h.idle.filed.inv
  rw [Prod.eq_iff_fst_eq_snd_eq, (tick_ran quiet h.idle).2]
  refine ⟨hfired, ?_⟩
  rw [processTimers, TimerWheel.next, TimerWheel.apply,
    tick_eq (note s.clock) (s := (s.loop.timerWheel, [])) hinv h.idle.free,
    tick_eq (runCallback quiet) (s := (s.loop.timerWheel, [])) hinv h.idle.free]
  dsimp only
  rw [wheel_processTasks_note s.clock _ _ _ [] []]

lemma turning_new : Turning (new : LoopState κ) :=
  ⟨ready_new, idle_new (by norm_num) 1000⟩

lemma turning_apply (h : Turning s) (op : TimerOp κ) : Turning (s.apply op) := by
  refine ⟨ready_apply h.ready op, ?_⟩
  cases op with
  | addTimer fd timeoutSeconds callback => exact h.idle.addTimeout fd timeoutSeconds (some callback)
  | removeTimer fd => exact h.idle.removeTimeout fd

lemma shows_apply (h : Turning s) {alarm : Option Alarm} (hshows : Shows fd s alarm) (clock : ℕ)
    (op : TimerOp κ) : Shows fd (s.apply op) (Alarm.set fd clock alarm op) := by
  obtain ⟨c, hc, hleft⟩ := hshows
  cases op with
  | addTimer fd' timeoutSeconds callback =>
    have hnext := hc.next quiet h.idle (.addTimeout fd' timeoutSeconds (some callback))
    refine ⟨_, hnext, ?_⟩
    have hrefused : (fd' = fd ∧ ¬ Refused 60 fd' timeoutSeconds (some callback)) ↔
        fd' = fd ∧ 0 ≤ fd ∧ 0 < timeoutSeconds ∧ timeoutSeconds ≤ 600 := by
      have hmax : toInt (60 * kMaxCycles) = 600 := rfl
      apply and_congr_right
      rintro rfl
      simp [Refused, hmax]
    rw [countdownNext, Alarm.set, if_congr hrefused rfl rfl]
    split_ifs
    · rfl
    · exact hleft
  | removeTimer fd' =>
    have hnext := hc.next quiet h.idle (.removeTimeout fd')
    refine ⟨_, hnext, ?_⟩
    rw [countdownNext, Alarm.set]
    split_ifs
    · rfl
    · exact hleft

lemma turning_foldl (h : Turning s) {alarm : Option Alarm} (hshows : Shows fd s alarm) (clock : ℕ)
    (ops : List (TimerOp κ)) : Turning (ops.foldl apply s) ∧
      Shows fd (ops.foldl apply s) (ops.foldl (Alarm.set fd clock) alarm) := by
  induction ops generalizing s alarm with
  | nil => exact ⟨h, hshows⟩
  | cons op ops ih => exact ih (turning_apply h op) (shows_apply h hshows clock op)

/-- A tick fires the timer of the descriptor if and only if the alarm rings. -/
lemma shows_processTimers (h : Turning s) {alarm : Option Alarm} (hshows : Shows fd s alarm) :
    Turning s.processTimers.2 ∧ Shows fd s.processTimers.2 (Alarm.tick alarm) ∧
      s.processTimers.1.filter (·.1 = fd) = (Alarm.ring s.clock alarm).map fun r => (fd, r.1) := by
  obtain ⟨c, hc, hleft⟩ := hshows
  obtain ⟨htick, hfires⟩ := hc.tick quiet h.idle
  obtain ⟨hleft', hlength⟩ := Alarm.ticksLeft_tick hleft
  have hready := (processTimers_spec h.ready).1
  rw [processTimers_eq h] at hready ⊢
  refine ⟨⟨hready, h.idle.next .tick⟩, ⟨_, htick, hleft'⟩, ?_⟩
  -- what has fired of the descriptor is a list as long as the ringing of the alarm
  have hcount : ((s.loop.timerWheel.next quiet .tick).2.filter (·.fd = fd)).length =
      (Alarm.ring s.clock alarm).length := by
    rw [← hlength s.clock, ← hfires, List.length_map]
  have hfired : ((s.loop.timerWheel.next quiet .tick).2.map fun task => (task.fd, s.clock)).filter
      (·.1 = fd) = List.replicate (Alarm.ring s.clock alarm).length (fd, s.clock) := by
    rw [← hcount, List.filter_map, List.eq_replicate_iff, List.length_map]
    refine ⟨rfl, ?_⟩
    intro e he
    obtain ⟨task, htask, rfl⟩ := List.mem_map.mp he
    have hfd := List.of_mem_filter htask
    simp only [Function.comp_apply, decide_eq_true_eq] at hfd
    rw [hfd]
  rw [hfired]
  match alarm with
  | none => rfl
  | some ⟨0, _⟩ => rfl
  | some ⟨_ + 1, _⟩ => rfl

lemma shows_turn (h : Turning s) {alarm : Option Alarm} (hshows : Shows fd s alarm)
    (turn : LoopTurn κ) : Turning (s.turn turn).2 ∧
      Shows fd (s.turn turn).2 (Alarm.after fd s.clock alarm turn) ∧
      (s.turn turn).1.filter (·.1 = fd) = (Alarm.ring s.clock alarm).map fun r => (fd, r.1) := by
  obtain ⟨hturning, hshows', hfired⟩ := shows_processTimers h hshows
  have hclock := (processTimers_spec h.ready).2.1
  have hnext := (nextTimeout_spec hturning.ready).1
  simp only [LoopState.turn, hnext]
  obtain ⟨hturning', hshows''⟩ := turning_foldl
    (s := { s.processTimers.2 with clock := s.processTimers.2.clock + turn.wait })
    ⟨hturning.ready.at _, hturning.idle⟩ hshows' (s.clock + turn.wait) turn.ops
  exact ⟨hturning', hshows'', hfired⟩

lemma firings_eq (h : Turning s) {alarm : Option Alarm} (hshows : Shows fd s alarm)
    (turns : List (LoopTurn κ)) : (s.firings turns).filter (·.1 = fd) =
      (Alarm.rings fd s.clock alarm turns).map fun r => (fd, r.1) := by
  induction turns generalizing s alarm with
  | nil => rfl
  | cons turn turns ih =>
    obtain ⟨hturning, hshows', hfired⟩ := shows_turn h hshows turn
    have hrest := ih hturning hshows'
    rw [clock_turn h.ready] at hrest
    rw [firings, Alarm.rings, List.filter_append, List.map_append, hfired, hrest]

lemma timeout_le (s : LoopState κ) : s.timeout ≤ 1000 := by
  simp only [timeout, nextTimeout, EventLoop.clampTimeout]
  split_ifs <;> omega

lemma wait_le_of_admits {turns : List (LoopTurn κ)} (h : s.Admits turns) :
    ∀ turn ∈ turns, turn.wait ≤ 1000 := by
  induction turns generalizing s with
  | nil =>
    intro turn hturn
    cases hturn
  | cons turn turns ih =>
    rw [List.forall_mem_cons]
    have hle := h.1.trans s.timeout_le
    exact ⟨by omega, ih h.2⟩

/-- In every run of the loop the timers of a descriptor fire exactly when its alarm rings: set by
each timer that is accepted, replaced by the next one, given up when the timer is removed, and once
at most. Where every wait ends in time, none of them fires behind its deadline. -/
theorem fires_in_time (fd : ℤ) (ops : List (TimerOp κ)) (turns : List (LoopTurn κ)) :
    ((ops.foldl apply new).firings turns).filter (·.1 = fd) =
        (Alarm.rings fd 0 (ops.foldl (Alarm.set fd 0) none) turns).map (fun r => (fd, r.1)) ∧
      ((ops.foldl apply new).Admits turns →
        ∀ r ∈ Alarm.rings fd 0 (ops.foldl (Alarm.set fd 0) none) turns, r.1 ≤ r.2) := by
  have hnone : Shows fd (new : LoopState κ) none :=
    ⟨.spent, ⟨fun hmem => (List.not_mem_nil hmem).elim, fun _ _ hmem => (List.not_mem_nil hmem).elim⟩,
      rfl⟩
  obtain ⟨hturning, hshows⟩ := turning_foldl turning_new hnone 0 ops
  have hclock : (ops.foldl apply (new : LoopState κ)).clock = 0 :=
    (foldl_apply_spec ready_new ops).2.1
  have hfirings := firings_eq hturning hshows turns
  rw [hclock] at hfirings
  refine ⟨hfirings, fun hadmits => Alarm.time_le_deadline ?_ (wait_le_of_admits hadmits)⟩
  apply Alarm.inTime_foldl_set
  intro a ha
  cases ha

/-- A timer of sixty-two seconds takes two slots and a lap, and a shorter one replaces it. -/
theorem fires_in_time_replaced :
    ((([.addTimer 5 62 ()] : List (TimerOp Unit)).foldl apply new).firings
        [⟨1000, []⟩, ⟨500, [.addTimer 5 1 ()]⟩, ⟨1000, []⟩, ⟨0, []⟩]).filter (·.1 = 5) =
      [(5, 2500)] ∧ 2500 ≤ 2500 := by
  have hadmits : (([.addTimer 5 62 ()] : List (TimerOp Unit)).foldl apply new).Admits
      [⟨1000, []⟩, ⟨500, [.addTimer 5 1 ()]⟩, ⟨1000, []⟩, ⟨0, []⟩] :=
    ⟨by decide, by decide, by decide, by decide, trivial⟩
  obtain ⟨hfirings, hdeadlines⟩ := fires_in_time 5 [.addTimer 5 62 ()]
    [⟨1000, []⟩, ⟨500, [.addTimer 5 1 ()]⟩, ⟨1000, []⟩, ⟨0, []⟩]
  exact ⟨hfirings, hdeadlines hadmits (2500, 2500) (by decide)⟩

end LoopState

end TinyWebServer
