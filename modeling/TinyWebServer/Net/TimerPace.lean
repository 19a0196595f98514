import TinyWebServer.Net.EventLoop
import TinyWebServer.Net.WheelTimers

/-!
# How fast the wheel turns

The loop ticks the wheel once per turn, whatever time `epoll_wait` took. A timer of `t` seconds
fires on the `t + 1`-st tick behind its addition, so that it is on time only if every wait in
between lasted the whole second.
-/

namespace TinyWebServer

/-- What the callbacks and functors of a turn do to the timers of the loop. -/
inductive TimerOp (κ : Type*) where
  | addTimer (fd timeoutSeconds : ℤ) (callback : κ)
  | removeTimer (fd : ℤ)

namespace TimerOp

variable {κ : Type*}

/-- The descriptor whose timer is set or removed. -/
def fd : TimerOp κ → ℤ
  | addTimer fd _ _ => fd
  | removeTimer fd => fd

end TimerOp

/-- One turn of `Loop`: the milliseconds `epoll_wait` took, and the timer operations of the event
callbacks and pending functors that ran then. -/
structure LoopTurn (κ : Type*) where
  wait : ℕ
  ops : List (TimerOp κ)

/-- A running loop and the milliseconds it spent waiting. -/
structure LoopState (κ : Type*) where
  loop : EventLoop κ
  clock : ℕ

namespace LoopState

variable {κ : Type*}

def new : LoopState κ := ⟨.new, 0⟩

def apply (s : LoopState κ) : TimerOp κ → LoopState κ
  | .addTimer fd timeoutSeconds callback =>
    { s with loop := (s.loop.addTimer fd timeoutSeconds callback).2 }
  | .removeTimer fd => { s with loop := (s.loop.removeTimer fd).2 }

/-- A callback writes down the descriptor and the time. It does not touch the wheel. -/
def note (clock : ℕ) (task : TimerTask κ) (s : TimerWheel κ × List (ℤ × ℕ)) :
    TimerWheel κ × List (ℤ × ℕ) :=
  (s.1, s.2 ++ [(task.fd, clock)])

/-- `ProcessTimers`, with the timers it fires. -/
def processTimers (s : LoopState κ) : List (ℤ × ℕ) × LoopState κ :=
  let result := TimerWheel.tick (note s.clock) (s.loop.timerWheel, [])
  (result.2.2, { s with loop := { s.loop with timerWheel := result.2.1 } })

/-- The timeout that `Loop` computes behind the tick. -/
def nextTimeout (s : LoopState κ) : ℤ × LoopState κ :=
  let result := s.loop.timerWheel.getNextTickTimeout
  (EventLoop.clampTimeout result.1, { s with loop := { s.loop with timerWheel := result.2 } })

/-- The longest that `epoll_wait` waits in the turn that begins now. -/
def timeout (s : LoopState κ) : ℤ := s.processTimers.2.nextTimeout.1

/-- The timers that a turn fires, and the state behind it. -/
def turn (s : LoopState κ) (turn : LoopTurn κ) : List (ℤ × ℕ) × LoopState κ :=
  let (fired, s) := s.processTimers
  let (_, s) := s.nextTimeout
  let s := { s with clock := s.clock + turn.wait }
  (fired, turn.ops.foldl apply s)

/-- The timers that a run fires. -/
def firings (s : LoopState κ) : List (LoopTurn κ) → List (ℤ × ℕ)
  | [] => []
  | turn :: turns => (s.turn turn).1 ++ firings (s.turn turn).2 turns

/-- Every wait of the run ends in time. -/
def Admits (s : LoopState κ) : List (LoopTurn κ) → Prop
  | [] => True
  | turn :: turns => (turn.wait : ℤ) ≤ s.timeout ∧ Admits (s.turn turn).2 turns

/-- The states that turns and timer operations lead to. -/
inductive Reachable : LoopState κ → Prop where
  | new : Reachable new
  | apply {s : LoopState κ} (op : TimerOp κ) : Reachable s → Reachable (s.apply op)
  | turn {s : LoopState κ} (turn : LoopTurn κ) :
      Reachable s → (turn.wait : ℤ) ≤ s.timeout → Reachable (s.turn turn).2

/-! ### The wheel of a running loop -/

/-- Nobody holds the mutex between two steps, and the ring is that of the constructor. -/
structure Ready (s : LoopState κ) : Prop where
  inv : s.loop.timerWheel.Inv fun _ _ => True
  free : s.loop.timerWheel.mutexHeld = false
  wheelSize : s.loop.timerWheel.wheelSize = 60
  tickIntervalMs : s.loop.timerWheel.tickIntervalMs = 1000

lemma keepsWheel_note (clock : ℕ) : TimerWheel.KeepsWheel (note (κ := κ) clock) :=
  fun _ s _ => ⟨s.1.reentered, rfl⟩

lemma Ready.at {s : LoopState κ} (h : Ready s) (clock : ℕ) : Ready { s with clock := clock } :=
  ⟨h.inv, h.free, h.wheelSize, h.tickIntervalMs⟩

lemma ready_new : Ready (new : LoopState κ) :=
  ⟨TimerWheel.inv_new (by decide) 1000, rfl, rfl, rfl⟩

lemma ready_apply {s : LoopState κ} (h : Ready s) (op : TimerOp κ) : Ready (s.apply op) := by
  cases op with
  | addTimer fd timeoutSeconds callback =>
    have hagree := TimerWheel.agree_addTimeout h.inv timeoutSeconds callback
      (show fd ≠ fd + 1 by omega)
    refine ⟨TimerWheel.inv_addTimeout h.inv fun _ => trivial, ?_,
      hagree.wheelSize.trans h.wheelSize, hagree.tickIntervalMs.trans h.tickIntervalMs⟩
    change (s.loop.timerWheel.addTimeout fd timeoutSeconds (some callback)).2.mutexHeld = false
    rcases TimerWheel.addTimeout_cases s.loop.timerWheel fd timeoutSeconds callback with
      heq | ⟨-, hheld, -⟩ | ⟨-, -, heq⟩
    · rw [heq]
      exact h.free
    · exact absurd (h.free.symm.trans hheld) (by decide)
    · rw [heq]
  | removeTimer fd =>
    have hagree := TimerWheel.agree_removeTimeout h.inv (show fd ≠ fd + 1 by omega)
    refine ⟨TimerWheel.inv_removeTimeout h.inv fd, ?_, hagree.wheelSize.trans h.wheelSize,
      hagree.tickIntervalMs.trans h.tickIntervalMs⟩
    change (s.loop.timerWheel.removeTimeout fd).2.mutexHeld = false
    rcases TimerWheel.removeTimeout_cases s.loop.timerWheel fd with
      ⟨-, heq⟩ | ⟨-, hheld, -⟩ | ⟨-, -, heq⟩
    · rw [heq]
      exact h.free
    · exact absurd (h.free.symm.trans hheld) (by decide)
    · rw [heq]

lemma processTasks_note (clock slot : ℕ) (tasks : List (TimerTask κ))
    (s : TimerWheel κ × List (ℤ × ℕ)) :
    (TimerWheel.processTasks (note clock) slot tasks s).2.2 =
      s.2 ++ (tasks.filter (·.remainingTicks ≤ 0)).map fun task => (task.fd, clock) := by
  induction tasks generalizing s with
  | nil => simp [TimerWheel.processTasks]
  | cons task rest ih =>
    rw [TimerWheel.processTasks]
    split_ifs with hticks
    · rw [ih, List.filter_cons_of_neg (by simp only [decide_eq_true_eq]; omega)]
    · rw [List.filter_cons_of_pos (by simp only [decide_eq_true_eq]; omega)]
      dsimp only
      rw [ih]
      simp [note]

/-- What the tick of a turn does: it fires the tasks of the current slot that have no rounds left,
moves the hand, and leaves the descriptors without a task in this slot alone. -/
lemma processTimers_spec {s : LoopState κ} (h : Ready s) :
    Ready s.processTimers.2 ∧ s.processTimers.2.clock = s.clock ∧
    s.processTimers.1 = ((s.loop.timerWheel.wheel s.loop.timerWheel.currentSlot).filter
      (·.remainingTicks ≤ 0)).map (fun task => (task.fd, s.clock)) ∧
    s.processTimers.2.loop.timerWheel.currentSlot = (s.loop.timerWheel.currentSlot + 1) % 60 ∧
    ∀ fd, (∀ task ∈ s.loop.timerWheel.wheel s.loop.timerWheel.currentSlot, task.fd ≠ fd) →
      (∀ i, (s.processTimers.2.loop.timerWheel.wheel i).filter (·.fd = fd) =
        (s.loop.timerWheel.wheel i).filter (·.fd = fd)) ∧
      (fd ∈ s.processTimers.2.loop.timerWheel.timers ↔ fd ∈ s.loop.timerWheel.timers) := by
  have htick := TimerWheel.tick_eq (note s.clock) (s := (s.loop.timerWheel, [])) h.inv h.free
  have hagree : ∀ fd,
      (∀ task ∈ s.loop.timerWheel.wheel s.loop.timerWheel.currentSlot, task.fd ≠ fd) → _ :=
    fun fd hfd => TimerWheel.agree_processTasks (keepsWheel_note s.clock)
      s.loop.timerWheel.currentSlot fd _ ({ s.loop.timerWheel with mutexHeld := true }, [])
      (h.inv.task_ok _) hfd (TimerWheel.inv_flags h.inv true _) rfl
  -- Some descriptor has no task in the slot, which tells that the ring stays as it is.
  obtain ⟨fresh, hfresh⟩ := Infinite.exists_notMem_finset
    ((s.loop.timerWheel.wheel s.loop.timerWheel.currentSlot).map (·.fd)).toFinset
  have hring := hagree fresh fun task htask heq =>
    hfresh (List.mem_toFinset.mpr (List.mem_map.mpr ⟨task, htask, heq⟩))
  have hsize := hring.wheelSize.trans h.wheelSize
  refine ⟨⟨?_, ?_, ?_, ?_⟩, rfl, ?_, ?_, ?_⟩
  · exact TimerWheel.inv_tick (keepsWheel_note s.clock) h.inv h.free
  · simp only [processTimers, htick]
  · simp only [processTimers, htick]
    exact hsize
  · simp only [processTimers, htick]
    exact hring.tickIntervalMs.trans h.tickIntervalMs
  · simp only [processTimers, htick, processTasks_note, List.nil_append]
  · simp only [processTimers, htick]
    rw [hsize, hring.currentSlot]
  · intro fd hfd
    simp only [processTimers, htick]
    exact ⟨(hagree fd hfd).tasks, (hagree fd hfd).timers⟩

/-! ### A timer that waits for its slot -/

/-- The only task of the descriptor hangs in this slot and has no rounds left. -/
structure Armed (fd : ℤ) (callback : κ) (slot : ℕ) (w : TimerWheel κ) : Prop where
  tasks : ∀ i, (w.wheel i).filter (·.fd = fd) = if i = slot then [⟨fd, callback, 0⟩] else []
  mem_timers : fd ∈ w.timers

variable {fd : ℤ} {callback : κ} {slot : ℕ}

lemma Armed.of_agree {w w' : TimerWheel κ} (h : Armed fd callback slot w)
    (hagree : TimerWheel.Agree fd w w') : Armed fd callback slot w' :=
  ⟨fun i => (hagree.tasks i).trans (h.tasks i), hagree.timers.mpr h.mem_timers⟩

lemma agree_apply {s : LoopState κ} (h : Ready s) {op : TimerOp κ} (hop : op.fd ≠ fd) :
    TimerWheel.Agree fd s.loop.timerWheel (s.apply op).loop.timerWheel := by
  cases op with
  | addTimer fd' timeoutSeconds callback =>
    exact TimerWheel.agree_addTimeout h.inv timeoutSeconds callback hop
  | removeTimer fd' => exact TimerWheel.agree_removeTimeout h.inv hop

lemma clock_apply (s : LoopState κ) (op : TimerOp κ) : (s.apply op).clock = s.clock := by
  cases op <;> rfl

lemma foldl_apply_spec {s : LoopState κ} (h : Ready s) (ops : List (TimerOp κ)) :
    Ready (ops.foldl apply s) ∧ (ops.foldl apply s).clock = s.clock ∧
      ∀ fd, (∀ op ∈ ops, op.fd ≠ fd) →
        TimerWheel.Agree fd s.loop.timerWheel (ops.foldl apply s).loop.timerWheel := by
  induction ops generalizing s with
  | nil => exact ⟨h, rfl, fun fd _ => TimerWheel.Agree.refl fd _⟩
  | cons op ops ih =>
    obtain ⟨hready, hclock, hagree⟩ := ih (ready_apply h op)
    refine ⟨hready, hclock.trans (clock_apply s op), fun fd hops => ?_⟩
    exact (agree_apply h (hops op (List.mem_cons_self ..))).trans
      (hagree fd fun op hop => hops op (List.mem_cons_of_mem _ hop))

lemma nextTimeout_spec {s : LoopState κ} (h : Ready s) :
    s.nextTimeout.2 = s ∧
      (s.loop.timerWheel.timers ≠ [] → s.nextTimeout.1 = 1000) := by
  have hfree := h.free
  have hread : s.loop.timerWheel.getNextTickTimeout =
      (if s.loop.timerWheel.timers = [] then -1 else s.loop.timerWheel.tickIntervalMs,
        s.loop.timerWheel) := by
    rw [TimerWheel.getNextTickTimeout, TimerWheel.withLock, if_neg (by simp [hfree])]
    dsimp only
    rw [← hfree]
  constructor
  · simp only [nextTimeout, hread]
  · intro hne
    simp only [nextTimeout, hread, if_neg hne, h.tickIntervalMs]
    rfl

lemma ready_turn {s : LoopState κ} (h : Ready s) (turn : LoopTurn κ) : Ready (s.turn turn).2 := by
  obtain ⟨hready, -⟩ := processTimers_spec h
  have hnext := (nextTimeout_spec hready).1
  simp only [LoopState.turn, hnext]
  exact (foldl_apply_spec (hready.at _) _).1

lemma Reachable.ready {s : LoopState κ} (h : Reachable s) : Ready s := by
  induction h with
  | new => exact ready_new
  | apply op _ ih => exact ready_apply ih op
  | turn turn _ _ ih => exact ready_turn ih turn

/-- A turn before the hand reaches the slot leaves the timer armed and does not fire it; its wait
is at most a second. -/
lemma turn_of_armed {s : LoopState κ} (h : Ready s)
    (harmed : Armed fd callback slot s.loop.timerWheel)
    (hslot : s.loop.timerWheel.currentSlot ≠ slot) {turn : LoopTurn κ}
    (hops : ∀ op ∈ turn.ops, op.fd ≠ fd) :
    Armed fd callback slot (s.turn turn).2.loop.timerWheel ∧
    (s.turn turn).2.loop.timerWheel.currentSlot = (s.loop.timerWheel.currentSlot + 1) % 60 ∧
    (s.turn turn).2.clock = s.clock + turn.wait ∧
    (∀ e ∈ (s.turn turn).1, e.1 ≠ fd) ∧ s.timeout = 1000 := by
  have hnone : ∀ task ∈ s.loop.timerWheel.wheel s.loop.timerWheel.currentSlot,
      task.fd ≠ fd := by
    intro task htask heq
    have hmem : task ∈ (s.loop.timerWheel.wheel s.loop.timerWheel.currentSlot).filter
        (·.fd = fd) := List.mem_filter.mpr ⟨htask, decide_eq_true heq⟩
    rw [harmed.tasks, if_neg hslot] at hmem
    cases hmem
  obtain ⟨hready, hclock, hfired, hcurrent, hother⟩ := processTimers_spec h
  obtain ⟨htasks, htimers⟩ := hother fd hnone
  have harmed' : Armed fd callback slot s.processTimers.2.loop.timerWheel :=
    ⟨fun i => (htasks i).trans (harmed.tasks i), htimers.mpr harmed.mem_timers⟩
  have hnext := nextTimeout_spec hready
  have hops' := foldl_apply_spec (hready.at (s.processTimers.2.clock + turn.wait)) turn.ops
  have hagree := hops'.2.2 fd hops
  simp only [LoopState.turn, hnext.1]
  refine ⟨harmed'.of_agree hagree, hagree.currentSlot.trans hcurrent, ?_, ?_, ?_⟩
  · rw [hops'.2.1]
    dsimp only
    rw [hclock]
  · rw [hfired]
    intro e he
    obtain ⟨task, htask, rfl⟩ := List.mem_map.mp he
    exact hnone task (List.mem_of_mem_filter htask)
  · exact hnext.2 (List.ne_nil_of_mem harmed'.mem_timers)

/-- The turn in which the hand is at the slot fires the timer. -/
lemma fires_of_armed {s : LoopState κ} (h : Ready s)
    (harmed : Armed fd callback s.loop.timerWheel.currentSlot s.loop.timerWheel)
    (turn : LoopTurn κ) : (fd, s.clock) ∈ (s.turn turn).1 := by
  obtain ⟨-, -, hfired, -⟩ := processTimers_spec h
  have htask := harmed.tasks s.loop.timerWheel.currentSlot
  rw [if_pos rfl] at htask
  have hmem : (⟨fd, callback, 0⟩ : TimerTask κ) ∈
      (s.loop.timerWheel.wheel s.loop.timerWheel.currentSlot).filter (·.fd = fd) := by
    rw [htask]
    exact List.mem_singleton_self _
  simp only [LoopState.turn, hfired]
  exact List.mem_map.mpr
    ⟨_, List.mem_filter.mpr ⟨List.mem_of_mem_filter hmem, decide_eq_true le_rfl⟩, rfl⟩

lemma clock_le_of_mem_turn {s : LoopState κ} (h : Ready s) {turn : LoopTurn κ} {e : ℤ × ℕ}
    (he : e ∈ (s.turn turn).1) : e.2 = s.clock := by
  obtain ⟨-, -, hfired, -⟩ := processTimers_spec h
  simp only [LoopState.turn, hfired] at he
  obtain ⟨task, -, rfl⟩ := List.mem_map.mp he
  rfl

lemma clock_turn {s : LoopState κ} (h : Ready s) (turn : LoopTurn κ) :
    (s.turn turn).2.clock = s.clock + turn.wait := by
  obtain ⟨hready, hclock, -⟩ := processTimers_spec h
  have hnext := (nextTimeout_spec hready).1
  simp only [LoopState.turn, hnext]
  rw [(foldl_apply_spec (hready.at _) _).2.1]
  dsimp only
  rw [hclock]

/-- Nothing fires before the present. -/
lemma clock_le_of_mem_firings {s : LoopState κ} (h : Ready s) {turns : List (LoopTurn κ)}
    {e : ℤ × ℕ} (he : e ∈ s.firings turns) : s.clock ≤ e.2 := by
  induction turns generalizing s with
  | nil => cases he
  | cons turn turns ih =>
    rcases List.mem_append.mp he with he | he
    · exact (clock_le_of_mem_turn h he).ge
    · have hle := ih (ready_turn h turn) he
      rw [clock_turn h turn] at hle
      omega

/-- With `n` slots to go, the timer fires behind exactly `n` waits. -/
lemma firings_of_armed {s : LoopState κ} (h : Ready s)
    (harmed : Armed fd callback slot s.loop.timerWheel) {n : ℕ} (hn : n < 60)
    (hslot : (s.loop.timerWheel.currentSlot + n) % 60 = slot) {turns : List (LoopTurn κ)}
    (hops : ∀ turn ∈ turns, ∀ op ∈ turn.ops, op.fd ≠ fd) (deadline : ℕ) :
    (∀ e ∈ s.firings turns, e.1 = fd → deadline ≤ e.2) ↔
      turns.length ≤ n ∨ deadline ≤ s.clock + ((turns.take n).map (·.wait)).sum := by
  have hcurrent : s.loop.timerWheel.currentSlot < 60 := by
    rw [← h.wheelSize]
    exact h.inv.currentSlot_lt
  induction n generalizing s turns with
  | zero =>
    have hnow : s.loop.timerWheel.currentSlot = slot := by omega
    subst hnow
    cases turns with
    | nil => simp [firings]
    | cons turn turns =>
      constructor
      · intro hall
        right
        exact hall _ (List.mem_append_left _ (fires_of_armed h harmed turn)) rfl
      · rintro (hlen | hle) e he -
        · simp at hlen
        · exact le_trans hle (clock_le_of_mem_firings h he)
  | succ n ih =>
    cases turns with
    | nil => simp [firings]
    | cons turn turns =>
      have hne : s.loop.timerWheel.currentSlot ≠ slot := by omega
      obtain ⟨harmed', hcurrent', hclock', hfired, -⟩ :=
        turn_of_armed h harmed hne (hops turn (List.mem_cons_self ..))
      have hrest := ih (ready_turn h turn) harmed' (by omega) (by omega)
        (fun t ht => hops t (List.mem_cons_of_mem _ ht)) (by omega)
      have hfirst : (∀ e ∈ s.firings (turn :: turns), e.1 = fd → deadline ≤ e.2) ↔
          ∀ e ∈ (s.turn turn).2.firings turns, e.1 = fd → deadline ≤ e.2 := by
        rw [firings, List.forall_mem_append]
        exact and_iff_right fun e he heq => absurd heq (hfired e he)
      refine hfirst.trans (hrest.trans ?_)
      rw [hclock', List.length_cons, List.take_succ_cons, List.map_cons, List.sum_cons]
      omega

/-- No wait in front of the timer is longer than a second. -/
lemma wait_le_of_armed {s : LoopState κ} (h : Ready s)
    (harmed : Armed fd callback slot s.loop.timerWheel) {n : ℕ} (hn : n < 60)
    (hslot : (s.loop.timerWheel.currentSlot + n) % 60 = slot) {turns : List (LoopTurn κ)}
    (hops : ∀ turn ∈ turns, ∀ op ∈ turn.ops, op.fd ≠ fd) (hadmits : s.Admits turns) :
    ∀ turn ∈ turns.take n, turn.wait ≤ 1000 := by
  have hcurrent : s.loop.timerWheel.currentSlot < 60 := by
    rw [← h.wheelSize]
    exact h.inv.currentSlot_lt
  induction n generalizing s turns with
  | zero => exact fun _ hmem => nomatch hmem
  | succ n ih =>
    cases turns with
    | nil => exact fun _ hmem => nomatch hmem
    | cons turn turns =>
      have hne : s.loop.timerWheel.currentSlot ≠ slot := by omega
      obtain ⟨harmed', hcurrent', -, -, htimeout⟩ :=
        turn_of_armed h harmed hne (hops turn (List.mem_cons_self ..))
      rw [List.take_succ_cons, List.forall_mem_cons]
      constructor
      · have := hadmits.1
        rw [htimeout] at this
        omega
      · exact ih (ready_turn h turn) harmed' (by omega) (by omega)
          (fun t ht => hops t (List.mem_cons_of_mem _ ht)) hadmits.2 (by omega)

lemma sum_waits_le {turns : List (LoopTurn κ)} (h : ∀ turn ∈ turns, turn.wait ≤ 1000) :
    (turns.map (·.wait)).sum ≤ turns.length * 1000 := by
  induction turns with
  | nil => exact Nat.zero_le _
  | cons turn turns ih =>
    rw [List.forall_mem_cons] at h
    have hrest := ih h.2
    rw [List.map_cons, List.sum_cons, List.length_cons]
    omega

/-- Waits of at most a second add up to as many seconds only if each is a whole one. -/
lemma sum_waits_iff {turns : List (LoopTurn κ)} (h : ∀ turn ∈ turns, turn.wait ≤ 1000) :
    turns.length * 1000 ≤ (turns.map (·.wait)).sum ↔ ∀ turn ∈ turns, turn.wait = 1000 := by
  induction turns with
  | nil =>
    refine iff_of_true ?_ fun _ hmem => nomatch hmem
    rw [List.length_nil, Nat.zero_mul]
    exact Nat.zero_le _
  | cons turn turns ih =>
    rw [List.forall_mem_cons] at h ⊢
    have hle := sum_waits_le h.2
    rw [← ih h.2, List.map_cons, List.sum_cons, List.length_cons]
    omega

/-! ### From the addition to the firing -/

/-- A timer of less than a lap is armed in the slot that the hand reaches behind that many
ticks. -/
lemma armed_addTimer {s : LoopState κ} (h : Ready s) (hfd : 0 ≤ fd) {t : ℕ} (ht : 1 ≤ t)
    (hlt : t < 60) (callback : κ) :
    Armed fd callback ((s.loop.timerWheel.currentSlot + t) % 60)
      (s.apply (.addTimer fd t callback)).loop.timerWheel := by
  have haccepted : ¬ TimerWheel.Refused s.loop.timerWheel.wheelSize fd t (some callback) := by
    rw [h.wheelSize]
    rintro (hneg | hneg | hnone | hlong)
    · exact absurd hfd (not_le.mpr hneg)
    · omega
    · cases hnone
    · change (600 : ℤ) < t at hlong
      omega
  obtain ⟨place, remainingTicks, hplace, hslot, heq⟩ :=
    TimerWheel.addTimeout_accepted h.inv h.free haccepted
  have hcalculated : s.loop.timerWheel.calculateSlot t =
      .ok ((s.loop.timerWheel.currentSlot + t) % 60, 0) := by
    rw [TimerWheel.calculateSlot, if_neg (by omega), h.wheelSize, if_pos]
    · rfl
    · change (t : ℤ) ≤ 60
      omega
  cases hslot.symm.trans hcalculated
  have hnone := TimerWheel.filter_eq_nil_of_vacant (TimerWheel.vacant_detach h.inv fd)
  have hring : (s.loop.timerWheel.currentSlot + t) % 60 <
      (s.loop.timerWheel.detach fd).wheelSize :=
    (TimerWheel.wheelSize_detach h.inv fd).symm ▸ hplace
  change Armed fd callback _ (s.loop.timerWheel.addTimeout fd t (some callback)).2
  rw [heq, TimerWheel.addTaskToSlot_eq (TimerWheel.inv_detach h.inv fd) hring]
  constructor
  · intro i
    dsimp only
    rw [Function.update_apply]
    split_ifs with hi
    · rw [List.filter_cons_of_pos (by simp), hnone]
    · exact hnone i
  · exact List.mem_cons_self ..

/-- A timer of `t` seconds, `1 ≤ t < 60`, that nobody removes or replaces never fires early if
and only if the loop makes no more than `t` turns behind the addition, or waits for a whole second
in each of the first `t`. -/
theorem not_early_iff {s : LoopState κ} (hs : Reachable s) (hfd : 0 ≤ fd) {t : ℕ} (ht : 1 ≤ t)
    (hlt : t < 60) (callback : κ) (ops : List (TimerOp κ)) (hops : ∀ op ∈ ops, op.fd ≠ fd)
    (turns : List (LoopTurn κ)) (hturns : ∀ turn ∈ turns, ∀ op ∈ turn.ops, op.fd ≠ fd)
    (hadmits : (ops.foldl apply (s.apply (.addTimer fd t callback))).Admits turns) :
    (∀ e ∈ (ops.foldl apply (s.apply (.addTimer fd t callback))).firings turns,
        e.1 = fd → s.clock + t * 1000 ≤ e.2) ↔
      turns.length ≤ t ∨ ∀ turn ∈ turns.take t, turn.wait = 1000 := by
  have hready := hs.ready
  have hadded := ready_apply hready (.addTimer fd t callback)
  have hcurrent : (s.apply (.addTimer fd t callback)).loop.timerWheel.currentSlot =
      s.loop.timerWheel.currentSlot :=
    (agree_apply hready (show (TimerOp.addTimer fd t callback).fd ≠ fd + 1 from
      (Int.lt_add_one_iff.mpr le_rfl).ne)).currentSlot
  obtain ⟨hready', hclock, hagree⟩ := foldl_apply_spec hadded ops
  have harmed := (armed_addTimer hready hfd ht hlt callback).of_agree (hagree fd hops)
  have hslot : ((ops.foldl apply (s.apply (.addTimer fd t callback))).loop.timerWheel.currentSlot
      + t) % 60 = (s.loop.timerWheel.currentSlot + t) % 60 := by
    rw [(hagree fd hops).currentSlot, hcurrent]
  have hwaits := wait_le_of_armed hready' harmed hlt hslot hturns hadmits
  rw [firings_of_armed hready' harmed hlt hslot hturns, hclock, clock_apply]
  by_cases hlen : turns.length ≤ t
  · exact iff_of_true (Or.inl hlen) (Or.inl hlen)
  · have hsum := sum_waits_iff hwaits
    rw [List.length_take, min_eq_left (by omega)] at hsum
    rw [or_iff_right hlen, or_iff_right hlen, ← hsum]
    omega

/-- A timer of one second, with a second's wait in front of its tick. -/
theorem not_early_iff_second :
    (∀ e ∈ ((new : LoopState Unit).apply (.addTimer 5 1 ())).firings [⟨1000, []⟩, ⟨0, []⟩],
        e.1 = 5 → 0 + 1 * 1000 ≤ e.2) ↔
      [⟨1000, []⟩, (⟨0, []⟩ : LoopTurn Unit)].length ≤ 1 ∨
        ∀ turn ∈ [⟨1000, []⟩, (⟨0, []⟩ : LoopTurn Unit)].take 1, turn.wait = 1000 :=
  not_early_iff (.new) (by decide) (by decide) (by decide) () [] (by simp)
    [⟨1000, []⟩, ⟨0, []⟩] (by simp) ⟨by decide, by decide, trivial⟩

/-- A timer of thirty seconds behind thirty-one turns that other events end at once. -/
theorem early_thirty_seconds :
    ¬ ∀ e ∈ ((new : LoopState Unit).apply (.addTimer 5 30 ())).firings
        (List.replicate 31 ⟨0, []⟩), e.1 = 5 → 0 + 30 * 1000 ≤ e.2 := by
  decide

end LoopState

end TinyWebServer
