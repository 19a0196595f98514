import TinyWebServer.Net.ConnectionFrame
import TinyWebServer.Net.Reactor
import TinyWebServer.Net.WheelInvariant

/-!
# Callbacks under the lock of the wheel

A tick runs the callbacks of expired tasks while it holds the mutex of the wheel. Each of them
closes its connection, and that removes the timer of the descriptor, which takes the same mutex.
-/

namespace TinyWebServer

namespace TimerWheel

variable {κ : Type*}

lemma reentered_addTaskToSlot (w : TimerWheel κ) (slot : ℕ) (task : TimerTask κ) :
    (w.addTaskToSlot slot task).reentered = w.reentered := by
  rw [addTaskToSlot]
  split_ifs <;> rfl

lemma reentered_detach (w : TimerWheel κ) (fd : ℤ) : (w.detach fd).reentered = w.reentered := by
  rw [detach]
  split_ifs
  · simp only [cancel, erase]
    split_ifs <;> rfl
  · rfl

lemma reentered_addTimeoutLocked (w : TimerWheel κ) (fd timeoutSeconds : ℤ) (callback : κ) :
    (addTimeoutLocked fd timeoutSeconds callback w).2.reentered = w.reentered := by
  simp only [addTimeoutLocked]
  cases (w.detach fd).calculateSlot timeoutSeconds with
  | error err => exact reentered_detach w fd
  | ok result => exact (reentered_addTaskToSlot _ _ _).trans (reentered_detach w fd)

end TimerWheel

/-! ### Timer operations while the mutex is free, and while it is held -/

lemma keptByTimers_free {P : ℤ → TimerCallback → Prop} {fd : ℤ} {id : ℕ}
    (hP : ∀ timeoutType, 0 ≤ fd → P fd ⟨id, timeoutType⟩) (reentered : Bool) :
    KeptByTimers fd id fun w => w.Inv P ∧ w.mutexHeld = false ∧ w.reentered = reentered := by
  constructor
  · rintro w seconds timeoutType ⟨hinv, hfree, hflag⟩
    refine ⟨TimerWheel.inv_addTimeout hinv (hP timeoutType), ?_⟩
    rcases TimerWheel.addTimeout_cases w fd seconds ⟨id, timeoutType⟩ with
      heq | ⟨-, hheld, -⟩ | ⟨-, -, heq⟩
    · rw [heq]
      exact ⟨hfree, hflag⟩
    · exact absurd (hfree.symm.trans hheld) (by decide)
    · rw [heq]
      exact ⟨rfl, (TimerWheel.reentered_addTimeoutLocked _ _ _ _).trans hflag⟩
  · rintro w ⟨hinv, hfree, hflag⟩
    refine ⟨TimerWheel.inv_removeTimeout hinv fd, ?_⟩
    rcases TimerWheel.removeTimeout_cases w fd with ⟨-, heq⟩ | ⟨-, hheld, -⟩ | ⟨-, -, heq⟩
    · rw [heq]
      exact ⟨hfree, hflag⟩
    · exact absurd (hfree.symm.trans hheld) (by decide)
    · rw [heq]
      exact ⟨rfl, (TimerWheel.reentered_detach _ _).trans hflag⟩

/-- Behind a held mutex nothing of the wheel changes but the mark of a blocked call. -/
lemma keptByTimers_held (fd : ℤ) (id : ℕ) {w₀ : TimerWheel TimerCallback}
    (hheld : w₀.mutexHeld = true) :
    KeptByTimers fd id fun w => ∃ reentered, w = { w₀ with reentered := reentered } := by
  constructor
  · rintro w seconds timeoutType ⟨reentered, rfl⟩
    rcases TimerWheel.addTimeout_cases { w₀ with reentered := reentered } fd seconds
      ⟨id, timeoutType⟩ with heq | ⟨-, -, heq⟩ | ⟨-, hfree, -⟩
    · exact ⟨reentered, heq⟩
    · exact ⟨true, heq⟩
    · exact absurd (hfree.symm.trans hheld) (by decide)
  · rintro w ⟨reentered, rfl⟩
    rcases TimerWheel.removeTimeout_cases { w₀ with reentered := reentered } fd with
      ⟨-, heq⟩ | ⟨-, -, heq⟩ | ⟨-, hfree, -⟩
    · exact ⟨reentered, heq⟩
    · exact ⟨true, heq⟩
    · exact absurd (hfree.symm.trans hheld) (by decide)

/-- A blocked call stays blocked. -/
lemma keptByTimers_blocked (fd : ℤ) (id : ℕ) :
    KeptByTimers fd id fun w => w.mutexHeld = true ∧ w.reentered = true := by
  constructor
  · rintro w seconds timeoutType ⟨hheld, hflag⟩
    rcases TimerWheel.addTimeout_cases w fd seconds ⟨id, timeoutType⟩ with
      heq | ⟨-, -, heq⟩ | ⟨-, hfree, -⟩
    · rw [heq]
      exact ⟨hheld, hflag⟩
    · rw [heq]
      exact ⟨hheld, rfl⟩
    · exact absurd (hfree.symm.trans hheld) (by decide)
  · rintro w ⟨hheld, hflag⟩
    rcases TimerWheel.removeTimeout_cases w fd with ⟨-, heq⟩ | ⟨-, -, heq⟩ | ⟨-, hfree, -⟩
    · rw [heq]
      exact ⟨hheld, hflag⟩
    · rw [heq]
      exact ⟨hheld, rfl⟩
    · exact absurd (hfree.symm.trans hheld) (by decide)

namespace Session

lemma blocked_cancelTimeout {s : Session} (hfd : 0 ≤ s.conn.fd)
    (hheld : s.loop.timerWheel.mutexHeld = true) (timeoutType : TimeoutType) :
    Governed s.conn.fd s.conn.id (fun w => w.mutexHeld = true ∧ w.reentered = true)
      (s.cancelTimeout timeoutType) := by
  have hnames := (timersOnly_cancelTimeout s timeoutType).keepsInput
  have hwheel : (s.cancelTimeout timeoutType).loop.timerWheel =
      (s.loop.timerWheel.removeTimeout s.conn.fd).2 := by
    rw [cancelTimeout]
    split_ifs <;> rfl
  refine ⟨hnames.fd, hnames.id, ?_⟩
  rw [hwheel]
  rcases TimerWheel.removeTimeout_cases s.loop.timerWheel s.conn.fd with
    ⟨hneg, -⟩ | ⟨-, -, heq⟩ | ⟨-, hfree, -⟩
  · omega
  · rw [heq]
    exact ⟨hheld, rfl⟩
  · exact absurd (hfree.symm.trans hheld) (by decide)

/-- A state that no timeout belongs to cancels the timer three times, and the first call is
blocked. -/
lemma blocked_enterState_kClosed {s : Session} (hfd : 0 ≤ s.conn.fd)
    (hheld : s.loop.timerWheel.mutexHeld = true) :
    Governed s.conn.fd s.conn.id (fun w => w.mutexHeld = true ∧ w.reentered = true)
      (s.enterState .kClosed) := by
  have hQ := keptByTimers_blocked s.conn.fd s.conn.id
  let closed : Session := { s with conn := { s.conn with state := .kClosed } }
  have hread : Governed s.conn.fd s.conn.id (fun w => w.mutexHeld = true ∧ w.reentered = true)
      (if 0 < closed.conn.readTimeoutSeconds ∧ closed.conn.state = .kReading then
        closed.setupTimeout closed.conn.readTimeoutSeconds .read
      else closed.cancelTimeout .read) := by
    rw [if_neg fun h => ConnState.noConfusion h.2]
    exact blocked_cancelTimeout (s := closed) hfd hheld .read
  exact governed_setupOrCancel hQ (governed_setupOrCancel hQ hread _ _ .write) _ _ .idle

/-- The callback of a timeout calls into the wheel, whatever the kind of timeout and the state of
the connection. -/
lemma reentered_onTimeout {s : Session} (hfd : 0 ≤ s.conn.fd)
    (hheld : s.loop.timerWheel.mutexHeld = true) (timeoutType : TimeoutType) :
    (s.onTimeout timeoutType).loop.timerWheel.reentered = true := by
  have hclose : ∀ s : Session, 0 ≤ s.conn.fd → s.loop.timerWheel.mutexHeld = true →
      s.handleClose.loop.timerWheel.reentered = true := by
    intro s hfd hheld
    have hblocked := (blocked_enterState_kClosed hfd hheld).wheel.2
    simp only [handleClose]
    split_ifs <;> exact hblocked
  cases timeoutType <;> exact hclose _ hfd hheld

end Session

/-! ### Runs of the reactor -/

namespace Reactor

/-- The identities and descriptors of the connections, which never change. -/
def names (r : Reactor) : List (ℕ × ℤ) := r.conns.map fun conn => (conn.id, conn.fd)

/-- A task belongs to a connection on the task's own descriptor. -/
def Owned (names : List (ℕ × ℤ)) (fd : ℤ) (callback : TimerCallback) : Prop :=
  0 ≤ fd ∧ names[callback.conn]? = some (callback.conn, fd)

/-- What holds of a reactor between two steps. -/
structure Inv (r : Reactor) : Prop where
  wheel : r.loop.timerWheel.Inv (Owned r.names)
  free : r.loop.timerWheel.mutexHeld = false
  ids : ∀ (i id : ℕ) (fd : ℤ), r.names[i]? = some (id, fd) → id = i

/-- The next tick finds a task to run. -/
def Expires (r : Reactor) : Prop :=
  ∃ task ∈ r.loop.timerWheel.wheel r.loop.timerWheel.currentSlot, task.remainingTicks ≤ 0

lemma inv_new (kernel : ℕ → WriteOutcome) : (new kernel).Inv :=
  ⟨TimerWheel.inv_new (by decide) 1000, rfl, fun _ _ _ h => nomatch h⟩

/-- An operation of one connection keeps every name, and what its timer operations keep holds of
the wheel. -/
lemma on_spec (r : Reactor) (id : ℕ) (op : Session → Session)
    {Q : TimerWheel TimerCallback → Prop} (hQ : Q r.loop.timerWheel)
    (hop : ∀ conn, r.conns[id]? = some conn →
      (op (r.session conn)).Governed conn.fd conn.id Q) :
    (r.on id op).names = r.names ∧ Q (r.on id op).loop.timerWheel := by
  rw [on]
  split
  · exact ⟨rfl, hQ⟩
  · rename_i conn hconn
    obtain ⟨hfd, hid, hwheel⟩ := hop conn hconn
    refine ⟨?_, hwheel⟩
    obtain ⟨hlt, rfl⟩ := List.getElem?_eq_some_iff.mp hconn
    have hnames : (r.names.set id ((r.conns[id]).id, (r.conns[id]).fd)) = r.names := by
      have hlt' : id < r.names.length := by simpa [names] using hlt
      have hget : r.names[id] = ((r.conns[id]).id, (r.conns[id]).fd) := by simp [names]
      rw [← hget, List.set_getElem_self]
    simp only [names, List.map_set, hfd, hid] at hnames ⊢
    exact hnames

/-- The callback of a task leaves the wheel of the tick alone. -/
lemma keepsWheel_expire : TimerWheel.KeepsWheel expire := by
  intro task s hheld
  refine ((s.2.withWheel s.1).on_spec
    (Q := fun w => ∃ reentered, w = { s.1 with reentered := reentered }) task.callback.conn _
    ⟨s.1.reentered, rfl⟩ ?_).2
  intro conn _
  refine Session.governed_onTimeout (keptByTimers_held conn.fd conn.id hheld) ?_ _
  exact ⟨rfl, rfl, s.1.reentered, rfl⟩

lemma names_expire (task : TimerTask TimerCallback) (s : TimerWheel TimerCallback × Reactor) :
    (expire task s).2.names = s.2.names := by
  refine ((s.2.withWheel s.1).on_spec (Q := fun _ => True) task.callback.conn _ trivial ?_).1
  intro conn _
  refine Session.governed_onTimeout ⟨fun _ _ _ _ => trivial, fun _ _ => trivial⟩ ?_ _
  exact ⟨rfl, rfl, trivial⟩

/-- The callback of a task that a connection owns is blocked at the mutex. -/
lemma reentered_expire {task : TimerTask TimerCallback}
    {s : TimerWheel TimerCallback × Reactor} (hheld : s.1.mutexHeld = true)
    (howned : Owned s.2.names task.fd task.callback) : (expire task s).1.reentered = true := by
  obtain ⟨hfd, hname⟩ := howned
  rw [names, List.getElem?_map] at hname
  obtain ⟨conn, hconn, hpair⟩ := Option.map_eq_some_iff.mp hname
  have hconn' : (s.2.withWheel s.1).conns[task.callback.conn]? = some conn := hconn
  have hnonneg : 0 ≤ conn.fd := by rwa [(Prod.mk.inj hpair).2]
  simp only [expire, on, hconn']
  exact Session.reentered_onTimeout hnonneg hheld _

lemma reentered_moveOn (w : TimerWheel TimerCallback) (slot : ℕ)
    (task : TimerTask TimerCallback) : (w.moveOn slot task).reentered = w.reentered :=
  TimerWheel.reentered_addTaskToSlot _ _ _

/-- Over the tasks of a slot: a callback is blocked exactly if there is one to run. -/
lemma reentered_processTasks {P : ℤ → TimerCallback → Prop} (slot : ℕ)
    (tasks : List (TimerTask TimerCallback)) (s : TimerWheel TimerCallback × Reactor)
    (howned : ∀ task ∈ tasks, Owned s.2.names task.fd task.callback)
    (htasks : ∀ task ∈ tasks, P task.fd task.callback) (hinv : s.1.Inv P)
    (hheld : s.1.mutexHeld = true) :
    (TimerWheel.processTasks expire slot tasks s).2.2.names = s.2.names ∧
      ((TimerWheel.processTasks expire slot tasks s).2.1.reentered = true ↔
        s.1.reentered = true ∨ ∃ task ∈ tasks, task.remainingTicks ≤ 0) := by
  induction tasks generalizing s with
  | nil => simp [TimerWheel.processTasks]
  | cons task tasks ih =>
    have hrest := fun t ht => howned t (List.mem_cons_of_mem task ht)
    have hrest' := fun t ht => htasks t (List.mem_cons_of_mem task ht)
    rw [TimerWheel.processTasks]
    by_cases hticks : 0 < task.remainingTicks
    · rw [if_pos hticks]
      have hmove := ih (s.1.moveOn slot task, s.2) hrest hrest'
        (TimerWheel.inv_moveOn hinv (htasks task (List.mem_cons_self ..)))
        ((TimerWheel.mutexHeld_moveOn hinv slot task).trans hheld)
      refine ⟨hmove.1, hmove.2.trans ?_⟩
      rw [reentered_moveOn]
      simp [not_le.mpr hticks]
    · rw [if_neg hticks]
      obtain ⟨reentered, hwheel⟩ := keepsWheel_expire task s hheld
      have hblocked := reentered_expire hheld (howned task (List.mem_cons_self ..))
      have hinv' : (expire task s).1.Inv P := by
        rw [hwheel]
        exact TimerWheel.inv_flags hinv _ reentered
      have hheld' : (expire task s).1.mutexHeld = true := by
        rw [hwheel]
        exact hheld
      have hnames := names_expire task s
      have hfire := ih ((expire task s).1.retire task, (expire task s).2)
        (fun t ht => by rw [hnames]; exact hrest t ht) hrest'
        (TimerWheel.inv_retire hinv' task) hheld'
      refine ⟨hfire.1.trans hnames, hfire.2.trans ?_⟩
      have hretired : ((expire task s).1.retire task).reentered = true := hblocked
      simp [hretired, not_lt.mp hticks]

lemma tick_spec {r : Reactor} (h : r.Inv) :
    r.tick.Inv ∧ (r.tick.loop.timerWheel.reentered = true ↔
      r.loop.timerWheel.reentered = true ∨ r.Expires) := by
  have hinv := TimerWheel.inv_tick keepsWheel_expire (s := (r.loop.timerWheel, r)) h.wheel h.free
  have htasks := reentered_processTasks r.loop.timerWheel.currentSlot
    (r.loop.timerWheel.wheel r.loop.timerWheel.currentSlot)
    ({ r.loop.timerWheel with mutexHeld := true }, r) (h.wheel.task_ok _) (h.wheel.task_ok _)
    (TimerWheel.inv_flags h.wheel true _) rfl
  have heq := TimerWheel.tick_eq expire (s := (r.loop.timerWheel, r)) h.wheel h.free
  have hnames : r.tick.names = r.names := by
    change (TimerWheel.tick expire (r.loop.timerWheel, r)).2.2.names = _
    rw [heq]
    exact htasks.1
  refine ⟨⟨?_, ?_, ?_⟩, ?_⟩
  · rw [hnames]
    exact hinv
  · change (TimerWheel.tick expire (r.loop.timerWheel, r)).2.1.mutexHeld = false
    rw [heq]
  · rw [hnames]
    exact h.ids
  · change (TimerWheel.tick expire (r.loop.timerWheel, r)).2.1.reentered = true ↔ _
    rw [heq]
    exact htasks.2

lemma accept_spec {r : Reactor} (h : r.Inv) (fd : ℤ) (config : Option LimitsOptions)
    (hasKeepAliveManager hasCloseCallback : Bool) :
    (r.accept fd config hasKeepAliveManager hasCloseCallback).Inv := by
  have hnames : (r.accept fd config hasKeepAliveManager hasCloseCallback).names =
      r.names ++ [(r.names.length, fd)] := by
    simp [names, accept, Connection.new]
  refine ⟨?_, h.free, ?_⟩
  · rw [hnames]
    refine h.wheel.mono ?_
    rintro fd callback ⟨hfd, hname⟩
    refine ⟨hfd, ?_⟩
    rw [List.getElem?_append_left (List.getElem?_eq_some_iff.mp hname).1, hname]
  · intro i id fd' hname
    rw [hnames] at hname
    rcases Nat.lt_trichotomy i r.names.length with hlt | rfl | hgt
    · rw [List.getElem?_append_left hlt] at hname
      exact h.ids i id fd' hname
    · rw [List.getElem?_append_right (le_refl _), Nat.sub_self] at hname
      simp only [List.getElem?_cons_zero, Option.some.injEq, Prod.mk.injEq] at hname
      exact hname.1.symm
    · rw [List.getElem?_append_right hgt.le, List.getElem?_eq_none] at hname
      · cases hname
      · simp only [List.length_singleton]
        omega

lemma event_spec {r : Reactor} (h : r.Inv) (id : ℕ) (event : ConnEvent) :
    (r.on id (·.react event)).Inv ∧
      (r.on id (·.react event)).loop.timerWheel.reentered = r.loop.timerWheel.reentered := by
  have hspec := r.on_spec id (·.react event)
    (Q := fun w => w.Inv (Owned r.names) ∧ w.mutexHeld = false ∧
      w.reentered = r.loop.timerWheel.reentered) ⟨h.wheel, h.free, rfl⟩ ?_
  · obtain ⟨hnames, hwheel, hfree, hflag⟩ := hspec
    exact ⟨⟨by rwa [hnames], hfree, by rw [hnames]; exact h.ids⟩, hflag⟩
  · intro conn hconn
    have hname : r.names[id]? = some (conn.id, conn.fd) := by simp [names, hconn]
    have hid := h.ids id conn.id conn.fd hname
    refine Session.governed_react (s := r.session conn) (keptByTimers_free ?_ _)
      ⟨rfl, rfl, h.wheel, h.free, rfl⟩ event
    intro timeoutType hfd
    refine ⟨hfd, ?_⟩
    change r.names[conn.id]? = some (conn.id, conn.fd)
    rwa [hid] at hname ⊢

/-- One step: only a tick that finds an expired task makes a call into the held mutex. -/
lemma step_spec {r : Reactor} (h : r.Inv) (step : ReactorStep) :
    (r.step step).Inv ∧ ((r.step step).loop.timerWheel.reentered = true ↔
      r.loop.timerWheel.reentered = true ∨ (step = .tick ∧ r.Expires)) := by
  cases step with
  | accept fd config hasKeepAliveManager hasCloseCallback =>
    refine ⟨accept_spec h fd config hasKeepAliveManager hasCloseCallback, ?_⟩
    simp [Reactor.step, accept]
  | event id event =>
    obtain ⟨hinv, hflag⟩ := event_spec h id event
    refine ⟨hinv, ?_⟩
    simp [Reactor.step, hflag]
  | tick =>
    obtain ⟨hinv, hflag⟩ := tick_spec h
    refine ⟨hinv, ?_⟩
    simp [Reactor.step, hflag]

lemma reentered_run {r : Reactor} (h : r.Inv) (steps : List ReactorStep) :
    (r.run steps).loop.timerWheel.reentered = true ↔ r.loop.timerWheel.reentered = true ∨
      ∃ before after, steps = before ++ .tick :: after ∧ (r.run before).Expires := by
  induction steps generalizing r with
  | nil => simp [run]
  | cons step steps ih =>
    obtain ⟨hinv, hflag⟩ := step_spec h step
    have hrun : r.run (step :: steps) = (r.step step).run steps := rfl
    rw [hrun, ih hinv, hflag, or_assoc]
    refine or_congr_right ⟨?_, ?_⟩
    · rintro (⟨rfl, hexpires⟩ | ⟨before, after, rfl, hexpires⟩)
      · exact ⟨[], steps, rfl, hexpires⟩
      · exact ⟨step :: before, after, rfl, hexpires⟩
    · rintro ⟨before, after, heq, hexpires⟩
      rcases List.cons_eq_append_iff.mp heq with ⟨rfl, htick⟩ | ⟨before, rfl, rfl⟩
      · exact Or.inl ⟨(List.cons.inj htick).1.symm, hexpires⟩
      · exact Or.inr ⟨before, after, rfl, hexpires⟩

/-- In every run from the start of the loop: no callback of an expired timer calls into the wheel
while `Tick` holds the mutex if and only if no tick of the run finds an expired timer. -/
theorem not_reentered_iff (kernel : ℕ → WriteOutcome) (steps : List ReactorStep) :
    ((new kernel).run steps).loop.timerWheel.reentered = false ↔
      ∀ before after, steps = before ++ .tick :: after →
        ¬ ((new kernel).run before).Expires := by
  have hrun := reentered_run (inv_new kernel) steps
  have hnew : (new kernel).loop.timerWheel.reentered = false := rfl
  rw [← Bool.not_eq_true, hrun, hnew]
  simp only [Bool.false_eq_true, false_or, not_exists, not_and]

/-- One connection with an idle timeout of a second, and the two ticks that let it expire. -/
theorem reentered_idle_second :
    ¬ ((new fun _ => .again).run
      [.accept 5 none false false, .event 0 .connectEstablished,
        .event 0 (.operate (.setIdleTimeout 1)), .tick, .tick]).loop.timerWheel.reentered =
      false := by
  decide

end Reactor

end TinyWebServer
