import TinyWebServer.Library.Runs
import TinyWebServer.Net.WheelTimers

/-!
# Runs of the timer wheel

Timers are added and removed, the wheel is cleared and ticks, in any order. The callbacks of a tick
make calls of their own, which find the mutex taken. A call that divides by zero, indexes behind
the last slot or locks the mutex again does not return, and the run ends with it.
-/

namespace TinyWebServer

inductive WheelMove (κ : Type*) where
  | addTimeout (fd timeoutSeconds : ℤ) (callback : Option κ)
  | removeTimeout (fd : ℤ)
  | clear
  | tick

namespace TimerWheel

variable {κ ω : Type*} {P : ℤ → κ → Prop} {w : TimerWheel κ}

def apply (call : TimerTask κ → TimerWheel κ × ω → TimerWheel κ × ω) (s : TimerWheel κ × ω) :
    WheelMove κ → TimerWheel κ × ω
  | .addTimeout fd timeoutSeconds callback =>
    ((s.1.addTimeout fd timeoutSeconds callback).2, s.2)
  | .removeTimeout fd => ((s.1.removeTimeout fd).2, s.2)
  | .clear => (s.1.clear, s.2)
  | .tick => (tick call s).2

/-- The callback of a task is noted and makes its calls. The mutex is taken, so that no callback
runs inside another. -/
def runCallback (calls : κ → List (WheelMove κ)) (task : TimerTask κ)
    (s : TimerWheel κ × List (TimerTask κ)) : TimerWheel κ × List (TimerTask κ) :=
  (((calls task.callback).foldl (apply fun _ s => s) (s.1, ())).1, s.2 ++ [task])

/-- The wheel behind a call, with the timers that fired. -/
def next (calls : κ → List (WheelMove κ)) (w : TimerWheel κ) (m : WheelMove κ) :
    TimerWheel κ × List (TimerTask κ) :=
  apply (runCallback calls) (w, []) m

/-- The wheel behind a list of calls. -/
def after (calls : κ → List (WheelMove κ)) (w : TimerWheel κ) (ms : List (WheelMove κ)) :
    TimerWheel κ :=
  ms.foldl (fun w m => (w.next calls m).1) w

def step (calls : κ → List (WheelMove κ)) (w : TimerWheel κ) (m : WheelMove κ) :
    Option (TimerWheel κ) :=
  let w' := (w.next calls m).1
  if w'.fault || w'.reentered then none else some w'

variable {calls : κ → List (WheelMove κ)}

lemma eq_next_of_step {w' : TimerWheel κ} {m : WheelMove κ} (h : step calls w m = some w') :
    w' = (w.next calls m).1 := by
  simp only [step] at h
  split_ifs at h
  cases h
  rfl

lemma eq_after_of_run {w' : TimerWheel κ} {ms : List (WheelMove κ)}
    (h : Runs.run (step calls) w ms = some w') : w' = w.after calls ms := by
  induction ms generalizing w with
  | nil =>
    cases h
    rfl
  | cons m ms ih =>
    obtain ⟨u, hu, hrest⟩ := Runs.run_cons (step calls) h
    rw [ih hrest, eq_next_of_step hu]
    rfl

/-! ### The calls of a callback -/

/-- Whatever the callback is, the call changes nothing, waits for ever, or does its work. -/
lemma addTimeout_next (w : TimerWheel κ) (fd timeoutSeconds : ℤ) (callback : Option κ) :
    (w.addTimeout fd timeoutSeconds callback).2 = w ∨
    ∃ f, callback = some f ∧ ((w.mutexHeld = true ∧
        (w.addTimeout fd timeoutSeconds callback).2 = { w with reentered := true }) ∨
      (w.mutexHeld = false ∧ (w.addTimeout fd timeoutSeconds callback).2 =
        { (addTimeoutLocked fd timeoutSeconds f { w with mutexHeld := true }).2 with
          mutexHeld := false })) := by
  by_cases h : Refused w.wheelSize fd timeoutSeconds callback
  · exact Or.inl (addTimeout_of_refused h).2
  · obtain ⟨f, rfl, -, -, -, -⟩ := addTimeout_of_not_refused h
    rcases addTimeout_cases w fd timeoutSeconds f with heq | ⟨-, hheld, heq⟩ | ⟨-, hfree, heq⟩
    · exact Or.inl heq
    · exact Or.inr ⟨f, rfl, Or.inl ⟨hheld, heq⟩⟩
    · exact Or.inr ⟨f, rfl, Or.inr ⟨hfree, heq⟩⟩

/-- While the mutex is taken, a call changes nothing but `reentered`. -/
lemma apply_of_held (call : TimerTask κ → TimerWheel κ × ω → TimerWheel κ × ω)
    (s : TimerWheel κ × ω) (hheld : s.1.mutexHeld = true) (m : WheelMove κ) :
    ∃ reentered, (apply call s m).1 = { s.1 with reentered := reentered } := by
  cases m with
  | addTimeout fd timeoutSeconds callback =>
    rcases addTimeout_next s.1 fd timeoutSeconds callback with
      heq | ⟨f, -, ⟨-, heq⟩ | ⟨hfree, -⟩⟩
    · exact ⟨s.1.reentered, heq⟩
    · exact ⟨true, heq⟩
    · exact absurd (hheld.symm.trans hfree) (by simp)
  | removeTimeout fd =>
    rcases removeTimeout_cases s.1 fd with ⟨-, heq⟩ | ⟨-, -, heq⟩ | ⟨-, hfree, -⟩
    · exact ⟨s.1.reentered, heq⟩
    · exact ⟨true, heq⟩
    · exact absurd (hheld.symm.trans hfree) (by simp)
  | clear => exact ⟨true, by simp [apply, clear, withLock, hheld]⟩
  | tick => exact ⟨true, by simp [apply, tick, hheld]⟩

lemma keepsWheel_runCallback (calls : κ → List (WheelMove κ)) : KeepsWheel (runCallback calls) := by
  intro task s hheld
  have hcalls : ∀ (ms : List (WheelMove κ)) (w : TimerWheel κ), w.mutexHeld = true →
      ∃ reentered, (ms.foldl (apply fun _ s => s) (w, ())).1 =
        { w with reentered := reentered } := by
    intro ms
    induction ms with
    | nil => exact fun w _ => ⟨w.reentered, rfl⟩
    | cons m ms ih =>
      intro w hheld
      obtain ⟨reentered, heq⟩ := apply_of_held (fun _ s => s) (w, ()) hheld m
      obtain ⟨reentered', heq'⟩ := ih { w with reentered := reentered } hheld
      refine ⟨reentered', ?_⟩
      rw [List.foldl_cons, show apply (fun _ s => s) (w, ()) m =
        ({ w with reentered := reentered }, ()) from Prod.ext heq rfl, heq']
  exact hcalls (calls task.callback) s.1 hheld

/-! ### Between two calls -/

/-- A wheel of `n` slots that nobody works on. -/
structure Idle (n : ℕ) (w : TimerWheel κ) : Prop where
  filed : Filed n (fun _ _ => True) w
  free : w.mutexHeld = false

lemma idle_new {n : ℕ} (hn : 0 < n) (tickIntervalMs : ℤ) :
    Idle n (new n tickIntervalMs : TimerWheel κ) :=
  ⟨filed_new hn tickIntervalMs, rfl⟩

lemma clear_of_free (h : w.mutexHeld = false) :
    w.clear = { w with wheel := fun _ => [], timers := [], currentSlot := 0 } := by
  rw [clear, withLock, if_neg (by simp [h])]
  dsimp only
  rw [← h]

lemma Idle.addTimeout {n : ℕ} (h : Idle n w) (fd timeoutSeconds : ℤ) (callback : Option κ) :
    Idle n (w.addTimeout fd timeoutSeconds callback).2 := by
  rcases addTimeout_next w fd timeoutSeconds callback with heq | ⟨f, rfl, ⟨hheld, -⟩ | ⟨-, heq⟩⟩
  · rw [heq]
    exact h
  · exact absurd (h.free.symm.trans hheld) (by simp)
  · refine ⟨h.filed.addTimeout timeoutSeconds fun _ => trivial, ?_⟩
    rw [heq]

lemma Idle.removeTimeout {n : ℕ} (h : Idle n w) (fd : ℤ) : Idle n (w.removeTimeout fd).2 := by
  refine ⟨h.filed.removeTimeout fd, ?_⟩
  rcases removeTimeout_cases w fd with ⟨-, heq⟩ | ⟨-, hheld, -⟩ | ⟨-, -, heq⟩
  · rw [heq]
    exact h.free
  · exact absurd (h.free.symm.trans hheld) (by simp)
  · rw [heq]

lemma Idle.clear {n : ℕ} (h : Idle n w) : Idle n w.clear := by
  have hpos := h.filed.inv.wheelSize_pos
  rw [clear_of_free h.free]
  refine ⟨⟨⟨h.filed.inv.slotCount_eq, hpos, hpos, ?_, ?_, ?_⟩, ?_, h.filed.wheelSize⟩, h.free⟩
  · intro i task htask
    cases htask
  · intro i task htask
    cases htask
  · intro i task htask
    cases htask
  · intro i
    exact List.nodup_nil

lemma Idle.tick {n : ℕ} {call : TimerTask κ → TimerWheel κ × ω → TimerWheel κ × ω}
    (hcall : KeepsWheel call) {s : TimerWheel κ × ω} (h : Idle n s.1) :
    Idle n (tick call s).2.1 := by
  refine ⟨h.filed.tick hcall h.free, ?_⟩
  rw [tick_eq call h.filed.inv h.free]

/-- What a call can do to a wheel that nobody works on. -/
lemma next_cases (hfree : w.mutexHeld = false) (m : WheelMove κ) :
    (m ≠ .clear ∧ (w.next calls m).1 = w) ∨
    (∃ fd timeoutSeconds f, m = .addTimeout fd timeoutSeconds (some f) ∧
      (w.next calls m).1 =
        { (addTimeoutLocked fd timeoutSeconds f { w with mutexHeld := true }).2 with
          mutexHeld := false }) ∨
    (∃ fd, m = .removeTimeout fd ∧
      (w.next calls m).1 =
        { ({ w with mutexHeld := true } : TimerWheel κ).detach fd with mutexHeld := false }) ∨
    (m = .clear ∧
      (w.next calls m).1 = { w with wheel := fun _ => [], timers := [], currentSlot := 0 }) ∨
    (m = .tick ∧ (w.next calls m).1 = (tick (runCallback calls) (w, [])).2.1) := by
  cases m with
  | addTimeout fd timeoutSeconds callback =>
    rcases addTimeout_next w fd timeoutSeconds callback with
      heq | ⟨f, rfl, ⟨hheld, -⟩ | ⟨-, heq⟩⟩
    · exact Or.inl ⟨by simp, heq⟩
    · exact absurd (hfree.symm.trans hheld) (by simp)
    · exact Or.inr (Or.inl ⟨fd, timeoutSeconds, f, rfl, heq⟩)
  | removeTimeout fd =>
    rcases removeTimeout_cases w fd with ⟨-, heq⟩ | ⟨-, hheld, -⟩ | ⟨-, -, heq⟩
    · exact Or.inl ⟨by simp, heq⟩
    · exact absurd (hfree.symm.trans hheld) (by simp)
    · exact Or.inr (Or.inr (Or.inl ⟨fd, rfl, heq⟩))
  | clear => exact Or.inr (Or.inr (Or.inr (Or.inl ⟨rfl, clear_of_free hfree⟩)))
  | tick => exact Or.inr (Or.inr (Or.inr (Or.inr ⟨rfl, rfl⟩)))

lemma Idle.next {n : ℕ} (h : Idle n w) (m : WheelMove κ) : Idle n (w.next calls m).1 := by
  cases m with
  | addTimeout fd timeoutSeconds callback => exact h.addTimeout fd timeoutSeconds callback
  | removeTimeout fd => exact h.removeTimeout fd
  | clear => exact h.clear
  | tick => exact Idle.tick (keepsWheel_runCallback calls) (s := (w, [])) h

lemma Idle.step {n : ℕ} (h : Idle n w) {m : WheelMove κ} {w' : TimerWheel κ}
    (hstep : TimerWheel.step calls w m = some w') : Idle n w' := by
  rw [eq_next_of_step hstep]
  exact h.next m

lemma Idle.after {n : ℕ} (h : Idle n w) (calls : κ → List (WheelMove κ))
    (ms : List (WheelMove κ)) : Idle n (w.after calls ms) := by
  induction ms generalizing w with
  | nil => exact h
  | cons m ms ih => exact ih (h.next m)

lemma idle_of_reachable {n : ℕ} (hn : 0 < n) {tickIntervalMs : ℤ}
    (h : Runs.Reachable (TimerWheel.step calls) (new n tickIntervalMs) w) : Idle n w :=
  h.invariant (TimerWheel.step calls) (fun _ _ _ hs hstep => hs.step hstep)
    (idle_new hn tickIntervalMs)

/-! ### A wheel without slots

The constructor takes 60 for a size of zero, but the ring has been made from the zero. -/

structure Hollow (w : TimerWheel κ) : Prop where
  slotCount : w.slotCount = 0
  wheelSize : w.wheelSize = 60
  wheel : ∀ i, w.wheel i = []
  timers : w.timers = []
  free : w.mutexHeld = false

lemma hollow_new (tickIntervalMs : ℤ) : Hollow (new 0 tickIntervalMs : TimerWheel κ) :=
  ⟨rfl, rfl, fun _ => rfl, rfl, rfl⟩

/-- There is no slot to put a task into. -/
lemma addTimeout_of_hollow (h : Hollow w) {fd timeoutSeconds : ℤ} {callback : Option κ}
    (haccepted : ¬ Refused w.wheelSize fd timeoutSeconds callback) :
    (w.addTimeout fd timeoutSeconds callback).2 =
      { w with fault := true, totalTasksAdded := w.totalTasksAdded + 1 } := by
  obtain ⟨f, rfl, -, hpos, hle, heq⟩ := addTimeout_of_not_refused haccepted
  have hfree := h.free
  have hdetach : ({ w with mutexHeld := true } : TimerWheel κ).detach fd =
      { w with mutexHeld := true } := by
    simp [detach, h.timers]
  obtain ⟨⟨slot, remainingTicks⟩, hslot⟩ :=
    calculateSlot_of_le_max (w := { w with mutexHeld := true }) hpos hle
  rw [heq, withLock, if_neg (by simp [hfree])]
  simp only [addTimeoutLocked, hdetach, hslot, addTaskToSlot, if_pos h.slotCount]
  rw [← hfree]

/-- Nothing gets into such a wheel, and only an accepted `AddTimeout` faults. -/
lemma Hollow.next (h : Hollow w) (calls : κ → List (WheelMove κ)) (m : WheelMove κ) :
    Hollow (w.next calls m).1 ∧
    ((w.next calls m).1.fault = true ↔ w.fault = true ∨
      ∃ fd timeoutSeconds callback, m = .addTimeout fd timeoutSeconds callback ∧
        ¬ Refused 60 fd timeoutSeconds callback) := by
  have hfree := h.free
  cases m with
  | addTimeout fd timeoutSeconds callback =>
    change Hollow (w.addTimeout fd timeoutSeconds callback).2 ∧
      ((w.addTimeout fd timeoutSeconds callback).2.fault = true ↔ _)
    by_cases hrefused : Refused w.wheelSize fd timeoutSeconds callback
    · rw [(addTimeout_of_refused hrefused).2]
      refine ⟨h, Iff.intro Or.inl ?_⟩
      rintro (hfault | ⟨_, _, _, heq, haccepted⟩)
      · exact hfault
      · cases heq
        exact absurd (h.wheelSize ▸ hrefused) haccepted
    · rw [addTimeout_of_hollow h hrefused]
      refine ⟨⟨h.slotCount, h.wheelSize, h.wheel, h.timers, h.free⟩, ?_⟩
      exact iff_of_true rfl (Or.inr ⟨fd, timeoutSeconds, callback, rfl, h.wheelSize ▸ hrefused⟩)
  | removeTimeout fd =>
    have heq : (w.removeTimeout fd).2 = w := by
      rcases removeTimeout_cases w fd with ⟨-, heq⟩ | ⟨-, hheld, -⟩ | ⟨-, -, heq⟩
      · exact heq
      · exact absurd (hfree.symm.trans hheld) (by simp)
      · rw [heq, detach, if_neg (by simp [h.timers])]
        rw [← hfree]
    change Hollow (w.removeTimeout fd).2 ∧ ((w.removeTimeout fd).2.fault = true ↔ _)
    rw [heq]
    exact ⟨h, by simp⟩
  | clear =>
    change Hollow w.clear ∧ (w.clear.fault = true ↔ _)
    rw [clear_of_free hfree]
    exact ⟨⟨h.slotCount, h.wheelSize, fun _ => rfl, rfl, h.free⟩, by simp⟩
  | tick =>
    change Hollow (tick (runCallback calls) (w, [])).2.1 ∧
      ((tick (runCallback calls) (w, [])).2.1.fault = true ↔ _)
    have hbehind : w.slotCount ≤ w.currentSlot := h.slotCount.trans_le (Nat.zero_le _)
    rw [tick, if_neg (by simp [hfree])]
    simp only [processSlot, if_pos hbehind]
    exact ⟨⟨h.slotCount, h.wheelSize, h.wheel, h.timers, rfl⟩, by simp⟩

lemma hollow_of_reachable {tickIntervalMs : ℤ}
    (h : Runs.Reachable (TimerWheel.step calls) (new 0 tickIntervalMs) w) : Hollow w := by
  refine h.invariant (TimerWheel.step calls) ?_ (hollow_new tickIntervalMs)
  intro s m t hs hstep
  rw [eq_next_of_step hstep]
  exact (hs.next calls m).1

end TimerWheel

end TinyWebServer
