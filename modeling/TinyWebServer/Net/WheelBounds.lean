import TinyWebServer.Net.WheelRuns

/-!
# What the timer wheel divides by, and what it refuses

The ring is made from the argument of the constructor, and the arithmetic uses the size that the
constructor has corrected. The range of a timeout is checked twice, in front of the removal of an
older timer and behind it.
-/

namespace TinyWebServer

namespace TimerWheel

variable {κ ω : Type*} {P : ℤ → κ → Prop} {w : TimerWheel κ} {calls : κ → List (WheelMove κ)}

/-! ### Faults -/

lemma fault_detach (h : Inv P w) (fd : ℤ) : (w.detach fd).fault = w.fault := by
  rw [detach]
  split_ifs
  · rw [cancel_eq h]
    rfl
  · rfl

lemma fault_addTimeoutLocked (h : Inv P w) (fd timeoutSeconds : ℤ) (callback : κ) :
    (addTimeoutLocked fd timeoutSeconds callback w).2.fault = w.fault := by
  have hdetach := inv_detach h fd
  simp only [addTimeoutLocked]
  cases hslot : (w.detach fd).calculateSlot timeoutSeconds with
  | error err => exact fault_detach h fd
  | ok result =>
    obtain ⟨slot, remainingTicks⟩ := result
    have hlt := calculateSlot_ok hdetach.wheelSize_pos hslot
    dsimp only
    rw [addTaskToSlot_eq hdetach hlt]
    exact fault_detach h fd

lemma fault_moveOn (h : Inv P w) (slot : ℕ) (task : TimerTask κ) :
    (w.moveOn slot task).fault = w.fault := by
  rw [moveOn_eq h]

lemma fault_tick {call : TimerTask κ → TimerWheel κ × ω → TimerWheel κ × ω}
    (hcall : KeepsWheel call) {s : TimerWheel κ × ω} (h : Inv P s.1)
    (hfree : s.1.mutexHeld = false) : (tick call s).2.1.fault = s.1.fault := by
  rw [tick_eq call h hfree]
  refine (processTasks_induction
    (Q := fun t => Inv P t.1 ∧ t.1.mutexHeld = true ∧ t.1.fault = s.1.fault)
    _ ({ s.1 with mutexHeld := true }, s.2) ?_ ?_ ⟨inv_flags h true _, rfl, rfl⟩).2.2
  · rintro task htask - t ⟨ht, hheld, hfault⟩
    exact ⟨inv_moveOn ht (h.task_ok _ task htask), (mutexHeld_moveOn ht _ task).trans hheld,
      (fault_moveOn ht _ task).trans hfault⟩
  · rintro task - - t ⟨ht, hheld, hfault⟩
    obtain ⟨reentered, heq⟩ := hcall task t hheld
    rw [heq]
    exact ⟨inv_retire (inv_flags ht _ reentered) task, hheld, hfault⟩

/-- A ring with slots never faults. -/
lemma Idle.fault_next {n : ℕ} (h : Idle n w) (m : WheelMove κ) :
    (w.next calls m).1.fault = w.fault := by
  have hheld := inv_flags h.filed.inv true w.reentered
  rcases next_cases h.free m with
    ⟨-, heq⟩ | ⟨fd, timeoutSeconds, f, -, heq⟩ | ⟨fd, -, heq⟩ | ⟨-, heq⟩ | ⟨-, heq⟩
  · rw [heq]
  · rw [heq]
    exact fault_addTimeoutLocked hheld fd timeoutSeconds f
  · rw [heq]
    exact fault_detach hheld fd
  · rw [heq]
  · rw [heq]
    exact fault_tick (keepsWheel_runCallback calls) (s := (w, [])) h.filed.inv h.free

/-! ### Every run -/

/-- No call has divided by the size of an empty ring or indexed behind its last slot, and the
other two divisors, the size of the arithmetic and its cast, are not zero. -/
def InRange (w : TimerWheel κ) : Prop :=
  w.fault = false ∧ w.wheelSize ≠ 0 ∧ toInt w.wheelSize ≠ 0

lemma Idle.fault_after {n : ℕ} (h : Idle n w) (calls : κ → List (WheelMove κ))
    (ms : List (WheelMove κ)) : (w.after calls ms).fault = w.fault := by
  induction ms generalizing w with
  | nil => rfl
  | cons m ms ih => exact (ih (h.next m)).trans (h.fault_next m)

lemma Hollow.after (h : Hollow w) (calls : κ → List (WheelMove κ)) (ms : List (WheelMove κ)) :
    Hollow (w.after calls ms) ∧
    ((w.after calls ms).fault = true ↔ w.fault = true ∨
      ∃ fd timeoutSeconds callback, .addTimeout fd timeoutSeconds callback ∈ ms ∧
        ¬ Refused 60 fd timeoutSeconds callback) := by
  induction ms generalizing w with
  | nil => exact ⟨h, by simp [TimerWheel.after]⟩
  | cons m ms ih =>
    obtain ⟨hnext, hfirst⟩ := h.next calls m
    obtain ⟨hafter, hrest⟩ := ih hnext
    refine ⟨hafter, hrest.trans ?_⟩
    rw [hfirst, or_assoc]
    refine or_congr_right ?_
    constructor
    · rintro (⟨fd, timeoutSeconds, callback, rfl, haccepted⟩ |
        ⟨fd, timeoutSeconds, callback, hmem, haccepted⟩)
      · exact ⟨fd, timeoutSeconds, callback, List.mem_cons_self .., haccepted⟩
      · exact ⟨fd, timeoutSeconds, callback, List.mem_cons_of_mem _ hmem, haccepted⟩
    · rintro ⟨fd, timeoutSeconds, callback, hmem, haccepted⟩
      rcases List.mem_cons.mp hmem with rfl | hmem
      · exact Or.inl ⟨fd, timeoutSeconds, callback, rfl, haccepted⟩
      · exact Or.inr ⟨fd, timeoutSeconds, callback, hmem, haccepted⟩

/-- With ten rounds in the range of `int`, no run divides by zero or leaves the ring if and only
if the constructor got a positive size, or each `AddTimeout` of the run is turned down by its
checks. -/
theorem inRange_iff {n : ℕ} (hint : 10 * n < 2 ^ 31) (tickIntervalMs : ℤ)
    (calls : κ → List (WheelMove κ)) (ms : List (WheelMove κ)) :
    InRange (after calls (new n tickIntervalMs) ms) ↔
      0 < n ∨ ∀ fd timeoutSeconds callback, .addTimeout fd timeoutSeconds callback ∈ ms →
        Refused 60 fd timeoutSeconds callback := by
  rcases Nat.eq_zero_or_pos n with rfl | hn
  · obtain ⟨hhollow, hfault⟩ := (hollow_new tickIntervalMs).after calls ms
    have hsize : toInt 60 ≠ 0 := by decide
    rw [InRange, hhollow.wheelSize, and_iff_left ⟨by simp, hsize⟩, ← Bool.not_eq_true, hfault,
      or_iff_right (lt_irrefl 0)]
    constructor
    · intro hnone fd timeoutSeconds callback hmem
      by_contra haccepted
      exact hnone (Or.inr ⟨fd, timeoutSeconds, callback, hmem, haccepted⟩)
    · rintro hall (hfault | ⟨fd, timeoutSeconds, callback, hmem, haccepted⟩)
      · cases hfault
      · exact haccepted (hall fd timeoutSeconds callback hmem)
  · have hnew := idle_new (κ := κ) hn tickIntervalMs
    refine iff_of_true ⟨hnew.fault_after calls ms, ?_⟩ (Or.inl hn)
    rw [(hnew.after calls ms).filed.wheelSize, toInt_of_lt (by omega)]
    omega

/-- A size of zero and an interval of zero, with a timeout past ten rounds. -/
theorem inRange_iff_refused :
    InRange (after (fun _ => [])
        (new 0 0) [WheelMove.addTimeout 5 601 (some ()), WheelMove.tick, WheelMove.clear]) ↔
      0 < 0 ∨ ∀ fd timeoutSeconds callback, WheelMove.addTimeout fd timeoutSeconds callback ∈
        [WheelMove.addTimeout 5 601 (some ()), WheelMove.tick, WheelMove.clear] →
        Refused 60 fd timeoutSeconds callback :=
  inRange_iff (n := 0) (by norm_num) 0 (fun _ => []) _

/-- The first timer of a wheel made with a size of zero. -/
theorem zero_size_faults :
    ¬ InRange (after (fun _ => []) (new 0 1000) [.addTimeout 5 30 (some ())]) := by
  rintro ⟨hfault, -⟩
  revert hfault
  decide

/-! ### All or nothing -/

lemma addTimeout_of_idle {n : ℕ} (h : Idle n w) {fd timeoutSeconds : ℤ} {callback : Option κ}
    (haccepted : ¬ Refused n fd timeoutSeconds callback) :
    (w.addTimeout fd timeoutSeconds callback).1 = .success := by
  rw [← h.filed.wheelSize] at haccepted
  cases callback with
  | none => exact absurd (Or.inr (Or.inr (Or.inl rfl))) haccepted
  | some callback =>
    obtain ⟨slot, remainingTicks, -, -, heq⟩ :=
      addTimeout_accepted h.filed.inv h.free haccepted
    rw [heq]

/-- `AddTimeout` fails for a negative descriptor, a timeout that is not positive or longer than ten
rounds, and an empty callback, and for nothing else. A call that fails leaves the whole wheel as
it is, and a timeout that passes the checks is always given a slot behind the removal of the
older timer. -/
theorem addTimeout_allOrNothing {n : ℕ} (hn : 1 ≤ n) (hint : 10 * n < 2 ^ 31) (tickIntervalMs : ℤ)
    (calls : κ → List (WheelMove κ)) {w : TimerWheel κ}
    (hw : Runs.Reachable (step calls) (new n tickIntervalMs) w) (fd timeoutSeconds : ℤ)
    (callback : Option κ) :
    (¬ (w.addTimeout fd timeoutSeconds callback).1.isSuccess ↔
      fd < 0 ∨ timeoutSeconds ≤ 0 ∨ callback = none ∨ 10 * n < timeoutSeconds) ∧
    (¬ (w.addTimeout fd timeoutSeconds callback).1.isSuccess →
      (w.addTimeout fd timeoutSeconds callback).2 = w) ∧
    (0 < timeoutSeconds → timeoutSeconds ≤ 10 * n → ∀ err,
      (({ w with mutexHeld := true } : TimerWheel κ).detach fd).calculateSlot timeoutSeconds ≠
        .error err) := by
  have hidle := idle_of_reachable hn hw
  have hmax : toInt (n * kMaxCycles) = 10 * n := by
    rw [kMaxCycles, toInt_of_lt (by omega)]
    push_cast
    ring
  have hrefused : Refused n fd timeoutSeconds callback ↔
      fd < 0 ∨ timeoutSeconds ≤ 0 ∨ callback = none ∨ 10 * n < timeoutSeconds := by
    rw [Refused, hmax]
  have hfails : ¬ (w.addTimeout fd timeoutSeconds callback).1.isSuccess ↔
      Refused n fd timeoutSeconds callback := by
    constructor
    · intro hfail
      by_contra haccepted
      rw [addTimeout_of_idle hidle haccepted] at hfail
      exact hfail Error.isSuccess_success
    · intro h
      rw [← hidle.filed.wheelSize] at h
      exact (addTimeout_of_refused h).1
  refine ⟨hfails.trans hrefused, fun hfail => ?_, fun hpos hle err herr => ?_⟩
  · have h := hfails.mp hfail
    rw [← hidle.filed.wheelSize] at h
    exact (addTimeout_of_refused h).2
  · have hdetach := (hidle.filed.flags true w.reentered).detach fd
    obtain ⟨result, hresult⟩ : ∃ result, (({ w with mutexHeld := true } :
        TimerWheel κ).detach fd).calculateSlot timeoutSeconds = .ok result := by
      apply calculateSlot_of_le_max hpos
      rwa [hdetach.wheelSize, hmax]
    cases herr.symm.trans hresult

/-- A timer of two slots is replaced by one of twenty-one seconds, which does not fit. -/
theorem addTimeout_allOrNothing_two :
    ∃ w : TimerWheel Unit,
      Runs.run (step fun _ => []) (new 2 1000) [.addTimeout 5 1 (some ())] = some w ∧
      (¬ (w.addTimeout 5 21 (some ())).1.isSuccess ↔
        (5 : ℤ) < 0 ∨ (21 : ℤ) ≤ 0 ∨ some () = none ∨ 10 * (2 : ℕ) < (21 : ℤ)) ∧
      (¬ (w.addTimeout 5 21 (some ())).1.isSuccess → (w.addTimeout 5 21 (some ())).2 = w) ∧
      ((0 : ℤ) < 21 → (21 : ℤ) ≤ 10 * (2 : ℕ) → ∀ err,
        (({ w with mutexHeld := true } : TimerWheel Unit).detach 5).calculateSlot 21 ≠
          .error err) := by
  have hrun : Runs.run (step fun _ => []) (new 2 1000) [.addTimeout 5 1 (some ())] =
      some (next (fun _ => []) (new 2 1000) (.addTimeout 5 1 (some ()))).1 := rfl
  exact ⟨_, hrun, addTimeout_allOrNothing (n := 2) (by norm_num) (by norm_num) 1000 (fun _ => [])
    ⟨_, hrun⟩ 5 21 (some ())⟩

end TimerWheel

end TinyWebServer
