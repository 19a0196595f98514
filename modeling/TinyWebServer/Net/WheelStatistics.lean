import TinyWebServer.Net.WheelRuns

/-!
# The statistics of the timer wheel

Every timer that was added has fired, was cancelled or is pending, but for those that `Clear` has
dropped: it adds the size of a map that it has just emptied.
-/

namespace TinyWebServer

namespace TimerWheel

variable {κ ω : Type*} {P : ℤ → κ → Prop} {w : TimerWheel κ} {calls : κ → List (WheelMove κ)}
  {lost : ℕ}

/-- The statistics add up. -/
def Conserved (w : TimerWheel κ) : Prop :=
  w.totalTasksAdded = w.totalTasksTriggered + w.totalTasksCancelled + w.getActiveTimerCount.1

/-- The map has no key twice, and the statistics lack `lost` timers. -/
structure Tallied (lost : ℕ) (w : TimerWheel κ) : Prop where
  nodup : w.timers.Nodup
  added : w.totalTasksAdded =
    w.totalTasksTriggered + w.totalTasksCancelled + w.timers.length + lost

lemma conserved_iff_lost (h : Tallied lost w) (hfree : w.mutexHeld = false) :
    Conserved w ↔ lost = 0 := by
  have hactive : w.getActiveTimerCount.1 = w.timers.length := by
    rw [getActiveTimerCount, withLock, if_neg (by simp [hfree])]
  rw [Conserved, hactive, h.added]
  omega

/-! ### One timer more or less -/

lemma length_filter_ne {l : List ℤ} (hl : l.Nodup) {fd : ℤ} (hmem : fd ∈ l) :
    (l.filter (· ≠ fd)).length + 1 = l.length := by
  have herase : l.filter (· ≠ fd) = l.erase fd := by
    rw [hl.erase_eq_filter]
    apply List.filter_congr
    intro x _
    by_cases hx : x = fd
    · simp [hx]
    · simp [hx]
  rw [herase, List.length_erase_of_mem hmem]
  have := List.length_pos_of_mem hmem
  omega

lemma Tallied.detach (h : Tallied lost w) (hinv : Inv P w) (fd : ℤ) :
    Tallied lost (w.detach fd) := by
  rw [TimerWheel.detach]
  split_ifs with hmem
  · rw [cancel_eq hinv]
    refine ⟨h.nodup.filter _, ?_⟩
    have hadded := h.added
    have hlength := length_filter_ne h.nodup hmem
    simp only [without]
    omega
  · exact h

lemma Tallied.addTimeoutLocked (h : Tallied lost w) (hinv : Inv P w) (fd timeoutSeconds : ℤ)
    (callback : κ) : Tallied lost (addTimeoutLocked fd timeoutSeconds callback w).2 := by
  have hdetach := h.detach hinv fd
  have hinv' := inv_detach hinv fd
  rcases addTimeoutLocked_cases hinv fd timeoutSeconds callback with
    heq | ⟨slot, remainingTicks, hlt, heq⟩
  · rw [heq]
    exact hdetach
  · have hfresh : (w.detach fd).timers.filter (· ≠ fd) = (w.detach fd).timers := by
      apply List.filter_eq_self.mpr
      intro x hx
      have hne : x ≠ fd := by
        rintro rfl
        exact (vacant_detach hinv x).1 hx
      simpa using hne
    rw [heq, addTaskToSlot_eq hinv' hlt]
    constructor
    · dsimp only
      rw [hfresh, List.nodup_cons]
      exact ⟨(vacant_detach hinv fd).1, hdetach.nodup⟩
    · have hadded := hdetach.added
      dsimp only
      rw [hfresh, List.length_cons]
      omega

lemma Tallied.moveOn (h : Tallied lost w) (hinv : Inv P w) (slot : ℕ) {task : TimerTask κ}
    (hmem : task.fd ∈ w.timers) : Tallied lost (w.moveOn slot task) := by
  have hlength := length_filter_ne h.nodup hmem
  rw [moveOn_eq hinv]
  constructor
  · rw [List.nodup_cons]
    exact ⟨by simp, h.nodup.filter _⟩
  · have hadded := h.added
    dsimp only
    rw [List.length_cons, hlength]
    exact hadded

lemma Tallied.retire (h : Tallied lost w) {task : TimerTask κ} (hmem : task.fd ∈ w.timers) :
    Tallied lost (w.retire task) := by
  refine ⟨h.nodup.filter _, ?_⟩
  have hadded := h.added
  have hlength := length_filter_ne h.nodup hmem
  simp only [TimerWheel.retire]
  omega

/-- The tasks that the loop has still to look at are pending, and no two have one descriptor. -/
lemma Tallied.tick {n : ℕ} {call : TimerTask κ → TimerWheel κ × ω → TimerWheel κ × ω}
    (hcall : KeepsWheel call) {s : TimerWheel κ × ω} (h : Tallied lost s.1) (hidle : Idle n s.1) :
    Tallied lost (tick call s).2.1 := by
  have hinv := hidle.filed.inv
  rw [tick_eq call hinv hidle.free]
  have hloop : Tallied lost (processTasks call s.1.currentSlot (s.1.wheel s.1.currentSlot)
      ({ s.1 with mutexHeld := true }, s.2)).2.1 := by
    refine (processTasks_rest
      (Q := fun rest t => Inv (fun _ _ => True) t.1 ∧ t.1.mutexHeld = true ∧ Tallied lost t.1 ∧
        (rest.map (·.fd)).Nodup ∧ ∀ task ∈ rest, task.fd ∈ t.1.timers)
      (s := ({ s.1 with mutexHeld := true }, s.2)) ?_ ?_
      ⟨inv_flags hinv true _, rfl, ⟨h.nodup, h.added⟩, hidle.filed.distinct _,
        hinv.mem_timers _⟩).2.2.1
    · rintro task rest t - ⟨ht, hheld, htallied, hdistinct, hpending⟩
      rw [List.forall_mem_cons] at hpending
      rw [List.map_cons, List.nodup_cons] at hdistinct
      refine ⟨inv_moveOn ht trivial, (mutexHeld_moveOn ht _ task).trans hheld,
        htallied.moveOn ht _ hpending.1, hdistinct.2, fun other hother => ?_⟩
      exact (mem_timers_moveOn ht _ hpending.1 _).mpr (hpending.2 other hother)
    · rintro task rest t - ⟨ht, hheld, htallied, hdistinct, hpending⟩
      rw [List.forall_mem_cons] at hpending
      rw [List.map_cons, List.nodup_cons] at hdistinct
      obtain ⟨reentered, heq⟩ := hcall task t hheld
      rw [heq]
      have htallied' : Tallied lost { t.1 with reentered := reentered } :=
        ⟨htallied.nodup, htallied.added⟩
      refine ⟨inv_retire (inv_flags ht _ reentered) task, hheld, htallied'.retire hpending.1,
        hdistinct.2, fun other hother => ?_⟩
      refine (mem_timers_retire (fun hfd => hdistinct.1 ?_) _).mpr (hpending.2 other hother)
      rw [← hfd]
      exact List.mem_map_of_mem hother
  exact ⟨hloop.nodup, hloop.added⟩

/-! ### Every run -/

/-- What a call loses. -/
def losses (w : TimerWheel κ) : WheelMove κ → ℕ
  | .clear => w.timers.length
  | _ => 0

lemma Tallied.next {n : ℕ} (h : Tallied lost w) (hidle : Idle n w) (m : WheelMove κ) :
    Tallied (lost + w.losses m) (w.next calls m).1 := by
  have hinv := inv_flags hidle.filed.inv true w.reentered
  have hheld : Tallied lost { w with mutexHeld := true } := ⟨h.nodup, h.added⟩
  rcases next_cases hidle.free m with
    ⟨hne, heq⟩ | ⟨fd, timeoutSeconds, f, rfl, heq⟩ | ⟨fd, rfl, heq⟩ | ⟨rfl, heq⟩ | ⟨rfl, heq⟩
  · have hnone : w.losses m = 0 := by
      cases m with
      | clear => exact absurd rfl hne
      | addTimeout fd timeoutSeconds callback => rfl
      | removeTimeout fd => rfl
      | tick => rfl
    rw [heq, hnone]
    exact h
  · rw [heq]
    obtain ⟨hnodup, hadded⟩ := hheld.addTimeoutLocked hinv fd timeoutSeconds f
    exact ⟨hnodup, hadded⟩
  · rw [heq]
    obtain ⟨hnodup, hadded⟩ := hheld.detach hinv fd
    exact ⟨hnodup, hadded⟩
  · rw [heq]
    refine ⟨List.nodup_nil, ?_⟩
    have hadded := h.added
    simp only [losses, List.length_nil]
    omega
  · rw [heq]
    exact Tallied.tick (keepsWheel_runCallback calls) (s := (w, [])) h hidle

/-- A wheel without slots has no timers to lose. -/
lemma Tallied.next_of_hollow (h : Tallied lost w) (hhollow : Hollow w) {m : WheelMove κ}
    {w' : TimerWheel κ} (hstep : step calls w m = some w') : Tallied lost w' := by
  have hfree := hhollow.free
  cases m with
  | addTimeout fd timeoutSeconds callback =>
    by_cases hrefused : Refused w.wheelSize fd timeoutSeconds callback
    · rw [eq_next_of_step hstep]
      change Tallied lost (w.addTimeout fd timeoutSeconds callback).2
      rw [(addTimeout_of_refused hrefused).2]
      exact h
    · have hfault : (w.next calls (.addTimeout fd timeoutSeconds callback)).1.fault = true := by
        change (w.addTimeout fd timeoutSeconds callback).2.fault = true
        rw [addTimeout_of_hollow hhollow hrefused]
      simp [step, hfault] at hstep
  | removeTimeout fd =>
    rw [eq_next_of_step hstep]
    change Tallied lost (w.removeTimeout fd).2
    rcases removeTimeout_cases w fd with ⟨-, heq⟩ | ⟨-, -, heq⟩ | ⟨-, -, heq⟩
    · rw [heq]
      exact h
    · rw [heq]
      exact ⟨h.nodup, h.added⟩
    · rw [heq, TimerWheel.detach, if_neg (by simp [hhollow.timers])]
      exact ⟨h.nodup, h.added⟩
  | clear =>
    rw [eq_next_of_step hstep]
    change Tallied lost w.clear
    have hadded := h.added
    rw [hhollow.timers] at hadded
    rw [clear_of_free hfree]
    exact ⟨List.nodup_nil, hadded⟩
  | tick =>
    have hbehind : w.slotCount ≤ w.currentSlot := hhollow.slotCount.trans_le (Nat.zero_le _)
    rw [eq_next_of_step hstep]
    change Tallied lost (TimerWheel.tick (runCallback calls) (w, [])).2.1
    rw [TimerWheel.tick, if_neg (by simp [hfree])]
    simp only [processSlot, if_pos hbehind]
    exact ⟨h.nodup, h.added⟩

/-- In every run, timers that were added have fired, were cancelled or are pending in every state
if and only if each `Clear` of the run finds no timer pending. -/
theorem conserved_iff (n : ℕ) (tickIntervalMs : ℤ) (calls : κ → List (WheelMove κ))
    {ms : List (WheelMove κ)} {t : TimerWheel κ}
    (h : Runs.run (step calls) (new n tickIntervalMs) ms = some t) :
    (∀ ms' u, ms' <+: ms → Runs.run (step calls) (new n tickIntervalMs) ms' = some u →
        Conserved u) ↔
      ∀ ms' m u, ms' ++ [m] <+: ms → Runs.run (step calls) (new n tickIntervalMs) ms' = some u →
        m = .clear → u.timers = [] := by
  let I : TimerWheel κ → Prop := fun u =>
    (Idle n u ∨ Hollow u) ∧ ∃ lost, Tallied lost u
  have hfree : ∀ u, I u → u.mutexHeld = false := by
    rintro u ⟨hidle | hhollow, -⟩
    · exact hidle.free
    · exact hhollow.free
  have hnext : ∀ u m v lost, (Idle n u ∨ Hollow u) → Tallied lost u →
      step calls u m = some v → (Idle n v ∨ Hollow v) ∧ Tallied (lost + u.losses m) v := by
    rintro u m v lost (hidle | hhollow) htallied hstep
    · refine ⟨Or.inl (hidle.step hstep), ?_⟩
      rw [eq_next_of_step hstep]
      exact htallied.next hidle m
    · have hnone : u.losses m = 0 := by
        cases m <;> simp [losses, hhollow.timers]
      rw [hnone]
      refine ⟨Or.inr ?_, htallied.next_of_hollow hhollow hstep⟩
      rw [eq_next_of_step hstep]
      exact (hhollow.next calls m).1
  have hnew : I (new n tickIntervalMs) := by
    refine ⟨?_, 0, List.nodup_nil, rfl⟩
    rcases Nat.eq_zero_or_pos n with rfl | hn
    · exact Or.inr (hollow_new tickIntervalMs)
    · exact Or.inl (idle_new hn tickIntervalMs)
  refine Runs.forall_run_iff (step calls) (I := I)
    (C := fun u m => m = .clear → u.timers = []) ?_ ?_ hnew ?_ h
  · rintro u m v ⟨hring, lost, htallied⟩ hstep
    obtain ⟨hring', htallied'⟩ := hnext u m v lost hring htallied hstep
    exact ⟨hring', _, htallied'⟩
  · rintro u m v ⟨hring, lost, htallied⟩ hconserved hstep
    obtain ⟨hring', htallied'⟩ := hnext u m v lost hring htallied hstep
    have hzero := (conserved_iff_lost htallied (hfree u ⟨hring, _, htallied⟩)).mp hconserved
    rw [conserved_iff_lost htallied' (hfree v ⟨hring', _, htallied'⟩), hzero, Nat.zero_add]
    cases m with
    | clear => simp [losses]
    | addTimeout fd timeoutSeconds callback => simp [losses]
    | removeTimeout fd => simp [losses]
    | tick => simp [losses]
  · have hempty : Tallied 0 (new n tickIntervalMs : TimerWheel κ) := ⟨List.nodup_nil, rfl⟩
    exact (conserved_iff_lost hempty rfl).mpr rfl

/-- Two timers, one of which fires and one of which is removed. -/
theorem conserved_iff_two :
    ∃ t, Runs.run (step fun _ => []) (new 2 1000 : TimerWheel Unit)
        [.addTimeout 5 2 (some ()), .addTimeout 6 1 (some ()), .tick, .removeTimeout 6] = some t ∧
      ((∀ ms' u, ms' <+: [.addTimeout 5 2 (some ()), .addTimeout 6 1 (some ()), .tick,
          .removeTimeout 6] →
        Runs.run (step fun _ => []) (new 2 1000) ms' = some u → Conserved u) ↔
      ∀ ms' m u, ms' ++ [m] <+: [.addTimeout 5 2 (some ()), .addTimeout 6 1 (some ()), .tick,
          .removeTimeout 6] →
        Runs.run (step fun _ => []) (new 2 1000) ms' = some u → m = .clear → u.timers = []) := by
  obtain ⟨t, ht⟩ : ∃ t, Runs.run (step fun _ => []) (new 2 1000 : TimerWheel Unit)
      [.addTimeout 5 2 (some ()), .addTimeout 6 1 (some ()), .tick, .removeTimeout 6] = some t :=
    ⟨_, rfl⟩
  exact ⟨t, ht, conserved_iff 2 1000 (fun _ => []) ht⟩

/-- A pending timer is lost when the wheel is cleared. -/
theorem lost_by_clear :
    ¬ ∀ ms' u, ms' <+: [.addTimeout 5 30 (some ()), .clear] →
      Runs.run (step fun _ => []) (new 60 1000 : TimerWheel Unit) ms' = some u → Conserved u := by
  intro hall
  have hcleared := hall [.addTimeout 5 30 (some ()), .clear] _ (List.prefix_refl _) rfl
  revert hcleared
  simp only [Conserved]
  decide

end TimerWheel

end TinyWebServer
