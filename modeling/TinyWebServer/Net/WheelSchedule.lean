import TinyWebServer.Library.Countdown
import TinyWebServer.Net.WheelRuns

/-!
# When a timer of the wheel fires

What the wheel holds of one descriptor is a countdown: the ticks until the hand is at the slot of
its task, and the laps of the task. Each call does to the wheel what it does to the countdown. A
task with laps to go moves to the slot that the hand comes to next, so that a lap takes one tick.
-/

namespace TinyWebServer

namespace TimerWheel

variable {κ ω : Type*} {P : ℤ → κ → Prop} {w w' : TimerWheel κ} {calls : κ → List (WheelMove κ)}
  {fd : ℤ} {slot : ℕ} {task : TimerTask κ}

/-! ### The place of a task -/

/-- The only task of its descriptor hangs in this slot. -/
structure Hangs (task : TimerTask κ) (slot : ℕ) (w : TimerWheel κ) : Prop where
  tasks : ∀ i, (w.wheel i).filter (·.fd = task.fd) = if i = slot then [task] else []
  mem_timers : task.fd ∈ w.timers

lemma Hangs.of_agree (h : Hangs task slot w) (hagree : Agree task.fd w w') : Hangs task slot w' :=
  ⟨fun i => (hagree.tasks i).trans (h.tasks i), hagree.timers.mpr h.mem_timers⟩

lemma Vacant.of_agree (h : Vacant fd w) (hagree : Agree fd w w') : Vacant fd w' := by
  refine ⟨fun hmem => h.1 (hagree.timers.mp hmem), fun i task htask hfd => ?_⟩
  have hnone := (hagree.tasks i).trans (filter_eq_nil_of_vacant h i)
  rw [List.filter_eq_nil_iff] at hnone
  exact hnone task htask (decide_eq_true hfd)

lemma hangs_addTaskToSlot (h : Inv P w) (hslot : slot < w.wheelSize) (task : TimerTask κ)
    (hvacant : Vacant task.fd w) : Hangs task slot (w.addTaskToSlot slot task) := by
  rw [addTaskToSlot_eq h hslot]
  refine ⟨fun i => ?_, List.mem_cons_self ..⟩
  dsimp only
  rw [Function.update_apply]
  split_ifs with hi
  · rw [List.filter_cons_of_pos (by simp), filter_eq_nil_of_vacant hvacant]
  · exact filter_eq_nil_of_vacant hvacant i

lemma hangs_moveOn (h : Inv P w) (slot : ℕ) (task : TimerTask κ) :
    Hangs { task with remainingTicks := task.remainingTicks - 1 } ((slot + 1) % w.wheelSize)
      (w.moveOn slot task) :=
  hangs_addTaskToSlot (inv_without h task.fd) (Nat.mod_lt _ h.wheelSize_pos)
    { task with remainingTicks := task.remainingTicks - 1 } (vacant_without w task.fd)

/-! ### The tick that comes to the slot -/

lemma processTasks_append (call : TimerTask κ → TimerWheel κ × ω → TimerWheel κ × ω) (slot : ℕ)
    (front back : List (TimerTask κ)) (s : TimerWheel κ × ω) :
    (processTasks call slot (front ++ back) s).2 =
      (processTasks call slot back (processTasks call slot front s).2).2 := by
  induction front generalizing s with
  | nil => rfl
  | cons task front ih =>
    rw [List.cons_append, processTasks, processTasks]
    split_ifs
    · exact ih _
    · exact ih _

/-- What a pass of the loop makes of the wheel: the turn of the descriptor's only task, with turns
of others in front and behind. -/
lemma exists_turn {call : TimerTask κ → TimerWheel κ × ω → TimerWheel κ × ω}
    (hcall : KeepsWheel call) (slot : ℕ) {tasks : List (TimerTask κ)}
    (hone : tasks.filter (·.fd = task.fd) = [task]) {s : TimerWheel κ × ω}
    (h : Inv (fun _ _ => True) s.1) (hheld : s.1.mutexHeld = true) :
    ∃ t : TimerWheel κ, Inv (fun _ _ => True) t ∧ t.wheelSize = s.1.wheelSize ∧
      Agree task.fd (if 0 < task.remainingTicks then t.moveOn slot task else t.retire task)
        (processTasks call slot tasks s).2.1 := by
  obtain ⟨front, back, rfl, hfront, -, hback⟩ := List.filter_eq_cons_iff.mp hone
  have hfront' : ∀ other ∈ front, other.fd ≠ task.fd := by
    intro other hother
    simpa using hfront other hother
  have hback' : ∀ other ∈ back, other.fd ≠ task.fd := by
    intro other hother
    simpa using List.filter_eq_nil_iff.mp hback other hother
  have hbefore := inv_processTasks hcall slot front s (fun _ _ => trivial) h hheld
  have hsize := (agree_processTasks hcall slot task.fd front s (fun _ _ => trivial) hfront' h
    hheld).wheelSize
  have hbehind : ∀ t : TimerWheel κ × ω, Inv (fun _ _ => True) t.1 → t.1.mutexHeld = true →
      Agree task.fd t.1 (processTasks call slot back t).2.1 := fun t =>
    agree_processTasks hcall slot task.fd back t (fun _ _ => trivial) hback'
  rw [processTasks_append, processTasks]
  generalize (processTasks call slot front s).2 = t at hbefore hsize ⊢
  obtain ⟨ht, hheld'⟩ := hbefore
  split_ifs with hticks
  · refine ⟨t.1, ht, hsize, ?_⟩
    exact hbehind (t.1.moveOn slot task, t.2) (inv_moveOn ht trivial)
      ((mutexHeld_moveOn ht slot task).trans hheld')
  · obtain ⟨reentered, heq⟩ := hcall task t hheld'
    have hcalled := inv_flags ht t.1.mutexHeld reentered
    rw [← heq] at hcalled
    refine ⟨(call task t).1, hcalled, ?_, ?_⟩
    · rw [heq]
      exact hsize
    · refine hbehind ((call task t).1.retire task, (call task t).2) (inv_retire hcalled task) ?_
      change (call task t).1.mutexHeld = true
      rw [heq]
      exact hheld'

lemma currentSlot_moveOn (h : Inv P w) (slot : ℕ) (task : TimerTask κ) :
    (w.moveOn slot task).currentSlot = w.currentSlot := by
  rw [moveOn_eq h]

section Tick

variable {n : ℕ} {call : TimerTask κ → TimerWheel κ × ω → TimerWheel κ × ω} {s : TimerWheel κ × ω}

lemma currentSlot_tick (hcall : KeepsWheel call) (h : Idle n s.1) :
    (tick call s).2.1.currentSlot = (s.1.currentSlot + 1) % n := by
  have hsize := (h.filed.tick hcall h.free).wheelSize
  rw [tick_eq call h.filed.inv h.free] at hsize ⊢
  have hloop : (processTasks call s.1.currentSlot (s.1.wheel s.1.currentSlot)
      ({ s.1 with mutexHeld := true }, s.2)).2.1.currentSlot = s.1.currentSlot := by
    refine (processTasks_induction
      (Q := fun t => Inv (fun _ _ => True) t.1 ∧ t.1.mutexHeld = true ∧
        t.1.currentSlot = s.1.currentSlot)
      _ ({ s.1 with mutexHeld := true }, s.2) ?_ ?_ ⟨inv_flags h.filed.inv true _, rfl, rfl⟩).2.2
    · rintro task - - t ⟨ht, hheld, hslot⟩
      exact ⟨inv_moveOn ht trivial, (mutexHeld_moveOn ht _ task).trans hheld,
        (currentSlot_moveOn ht _ task).trans hslot⟩
    · rintro task - - t ⟨ht, hheld, hslot⟩
      obtain ⟨reentered, heq⟩ := hcall task t hheld
      rw [heq]
      exact ⟨inv_retire (inv_flags ht _ reentered) task, hheld, hslot⟩
  dsimp only at hsize ⊢
  rw [hsize, hloop]

lemma agree_loop (hcall : KeepsWheel call) (h : Idle n s.1)
    (hfd : ∀ task ∈ s.1.wheel s.1.currentSlot, task.fd ≠ fd) :
    Agree fd s.1 (processTasks call s.1.currentSlot (s.1.wheel s.1.currentSlot)
      ({ s.1 with mutexHeld := true }, s.2)).2.1 := by
  obtain ⟨h₁, h₂, h₃, h₄, h₅⟩ := agree_processTasks hcall s.1.currentSlot fd _
    ({ s.1 with mutexHeld := true }, s.2) (fun _ _ => trivial) hfd (inv_flags h.filed.inv true _) rfl
  exact ⟨h₁, h₂, h₃, h₄, h₅⟩

lemma Vacant.tick (hcall : KeepsWheel call) (h : Idle n s.1) (hvacant : Vacant fd s.1) :
    Vacant fd (tick call s).2.1 := by
  rw [tick_eq call h.filed.inv h.free]
  obtain ⟨h₁, h₂⟩ := hvacant.of_agree (agree_loop hcall h (hvacant.2 _))
  exact ⟨h₁, h₂⟩

/-- A task in another slot stays where it is. -/
lemma Hangs.tick_elsewhere (hcall : KeepsWheel call) (h : Idle n s.1) (hangs : Hangs task slot s.1)
    (hne : s.1.currentSlot ≠ slot) : Hangs task slot (TimerWheel.tick call s).2.1 := by
  have hfd : ∀ other ∈ s.1.wheel s.1.currentSlot, other.fd ≠ task.fd := by
    have hnone := hangs.tasks s.1.currentSlot
    rw [if_neg hne, List.filter_eq_nil_iff] at hnone
    intro other hother
    simpa using hnone other hother
  rw [tick_eq call h.filed.inv h.free]
  obtain ⟨h₁, h₂⟩ := hangs.of_agree (agree_loop hcall h hfd)
  exact ⟨h₁, h₂⟩

/-- A task in the current slot has its turn. -/
lemma Hangs.exists_turn (hcall : KeepsWheel call) (h : Idle n s.1)
    (hangs : Hangs task s.1.currentSlot s.1) :
    ∃ t : TimerWheel κ, Inv (fun _ _ => True) t ∧ t.wheelSize = n ∧
      Agree task.fd
        (if 0 < task.remainingTicks then t.moveOn s.1.currentSlot task else t.retire task)
        (processTasks call s.1.currentSlot (s.1.wheel s.1.currentSlot)
          ({ s.1 with mutexHeld := true }, s.2)).2.1 := by
  have hone := hangs.tasks s.1.currentSlot
  rw [if_pos rfl] at hone
  obtain ⟨t, ht, hsize, hagree⟩ := TimerWheel.exists_turn hcall s.1.currentSlot hone
    (s := ({ s.1 with mutexHeld := true }, s.2)) (inv_flags h.filed.inv true _) rfl
  exact ⟨t, ht, hsize.trans h.filed.wheelSize, hagree⟩

/-- A task with laps to go waits in the next slot. -/
lemma Hangs.tick_lap (hcall : KeepsWheel call) (h : Idle n s.1)
    (hangs : Hangs task s.1.currentSlot s.1) (hlaps : 0 < task.remainingTicks) :
    Hangs { task with remainingTicks := task.remainingTicks - 1 } ((s.1.currentSlot + 1) % n)
      (TimerWheel.tick call s).2.1 := by
  obtain ⟨t, ht, hsize, hagree⟩ := hangs.exists_turn hcall h
  rw [if_pos hlaps] at hagree
  have hmoved := hangs_moveOn ht s.1.currentSlot task
  rw [hsize] at hmoved
  rw [tick_eq call h.filed.inv h.free]
  obtain ⟨h₁, h₂⟩ := hmoved.of_agree hagree
  exact ⟨h₁, h₂⟩

/-- A task without laps is gone. -/
lemma Hangs.tick_fire (hcall : KeepsWheel call) (h : Idle n s.1)
    (hangs : Hangs task s.1.currentSlot s.1) (hlaps : task.remainingTicks ≤ 0) :
    Vacant task.fd (TimerWheel.tick call s).2.1 := by
  obtain ⟨t, -, -, hagree⟩ := hangs.exists_turn hcall h
  rw [if_neg (not_lt.mpr hlaps)] at hagree
  rw [tick_eq call h.filed.inv h.free]
  obtain ⟨h₁, h₂⟩ := (vacant_retire task t).of_agree hagree
  exact ⟨h₁, h₂⟩

end Tick

/-! ### What a tick runs -/

lemma processTasks_ran (calls : κ → List (WheelMove κ)) (slot : ℕ) (tasks : List (TimerTask κ))
    (s : TimerWheel κ × List (TimerTask κ)) :
    (processTasks (runCallback calls) slot tasks s).1 =
        (tasks.filter (·.remainingTicks ≤ 0)).length ∧
      (processTasks (runCallback calls) slot tasks s).2.2 =
        s.2 ++ tasks.filter (·.remainingTicks ≤ 0) := by
  induction tasks generalizing s with
  | nil => simp [processTasks]
  | cons task rest ih =>
    rw [processTasks]
    split_ifs with hticks
    · rw [List.filter_cons_of_neg (by simp only [decide_eq_true_eq]; omega)]
      exact ih _
    · rw [List.filter_cons_of_pos (by simp only [decide_eq_true_eq]; omega)]
      dsimp only
      rw [(ih _).1, (ih _).2]
      simp [runCallback]

lemma tick_ran {n : ℕ} (calls : κ → List (WheelMove κ)) (h : Idle n w) :
    (tick (runCallback calls) (w, [])).1 = (w.next calls .tick).2.length ∧
      (w.next calls .tick).2 = (w.wheel w.currentSlot).filter (·.remainingTicks ≤ 0) := by
  have hran := processTasks_ran calls w.currentSlot (w.wheel w.currentSlot)
    ({ w with mutexHeld := true }, [])
  rw [List.nil_append] at hran
  rw [next, apply, tick_eq (runCallback calls) (s := (w, [])) h.filed.inv h.free]
  dsimp only
  rw [hran.1, hran.2]
  exact ⟨rfl, rfl⟩

/-! ### Countdowns -/

/-- The ticks until the hand is at the slot of a timeout. -/
def waitsOf (n : ℕ) (timeoutSeconds : ℤ) : ℕ :=
  if timeoutSeconds ≤ toInt n then timeoutSeconds.toNat % n
  else (timeoutSeconds.tmod (toInt n)).toNat % n

/-- The laps of a timeout, which are negative if the cast of the size is. -/
def lapsOf (n : ℕ) (timeoutSeconds : ℤ) : ℤ :=
  if timeoutSeconds ≤ toInt n then 0 else timeoutSeconds.tdiv (toInt n)

lemma waitsOf_of_lt {n : ℕ} (hn : n < 2 ^ 31) (t : ℕ) : waitsOf n t = t % n := by
  rw [waitsOf, toInt_of_lt hn]
  split_ifs
  · rw [Int.toNat_natCast]
  · rw [← Int.ofNat_tmod, Int.toNat_natCast, Nat.mod_mod]

lemma lapsOf_of_lt {n : ℕ} (hn : n < 2 ^ 31) (t : ℕ) :
    lapsOf n t = (if t ≤ n then 0 else t / n : ℕ) := by
  rw [lapsOf, toInt_of_lt hn]
  split_ifs with hround hle hle
  · rfl
  · omega
  · omega
  · exact (Int.ofNat_tdiv t n).symm

lemma calculateSlot_eq {timeoutSeconds remainingTicks : ℤ}
    (h : w.calculateSlot timeoutSeconds = .ok (slot, remainingTicks)) :
    slot = (w.currentSlot + waitsOf w.wheelSize timeoutSeconds) % w.wheelSize ∧
      remainingTicks = lapsOf w.wheelSize timeoutSeconds := by
  rw [calculateSlot] at h
  split_ifs at h with hpos hround
  · cases h
    rw [waitsOf, lapsOf, if_pos hround, if_pos hround, Nat.add_mod_mod]
    exact ⟨rfl, rfl⟩
  · dsimp only at h
    split_ifs at h
    cases h
    rw [waitsOf, lapsOf, if_neg hround, if_neg hround, Nat.add_mod_mod]
    exact ⟨rfl, rfl⟩

/-- What a call does to the countdown of a descriptor. -/
def countdownNext (n : ℕ) (fd : ℤ) (c : Countdown κ) : WheelMove κ → Countdown κ
  | .addTimeout fd' timeoutSeconds (some callback) =>
    if fd' = fd ∧ ¬ Refused n fd' timeoutSeconds (some callback) then
      .pending callback (waitsOf n timeoutSeconds) (lapsOf n timeoutSeconds)
    else c
  | .addTimeout _ _ none => c
  | .removeTimeout fd' => if fd' = fd ∧ 0 ≤ fd then .spent else c
  | .clear => .spent
  | .tick => c.tick

/-- The wheel holds of the descriptor what the countdown says. -/
def Shows (fd : ℤ) : Countdown κ → TimerWheel κ → Prop
  | .pending callback waits laps, w =>
    waits < w.wheelSize ∧ Hangs ⟨fd, callback, laps⟩ ((w.currentSlot + waits) % w.wheelSize) w
  | .spent, w => Vacant fd w

lemma Shows.of_agree {c : Countdown κ} (h : Shows fd c w) (hagree : Agree fd w w') :
    Shows fd c w' := by
  cases c with
  | pending callback waits laps =>
    rw [Shows, hagree.wheelSize, hagree.currentSlot]
    exact ⟨h.1, h.2.of_agree hagree⟩
  | spent => exact Vacant.of_agree h hagree

/-- The hand is at the slot when nothing is left to wait. -/
lemma currentSlot_eq_iff {n cur waits : ℕ} (hcur : cur < n) (hwaits : waits < n) :
    cur = (cur + waits) % n ↔ waits = 0 := by
  constructor
  · intro h
    rcases lt_or_ge (cur + waits) n with hlt | hge
    · rw [Nat.mod_eq_of_lt hlt] at h
      omega
    · rw [Nat.mod_eq_sub_mod hge, Nat.mod_eq_of_lt (by omega)] at h
      omega
  · rintro rfl
    exact (Nat.mod_eq_of_lt hcur).symm

lemma waitsOf_lt {n : ℕ} (hn : 0 < n) (timeoutSeconds : ℤ) : waitsOf n timeoutSeconds < n := by
  rw [waitsOf]
  split_ifs
  · exact Nat.mod_lt _ hn
  · exact Nat.mod_lt _ hn

/-- A timer that is accepted starts its countdown. -/
lemma shows_addTimeout {n : ℕ} (h : Idle n w) {timeoutSeconds : ℤ} {callback : κ}
    (haccepted : ¬ Refused n fd timeoutSeconds (some callback)) :
    Shows fd (.pending callback (waitsOf n timeoutSeconds) (lapsOf n timeoutSeconds))
      (w.addTimeout fd timeoutSeconds (some callback)).2 := by
  have hinv := h.filed.inv
  have hsize := h.filed.wheelSize
  rw [← hsize] at haccepted ⊢
  obtain ⟨slot, remainingTicks, hlt, hslot, heq⟩ := addTimeout_accepted hinv h.free haccepted
  obtain ⟨hplace, hlaps⟩ := calculateSlot_eq hslot
  have hdetach := inv_detach hinv fd
  have hring : slot < (w.detach fd).wheelSize := (wheelSize_detach hinv fd).symm ▸ hlt
  have hhangs := hangs_addTaskToSlot hdetach hring ⟨fd, callback, remainingTicks⟩
    (vacant_detach hinv fd)
  rw [addTaskToSlot_eq hdetach hring] at hhangs
  rw [heq, addTaskToSlot_eq hdetach hring, Shows, ← hlaps]
  dsimp only
  rw [wheelSize_detach hinv, currentSlot_detach hinv, ← hplace]
  exact ⟨waitsOf_lt hinv.wheelSize_pos _, hhangs.tasks, hhangs.mem_timers⟩

/-- A tick does to the wheel what it does to the countdown, and runs what the countdown fires. -/
lemma Shows.tick {n : ℕ} (calls : κ → List (WheelMove κ)) (h : Idle n w) {c : Countdown κ}
    (hshows : Shows fd c w) :
    Shows fd c.tick (w.next calls .tick).1 ∧
      ((w.next calls .tick).2.filter (·.fd = fd)).map (·.callback) = c.fires := by
  have hcall := keepsWheel_runCallback calls
  have hidle : Idle n (w.next calls .tick).1 := h.next .tick
  have hcurrent : (w.next calls .tick).1.currentSlot = (w.currentSlot + 1) % n :=
    currentSlot_tick hcall (s := (w, [])) h
  have hcur : w.currentSlot < n := h.filed.wheelSize ▸ h.filed.inv.currentSlot_lt
  rw [(tick_ran calls h).2, List.filter_comm]
  cases c with
  | spent =>
    rw [filter_eq_nil_of_vacant hshows]
    exact ⟨Vacant.tick hcall (s := (w, [])) h hshows, rfl⟩
  | pending callback waits laps =>
    obtain ⟨hwaits, hhangs⟩ := hshows
    rw [h.filed.wheelSize] at hwaits hhangs
    have htask := hhangs.tasks w.currentSlot
    dsimp only at htask
    rw [if_congr (currentSlot_eq_iff hcur hwaits) rfl rfl] at htask
    rw [htask, Countdown.fires_pending]
    cases waits with
    | succ waits =>
      have hne : w.currentSlot ≠ (w.currentSlot + (waits + 1)) % n := by
        rw [Ne, currentSlot_eq_iff hcur hwaits]
        simp
      have hstays := Hangs.tick_elsewhere hcall (s := (w, [])) h hhangs hne
      refine ⟨?_, by simp⟩
      rw [Countdown.tick_wait, Shows, hidle.filed.wheelSize, hcurrent, Nat.mod_add_mod,
        Nat.add_assoc, Nat.add_comm 1 waits]
      exact ⟨by omega, hstays⟩
    | zero =>
      rw [Nat.add_zero, Nat.mod_eq_of_lt hcur] at hhangs
      rcases lt_or_ge 0 laps with hlaps | hlaps
      · have hlap := Hangs.tick_lap hcall (s := (w, [])) h hhangs hlaps
        refine ⟨?_, by simp [hlaps]⟩
        rw [Countdown.tick_lap callback hlaps, Shows, hidle.filed.wheelSize, hcurrent,
          Nat.add_zero, Nat.mod_mod]
        exact ⟨hwaits, hlap⟩
      · have hgone := Hangs.tick_fire hcall (s := (w, [])) h hhangs hlaps
        rw [Countdown.tick_fire callback hlaps]
        exact ⟨hgone, by simp [hlaps]⟩

/-- Each call does to the wheel what it does to the countdown. -/
theorem Shows.next {n : ℕ} (calls : κ → List (WheelMove κ)) (h : Idle n w) {c : Countdown κ}
    (hshows : Shows fd c w) (m : WheelMove κ) :
    Shows fd (countdownNext n fd c m) (w.next calls m).1 := by
  have hinv := h.filed.inv
  cases m with
  | addTimeout fd' timeoutSeconds callback =>
    change Shows fd _ (w.addTimeout fd' timeoutSeconds callback).2
    by_cases hrefused : Refused n fd' timeoutSeconds callback
    · have hsame : countdownNext n fd c (.addTimeout fd' timeoutSeconds callback) = c := by
        cases callback with
        | none => rfl
        | some callback => simp [countdownNext, hrefused]
      rw [← h.filed.wheelSize] at hrefused
      rw [hsame, (addTimeout_of_refused hrefused).2]
      exact hshows
    · cases callback with
      | none => exact absurd (Or.inr (Or.inr (Or.inl rfl))) hrefused
      | some callback =>
        by_cases hfd : fd' = fd
        · subst hfd
          rw [countdownNext, if_pos ⟨rfl, hrefused⟩]
          exact shows_addTimeout h hrefused
        · rw [countdownNext, if_neg (fun hboth => hfd hboth.1)]
          exact hshows.of_agree (agree_addTimeout hinv timeoutSeconds callback hfd)
  | removeTimeout fd' =>
    change Shows fd _ (w.removeTimeout fd').2
    by_cases hfd : fd' = fd ∧ 0 ≤ fd
    · obtain ⟨rfl, hpos⟩ := hfd
      rw [countdownNext, if_pos ⟨rfl, hpos⟩]
      exact vacant_removeTimeout hinv h.free hpos
    · rw [countdownNext, if_neg hfd]
      rcases removeTimeout_cases w fd' with ⟨-, heq⟩ | ⟨-, hheld, -⟩ | ⟨hpos, -, -⟩
      · rw [heq]
        exact hshows
      · exact absurd (h.free.symm.trans hheld) (by simp)
      · have hne : fd' ≠ fd := by
          rintro rfl
          exact hfd ⟨rfl, hpos⟩
        exact hshows.of_agree (agree_removeTimeout hinv hne)
  | clear =>
    change Vacant fd w.clear
    rw [clear_of_free h.free]
    exact ⟨List.not_mem_nil, fun i task htask => nomatch htask⟩
  | tick => exact (hshows.tick calls h).1

lemma shows_new (n : ℕ) (tickIntervalMs : ℤ) (fd : ℤ) :
    Shows fd .spent (new n tickIntervalMs : TimerWheel κ) :=
  ⟨List.not_mem_nil, fun _ _ htask => nomatch htask⟩

/-- Every run does to the wheel what it does to the countdowns. -/
theorem Shows.after {n : ℕ} (calls : κ → List (WheelMove κ)) (h : Idle n w) {c : Countdown κ}
    (hshows : Shows fd c w) (ms : List (WheelMove κ)) :
    Shows fd (ms.foldl (countdownNext n fd) c) (w.after calls ms) := by
  induction ms generalizing w c with
  | nil => exact hshows
  | cons m ms ih => exact ih (h.next m) (hshows.next calls h m)

end TimerWheel

end TinyWebServer
