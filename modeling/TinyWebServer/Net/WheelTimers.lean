import TinyWebServer.Net.WheelInvariant

/-!
# Which descriptors have a timer

The wheel of a loop holds one task of a descriptor at most in a slot. A timeout of up to ten rounds
is always added, and a tick takes away the timers that it fires and no others.
-/

namespace TinyWebServer

namespace TimerWheel

variable {κ : Type*} {n : ℕ} {P Q : ℤ → κ → Prop} {w : TimerWheel κ}

/-- A ring of `n` slots in order, where a slot has at most one task of a descriptor. -/
structure Filed (n : ℕ) (P : ℤ → κ → Prop) (w : TimerWheel κ) : Prop where
  inv : Inv P w
  distinct : ∀ i, ((w.wheel i).map (·.fd)).Nodup
  wheelSize : w.wheelSize = n

lemma filed_new {n : ℕ} (hn : 0 < n) (tickIntervalMs : ℤ) : Filed n P (new n tickIntervalMs) :=
  ⟨inv_new hn tickIntervalMs, fun _ => List.nodup_nil, if_pos hn⟩

lemma Filed.flags (h : Filed n P w) (held reentered : Bool) :
    Filed n P { w with mutexHeld := held, reentered := reentered } :=
  ⟨inv_flags h.inv held reentered, h.distinct, h.wheelSize⟩

lemma Filed.without (h : Filed n P w) (fd : ℤ) : Filed n P (w.without fd) :=
  ⟨inv_without h.inv fd, fun i => (h.distinct i).sublist (List.filter_sublist.map _), h.wheelSize⟩

lemma Filed.detach (h : Filed n P w) (fd : ℤ) : Filed n P (w.detach fd) := by
  have hinv := inv_detach h.inv fd
  have hwithout := h.without fd
  revert hinv
  rw [TimerWheel.detach]
  split_ifs
  · rw [cancel_eq h.inv]
    exact fun hinv => ⟨hinv, hwithout.distinct, hwithout.wheelSize⟩
  · exact fun _ => h

lemma Filed.addTaskToSlot (h : Filed n P w) {slot : ℕ} (hslot : slot < w.wheelSize)
    {task : TimerTask κ} (htask : P task.fd task.callback) (hvacant : w.Vacant task.fd) :
    Filed n P (w.addTaskToSlot slot task) := by
  have hinv := inv_addTaskToSlot h.inv hslot htask
  rw [addTaskToSlot_eq h.inv hslot] at hinv ⊢
  refine ⟨hinv, fun i => ?_, h.wheelSize⟩
  dsimp only
  rw [Function.update_apply]
  split_ifs with hi
  · rw [List.map_cons, List.nodup_cons]
    refine ⟨fun hmem => ?_, h.distinct slot⟩
    obtain ⟨other, hother, hfd⟩ := List.mem_map.mp hmem
    exact hvacant.2 slot other hother hfd
  · exact h.distinct i

lemma Filed.addTimeoutLocked (h : Filed n P w) {fd : ℤ} (timeoutSeconds : ℤ) {callback : κ}
    (hP : P fd callback) : Filed n P (addTimeoutLocked fd timeoutSeconds callback w).2 := by
  have hdetach := h.detach fd
  rcases addTimeoutLocked_cases h.inv fd timeoutSeconds callback with
    heq | ⟨slot, remainingTicks, hlt, heq⟩
  · rw [heq]
    exact hdetach
  · have htask : P (TimerTask.mk fd callback remainingTicks).fd callback := hP
    obtain ⟨⟨h₁, h₂, h₃, h₄, h₅, h₆⟩, hdistinct, hsize⟩ :=
      hdetach.addTaskToSlot hlt htask (vacant_detach h.inv fd)
    rw [heq]
    exact ⟨⟨h₁, h₂, h₃, h₄, h₅, h₆⟩, hdistinct, hsize⟩

lemma Filed.addTimeout (h : Filed n P w) {fd : ℤ} (timeoutSeconds : ℤ) {callback : κ}
    (hP : 0 ≤ fd → P fd callback) :
    Filed n P (w.addTimeout fd timeoutSeconds (some callback)).2 := by
  rcases addTimeout_cases w fd timeoutSeconds callback with heq | ⟨-, -, heq⟩ | ⟨hfd, -, heq⟩
  · rw [heq]
    exact h
  · rw [heq]
    exact h.flags _ true
  · rw [heq]
    exact ((h.flags true _).addTimeoutLocked timeoutSeconds (hP hfd)).flags false _

lemma Filed.removeTimeout (h : Filed n P w) (fd : ℤ) : Filed n P (w.removeTimeout fd).2 := by
  rcases removeTimeout_cases w fd with ⟨-, heq⟩ | ⟨-, -, heq⟩ | ⟨-, -, heq⟩
  · rw [heq]
    exact h
  · rw [heq]
    exact h.flags _ true
  · rw [heq]
    exact ((h.flags true _).detach fd).flags false _

lemma Filed.retire (h : Filed n P w) (task : TimerTask κ) : Filed n P (w.retire task) :=
  ⟨inv_retire h.inv task, (h.without task.fd).distinct, h.wheelSize⟩

lemma Filed.moveOn (h : Filed n P w) (slot : ℕ) {task : TimerTask κ}
    (htask : P task.fd task.callback) : Filed n P (w.moveOn slot task) :=
  (h.without task.fd).addTaskToSlot (Nat.mod_lt _ h.inv.wheelSize_pos) htask
    (vacant_without w task.fd)

/-- A tick whose callbacks leave the wheel alone. -/
lemma Filed.tick {ω : Type*} {call : TimerTask κ → TimerWheel κ × ω → TimerWheel κ × ω}
    (hcall : KeepsWheel call) {s : TimerWheel κ × ω} (h : Filed n P s.1)
    (hfree : s.1.mutexHeld = false) : Filed n P (tick call s).2.1 := by
  have hturns : Filed n P (processTasks call s.1.currentSlot (s.1.wheel s.1.currentSlot)
      ({ s.1 with mutexHeld := true }, s.2)).2.1 := by
    refine (processTasks_induction (Q := fun s => Filed n P s.1 ∧ s.1.mutexHeld = true) _ _ ?_ ?_
      ⟨h.flags true _, rfl⟩).1
    · rintro task htask - t ⟨ht, hheld⟩
      exact ⟨ht.moveOn _ (h.inv.task_ok _ task htask),
        (mutexHeld_moveOn ht.inv _ task).trans hheld⟩
    · rintro task - - t ⟨ht, hheld⟩
      obtain ⟨reentered, heq⟩ := hcall task t hheld
      rw [heq]
      exact ⟨(ht.flags _ reentered).retire task, hheld⟩
  have hinv := inv_tick hcall h.inv hfree
  rw [tick_eq call h.inv hfree] at hinv ⊢
  exact ⟨hinv, hturns.distinct, hturns.wheelSize⟩

/-! ### The ring of a loop -/

/-- A wheel in order, with the ring that the loop has made. -/
structure Sound (P : ℤ → κ → Prop) (w : TimerWheel κ) : Prop where
  inv : Inv P w
  distinct : ∀ i, ((w.wheel i).map (·.fd)).Nodup
  wheelSize : w.wheelSize = 60

lemma Sound.filed (h : Sound P w) : Filed 60 P w := ⟨h.inv, h.distinct, h.wheelSize⟩

lemma Filed.sound (h : Filed 60 P w) : Sound P w := ⟨h.inv, h.distinct, h.wheelSize⟩

lemma sound_new : Sound P (new 60 1000) := (filed_new (by simp) 1000).sound

lemma Sound.of_tasks (h : Sound P w) (hQ : ∀ i, ∀ task ∈ w.wheel i, Q task.fd task.callback) :
    Sound Q w :=
  ⟨h.inv.of_tasks hQ, h.distinct, h.wheelSize⟩

lemma Sound.flags (h : Sound P w) (held reentered : Bool) :
    Sound P { w with mutexHeld := held, reentered := reentered } :=
  (h.filed.flags held reentered).sound

lemma Sound.detach (h : Sound P w) (fd : ℤ) : Sound P (w.detach fd) := (h.filed.detach fd).sound

lemma Sound.addTimeout (h : Sound P w) {fd : ℤ} (timeoutSeconds : ℤ) {callback : κ}
    (hP : 0 ≤ fd → P fd callback) : Sound P (w.addTimeout fd timeoutSeconds (some callback)).2 :=
  (h.filed.addTimeout timeoutSeconds hP).sound

lemma Sound.removeTimeout (h : Sound P w) (fd : ℤ) : Sound P (w.removeTimeout fd).2 :=
  (h.filed.removeTimeout fd).sound

/-! ### Ten rounds -/

lemma toInt_lt (k : ℕ) : toInt k < 2 ^ 31 := by
  refine (Int.bmod_lt (by norm_num)).trans_eq ?_
  norm_num

/-- A cast drops multiples of `2 ^ 32`. -/
lemma exists_toInt_eq (k : ℕ) : ∃ j : ℤ, toInt k = k + 2 ^ 32 * j := by
  obtain ⟨j, hj⟩ : ((2 ^ 32 : ℕ) : ℤ) ∣ toInt k - k := Int.dvd_bmod_sub_self
  refine ⟨j, ?_⟩
  omega

lemma toInt_of_lt {k : ℕ} (h : k < 2 ^ 31) : toInt k = k := by
  apply Int.bmod_eq_of_le_mul_two
  · push_cast
    omega
  · push_cast
    omega

/-- The check in front of the lock implies the one in `CalculateSlot`, also where the casts of
the ring's size and of its tenfold lose bits. -/
lemma calculateSlot_of_le_max {timeoutSeconds : ℤ} (hpos : 0 < timeoutSeconds)
    (hle : timeoutSeconds ≤ toInt (w.wheelSize * kMaxCycles)) :
    ∃ result, w.calculateSlot timeoutSeconds = .ok result := by
  have hcycles : timeoutSeconds.tdiv (toInt w.wheelSize) ≤ toInt kMaxCycles := by
    rw [show toInt kMaxCycles = 10 from rfl]
    rcases le_or_gt (toInt w.wheelSize) 0 with hring | hring
    · exact (Int.tdiv_nonpos_of_nonneg_of_nonpos hpos.le hring).trans (by norm_num)
    · -- The two casts differ by less than `2 ^ 32` from a factor of ten.
      obtain ⟨j, hj⟩ := exists_toInt_eq w.wheelSize
      obtain ⟨j', hj'⟩ := exists_toInt_eq (w.wheelSize * kMaxCycles)
      have hlt := toInt_lt (w.wheelSize * kMaxCycles)
      have hten : timeoutSeconds ≤ 10 * toInt w.wheelSize := by
        rw [Nat.cast_mul, show ((kMaxCycles : ℕ) : ℤ) = 10 from rfl] at hj'
        omega
      rw [Int.tdiv_eq_ediv_of_nonneg hpos.le]
      exact Int.ediv_le_of_le_mul hring hten
  rw [calculateSlot, if_neg (not_le.mpr hpos)]
  by_cases hround : timeoutSeconds ≤ toInt w.wheelSize
  · rw [if_pos hround]
    exact ⟨_, rfl⟩
  · rw [if_neg hround]
    dsimp only
    rw [if_neg (not_lt.mpr hcycles)]
    exact ⟨_, rfl⟩

/-! ### The checks of `AddTimeout` -/

/-- The checks in front of the lock turn the call down. -/
def Refused (wheelSize : ℕ) (fd timeoutSeconds : ℤ) (callback : Option κ) : Prop :=
  fd < 0 ∨ timeoutSeconds ≤ 0 ∨ callback = none ∨ toInt (wheelSize * kMaxCycles) < timeoutSeconds

instance (wheelSize : ℕ) (fd timeoutSeconds : ℤ) (callback : Option κ) :
    Decidable (Refused wheelSize fd timeoutSeconds callback) :=
  inferInstanceAs (Decidable (_ ∨ _ ∨ _ ∨ _))

lemma addTimeout_of_refused {fd timeoutSeconds : ℤ} {callback : Option κ}
    (h : Refused w.wheelSize fd timeoutSeconds callback) :
    ¬ (w.addTimeout fd timeoutSeconds callback).1.isSuccess ∧
      (w.addTimeout fd timeoutSeconds callback).2 = w := by
  have hcode : ∀ message, ¬ (Error.mk .kInvalidArgument message).isSuccess := by
    intro message
    simp [Error.isSuccess]
  simp only [addTimeout]
  by_cases hfd : fd < 0
  · rw [if_pos hfd]
    exact ⟨hcode _, rfl⟩
  rw [if_neg hfd]
  by_cases htimeout : timeoutSeconds ≤ 0
  · rw [if_pos htimeout]
    exact ⟨hcode _, rfl⟩
  rw [if_neg htimeout]
  cases callback with
  | none => exact ⟨hcode _, rfl⟩
  | some callback =>
    have hmax : toInt (w.wheelSize * kMaxCycles) < timeoutSeconds := by
      rcases h with h | h | h | h
      · exact absurd h hfd
      · exact absurd h htimeout
      · cases h
      · exact h
    dsimp only
    rw [if_pos hmax]
    exact ⟨hcode _, rfl⟩

lemma addTimeout_of_not_refused {fd timeoutSeconds : ℤ} {callback : Option κ}
    (h : ¬ Refused w.wheelSize fd timeoutSeconds callback) :
    ∃ f, callback = some f ∧ 0 ≤ fd ∧ 0 < timeoutSeconds ∧
      timeoutSeconds ≤ toInt (w.wheelSize * kMaxCycles) ∧
      w.addTimeout fd timeoutSeconds callback =
        w.withLock .success (addTimeoutLocked fd timeoutSeconds f) := by
  simp only [Refused, not_or, not_lt, not_le] at h
  obtain ⟨hfd, htimeout, hcallback, hmax⟩ := h
  obtain ⟨f, rfl⟩ := Option.ne_none_iff_exists'.mp hcallback
  refine ⟨f, rfl, hfd, htimeout, hmax, ?_⟩
  simp only [addTimeout, if_neg (not_lt.mpr hfd), if_neg (not_le.mpr htimeout),
    if_neg (not_lt.mpr hmax)]

lemma calculateSlot_detach (h : Inv P w) (fd timeoutSeconds : ℤ) :
    (w.detach fd).calculateSlot timeoutSeconds = w.calculateSlot timeoutSeconds := by
  simp only [calculateSlot, wheelSize_detach h, currentSlot_detach h]

/-- What a call that passes the checks does to a wheel that nobody works on. -/
lemma addTimeout_accepted (h : Inv P w) (hfree : w.mutexHeld = false) {fd timeoutSeconds : ℤ}
    {callback : κ} (haccepted : ¬ Refused w.wheelSize fd timeoutSeconds (some callback)) :
    ∃ slot remainingTicks, slot < w.wheelSize ∧
      w.calculateSlot timeoutSeconds = .ok (slot, remainingTicks) ∧
      w.addTimeout fd timeoutSeconds (some callback) = (.success,
        { (w.detach fd).addTaskToSlot slot ⟨fd, callback, remainingTicks⟩ with
          totalTasksAdded := (w.detach fd).totalTasksAdded + 1 }) := by
  obtain ⟨f, hf, -, hpos, hle, heq⟩ := addTimeout_of_not_refused haccepted
  cases hf
  have hheld := inv_flags h true w.reentered
  have hdetach : ({ w with mutexHeld := true } : TimerWheel κ).detach fd =
      { w.detach fd with mutexHeld := true } := by
    simp only [detach]
    split_ifs
    · rw [cancel_eq hheld, cancel_eq h]
      rfl
    · rfl
  have hfree' : (w.detach fd).mutexHeld = false := by
    rw [detach]
    split_ifs
    · rw [cancel_eq h]
      exact hfree
    · exact hfree
  obtain ⟨⟨slot, remainingTicks⟩, hslot⟩ := calculateSlot_of_le_max hpos hle
  have hlt := calculateSlot_ok h.wheelSize_pos hslot
  have hlocked : ({ w.detach fd with mutexHeld := true } : TimerWheel κ).calculateSlot
      timeoutSeconds = .ok (slot, remainingTicks) := (calculateSlot_detach h fd _).trans hslot
  have hring : slot < (w.detach fd).wheelSize := (wheelSize_detach h fd).symm ▸ hlt
  refine ⟨slot, remainingTicks, hlt, hslot, ?_⟩
  rw [heq, withLock, if_neg (by simp [hfree])]
  simp only [addTimeoutLocked, hdetach, hlocked]
  rw [addTaskToSlot_eq (inv_detach h fd) hring,
    addTaskToSlot_eq (inv_flags (inv_detach h fd) true (w.detach fd).reentered) hring]
  dsimp only
  rw [hfree']

/-- The wheel has a task of the descriptor with this callback, and the map knows it. -/
def Pending (fd : ℤ) (callback : κ) (w : TimerWheel κ) : Prop :=
  fd ∈ w.timers ∧ ∃ task ∈ w.tasks, task.fd = fd ∧ task.callback = callback

lemma Vacant.not_pending {fd : ℤ} (h : Vacant fd w) (callback : κ) : ¬ Pending fd callback w :=
  fun hpending => h.1 hpending.1

/-- The timer of such a timeout is there when `AddTimeout` returns. -/
lemma pending_addTimeout (h : Sound P w) (hfree : w.mutexHeld = false) {fd timeoutSeconds : ℤ}
    (hfd : 0 ≤ fd) (hpos : 0 < timeoutSeconds) (hle : timeoutSeconds ≤ 600) (callback : κ) :
    (w.addTimeout fd timeoutSeconds (some callback)).1 = .success ∧
      Pending fd callback (w.addTimeout fd timeoutSeconds (some callback)).2 := by
  have haccepted : ¬ Refused w.wheelSize fd timeoutSeconds (some callback) := by
    rw [h.wheelSize]
    rintro (hneg | hneg | hnone | hlong)
    · exact absurd hfd (not_le.mpr hneg)
    · exact absurd hpos (not_lt.mpr hneg)
    · cases hnone
    · exact absurd hle (not_le.mpr hlong)
  obtain ⟨slot, remainingTicks, hlt, -, heq⟩ := addTimeout_accepted h.inv hfree haccepted
  have hdetach := inv_detach h.inv fd
  have hring : slot < (w.detach fd).wheelSize := (wheelSize_detach h.inv fd).symm ▸ hlt
  rw [heq, addTaskToSlot_eq hdetach hring]
  refine ⟨rfl, List.mem_cons_self .., ⟨fd, callback, remainingTicks⟩, ?_, rfl, rfl⟩
  refine List.mem_flatMap.mpr ⟨slot, List.mem_range.mpr (hdetach.slotCount_eq ▸ hring), ?_⟩
  dsimp only
  rw [Function.update_self]
  exact List.mem_cons_self ..

lemma addTimeout_of_le (h : Sound P w) (hfree : w.mutexHeld = false) {fd timeoutSeconds : ℤ}
    (hfd : 0 ≤ fd) (hpos : 0 < timeoutSeconds) (hle : timeoutSeconds ≤ 600) (callback : κ) :
    (w.addTimeout fd timeoutSeconds (some callback)).1 = .success ∧
      fd ∈ (w.addTimeout fd timeoutSeconds (some callback)).2.timers :=
  ⟨(pending_addTimeout h hfree hfd hpos hle callback).1,
    (pending_addTimeout h hfree hfd hpos hle callback).2.1⟩

/-- A longer one is refused, and the wheel stays as it is. -/
lemma addTimeout_of_lt (hsize : w.wheelSize = 60) (fd : ℤ) {timeoutSeconds : ℤ}
    (hlt : 600 < timeoutSeconds) (callback : κ) :
    (w.addTimeout fd timeoutSeconds (some callback)).2 = w := by
  have hmax : toInt (w.wheelSize * kMaxCycles) < timeoutSeconds := by
    rw [hsize]
    exact hlt
  simp only [TimerWheel.addTimeout, if_pos hmax]
  split_ifs <;> rfl

lemma removeTimeout_of_nonneg (w : TimerWheel κ) {fd : ℤ} (hfd : 0 ≤ fd) :
    (w.removeTimeout fd).1 = .success := by
  rw [TimerWheel.removeTimeout, if_neg (not_lt.mpr hfd), withLock]
  split_ifs <;> rfl

/-! ### The turns of a tick -/

lemma vacant_retire (task : TimerTask κ) (w : TimerWheel κ) : (w.retire task).Vacant task.fd :=
  vacant_without w task.fd

lemma Sound.retire (h : Sound P w) (task : TimerTask κ) : Sound P (w.retire task) :=
  (h.filed.retire task).sound

lemma mem_timers_retire {fd : ℤ} {task : TimerTask κ} (hne : fd ≠ task.fd) (w : TimerWheel κ) :
    fd ∈ (w.retire task).timers ↔ fd ∈ w.timers := by
  simp [TimerWheel.retire, hne]

lemma Sound.moveOn (h : Sound P w) (slot : ℕ) {task : TimerTask κ}
    (htask : P task.fd task.callback) : Sound P (w.moveOn slot task) :=
  (h.filed.moveOn slot htask).sound

lemma Sound.tick {ω : Type*} {call : TimerTask κ → TimerWheel κ × ω → TimerWheel κ × ω}
    (hcall : KeepsWheel call) {s : TimerWheel κ × ω} (h : Sound P s.1)
    (hfree : s.1.mutexHeld = false) : Sound P (tick call s).2.1 :=
  (h.filed.tick hcall hfree).sound

end TimerWheel

end TinyWebServer
