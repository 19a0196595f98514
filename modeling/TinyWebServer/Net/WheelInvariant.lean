import TinyWebServer.Net.TimerWheel

/-!
# What every operation of the timer wheel keeps

`Inv P` says that the ring and the map belong together and that every pending task satisfies `P`.
The callbacks of a tick find the mutex taken, so that they cannot change the wheel.
-/

namespace TinyWebServer

namespace TimerWheel

variable {κ ω : Type*} {P : ℤ → κ → Prop} {w : TimerWheel κ}

structure Inv (P : ℤ → κ → Prop) (w : TimerWheel κ) : Prop where
  slotCount_eq : w.slotCount = w.wheelSize
  wheelSize_pos : 0 < w.wheelSize
  currentSlot_lt : w.currentSlot < w.wheelSize
  slot_lt : ∀ i, ∀ task ∈ w.wheel i, i < w.wheelSize
  mem_timers : ∀ i, ∀ task ∈ w.wheel i, task.fd ∈ w.timers
  task_ok : ∀ i, ∀ task ∈ w.wheel i, P task.fd task.callback

lemma inv_new {wheelSize : ℕ} (h : 0 < wheelSize) (tickIntervalMs : ℤ) :
    Inv P (new wheelSize tickIntervalMs) := by
  have hsize : (new wheelSize tickIntervalMs : TimerWheel κ).wheelSize = wheelSize := if_pos h
  refine ⟨hsize.symm, ?_, ?_, ?_, ?_, ?_⟩
  · rwa [hsize]
  · rwa [hsize]
  · intro i task htask
    cases htask
  · intro i task htask
    cases htask
  · intro i task htask
    cases htask

/-- The invariant with what holds of the tasks that are there. -/
lemma Inv.of_tasks {Q : ℤ → κ → Prop} (h : Inv P w)
    (hQ : ∀ i, ∀ task ∈ w.wheel i, Q task.fd task.callback) : Inv Q w :=
  ⟨h.slotCount_eq, h.wheelSize_pos, h.currentSlot_lt, h.slot_lt, h.mem_timers, hQ⟩

lemma Inv.mono {Q : ℤ → κ → Prop} (h : Inv P w)
    (hPQ : ∀ fd callback, P fd callback → Q fd callback) : Inv Q w :=
  h.of_tasks fun i task htask => hPQ _ _ (h.task_ok i task htask)

/-! ### Taking a task out and putting one in -/

/-- The wheel without the task of a descriptor. -/
def without (w : TimerWheel κ) (fd : ℤ) : TimerWheel κ :=
  { w with
    wheel := fun i => (w.wheel i).filter (·.fd ≠ fd)
    timers := w.timers.filter (· ≠ fd) }

lemma inv_without (h : Inv P w) (fd : ℤ) : Inv P (w.without fd) := by
  refine ⟨h.slotCount_eq, h.wheelSize_pos, h.currentSlot_lt, ?_, ?_, ?_⟩
  · intro i task htask
    exact h.slot_lt i task (List.mem_of_mem_filter htask)
  · intro i task htask
    refine List.mem_filter.mpr ⟨h.mem_timers i task (List.mem_of_mem_filter htask), ?_⟩
    exact (List.mem_filter.mp htask).2
  · intro i task htask
    exact h.task_ok i task (List.mem_of_mem_filter htask)

/-- The computed slot is one of the ring, so that cancelling never faults. -/
lemma cancel_eq (h : Inv P w) (fd : ℤ) :
    w.cancel fd = { w.without fd with totalTasksCancelled := w.totalTasksCancelled + 1 } := by
  have hslot : addInt w.currentSlot ((w.node fd).elim 0 (·.remainingTicks)) % w.wheelSize <
      w.slotCount := by
    rw [h.slotCount_eq]
    exact Nat.mod_lt _ h.wheelSize_pos
  simp only [cancel, erase, if_pos hslot]
  rfl

lemma inv_cancel (h : Inv P w) (fd : ℤ) : Inv P (w.cancel fd) := by
  rw [cancel_eq h]
  obtain ⟨h₁, h₂, h₃, h₄, h₅, h₆⟩ := inv_without h fd
  exact ⟨h₁, h₂, h₃, h₄, h₅, h₆⟩

lemma addTaskToSlot_eq (h : Inv P w) {slot : ℕ} (hslot : slot < w.wheelSize)
    (task : TimerTask κ) :
    w.addTaskToSlot slot task =
      { w with
        wheel := Function.update w.wheel slot (task :: w.wheel slot)
        timers := task.fd :: w.timers.filter (· ≠ task.fd) } := by
  have hcount := h.slotCount_eq
  rw [addTaskToSlot, if_neg (by omega)]
  dsimp only
  rw [if_neg (by omega)]

lemma inv_addTaskToSlot (h : Inv P w) {slot : ℕ} (hslot : slot < w.wheelSize)
    {task : TimerTask κ} (htask : P task.fd task.callback) :
    Inv P (w.addTaskToSlot slot task) := by
  have hmem : ∀ i task', task' ∈ Function.update w.wheel slot (task :: w.wheel slot) i →
      (i = slot ∧ task' = task) ∨ task' ∈ w.wheel i := by
    intro i task' h'
    rw [Function.update_apply] at h'
    split_ifs at h' with hi
    · subst hi
      rcases List.mem_cons.mp h' with rfl | h'
      · exact Or.inl ⟨rfl, rfl⟩
      · exact Or.inr h'
    · exact Or.inr h'
  rw [addTaskToSlot_eq h hslot]
  refine ⟨h.slotCount_eq, h.wheelSize_pos, h.currentSlot_lt, ?_, ?_, ?_⟩
  · intro i task' h'
    rcases hmem i task' h' with ⟨rfl, rfl⟩ | h'
    · exact hslot
    · exact h.slot_lt i task' h'
  · intro i task' h'
    rcases hmem i task' h' with ⟨rfl, rfl⟩ | h'
    · exact List.mem_cons_self ..
    · by_cases hfd : task'.fd = task.fd
      · rw [hfd]
        exact List.mem_cons_self ..
      · refine List.mem_cons_of_mem _ (List.mem_filter.mpr ⟨h.mem_timers i task' h', ?_⟩)
        exact decide_eq_true hfd
  · intro i task' h'
    rcases hmem i task' h' with ⟨rfl, rfl⟩ | h'
    · exact htask
    · exact h.task_ok i task' h'

/-! ### The public operations -/

lemma inv_detach (h : Inv P w) (fd : ℤ) : Inv P (w.detach fd) := by
  rw [detach]
  split_ifs
  · exact inv_cancel h fd
  · exact h

lemma wheelSize_detach (h : Inv P w) (fd : ℤ) : (w.detach fd).wheelSize = w.wheelSize := by
  rw [detach]
  split_ifs
  · rw [cancel_eq h]
    rfl
  · rfl

lemma currentSlot_detach (h : Inv P w) (fd : ℤ) :
    (w.detach fd).currentSlot = w.currentSlot := by
  rw [detach]
  split_ifs
  · rw [cancel_eq h]
    rfl
  · rfl

lemma calculateSlot_ok {timeoutSeconds remainingTicks : ℤ} {slot : ℕ} (hpos : 0 < w.wheelSize)
    (h : w.calculateSlot timeoutSeconds = .ok (slot, remainingTicks)) : slot < w.wheelSize := by
  rw [calculateSlot] at h
  split_ifs at h
  · cases h
    exact Nat.mod_lt _ hpos
  · dsimp only at h
    split_ifs at h
    cases h
    exact Nat.mod_lt _ hpos

/-- Under the mutex the pending task goes, and a new one enters if its timeout has a slot. -/
lemma addTimeoutLocked_cases (h : Inv P w) (fd timeoutSeconds : ℤ) (callback : κ) :
    (addTimeoutLocked fd timeoutSeconds callback w).2 = w.detach fd ∨
    ∃ slot remainingTicks, slot < (w.detach fd).wheelSize ∧
      (addTimeoutLocked fd timeoutSeconds callback w).2 =
        { (w.detach fd).addTaskToSlot slot ⟨fd, callback, remainingTicks⟩ with
          totalTasksAdded :=
            ((w.detach fd).addTaskToSlot slot ⟨fd, callback, remainingTicks⟩).totalTasksAdded +
              1 } := by
  simp only [addTimeoutLocked]
  cases hslot : (w.detach fd).calculateSlot timeoutSeconds with
  | error err => exact Or.inl rfl
  | ok result =>
    obtain ⟨slot, remainingTicks⟩ := result
    have hlt := calculateSlot_ok (inv_detach h fd).wheelSize_pos hslot
    exact Or.inr ⟨slot, remainingTicks, hlt, rfl⟩

lemma inv_addTimeoutLocked (h : Inv P w) {fd timeoutSeconds : ℤ} {callback : κ}
    (hP : P fd callback) : Inv P (addTimeoutLocked fd timeoutSeconds callback w).2 := by
  have hdetach := inv_detach h fd
  rcases addTimeoutLocked_cases h fd timeoutSeconds callback with
    heq | ⟨slot, remainingTicks, hlt, heq⟩
  · rw [heq]
    exact hdetach
  · have htask : P (TimerTask.mk fd callback remainingTicks).fd callback := hP
    obtain ⟨h₁, h₂, h₃, h₄, h₅, h₆⟩ := inv_addTaskToSlot hdetach hlt htask
    rw [heq]
    exact ⟨h₁, h₂, h₃, h₄, h₅, h₆⟩

/-- The three ways a call of `AddTimeout` can go. -/
lemma addTimeout_cases (w : TimerWheel κ) (fd timeoutSeconds : ℤ) (callback : κ) :
    (w.addTimeout fd timeoutSeconds (some callback)).2 = w ∨
    (0 ≤ fd ∧ w.mutexHeld = true ∧
      (w.addTimeout fd timeoutSeconds (some callback)).2 = { w with reentered := true }) ∨
    (0 ≤ fd ∧ w.mutexHeld = false ∧
      (w.addTimeout fd timeoutSeconds (some callback)).2 =
        { (addTimeoutLocked fd timeoutSeconds callback { w with mutexHeld := true }).2 with
          mutexHeld := false }) := by
  simp only [addTimeout]
  by_cases hfd : fd < 0
  · rw [if_pos hfd]
    exact Or.inl rfl
  rw [if_neg hfd]
  by_cases htimeout : timeoutSeconds ≤ 0
  · rw [if_pos htimeout]
    exact Or.inl rfl
  rw [if_neg htimeout]
  by_cases hmax : toInt (w.wheelSize * kMaxCycles) < timeoutSeconds
  · rw [if_pos hmax]
    exact Or.inl rfl
  rw [if_neg hmax, withLock]
  cases hheld : w.mutexHeld with
  | true => exact Or.inr (Or.inl ⟨by omega, rfl, by rw [if_pos rfl]⟩)
  | false => exact Or.inr (Or.inr ⟨by omega, rfl, rfl⟩)

lemma removeTimeout_cases (w : TimerWheel κ) (fd : ℤ) :
    (fd < 0 ∧ (w.removeTimeout fd).2 = w) ∨
    (0 ≤ fd ∧ w.mutexHeld = true ∧ (w.removeTimeout fd).2 = { w with reentered := true }) ∨
    (0 ≤ fd ∧ w.mutexHeld = false ∧
      (w.removeTimeout fd).2 =
        { ({ w with mutexHeld := true } : TimerWheel κ).detach fd with mutexHeld := false }) := by
  simp only [removeTimeout]
  by_cases hfd : fd < 0
  · rw [if_pos hfd]
    exact Or.inl ⟨hfd, rfl⟩
  rw [if_neg hfd, withLock]
  cases hheld : w.mutexHeld with
  | true => exact Or.inr (Or.inl ⟨by omega, rfl, by rw [if_pos rfl]⟩)
  | false => exact Or.inr (Or.inr ⟨by omega, rfl, rfl⟩)

/-- The invariant does not speak of the mutex. -/
lemma inv_flags (h : Inv P w) (held reentered : Bool) :
    Inv P { w with mutexHeld := held, reentered := reentered } :=
  ⟨h.slotCount_eq, h.wheelSize_pos, h.currentSlot_lt, h.slot_lt, h.mem_timers, h.task_ok⟩

lemma inv_addTimeout (h : Inv P w) {fd timeoutSeconds : ℤ} {callback : κ}
    (hP : 0 ≤ fd → P fd callback) :
    Inv P (w.addTimeout fd timeoutSeconds (some callback)).2 := by
  rcases addTimeout_cases w fd timeoutSeconds callback with heq | ⟨-, -, heq⟩ | ⟨hfd, -, heq⟩
  · rw [heq]
    exact h
  · rw [heq]
    exact inv_flags h _ true
  · rw [heq]
    exact inv_flags (inv_addTimeoutLocked (inv_flags h true _) (hP hfd)) false _

lemma inv_removeTimeout (h : Inv P w) (fd : ℤ) : Inv P (w.removeTimeout fd).2 := by
  rcases removeTimeout_cases w fd with ⟨-, heq⟩ | ⟨-, -, heq⟩ | ⟨-, -, heq⟩
  · rw [heq]
    exact h
  · rw [heq]
    exact inv_flags h _ true
  · rw [heq]
    exact inv_flags (inv_detach (inv_flags h true _) fd) false _

/-- The wheel holds nothing for the descriptor. -/
def Vacant (fd : ℤ) (w : TimerWheel κ) : Prop :=
  fd ∉ w.timers ∧ ∀ i, ∀ task ∈ w.wheel i, task.fd ≠ fd

lemma filter_eq_nil_of_vacant {fd : ℤ} (h : Vacant fd w) (i : ℕ) :
    (w.wheel i).filter (·.fd = fd) = [] := by
  rw [List.filter_eq_nil_iff]
  intro task htask
  simpa using h.2 i task htask

lemma vacant_without (w : TimerWheel κ) (fd : ℤ) : Vacant fd (w.without fd) := by
  constructor
  · simp [without]
  · intro i task htask
    simpa using (List.mem_filter.mp htask).2

lemma vacant_detach (h : Inv P w) (fd : ℤ) : Vacant fd (w.detach fd) := by
  rw [detach]
  split_ifs with hmem
  · rw [cancel_eq h]
    exact vacant_without w fd
  · refine ⟨hmem, fun i task htask hfd => hmem ?_⟩
    rw [← hfd]
    exact h.mem_timers i task htask

lemma vacant_removeTimeout (h : Inv P w) (hfree : w.mutexHeld = false) {fd : ℤ} (hfd : 0 ≤ fd) :
    Vacant fd (w.removeTimeout fd).2 := by
  rcases removeTimeout_cases w fd with ⟨hneg, -⟩ | ⟨-, hheld, -⟩ | ⟨-, -, heq⟩
  · omega
  · exact absurd (hfree.symm.trans hheld) (by decide)
  · rw [heq]
    exact vacant_detach (inv_flags h true _) fd

/-! ### Other descriptors -/

/-- The two wheels hold the same tasks of a descriptor, and their hands are at the same slot. -/
structure Agree (fd : ℤ) (w w' : TimerWheel κ) : Prop where
  tasks : ∀ i, (w'.wheel i).filter (·.fd = fd) = (w.wheel i).filter (·.fd = fd)
  timers : fd ∈ w'.timers ↔ fd ∈ w.timers
  wheelSize : w'.wheelSize = w.wheelSize
  currentSlot : w'.currentSlot = w.currentSlot
  tickIntervalMs : w'.tickIntervalMs = w.tickIntervalMs

lemma Agree.refl (fd : ℤ) (w : TimerWheel κ) : Agree fd w w := ⟨fun _ => rfl, Iff.rfl, rfl, rfl, rfl⟩

lemma Agree.trans {fd : ℤ} {w w' w'' : TimerWheel κ} (h : Agree fd w w') (h' : Agree fd w' w'') :
    Agree fd w w'' :=
  ⟨fun i => (h'.tasks i).trans (h.tasks i), h'.timers.trans h.timers,
    h'.wheelSize.trans h.wheelSize, h'.currentSlot.trans h.currentSlot,
    h'.tickIntervalMs.trans h.tickIntervalMs⟩

lemma agree_without {fd fd' : ℤ} (h : fd' ≠ fd) (w : TimerWheel κ) :
    Agree fd w (w.without fd') := by
  refine ⟨fun i => ?_, ?_, rfl, rfl, rfl⟩
  · simp only [without, List.filter_filter]
    apply List.filter_congr
    intro task _
    by_cases htask : task.fd = fd
    · simp [htask, h.symm]
    · simp [htask]
  · simp [without, h.symm]

lemma agree_addTaskToSlot (h : Inv P w) {slot : ℕ} (hslot : slot < w.wheelSize) {fd : ℤ}
    {task : TimerTask κ} (hfd : task.fd ≠ fd) : Agree fd w (w.addTaskToSlot slot task) := by
  rw [addTaskToSlot_eq h hslot]
  refine ⟨fun i => ?_, ?_, rfl, rfl, rfl⟩
  · dsimp only
    rw [Function.update_apply]
    split_ifs with hi
    · rw [hi, List.filter_cons_of_neg (by simpa using hfd)]
    · rfl
  · simp [hfd.symm]

lemma agree_detach (h : Inv P w) {fd fd' : ℤ} (hne : fd' ≠ fd) : Agree fd w (w.detach fd') := by
  rw [detach]
  split_ifs
  · rw [cancel_eq h]
    obtain ⟨h₁, h₂, h₃, h₄, h₅⟩ := agree_without hne w
    exact ⟨h₁, h₂, h₃, h₄, h₅⟩
  · exact Agree.refl fd w

lemma agree_addTimeoutLocked (h : Inv P w) {fd fd' : ℤ} (timeoutSeconds : ℤ) (callback : κ)
    (hne : fd' ≠ fd) : Agree fd w (addTimeoutLocked fd' timeoutSeconds callback w).2 := by
  have hdetach := inv_detach h fd'
  have hagree := agree_detach h hne
  simp only [addTimeoutLocked]
  cases hslot : (w.detach fd').calculateSlot timeoutSeconds with
  | error err => exact hagree
  | ok result =>
    obtain ⟨slot, remainingTicks⟩ := result
    have hlt := calculateSlot_ok hdetach.wheelSize_pos hslot
    have htask : (TimerTask.mk fd' callback remainingTicks).fd ≠ fd := hne
    obtain ⟨h₁, h₂, h₃, h₄, h₅⟩ := hagree.trans (agree_addTaskToSlot hdetach hlt htask)
    exact ⟨h₁, h₂, h₃, h₄, h₅⟩

lemma agree_addTimeout (h : Inv P w) {fd fd' : ℤ} (timeoutSeconds : ℤ) (callback : κ)
    (hne : fd' ≠ fd) :
    Agree fd w (w.addTimeout fd' timeoutSeconds (some callback)).2 := by
  rcases addTimeout_cases w fd' timeoutSeconds callback with heq | ⟨-, -, heq⟩ | ⟨-, -, heq⟩
  · rw [heq]
    exact Agree.refl fd w
  · rw [heq]
    exact ⟨fun _ => rfl, Iff.rfl, rfl, rfl, rfl⟩
  · rw [heq]
    obtain ⟨h₁, h₂, h₃, h₄, h₅⟩ :=
      agree_addTimeoutLocked (inv_flags h true _) timeoutSeconds callback hne
    exact ⟨h₁, h₂, h₃, h₄, h₅⟩

lemma agree_removeTimeout (h : Inv P w) {fd fd' : ℤ} (hne : fd' ≠ fd) :
    Agree fd w (w.removeTimeout fd').2 := by
  rcases removeTimeout_cases w fd' with ⟨-, heq⟩ | ⟨-, -, heq⟩ | ⟨-, -, heq⟩
  · rw [heq]
    exact Agree.refl fd w
  · rw [heq]
    exact ⟨fun _ => rfl, Iff.rfl, rfl, rfl, rfl⟩
  · rw [heq]
    obtain ⟨h₁, h₂, h₃, h₄, h₅⟩ := agree_detach (inv_flags h true _) hne
    exact ⟨h₁, h₂, h₃, h₄, h₅⟩

/-! ### Ticks -/

/-- A callback that runs while the mutex is taken leaves the wheel alone. -/
def KeepsWheel (call : TimerTask κ → TimerWheel κ × ω → TimerWheel κ × ω) : Prop :=
  ∀ task s, s.1.mutexHeld = true →
    ∃ reentered, (call task s).1 = { s.1 with reentered := reentered }

/-- A property that both turns of the loop keep holds behind the loop. -/
lemma processTasks_induction {call : TimerTask κ → TimerWheel κ × ω → TimerWheel κ × ω}
    {slot : ℕ} {Q : TimerWheel κ × ω → Prop} (tasks : List (TimerTask κ)) (s : TimerWheel κ × ω)
    (hmove : ∀ task ∈ tasks, 0 < task.remainingTicks → ∀ s, Q s → Q (s.1.moveOn slot task, s.2))
    (hfire : ∀ task ∈ tasks, task.remainingTicks ≤ 0 → ∀ s, Q s →
      Q ((call task s).1.retire task, (call task s).2))
    (hs : Q s) : Q (processTasks call slot tasks s).2 := by
  induction tasks generalizing s with
  | nil => exact hs
  | cons task rest ih =>
    have hmove' := fun t ht => hmove t (List.mem_cons_of_mem _ ht)
    have hfire' := fun t ht => hfire t (List.mem_cons_of_mem _ ht)
    rw [processTasks]
    split_ifs with hticks
    · exact ih _ hmove' hfire' (hmove task (List.mem_cons_self ..) hticks s hs)
    · exact ih _ hmove' hfire' (hfire task (List.mem_cons_self ..) (by omega) s hs)

/-- The same with what is known of the tasks to come. -/
lemma processTasks_rest {call : TimerTask κ → TimerWheel κ × ω → TimerWheel κ × ω}
    {slot : ℕ} {Q : List (TimerTask κ) → TimerWheel κ × ω → Prop} {tasks : List (TimerTask κ)}
    {s : TimerWheel κ × ω}
    (hmove : ∀ task rest s, 0 < task.remainingTicks → Q (task :: rest) s →
      Q rest (s.1.moveOn slot task, s.2))
    (hfire : ∀ task rest s, task.remainingTicks ≤ 0 → Q (task :: rest) s →
      Q rest ((call task s).1.retire task, (call task s).2))
    (hs : Q tasks s) : Q [] (processTasks call slot tasks s).2 := by
  induction tasks generalizing s with
  | nil => exact hs
  | cons task rest ih =>
    rw [processTasks]
    split_ifs with hticks
    · exact ih (hmove task rest s hticks hs)
    · exact ih (hfire task rest s (by omega) hs)

lemma inv_moveOn (h : Inv P w) {slot : ℕ} {task : TimerTask κ} (htask : P task.fd task.callback) :
    Inv P (w.moveOn slot task) := by
  have hlt : (slot + 1) % w.wheelSize < w.wheelSize := Nat.mod_lt _ h.wheelSize_pos
  have hnext : P ({ task with remainingTicks := task.remainingTicks - 1 } : TimerTask κ).fd
      task.callback := htask
  exact inv_addTaskToSlot (inv_without h task.fd) hlt hnext

lemma inv_retire (h : Inv P w) (task : TimerTask κ) : Inv P (w.retire task) := by
  obtain ⟨h₁, h₂, h₃, h₄, h₅, h₆⟩ := inv_without h task.fd
  exact ⟨h₁, h₂, h₃, h₄, h₅, h₆⟩

/-- A task that moves on comes in front of the next slot, and its key in front of the map. -/
lemma moveOn_eq (h : Inv P w) (slot : ℕ) (task : TimerTask κ) :
    w.moveOn slot task =
      { w with
        wheel := Function.update (w.without task.fd).wheel ((slot + 1) % w.wheelSize)
          ({ task with remainingTicks := task.remainingTicks - 1 } ::
            (w.without task.fd).wheel ((slot + 1) % w.wheelSize))
        timers := task.fd :: w.timers.filter (· ≠ task.fd) } := by
  have hlt : (slot + 1) % w.wheelSize < w.wheelSize := Nat.mod_lt _ h.wheelSize_pos
  change (w.without task.fd).addTaskToSlot _ _ = _
  rw [addTaskToSlot_eq (inv_without h task.fd) hlt]
  simp only [without, List.filter_filter, Bool.and_self]

lemma mutexHeld_moveOn (h : Inv P w) (slot : ℕ) (task : TimerTask κ) :
    (w.moveOn slot task).mutexHeld = w.mutexHeld := by
  rw [moveOn_eq h]

lemma mem_timers_moveOn (h : Inv P w) (slot : ℕ) {task : TimerTask κ}
    (hmem : task.fd ∈ w.timers) (fd : ℤ) : fd ∈ (w.moveOn slot task).timers ↔ fd ∈ w.timers := by
  rw [moveOn_eq h]
  by_cases hfd : fd = task.fd
  · simp [hfd, hmem]
  · simp [hfd]

lemma inv_processTasks {call : TimerTask κ → TimerWheel κ × ω → TimerWheel κ × ω}
    (hcall : KeepsWheel call) (slot : ℕ) (tasks : List (TimerTask κ)) (s : TimerWheel κ × ω)
    (htasks : ∀ task ∈ tasks, P task.fd task.callback) (h : Inv P s.1) (hheld : s.1.mutexHeld = true) :
    Inv P (processTasks call slot tasks s).2.1 ∧
      (processTasks call slot tasks s).2.1.mutexHeld = true := by
  refine processTasks_induction (Q := fun s => Inv P s.1 ∧ s.1.mutexHeld = true) tasks s ?_ ?_
    ⟨h, hheld⟩
  · rintro task htask - s ⟨hs, hheld⟩
    exact ⟨inv_moveOn hs (htasks task htask), (mutexHeld_moveOn hs slot task).trans hheld⟩
  · rintro task - - s ⟨hs, hheld⟩
    obtain ⟨reentered, heq⟩ := hcall task s hheld
    rw [heq]
    exact ⟨inv_retire (inv_flags hs _ reentered) task, hheld⟩

/-- A descriptor without a task in the slot is not touched by its tick. -/
lemma agree_processTasks {call : TimerTask κ → TimerWheel κ × ω → TimerWheel κ × ω}
    (hcall : KeepsWheel call) (slot : ℕ) (fd : ℤ) (tasks : List (TimerTask κ))
    (s : TimerWheel κ × ω) (htasks : ∀ task ∈ tasks, P task.fd task.callback)
    (hfd : ∀ task ∈ tasks, task.fd ≠ fd) (h : Inv P s.1) (hheld : s.1.mutexHeld = true) :
    Agree fd s.1 (processTasks call slot tasks s).2.1 := by
  refine (processTasks_induction
    (Q := fun t => Inv P t.1 ∧ t.1.mutexHeld = true ∧ Agree fd s.1 t.1) tasks s ?_ ?_
    ⟨h, hheld, Agree.refl fd s.1⟩).2.2
  · rintro task htask - t ⟨ht, hheld, hagree⟩
    refine ⟨inv_moveOn ht (htasks task htask), (mutexHeld_moveOn ht slot task).trans hheld,
      hagree.trans ?_⟩
    have hlt : (slot + 1) % t.1.wheelSize < t.1.wheelSize := Nat.mod_lt _ ht.wheelSize_pos
    exact (agree_without (hfd task htask) t.1).trans
      (agree_addTaskToSlot (inv_without ht task.fd) hlt (hfd task htask))
  · rintro task htask - t ⟨ht, hheld, hagree⟩
    obtain ⟨reentered, heq⟩ := hcall task t hheld
    rw [heq]
    refine ⟨inv_retire (inv_flags ht _ reentered) task, hheld, hagree.trans ?_⟩
    obtain ⟨h₁, h₂, h₃, h₄, h₅⟩ := agree_without (hfd task htask) t.1
    exact ⟨h₁, h₂, h₃, h₄, h₅⟩

/-- A tick of a wheel that nobody holds is the loop over the current slot between taking and
giving back the mutex. -/
lemma tick_eq (call : TimerTask κ → TimerWheel κ × ω → TimerWheel κ × ω) {s : TimerWheel κ × ω}
    (h : Inv P s.1) (hfree : s.1.mutexHeld = false) :
    tick call s =
      let result := processTasks call s.1.currentSlot (s.1.wheel s.1.currentSlot)
        ({ s.1 with mutexHeld := true }, s.2)
      (result.1, { result.2.1 with
        currentSlot := (result.2.1.currentSlot + 1) % result.2.1.wheelSize, mutexHeld := false },
        result.2.2) := by
  have hslot : ¬ s.1.slotCount ≤ s.1.currentSlot := by
    rw [h.slotCount_eq]
    exact not_le.mpr h.currentSlot_lt
  rw [tick, if_neg (by simp [hfree])]
  simp only [processSlot, if_neg hslot]

lemma inv_tick {call : TimerTask κ → TimerWheel κ × ω → TimerWheel κ × ω} (hcall : KeepsWheel call)
    {s : TimerWheel κ × ω} (h : Inv P s.1) (hfree : s.1.mutexHeld = false) :
    Inv P (tick call s).2.1 := by
  rw [tick_eq call h hfree]
  obtain ⟨h₁, h₂, h₃, h₄, h₅, h₆⟩ := (inv_processTasks hcall s.1.currentSlot _
    ({ s.1 with mutexHeld := true }, s.2) (h.task_ok _) (inv_flags h true _) rfl).1
  exact ⟨h₁, h₂, Nat.mod_lt _ h₂, h₄, h₅, h₆⟩

end TimerWheel

end TinyWebServer
