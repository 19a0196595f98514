import TinyWebServer.Library.Runs

/-!
# Functors queued for an event loop

`QueueInLoop` appends a functor under the mutex and then, as a step of its own, writes the wake-up
descriptor. The loop empties the counter of that descriptor before it takes the queue, and runs
what it took. Any number of threads queue functors, and the callbacks and functors that the loop
runs may queue more.
-/

namespace TinyWebServer

/-- A functor in the queue, with its number in the order of the pushes. -/
structure QueuedFunctor (φ τ : Type*) where
  functor : φ
  /-- The thread that queued it, where `none` is the loop's own thread. -/
  caller : Option τ
  serial : ℕ

/-- Where the loop's thread stands in `Loop`. -/
inductive LoopPhase (φ τ : Type*) where
  /-- In the callbacks of `ProcessTimers`. -/
  | timers
  /-- In `epoll_wait`. -/
  | wait
  /-- In the callbacks for the events; the flag says if the wake-up descriptor is among them. -/
  | events (wakeup : Bool)
  /-- In front of `DoPendingFunctors`. -/
  | swap
  /-- In the loop over the functors that were taken. -/
  | execute (functors : List (QueuedFunctor φ τ))
  | stopped

structure LoopTasks (φ τ : Type*) where
  phase : LoopPhase φ τ
  quit : Bool
  /-- The counter behind `wakeup_fd_`. -/
  wakeupCounter : ℕ
  pendingFunctors : List (QueuedFunctor φ τ)
  callingPendingFunctors : Bool
  /-- The functor that a thread has pushed and not yet written the wake-up for. -/
  owes : Option τ → Option ℕ
  /-- Everything that was ever pushed. -/
  pushed : List (QueuedFunctor φ τ)
  /-- Everything that was ever called, in the order of the calls. -/
  executed : List (QueuedFunctor φ τ)

namespace LoopTasks

variable {φ τ : Type*}

/-- The loop behind the first lines of `Loop`. -/
def start : LoopTasks φ τ :=
  { phase := .timers, quit := false, wakeupCounter := 0, pendingFunctors := []
    callingPendingFunctors := false, owes := fun _ => none, pushed := [], executed := [] }

/-- The functors that were taken from the queue and are still to be called. -/
def taken (s : LoopTasks φ τ) : List (QueuedFunctor φ τ) :=
  match s.phase with
  | .execute functors => functors
  | _ => []

/-- The loop's thread is in code that may queue functors. -/
def inCallback (s : LoopTasks φ τ) : Bool :=
  match s.phase with
  | .timers | .events _ | .execute _ => true
  | _ => false

/-! ### The steps -/

/-- The largest value of the counter, at which a write to a non-blocking descriptor fails. -/
def maxCounter : ℕ := 2 ^ 64 - 2

def wakeup (s : LoopTasks φ τ) : LoopTasks φ τ :=
  { s with
    wakeupCounter := if s.wakeupCounter < maxCounter then s.wakeupCounter + 1 else s.wakeupCounter }

/-- The section of `QueueInLoop`, and the decision to wake the loop. -/
def queueInLoop [DecidableEq τ] (s : LoopTasks φ τ) (caller : Option τ) (cb : φ) : LoopTasks φ τ :=
  let entry : QueuedFunctor φ τ := ⟨cb, caller, s.pushed.length⟩
  { s with
    pendingFunctors := s.pendingFunctors ++ [entry], pushed := s.pushed ++ [entry]
    owes :=
      if caller.isSome || s.callingPendingFunctors then
        Function.update s.owes caller (some entry.serial)
      else s.owes }

/-- A read takes the whole counter. -/
def handleReadForWakeup (s : LoopTasks φ τ) : LoopTasks φ τ := { s with wakeupCounter := 0 }

inductive LoopMove where
  | processTimers
  /-- `epoll_wait` returns: without events, or with events that may include the wake-up. -/
  | epollWait (result : Option Bool)
  | processEvents
  /-- The section of `DoPendingFunctors`. -/
  | swap
  /-- The call of the next functor that was taken. -/
  | call
  /-- The end of `DoPendingFunctors`, and the test of `quit_`. -/
  | finish

def loopStep (s : LoopTasks φ τ) : LoopMove → Option (LoopTasks φ τ)
  | .processTimers =>
    match s.phase with
    | .timers => some { s with phase := .wait }
    | _ => none
  | .epollWait result =>
    match s.phase with
    | .wait =>
      if result = some true ∧ s.wakeupCounter = 0 then none
      else some { s with phase := result.elim .swap .events }
    | _ => none
  | .processEvents =>
    match s.phase with
    | .events true => some { s.handleReadForWakeup with phase := .swap }
    | .events false => some { s with phase := .swap }
    | _ => none
  | .swap =>
    match s.phase with
    | .swap =>
      some { s with
        callingPendingFunctors := true, phase := .execute s.pendingFunctors, pendingFunctors := [] }
    | _ => none
  | .call =>
    match s.phase with
    | .execute (func :: functors) =>
      some { s with phase := .execute functors, executed := s.executed ++ [func] }
    | _ => none
  | .finish =>
    match s.phase with
    | .execute [] =>
      some { s with
        callingPendingFunctors := false, phase := if s.quit then .stopped else .timers }
    | _ => none

inductive Move (φ τ : Type*) where
  | queueInLoop (caller : Option τ) (cb : φ)
  /-- The write that a call of `QueueInLoop` owes. -/
  | wakeup (caller : Option τ)
  | quit
  /-- The write in `Quit` or `Stop`. -/
  | quitWakeup
  | loop (move : LoopMove)

/-- The loop's own thread goes on only when it owes no write. -/
def step [DecidableEq τ] (s : LoopTasks φ τ) : Move φ τ → Option (LoopTasks φ τ)
  | .queueInLoop caller cb =>
    if s.owes caller = none ∧ (caller.isSome || s.inCallback) then some (s.queueInLoop caller cb)
    else none
  | .wakeup caller =>
    if s.owes caller = none then none
    else some { s.wakeup with owes := Function.update s.owes caller none }
  | .quit => some { s with quit := true }
  | .quitWakeup => if s.quit then some s.wakeup else none
  | .loop move => if s.owes none = none then s.loopStep move else none

/-! ### What a step can do -/

/-- A step on the way from one call of `DoPendingFunctors` to the next. -/
structure MovesOn (s t : LoopTasks φ τ) : Prop where
  notSwap : s.phase ≠ .swap
  taken_before : s.taken = []
  taken_after : t.taken = []
  pendingFunctors : t.pendingFunctors = s.pendingFunctors
  owes : t.owes = s.owes
  pushed : t.pushed = s.pushed
  executed : t.executed = s.executed
  /-- The counter is emptied right in front of `DoPendingFunctors` only. -/
  drained : t.phase = .swap ∨ t.wakeupCounter = s.wakeupCounter

lemma movesOn_of_phase {s : LoopTasks φ τ} {phase : LoopPhase φ τ} (hswap : s.phase ≠ .swap)
    (hbefore : s.taken = []) (hafter : ∀ functors, phase = .execute functors → functors = []) :
    MovesOn s { s with phase := phase } where
  notSwap := hswap
  taken_before := hbefore
  taken_after := by
    cases phase with
    | execute functors => exact hafter functors rfl
    | _ => rfl
  pendingFunctors := rfl
  owes := rfl
  pushed := rfl
  executed := rfl
  drained := Or.inr rfl

lemma loopStep_cases {s t : LoopTasks φ τ} {move : LoopMove} (h : s.loopStep move = some t) :
    MovesOn s t ∨
    (s.phase = .swap ∧ t = { s with
      callingPendingFunctors := true, phase := .execute s.pendingFunctors
      pendingFunctors := [] }) ∨
    ∃ func functors, s.phase = .execute (func :: functors) ∧
      t = { s with phase := .execute functors, executed := s.executed ++ [func] } := by
  cases move with
  | processTimers =>
    rw [loopStep] at h
    split at h
    · rename_i hphase
      cases h
      exact Or.inl (movesOn_of_phase (by simp [hphase]) (by simp [taken, hphase]) (by simp))
    · cases h
  | epollWait result =>
    rw [loopStep] at h
    split at h
    · rename_i hphase
      split_ifs at h
      cases h
      left
      apply movesOn_of_phase
      · simp [hphase]
      · simp [taken, hphase]
      · cases result <;> simp
    · cases h
  | processEvents =>
    rw [loopStep] at h
    split at h
    · rename_i hphase
      cases h
      exact Or.inl ⟨by simp [hphase], by simp [taken, hphase], rfl, rfl, rfl, rfl, rfl, Or.inl rfl⟩
    · rename_i hphase
      cases h
      exact Or.inl (movesOn_of_phase (by simp [hphase]) (by simp [taken, hphase]) (by simp))
    · cases h
  | swap =>
    rw [loopStep] at h
    split at h
    · rename_i hphase
      cases h
      exact Or.inr (Or.inl ⟨hphase, rfl⟩)
    · cases h
  | call =>
    rw [loopStep] at h
    split at h
    · rename_i func functors hphase
      cases h
      exact Or.inr (Or.inr ⟨func, functors, hphase, rfl⟩)
    · cases h
  | finish =>
    rw [loopStep] at h
    split at h
    · rename_i hphase
      cases h
      refine Or.inl ⟨by simp [hphase], by simp [taken, hphase], ?_, rfl, rfl, rfl, rfl, Or.inr rfl⟩
      rw [taken]
      dsimp only
      split_ifs <;> rfl
    · cases h

lemma wakeupCounter_wakeup_pos (s : LoopTasks φ τ) : 0 < s.wakeup.wakeupCounter := by
  rw [wakeup]
  dsimp only
  split_ifs with h
  · exact Nat.succ_pos _
  · have hmax : 0 < maxCounter := by norm_num [maxCounter]
    exact hmax.trans_le (not_lt.mp h)

/-! ### The invariant -/

/-- The number of a functor and the write that its thread still owes, or a counter that is not
zero. -/
def Announced (s : LoopTasks φ τ) (entry : QueuedFunctor φ τ) : Prop :=
  ∀ thread, entry.caller = some thread →
    s.owes (some thread) = some entry.serial ∨ 0 < s.wakeupCounter

/-- Nothing is lost or called twice, and the loop will hear of what it has not taken. -/
structure Inv (s : LoopTasks φ τ) : Prop where
  conserved : s.executed ++ s.taken ++ s.pendingFunctors = s.pushed
  numbered : s.pushed.map QueuedFunctor.serial = List.range s.pushed.length
  announced : s.phase ≠ .swap → ∀ entry ∈ s.pendingFunctors, s.Announced entry

lemma inv_start : (start : LoopTasks φ τ).Inv where
  conserved := rfl
  numbered := rfl
  announced := by simp [start]

/-! ### Every step keeps the invariant -/

lemma inv_quitWakeup {s : LoopTasks φ τ} (hs : s.Inv) : s.wakeup.Inv where
  conserved := hs.conserved
  numbered := hs.numbered
  announced _ _ _ _ _ := Or.inr (wakeupCounter_wakeup_pos s)

lemma inv_loopStep {s t : LoopTasks φ τ} (hs : s.Inv) {move : LoopMove}
    (h : s.loopStep move = some t) : t.Inv := by
  rcases loopStep_cases h with h | ⟨hphase, rfl⟩ | ⟨func, functors, hphase, rfl⟩
  · constructor
    · rw [h.taken_after, h.executed, h.pendingFunctors, h.pushed, ← hs.conserved, h.taken_before]
    · rw [h.pushed]
      exact hs.numbered
    · intro hswap entry hentry thread hcaller
      rw [h.owes, h.drained.resolve_left hswap]
      rw [h.pendingFunctors] at hentry
      exact hs.announced h.notSwap entry hentry thread hcaller
  · have htaken : s.taken = [] := by simp [taken, hphase]
    have hconserved := hs.conserved
    rw [htaken, List.append_nil] at hconserved
    constructor
    · simpa [taken] using hconserved
    · exact hs.numbered
    · simp
  · have htaken : s.taken = func :: functors := by simp [taken, hphase]
    have hconserved := hs.conserved
    rw [htaken] at hconserved
    constructor
    · simpa [taken] using hconserved
    · exact hs.numbered
    · intro _
      exact hs.announced (by simp [hphase])

section

variable [DecidableEq τ]

lemma taken_queueInLoop (s : LoopTasks φ τ) (caller : Option τ) (cb : φ) :
    (s.queueInLoop caller cb).taken = s.taken := rfl

lemma inv_queueInLoop {s : LoopTasks φ τ} (hs : s.Inv) {caller : Option τ} (cb : φ)
    (howes : s.owes caller = none) : (s.queueInLoop caller cb).Inv where
  conserved := by
    rw [taken_queueInLoop, queueInLoop, ← List.append_assoc, hs.conserved]
  numbered := by
    simp [queueInLoop, hs.numbered, List.range_succ]
  announced := by
    intro hphase entry hentry thread hcaller
    rcases List.mem_append.mp hentry with hold | hnew
    · rcases hs.announced hphase entry hold thread hcaller with h | h
      · left
        -- a thread that may queue owes nothing for what it queued before
        have hne : some thread ≠ caller := by
          rintro rfl
          rw [howes] at h
          cases h
        rw [queueInLoop]
        dsimp only
        split_ifs
        · rwa [Function.update_of_ne hne]
        · exact h
      · exact Or.inr h
    · cases List.mem_singleton.mp hnew
      cases hcaller
      left
      simp [queueInLoop]

lemma inv_wakeup {s : LoopTasks φ τ} (hs : s.Inv) (caller : Option τ) :
    Inv { s.wakeup with owes := Function.update s.owes caller none } where
  conserved := hs.conserved
  numbered := hs.numbered
  announced _ _ _ _ _ := Or.inr (wakeupCounter_wakeup_pos s)

lemma inv_step {s t : LoopTasks φ τ} (hs : s.Inv) {move : Move φ τ} (h : s.step move = some t) :
    t.Inv := by
  cases move with
  | queueInLoop caller cb =>
    rw [step] at h
    split_ifs at h with hallowed
    cases h
    exact inv_queueInLoop hs cb hallowed.1
  | wakeup caller =>
    rw [step] at h
    split_ifs at h
    cases h
    exact inv_wakeup hs caller
  | quit =>
    cases h
    exact ⟨hs.conserved, hs.numbered, hs.announced⟩
  | quitWakeup =>
    rw [step] at h
    split_ifs at h
    cases h
    exact inv_quitWakeup hs
  | loop move =>
    rw [step] at h
    split_ifs at h
    exact inv_loopStep hs h

lemma inv_run {s : LoopTasks φ τ} {ms : List (Move φ τ)}
    (h : Runs.run step start ms = some s) : s.Inv :=
  Runs.invariant_run step (fun _ _ _ hs hstep => inv_step hs hstep) inv_start h

/-! ### Iterations of the loop -/

/-- Only the loop takes functors and calls them. -/
lemma step_cases {s t : LoopTasks φ τ} {move : Move φ τ} (h : s.step move = some t) :
    (t.executed = s.executed ∧ t.taken = s.taken) ∨ ∃ move, s.loopStep move = some t := by
  cases move with
  | queueInLoop caller cb =>
    rw [step] at h
    split_ifs at h
    cases h
    exact Or.inl ⟨rfl, rfl⟩
  | wakeup caller =>
    rw [step] at h
    split_ifs at h
    cases h
    exact Or.inl ⟨rfl, rfl⟩
  | quit =>
    cases h
    exact Or.inl ⟨rfl, rfl⟩
  | quitWakeup =>
    rw [step] at h
    split_ifs at h
    cases h
    exact Or.inl ⟨rfl, rfl⟩
  | loop move =>
    rw [step] at h
    split_ifs at h
    exact Or.inr ⟨move, h⟩

lemma executed_prefix_step {s t : LoopTasks φ τ} {move : Move φ τ} (h : s.step move = some t) :
    s.executed <+: t.executed := by
  rcases step_cases h with ⟨h, -⟩ | ⟨move, h⟩
  · rw [h]
  · rcases loopStep_cases h with h | ⟨-, rfl⟩ | ⟨func, functors, -, rfl⟩
    · rw [h.executed]
    · exact List.prefix_refl _
    · exact List.prefix_append _ _

/-- What has been taken from the queue is called or still on its way there. -/
lemma prefix_step {s t : LoopTasks φ τ} {move : Move φ τ} (h : s.step move = some t)
    {functors : List (QueuedFunctor φ τ)} (hs : functors <+: s.executed ++ s.taken) :
    functors <+: t.executed ++ t.taken := by
  rcases step_cases h with ⟨hexecuted, htaken⟩ | ⟨move, h⟩
  · rwa [hexecuted, htaken]
  · rcases loopStep_cases h with h | ⟨hphase, rfl⟩ | ⟨func, rest, hphase, rfl⟩
    · rwa [h.executed, h.taken_after, ← h.taken_before]
    · have htaken : s.taken = [] := by simp [taken, hphase]
      rw [htaken, List.append_nil] at hs
      exact hs.trans (List.prefix_append _ _)
    · have htaken : s.taken = func :: rest := by simp [taken, hphase]
      rw [htaken] at hs
      simpa [taken] using hs

lemma prefix_run {s t : LoopTasks φ τ} {ms : List (Move φ τ)} (h : Runs.run step s ms = some t)
    {functors : List (QueuedFunctor φ τ)} (hs : functors <+: s.executed ++ s.taken) :
    functors <+: t.executed ++ t.taken :=
  Runs.invariant_run step (P := fun s => functors <+: s.executed ++ s.taken)
    (fun _ _ _ hs hstep => prefix_step hstep hs) hs h

/-- The section of `DoPendingFunctors` takes everything that has been pushed before it. -/
lemma pushed_prefix_of_swap {s t : LoopTasks φ τ} (hs : s.Inv)
    (h : s.step (.loop .swap) = some t) : s.pushed <+: t.executed ++ t.taken := by
  rw [step] at h
  split_ifs at h
  rw [loopStep] at h
  split at h
  · rename_i hphase
    cases h
    have htaken : s.taken = [] := by simp [taken, hphase]
    have hconserved := hs.conserved
    rw [htaken, List.append_nil] at hconserved
    rw [← hconserved]
    exact List.prefix_refl _
  · cases h

lemma taken_of_finish {s t : LoopTasks φ τ} (h : s.step (.loop .finish) = some t) :
    s.taken = [] := by
  rw [step] at h
  split_ifs at h
  rw [loopStep] at h
  split at h
  · rename_i hphase
    simp [taken, hphase]
  · cases h

/-- What was pushed before the loop takes the queue has been called when `DoPendingFunctors`
ends. -/
lemma pushed_prefix_of_iteration {u s : LoopTasks φ τ} (hu : u.Inv) {during after : List (Move φ τ)}
    (h : Runs.run step u (.loop .swap :: (during ++ .loop .finish :: after)) = some s) :
    u.pushed <+: s.executed := by
  obtain ⟨v, hswap, hrest⟩ := Runs.run_cons step h
  rw [Runs.run_append] at hrest
  obtain ⟨w, hduring, hrest⟩ := Option.bind_eq_some_iff.mp hrest
  obtain ⟨x, hfinish, hafter⟩ := Runs.run_cons step hrest
  have hw := prefix_run hduring (pushed_prefix_of_swap hu hswap)
  rw [taken_of_finish hfinish, List.append_nil] at hw
  exact Runs.invariant_run step (P := fun s => u.pushed <+: s.executed)
    (fun _ _ _ hs hstep => hs.trans (executed_prefix_step hstep))
    (hw.trans (executed_prefix_step hfinish)) hafter

/-- Functors are called in the order in which they were pushed and none of them twice, every one
that is not called yet is in the queue or with the loop, an iteration of the loop calls all that
were pushed before it, and when the loop blocks with nothing to read from the wake-up descriptor
then every pending functor of another thread still has its wake-up to come. -/
theorem functors_run {ms : List (Move φ τ)} {s : LoopTasks φ τ}
    (h : Runs.run step start ms = some s) :
    s.executed <+: s.pushed ∧ (s.executed.map QueuedFunctor.serial).Nodup ∧
      s.executed ++ s.taken ++ s.pendingFunctors = s.pushed ∧
      (∀ before during after u,
        ms = before ++ .loop .swap :: (during ++ .loop .finish :: after) →
        Runs.run step start before = some u → u.pushed <+: s.executed) ∧
      (s.phase = .wait → s.wakeupCounter = 0 → ∀ entry ∈ s.pendingFunctors, ∀ thread,
        entry.caller = some thread → s.owes (some thread) = some entry.serial) := by
  have hs := inv_run h
  have hbegins : s.executed <+: s.pushed := by
    rw [← hs.conserved, List.append_assoc]
    exact List.prefix_append _ _
  refine ⟨hbegins, ?_, hs.conserved, ?_, ?_⟩
  · apply (hbegins.map QueuedFunctor.serial).sublist.nodup
    rw [hs.numbered]
    exact List.nodup_range
  · rintro before during after u rfl hu
    rw [Runs.run_append, hu, Option.bind_some] at h
    exact pushed_prefix_of_iteration (inv_run hu) h
  · intro hwait hcounter entry hentry thread hcaller
    have hannounced := hs.announced (by simp [hwait]) entry hentry thread hcaller
    apply hannounced.resolve_right
    simp [hcounter]

/-- Two threads push while the loop blocks and one of them wakes it, the first functor queues another
one, and in the end the loop blocks again while a thread stands between its push and its write. -/
theorem functors_run_two_threads :
    ∃ s, Runs.run step (start : LoopTasks ℕ ℕ)
        [.loop .processTimers, .queueInLoop (some 0) 7, .queueInLoop (some 1) 8, .wakeup (some 0),
          .wakeup (some 1), .loop (.epollWait (some true)), .loop .processEvents, .loop .swap,
          .loop .call, .queueInLoop none 9, .wakeup none, .loop .call, .loop .finish,
          .loop .processTimers, .loop (.epollWait (some true)), .loop .processEvents, .loop .swap,
          .loop .call, .loop .finish, .loop .processTimers, .queueInLoop (some 1) 10] = some s ∧
      s.executed.map QueuedFunctor.functor = [7, 8, 9] ∧ s.executed <+: s.pushed ∧
      ∀ entry ∈ s.pendingFunctors, ∀ thread,
        entry.caller = some thread → s.owes (some thread) = some entry.serial := by
  have hrun : Runs.run step (start : LoopTasks ℕ ℕ)
      [.loop .processTimers, .queueInLoop (some 0) 7, .queueInLoop (some 1) 8, .wakeup (some 0),
        .wakeup (some 1), .loop (.epollWait (some true)), .loop .processEvents, .loop .swap,
        .loop .call, .queueInLoop none 9, .wakeup none, .loop .call, .loop .finish,
        .loop .processTimers, .loop (.epollWait (some true)), .loop .processEvents, .loop .swap,
        .loop .call, .loop .finish, .loop .processTimers, .queueInLoop (some 1) 10] = some _ := rfl
  obtain ⟨hbegins, -, -, -, hblocked⟩ := functors_run hrun
  exact ⟨_, hrun, rfl, hbegins, hblocked rfl rfl⟩

end

end LoopTasks

end TinyWebServer
