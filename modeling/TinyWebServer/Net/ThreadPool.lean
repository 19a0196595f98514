import TinyWebServer.Library.Runs

/-!
# The thread pool

A queue of tasks behind a mutex, a flag that the destructor sets, and workers that take tasks until
the flag is set and the queue is empty. A section of code that holds the mutex is one move. The
function of a task is a value of some type, `none` is an empty one.
-/

namespace TinyWebServer

/-- What one call of `AddTask` was given. The ticket is the number of the call, by which tasks
with the same function can be told apart. -/
structure PoolTask (κ : Type*) where
  ticket : ℕ
  function : Option κ
  deriving DecidableEq

/-- Where a worker is in its loop. -/
inductive WorkerState (κ : Type*)
  /-- Before the mutex: at the beginning of the loop, or awake from a wait. -/
  | ready
  /-- In `condition_.wait`. -/
  | asleep
  /-- Behind the mutex, with a task in the local variable. -/
  | holding (task : PoolTask κ)
  /-- In the function of the task. -/
  | running (task : PoolTask κ)
  | exited
  deriving DecidableEq

structure ThreadPool (κ : Type*) where
  workers : List (WorkerState κ)
  tasks : List (PoolTask κ)
  stop : Bool
  deriving DecidableEq

namespace ThreadPool

variable {κ : Type*}

def new (threadCount : ℕ) : ThreadPool κ := ⟨List.replicate threadCount .ready, [], false⟩

def setWorker (pool : ThreadPool κ) (w : ℕ) (state : WorkerState κ) : ThreadPool κ :=
  { pool with workers := pool.workers.set w state }

/-- The part of `AddTask` under the mutex. -/
def addTask (pool : ThreadPool κ) (task : PoolTask κ) : ThreadPool κ :=
  if pool.stop then pool else { pool with tasks := pool.tasks ++ [task] }

/-- The part of the destructor under the mutex. -/
def setStop (pool : ThreadPool κ) : ThreadPool κ := { pool with stop := true }

/-- The part of the loop under the mutex: the worker goes to sleep, returns or takes a task. -/
def takeTask (pool : ThreadPool κ) (w : ℕ) : ThreadPool κ × Option (PoolTask κ) :=
  match pool.tasks with
  | [] => (pool.setWorker w (if pool.stop then .exited else .asleep), none)
  | task :: tasks => ({ pool.setWorker w (.holding task) with tasks := tasks }, some task)

end ThreadPool

inductive PoolMove (κ : Type*)
  /-- Anybody calls `AddTask`, a task too. -/
  | addTask (function : Option κ)
  /-- The destructor sets the flag. -/
  | setStop
  /-- A worker goes through its section under the mutex. -/
  | takeTask (w : ℕ)
  /-- A worker wakes up, notified or not. -/
  | wake (w : ℕ)
  /-- A worker calls the function of its task, if there is one. -/
  | call (w : ℕ)
  /-- The function returns. -/
  | finish (w : ℕ)

/-- A pool and what has happened in it: the tasks that `AddTask` accepted and refused, and the
tasks the workers took from the queue and executed, each with the number of the worker. -/
structure PoolHistory (κ : Type*) where
  pool : ThreadPool κ
  offered : ℕ
  accepted : List (PoolTask κ)
  refused : List (PoolTask κ)
  taken : List (ℕ × PoolTask κ)
  executed : List (ℕ × PoolTask κ)
  deriving DecidableEq

namespace PoolHistory

variable {κ : Type*}

def start (threadCount : ℕ) : PoolHistory κ := ⟨ThreadPool.new threadCount, 0, [], [], [], []⟩

def addTask (s : PoolHistory κ) (function : Option κ) : PoolHistory κ :=
  let task := ⟨s.offered, function⟩
  let s := { s with pool := s.pool.addTask task, offered := s.offered + 1 }
  if s.pool.stop then { s with refused := s.refused ++ [task] }
  else { s with accepted := s.accepted ++ [task] }

def takeTask (s : PoolHistory κ) (w : ℕ) : PoolHistory κ :=
  let (pool, task) := s.pool.takeTask w
  { s with pool := pool, taken := s.taken ++ task.toList.map fun task => (w, task) }

def step (s : PoolHistory κ) : PoolMove κ → Option (PoolHistory κ)
  | .addTask function => some (s.addTask function)
  | .setStop => some { s with pool := s.pool.setStop }
  | .takeTask w =>
    match s.pool.workers[w]? with
    | some .ready => some (s.takeTask w)
    | _ => none
  | .wake w =>
    match s.pool.workers[w]? with
    | some .asleep => some { s with pool := s.pool.setWorker w .ready }
    | _ => none
  | .call w =>
    match s.pool.workers[w]? with
    | some (.holding task) =>
      let state := if task.function.isSome then .running task else .ready
      some { s with pool := s.pool.setWorker w state }
    | _ => none
  | .finish w =>
    match s.pool.workers[w]? with
    | some (.running task) =>
      some { s with pool := s.pool.setWorker w .ready, executed := s.executed ++ [(w, task)] }
    | _ => none

/-- The worker has the task and is not done with it. -/
def InHand (s : PoolHistory κ) (w : ℕ) (task : PoolTask κ) : Prop :=
  s.pool.workers[w]? = some (.holding task) ∨ s.pool.workers[w]? = some (.running task)

structure Inv (s : PoolHistory κ) : Prop where
  order : s.taken.map Prod.snd ++ s.pool.tasks = s.accepted
  tickets : (s.accepted.map PoolTask.ticket).Nodup
  accepted_lt : ∀ task ∈ s.accepted, task.ticket < s.offered
  refused_lt : ∀ task ∈ s.refused, task.ticket < s.offered
  apart : ∀ task ∈ s.refused, task ∉ s.accepted
  executed_taken : ∀ p ∈ s.executed, p ∈ s.taken
  executed_nodup : s.executed.Nodup
  inHand : ∀ w task, s.InHand w task → (w, task) ∈ s.taken ∧ (w, task) ∉ s.executed
  settled : ∀ w task, (w, task) ∈ s.taken → task.function.isSome →
    (w, task) ∈ s.executed ∨ s.InHand w task
  exited : ∀ w : ℕ, s.pool.workers[w]? = some .exited → s.pool.stop = true ∧ s.pool.tasks = []

lemma inv_start (threadCount : ℕ) : (start threadCount : PoolHistory κ).Inv where
  order := rfl
  tickets := List.nodup_nil
  accepted_lt _ hmem := by cases hmem
  refused_lt _ hmem := by cases hmem
  apart _ hmem := by cases hmem
  executed_taken _ hmem := by cases hmem
  executed_nodup := List.nodup_nil
  inHand w task h := by
    simp [InHand, start, ThreadPool.new, List.getElem?_replicate] at h
  settled _ _ hmem := by cases hmem
  exited w h := by
    simp [start, ThreadPool.new, List.getElem?_replicate] at h

variable {s : PoolHistory κ}

/-- A task in the queue has not been taken. -/
lemma Inv.notMem_taken (h : s.Inv) {task : PoolTask κ} (hmem : task ∈ s.pool.tasks) (w : ℕ) :
    (w, task) ∉ s.taken := by
  intro htaken
  have hnodup : s.accepted.Nodup := List.Nodup.of_map _ h.tickets
  rw [← h.order, List.nodup_append] at hnodup
  exact hnodup.2.2 task (List.mem_map_of_mem htaken) task hmem rfl

lemma getElem?_setWorker {pool : ThreadPool κ} {w : ℕ} {old : WorkerState κ}
    (hw : pool.workers[w]? = some old) (state : WorkerState κ) (v : ℕ) :
    (pool.setWorker w state).workers[v]? = if v = w then some state else pool.workers[v]? := by
  obtain ⟨hlt, -⟩ := List.getElem?_eq_some_iff.mp hw
  by_cases hv : v = w
  · subst hv
    rw [if_pos rfl]
    exact List.getElem?_set_self hlt
  · rw [if_neg hv]
    exact List.getElem?_set_ne (Ne.symm hv)

/-- The tasks behind the newest one have smaller numbers. -/
lemma ticket_lt_concat {tasks : List (PoolTask κ)} {offered : ℕ}
    (h : ∀ task ∈ tasks, task.ticket < offered) (function : Option κ) :
    ∀ task ∈ tasks ++ [⟨offered, function⟩], task.ticket < offered + 1 := by
  intro task hmem
  rcases List.mem_append.mp hmem with hmem | hmem
  · exact (h task hmem).trans (Nat.lt_succ_self _)
  · rw [List.mem_singleton.mp hmem]
    exact Nat.lt_succ_self _

lemma Inv.addTask (h : s.Inv) (function : Option κ) : (s.addTask function).Inv := by
  have hfresh : ∀ task ∈ s.accepted, task.ticket ≠ s.offered :=
    fun task hmem => (h.accepted_lt task hmem).ne
  cases hstop : s.pool.stop with
  | true =>
    have heq : s.addTask function = { s with
        offered := s.offered + 1
        refused := s.refused ++ [⟨s.offered, function⟩] } := by
      simp [PoolHistory.addTask, ThreadPool.addTask, hstop]
    rw [heq]
    exact
      { order := h.order
        tickets := h.tickets
        accepted_lt := fun task hmem => (h.accepted_lt task hmem).trans (Nat.lt_succ_self _)
        refused_lt := ticket_lt_concat h.refused_lt function
        apart := by
          intro task hmem haccepted
          rcases List.mem_append.mp hmem with hmem | hmem
          · exact h.apart task hmem haccepted
          · rw [List.mem_singleton.mp hmem] at haccepted
            exact hfresh _ haccepted rfl
        executed_taken := h.executed_taken
        executed_nodup := h.executed_nodup
        inHand := h.inHand
        settled := h.settled
        exited := h.exited }
  | false =>
    have heq : s.addTask function = { s with
        pool := { s.pool with tasks := s.pool.tasks ++ [⟨s.offered, function⟩] }
        offered := s.offered + 1
        accepted := s.accepted ++ [⟨s.offered, function⟩] } := by
      simp [PoolHistory.addTask, ThreadPool.addTask, hstop]
    rw [heq]
    exact
      { order := by
          simp only
          rw [← List.append_assoc, h.order]
        tickets := by
          rw [List.map_append, List.nodup_append]
          refine ⟨h.tickets, List.nodup_singleton _, ?_⟩
          intro ticket hticket ticket' hticket'
          obtain ⟨task, hmem, rfl⟩ := List.mem_map.mp hticket
          rw [List.map_singleton, List.mem_singleton] at hticket'
          rw [hticket']
          exact hfresh task hmem
        accepted_lt := ticket_lt_concat h.accepted_lt function
        refused_lt := fun task hmem => (h.refused_lt task hmem).trans (Nat.lt_succ_self _)
        apart := by
          intro task hmem haccepted
          rcases List.mem_append.mp haccepted with haccepted | haccepted
          · exact h.apart task hmem haccepted
          · have hlt := h.refused_lt task hmem
            rw [List.mem_singleton.mp haccepted] at hlt
            exact lt_irrefl _ hlt
        executed_taken := h.executed_taken
        executed_nodup := h.executed_nodup
        inHand := h.inHand
        settled := h.settled
        exited := by
          intro w hw
          exact absurd (h.exited w hw).1 (by simp [hstop]) }

lemma Inv.setStop (h : s.Inv) : ({ s with pool := s.pool.setStop } : PoolHistory κ).Inv :=
  { h with
    order := h.order
    inHand := h.inHand
    settled := h.settled
    exited := fun w hw => ⟨rfl, (h.exited w hw).2⟩ }

/-- A worker that is at the exit after one has moved was there before, or is that one. -/
lemma Inv.exited_setWorker (h : s.Inv) {w v : ℕ} {old state : WorkerState κ}
    (hw : s.pool.workers[w]? = some old)
    (hstate : state = .exited → s.pool.stop = true ∧ s.pool.tasks = [])
    (hv : (s.pool.setWorker w state).workers[v]? = some .exited) :
    s.pool.stop = true ∧ s.pool.tasks = [] := by
  rw [getElem?_setWorker hw] at hv
  by_cases hvw : v = w
  · rw [if_pos hvw, Option.some.injEq] at hv
    exact hstate hv
  · rw [if_neg hvw] at hv
    exact h.exited v hv

/-- A worker that neither gets nor has a task may go anywhere but to the exit. -/
lemma Inv.setWorker (h : s.Inv) {w : ℕ} {old state : WorkerState κ}
    (hw : s.pool.workers[w]? = some old) (hidle : old = .ready ∨ old = .asleep)
    (hstate : state = .ready ∨ state = .asleep ∨
      state = .exited ∧ s.pool.stop = true ∧ s.pool.tasks = []) :
    ({ s with pool := s.pool.setWorker w state } : PoolHistory κ).Inv := by
  have hhand : ∀ v task, ({ s with pool := s.pool.setWorker w state } : PoolHistory κ).InHand v task
      ↔ s.InHand v task := by
    intro v task
    simp only [InHand, getElem?_setWorker hw]
    by_cases hv : v = w
    · subst hv
      rw [if_pos rfl, hw]
      rcases hidle with rfl | rfl <;> rcases hstate with rfl | rfl | ⟨rfl, -⟩ <;> simp
    · rw [if_neg hv]
  exact
    { h with
      order := h.order
      inHand := fun v task hv => h.inHand v task ((hhand v task).mp hv)
      settled := by
        intro v task hmem hfunction
        rw [hhand]
        exact h.settled v task hmem hfunction
      exited := by
        intro v hv
        apply h.exited_setWorker hw _ hv
        rintro rfl
        rcases hstate with hready | hasleep | ⟨-, hstop⟩
        · cases hready
        · cases hasleep
        · exact hstop }

lemma InHand.eq_or {s t : PoolHistory κ} {w v : ℕ} {old state : WorkerState κ}
    {task : PoolTask κ} (hw : s.pool.workers[w]? = some old)
    (hworkers : t.pool.workers = (s.pool.setWorker w state).workers) (h : t.InHand v task) :
    v = w ∧ (state = .holding task ∨ state = .running task) ∨ v ≠ w ∧ s.InHand v task := by
  simp only [InHand, hworkers, getElem?_setWorker hw] at h
  by_cases hv : v = w
  · simp only [if_pos hv, Option.some.injEq] at h
    exact Or.inl ⟨hv, h⟩
  · simp only [if_neg hv] at h
    exact Or.inr ⟨hv, h⟩

lemma InHand.of_ne {s t : PoolHistory κ} {w v : ℕ} {old state : WorkerState κ}
    {task : PoolTask κ} (hw : s.pool.workers[w]? = some old)
    (hworkers : t.pool.workers = (s.pool.setWorker w state).workers) (hv : v ≠ w)
    (h : s.InHand v task) : t.InHand v task := by
  simp only [InHand, hworkers, getElem?_setWorker hw, if_neg hv]
  exact h

lemma Inv.takeFirst (h : s.Inv) {w : ℕ} (hw : s.pool.workers[w]? = some .ready)
    {task : PoolTask κ} {tasks : List (PoolTask κ)} (htasks : s.pool.tasks = task :: tasks) :
    ({ s with
      pool := { s.pool.setWorker w (.holding task) with tasks := tasks }
      taken := s.taken ++ [(w, task)] } : PoolHistory κ).Inv := by
  have hfresh : ∀ v, (v, task) ∉ s.taken := fun v => h.notMem_taken (by simp [htasks]) v
  have hidle : ∀ other, ¬ s.InHand w other := by
    intro other hhand
    simp [InHand, hw] at hhand
  exact
    { order := by simp [← h.order, htasks]
      tickets := h.tickets
      accepted_lt := h.accepted_lt
      refused_lt := h.refused_lt
      apart := h.apart
      executed_taken := fun p hp => List.mem_append_left _ (h.executed_taken p hp)
      executed_nodup := h.executed_nodup
      inHand := by
        intro v other hhand
        rcases hhand.eq_or hw rfl with ⟨rfl, hstate⟩ | ⟨-, hhand⟩
        · have hother : task = other := by simpa using hstate
          subst hother
          exact ⟨by simp, fun hexecuted => hfresh v (h.executed_taken _ hexecuted)⟩
        · exact ⟨List.mem_append_left _ (h.inHand v other hhand).1, (h.inHand v other hhand).2⟩
      settled := by
        intro v other hmem hfunction
        rcases List.mem_append.mp hmem with hmem | hmem
        · rcases h.settled v other hmem hfunction with hexecuted | hhand
          · exact Or.inl hexecuted
          · have hv : v ≠ w := by
              rintro rfl
              exact hidle other hhand
            exact Or.inr (InHand.of_ne hw rfl hv hhand)
        · rw [List.mem_singleton, Prod.mk.injEq] at hmem
          obtain ⟨rfl, rfl⟩ := hmem
          exact Or.inr (Or.inl (by simp [getElem?_setWorker hw]))
      exited := by
        intro v hv
        exact absurd (h.exited_setWorker hw (by simp) hv).2 (by simp [htasks]) }

/-- The worker goes on with its task, or lets go of an empty one. -/
lemma Inv.call (h : s.Inv) {w : ℕ} {task : PoolTask κ}
    (hw : s.pool.workers[w]? = some (.holding task)) :
    ({ s with
      pool := s.pool.setWorker w (if task.function.isSome then .running task else .ready) } :
      PoolHistory κ).Inv := by
  exact
    { h with
      order := h.order
      inHand := by
        intro v other hhand
        rcases hhand.eq_or hw rfl with ⟨rfl, hstate⟩ | ⟨-, hhand⟩
        · have hother : task = other := by
            split_ifs at hstate
            · simpa using hstate
            · simp at hstate
          subst hother
          exact h.inHand v task (Or.inl hw)
        · exact h.inHand v other hhand
      settled := by
        intro v other hmem hfunction
        rcases h.settled v other hmem hfunction with hexecuted | hhand
        · exact Or.inl hexecuted
        · by_cases hv : v = w
          · subst hv
            have hother : other = task := by simpa [InHand, hw, eq_comm] using hhand
            subst hother
            refine Or.inr (Or.inr ?_)
            simp only [getElem?_setWorker hw, hfunction]
            simp
          · exact Or.inr (InHand.of_ne hw rfl hv hhand)
      exited := by
        intro v hv
        exact h.exited_setWorker hw (by split_ifs <;> simp) hv }

lemma Inv.finish (h : s.Inv) {w : ℕ} {task : PoolTask κ}
    (hw : s.pool.workers[w]? = some (.running task)) :
    ({ s with
      pool := s.pool.setWorker w .ready
      executed := s.executed ++ [(w, task)] } : PoolHistory κ).Inv := by
  obtain ⟨htaken, hnew⟩ := h.inHand w task (Or.inr hw)
  exact
    { h with
      order := h.order
      executed_taken := by
        intro p hp
        rcases List.mem_append.mp hp with hp | hp
        · exact h.executed_taken p hp
        · rw [List.mem_singleton.mp hp]
          exact htaken
      executed_nodup := by
        rw [List.nodup_append]
        refine ⟨h.executed_nodup, List.nodup_singleton _, ?_⟩
        intro p hp p' hp'
        rw [List.mem_singleton.mp hp']
        rintro rfl
        exact hnew hp
      inHand := by
        intro v other hhand
        rcases hhand.eq_or hw rfl with ⟨-, hstate⟩ | ⟨hv, hhand⟩
        · simp at hstate
        · refine ⟨(h.inHand v other hhand).1, ?_⟩
          simp [(h.inHand v other hhand).2, hv]
      settled := by
        intro v other hmem hfunction
        rcases h.settled v other hmem hfunction with hexecuted | hhand
        · exact Or.inl (List.mem_append_left _ hexecuted)
        · by_cases hv : v = w
          · subst hv
            have hother : other = task := by simpa [InHand, hw, eq_comm] using hhand
            subst hother
            exact Or.inl (by simp)
          · exact Or.inr (InHand.of_ne hw rfl hv hhand)
      exited := fun v hv => h.exited_setWorker hw (by simp) hv }

lemma Inv.takeTask (h : s.Inv) {w : ℕ} (hw : s.pool.workers[w]? = some .ready) :
    (s.takeTask w).Inv := by
  cases htasks : s.pool.tasks with
  | nil =>
    have heq : s.takeTask w = { s with
        pool := s.pool.setWorker w (if s.pool.stop then .exited else .asleep) } := by
      simp [PoolHistory.takeTask, ThreadPool.takeTask, htasks]
    rw [heq]
    apply h.setWorker hw (Or.inl rfl)
    cases hstop : s.pool.stop with
    | true => exact Or.inr (Or.inr ⟨rfl, rfl, htasks⟩)
    | false => exact Or.inr (Or.inl rfl)
  | cons task tasks =>
    have heq : s.takeTask w = { s with
        pool := { s.pool.setWorker w (.holding task) with tasks := tasks }
        taken := s.taken ++ [(w, task)] } := by
      simp [PoolHistory.takeTask, ThreadPool.takeTask, htasks]
    rw [heq]
    exact h.takeFirst hw htasks

lemma Inv.step (h : s.Inv) {move : PoolMove κ} {t : PoolHistory κ}
    (hstep : s.step move = some t) : t.Inv := by
  cases move with
  | addTask function =>
    cases hstep
    exact h.addTask function
  | setStop =>
    cases hstep
    exact h.setStop
  | takeTask w =>
    simp only [PoolHistory.step] at hstep
    split at hstep
    case h_1 hw =>
      cases hstep
      exact h.takeTask hw
    case h_2 => cases hstep
  | wake w =>
    simp only [PoolHistory.step] at hstep
    split at hstep
    case h_1 hw =>
      cases hstep
      exact h.setWorker hw (Or.inr rfl) (Or.inl rfl)
    case h_2 => cases hstep
  | call w =>
    simp only [PoolHistory.step] at hstep
    split at hstep
    case h_1 task hw =>
      cases hstep
      exact h.call hw
    case h_2 => cases hstep
  | finish w =>
    simp only [PoolHistory.step] at hstep
    split at hstep
    case h_1 task hw =>
      cases hstep
      exact h.finish hw
    case h_2 => cases hstep

/-- What the pool promises to those who call `AddTask` and to those who destroy it. -/
structure Orderly (s : PoolHistory κ) : Prop where
  /-- The tasks are taken in the order they were accepted in, and those in the queue come next. -/
  in_order : s.taken.map Prod.snd ++ s.pool.tasks = s.accepted
  /-- No two calls of `AddTask` count as one. -/
  tickets : (s.accepted.map PoolTask.ticket).Nodup
  once : ∀ task ∈ s.accepted, task ∉ s.pool.tasks → ∃! w, (w, task) ∈ s.taken
  executed_taken : ∀ p ∈ s.executed, p ∈ s.taken
  executed_once : s.executed.Nodup
  refused : ∀ task ∈ s.refused, ∀ w, (w, task) ∉ s.taken ∧ (w, task) ∉ s.executed
  drained : (∀ worker ∈ s.pool.workers, worker = .exited) →
    s.taken.map Prod.snd = s.accepted ∧
      ∀ task ∈ s.accepted, task.function.isSome → ∃ w, (w, task) ∈ s.executed

lemma Inv.nodup_taken (h : s.Inv) : (s.taken.map Prod.snd).Nodup := by
  have hnodup : s.accepted.Nodup := List.Nodup.of_map _ h.tickets
  rw [← h.order, List.nodup_append] at hnodup
  exact hnodup.1

lemma Inv.mem_accepted (h : s.Inv) {w : ℕ} {task : PoolTask κ} (hmem : (w, task) ∈ s.taken) :
    task ∈ s.accepted := by
  rw [← h.order]
  exact List.mem_append_left _ (List.mem_map_of_mem hmem)

lemma Inv.orderly (h : s.Inv) (hworkers : s.pool.workers ≠ []) : s.Orderly where
  in_order := h.order
  tickets := h.tickets
  once := by
    intro task hmem hqueue
    rw [← h.order, List.mem_append] at hmem
    obtain ⟨⟨w, other⟩, htaken, rfl⟩ := List.mem_map.mp (hmem.resolve_right hqueue)
    refine ⟨w, htaken, fun v hv => ?_⟩
    exact congrArg Prod.fst (List.inj_on_of_nodup_map h.nodup_taken hv htaken rfl)
  executed_taken := h.executed_taken
  executed_once := h.executed_nodup
  refused := by
    intro task hmem w
    have hnot : (w, task) ∉ s.taken := fun htaken => h.apart task hmem (h.mem_accepted htaken)
    exact ⟨hnot, fun hexecuted => hnot (h.executed_taken _ hexecuted)⟩
  drained := by
    intro hexited
    have hat : ∀ (w : ℕ) (state : WorkerState κ), s.pool.workers[w]? = some state →
        state = .exited :=
      fun w state hw => hexited state (List.mem_of_getElem? hw)
    -- The first of the workers has seen the queue empty behind the flag.
    obtain ⟨first, rest, hfirst⟩ := List.exists_cons_of_ne_nil hworkers
    have hempty : s.pool.tasks = [] := by
      apply (h.exited 0 _).2
      rw [hfirst, List.getElem?_cons_zero, hexited first (by simp [hfirst])]
    have horder := h.order
    rw [hempty, List.append_nil] at horder
    refine ⟨horder, fun task hmem hfunction => ?_⟩
    rw [← horder] at hmem
    obtain ⟨⟨w, other⟩, htaken, rfl⟩ := List.mem_map.mp hmem
    rcases h.settled w other htaken hfunction with hexecuted | hhand | hhand
    · exact ⟨w, hexecuted⟩
    · exact absurd (hat w _ hhand) (by simp)
    · exact absurd (hat w _ hhand) (by simp)

lemma length_workers_step {move : PoolMove κ} {t : PoolHistory κ} (hstep : s.step move = some t) :
    t.pool.workers.length = s.pool.workers.length := by
  cases move with
  | addTask function =>
    cases hstep
    simp only [PoolHistory.addTask, ThreadPool.addTask]
    split_ifs <;> rfl
  | setStop =>
    cases hstep
    rfl
  | takeTask w =>
    simp only [step] at hstep
    split at hstep
    case h_1 =>
      cases hstep
      simp only [PoolHistory.takeTask, ThreadPool.takeTask]
      split <;> simp [ThreadPool.setWorker]
    case h_2 => cases hstep
  | _ =>
    simp only [step] at hstep
    split at hstep
    case h_1 =>
      cases hstep
      simp [ThreadPool.setWorker]
    case h_2 => cases hstep

/-- Whatever the order in which threads add tasks, workers take them and the pool is destroyed, no
accepted task is lost and no refused one is executed. -/
theorem orderly_run {threadCount : ℕ} (hcount : 0 < threadCount) {moves : List (PoolMove κ)}
    (h : Runs.run step (start threadCount) moves = some s) : s.Orderly := by
  have hboth := Runs.invariant_run step
    (P := fun s => s.Inv ∧ s.pool.workers.length = threadCount)
    (fun u move t hu hstep => ⟨hu.1.step hstep, (length_workers_step hstep).trans hu.2⟩)
    ⟨inv_start threadCount, by simp [start, ThreadPool.new]⟩ h
  apply hboth.1.orderly
  intro hempty
  rw [hempty] at hboth
  exact absurd hboth.2 hcount.ne

/-- Two workers, three tasks, one of them refused, and the end of the pool. -/
theorem orderly_run_two :
    ∃ s : PoolHistory Unit, Runs.run step (start 2)
        [.takeTask 1, .addTask (some ()), .addTask none, .takeTask 0, .setStop, .wake 1,
          .addTask (some ()), .takeTask 1, .call 1, .takeTask 1, .call 0, .finish 0,
          .takeTask 0] = some s ∧ s.Orderly := by
  have hrun : Runs.run step (start 2)
      [.takeTask 1, .addTask (some ()), .addTask none, .takeTask 0, .setStop, .wake 1,
        .addTask (some ()), .takeTask 1, .call 1, .takeTask 1, .call 0, .finish 0,
        .takeTask 0] =
      some ⟨⟨[.exited, .exited], [], true⟩, 3, [⟨0, some ()⟩, ⟨1, none⟩], [⟨2, some ()⟩],
        [(0, ⟨0, some ()⟩), (1, ⟨1, none⟩)], [(0, ⟨0, some ()⟩)]⟩ := by
    decide
  exact ⟨_, hrun, orderly_run (by decide) hrun⟩

end PoolHistory

end TinyWebServer
