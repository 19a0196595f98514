import TinyWebServer.Library.Progress
import TinyWebServer.Net.ThreadPool

/-!
# Notifications of the thread pool

The condition variable of the pool as it is: `AddTask` wakes one worker behind its section, if one
sleeps, and the destructor wakes them all. No notification is lost to a task: under every schedule
the accepted tasks are executed and the destructor returns.
-/

namespace TinyWebServer

open Runs

variable {κ : Type*}

/-- Where the thread stands that destroys the pool. -/
inductive DestructorPc where
  | alive
  /-- The flag is set. -/
  | notifying
  | joining
  | returned
  deriving DecidableEq

structure NotifiedPool (κ : Type*) where
  history : PoolHistory κ
  /-- The calls of `AddTask` that are in front of `notify_one`. -/
  notifying : ℕ
  destructor : DestructorPc

namespace WorkerState

def isAsleep : WorkerState κ → Bool
  | asleep => true
  | _ => false

def isExited : WorkerState κ → Bool
  | exited => true
  | _ => false

def awaken : WorkerState κ → WorkerState κ
  | asleep => ready
  | state => state

end WorkerState

namespace NotifiedPool

def start (threadCount : ℕ) : NotifiedPool κ := ⟨.start threadCount, 0, .alive⟩

abbrev workers (s : NotifiedPool κ) : List (WorkerState κ) := s.history.pool.workers

abbrev tasks (s : NotifiedPool κ) : List (PoolTask κ) := s.history.pool.tasks

inductive Move (κ : Type*)
  | addTask (function : Option κ)
  /-- A call of `notify_one` wakes a worker. -/
  | notifyOne (w : ℕ)
  /-- A call of `notify_one` finds nobody asleep. -/
  | notifyNone
  /-- The destructor sets the flag. -/
  | destroy
  | notifyAll
  /-- The last worker has been joined. -/
  | join
  | takeTask (w : ℕ)
  | call (w : ℕ)
  | finish (w : ℕ)
  /-- A worker wakes up without being notified. -/
  | wake (w : ℕ)

/-- A worker goes on. -/
def advance (s : NotifiedPool κ) (m : PoolMove κ) : Option (NotifiedPool κ) :=
  (s.history.step m).map fun history => { s with history := history }

/-- All workers leave the wait. -/
def awakenAll (h : PoolHistory κ) : PoolHistory κ :=
  { h with pool := { h.pool with workers := h.pool.workers.map .awaken } }

def step (s : NotifiedPool κ) : Move κ → Option (NotifiedPool κ)
  | .addTask function =>
    let notifying := if s.history.pool.stop then s.notifying else s.notifying + 1
    some { s with history := s.history.addTask function, notifying := notifying }
  | .notifyOne w =>
    if 0 < s.notifying then
      (s.advance (.wake w)).map fun t => { t with notifying := s.notifying - 1 }
    else none
  | .notifyNone =>
    if 0 < s.notifying ∧ ¬ s.workers.any (·.isAsleep) then
      some { s with notifying := s.notifying - 1 }
    else none
  | .destroy =>
    if s.destructor = .alive then
      (s.advance .setStop).map fun t => { t with destructor := .notifying }
    else none
  | .notifyAll =>
    if s.destructor = .notifying then
      some { s with history := awakenAll s.history, destructor := .joining }
    else none
  | .join =>
    if s.destructor = .joining ∧ s.workers.all (·.isExited) then
      some { s with destructor := .returned }
    else none
  | .takeTask w => s.advance (.takeTask w)
  | .call w => s.advance (.call w)
  | .finish w => s.advance (.finish w)
  | .wake w => s.advance (.wake w)

/-! ### Counting workers -/

/-- The sum of a weight over the workers. -/
def tally (weight : WorkerState κ → ℕ) (workers : List (WorkerState κ)) : ℕ :=
  (workers.map weight).sum

lemma tally_set (weight : WorkerState κ → ℕ) {workers : List (WorkerState κ)} {w : ℕ}
    {old : WorkerState κ} (hw : workers[w]? = some old) (new : WorkerState κ) :
    tally weight (workers.set w new) + weight old = tally weight workers + weight new := by
  induction workers generalizing w with
  | nil => simp at hw
  | cons worker workers ih =>
    cases w with
    | zero =>
      simp only [List.getElem?_cons_zero, Option.some.injEq] at hw
      subst hw
      simp only [tally, List.set_cons_zero, List.map_cons, List.sum_cons]
      omega
    | succ w =>
      rw [List.getElem?_cons_succ] at hw
      have hrest := ih hw
      simp only [tally, List.set_cons_succ, List.map_cons, List.sum_cons] at hrest ⊢
      omega

def sleeping : WorkerState κ → ℕ
  | .asleep => 1
  | _ => 0

def waiting : WorkerState κ → ℕ
  | .ready => 1
  | _ => 0

/-- The steps that a worker has in front of it without further tasks and notifications. -/
def effort : WorkerState κ → ℕ
  | .exited => 0
  | .asleep => 1
  | .ready => 2
  | .running _ => 3
  | .holding _ => 4

lemma effort_awaken (worker : WorkerState κ) :
    effort worker.awaken = effort worker + sleeping worker := by
  cases worker <;> rfl

lemma tally_awaken (workers : List (WorkerState κ)) :
    tally effort (workers.map .awaken) = tally effort workers + tally sleeping workers ∧
      tally sleeping (workers.map .awaken) = 0 ∧ tally sleeping workers ≤ workers.length := by
  induction workers with
  | nil => exact ⟨rfl, rfl, le_rfl⟩
  | cons worker workers ih =>
    obtain ⟨heffort, hnone, hle⟩ := ih
    have hworker : sleeping worker.awaken = 0 ∧ sleeping worker ≤ 1 := by
      cases worker <;> simp [WorkerState.awaken, sleeping]
    simp only [tally, List.map_cons, List.sum_cons, List.length_cons, effort_awaken] at *
    omega

/-! ### The steps of a worker -/

/-- What a worker does with itself and the queue. -/
inductive Turn (stop : Bool) : WorkerState κ → WorkerState κ → List (PoolTask κ) →
    List (PoolTask κ) → Prop
  | take (task : PoolTask κ) (tasks : List (PoolTask κ)) :
      Turn stop .ready (.holding task) (task :: tasks) tasks
  | sleep (h : stop = false) : Turn stop .ready .asleep [] []
  | exit (h : stop = true) : Turn stop .ready .exited [] []
  | call (task : PoolTask κ) (tasks : List (PoolTask κ)) :
      Turn stop (.holding task) (.running task) tasks tasks
  | skip (task : PoolTask κ) (tasks : List (PoolTask κ)) :
      Turn stop (.holding task) .ready tasks tasks
  | finish (task : PoolTask κ) (tasks : List (PoolTask κ)) :
      Turn stop (.running task) .ready tasks tasks

/-- One worker makes a turn, and nothing else happens. -/
structure Advances (s t : NotifiedPool κ) (w : ℕ) (old new : WorkerState κ) : Prop where
  old_eq : s.workers[w]? = some old
  turn : Turn s.history.pool.stop old new s.tasks t.tasks
  workers : t.workers = s.workers.set w new
  frame : (t.history.pool.stop, t.notifying, t.destructor) =
    (s.history.pool.stop, s.notifying, s.destructor)

variable {s t : NotifiedPool κ} {w : ℕ}

lemma advances_takeTask (h : s.step (.takeTask w) = some t) :
    ∃ new, Advances s t w .ready new := by
  obtain ⟨u, hu, rfl⟩ := Option.map_eq_some_iff.mp h
  simp only [PoolHistory.step] at hu
  split at hu
  · next hw =>
    cases hu
    cases htasks : s.history.pool.tasks with
    | nil =>
      cases hstop : s.history.pool.stop with
      | true =>
        refine ⟨.exited, hw, ?_, ?_, ?_⟩
        · simpa [tasks, PoolHistory.takeTask, ThreadPool.takeTask, ThreadPool.setWorker, htasks,
            hstop] using Turn.exit rfl
        · simp [workers, PoolHistory.takeTask, ThreadPool.takeTask, ThreadPool.setWorker, htasks,
            hstop]
        · simp [PoolHistory.takeTask, ThreadPool.takeTask, ThreadPool.setWorker, htasks]
      | false =>
        refine ⟨.asleep, hw, ?_, ?_, ?_⟩
        · simpa [tasks, PoolHistory.takeTask, ThreadPool.takeTask, ThreadPool.setWorker, htasks,
            hstop] using Turn.sleep rfl
        · simp [workers, PoolHistory.takeTask, ThreadPool.takeTask, ThreadPool.setWorker, htasks,
            hstop]
        · simp [PoolHistory.takeTask, ThreadPool.takeTask, ThreadPool.setWorker, htasks]
    | cons task rest =>
      refine ⟨.holding task, hw, ?_, ?_, ?_⟩
      · simpa [tasks, PoolHistory.takeTask, ThreadPool.takeTask, ThreadPool.setWorker, htasks]
          using Turn.take task rest
      · simp [workers, PoolHistory.takeTask, ThreadPool.takeTask, ThreadPool.setWorker, htasks]
      · simp [PoolHistory.takeTask, ThreadPool.takeTask, ThreadPool.setWorker, htasks]
  · cases hu

lemma advances_call (h : s.step (.call w) = some t) : ∃ old new, Advances s t w old new := by
  obtain ⟨u, hu, rfl⟩ := Option.map_eq_some_iff.mp h
  simp only [PoolHistory.step] at hu
  split at hu
  · next task hw =>
    cases hu
    by_cases hfunction : task.function.isSome
    · exact ⟨_, .running task, hw, .call task _, by simp [ThreadPool.setWorker, hfunction], rfl⟩
    · exact ⟨_, .ready, hw, .skip task _, by simp [ThreadPool.setWorker, hfunction], rfl⟩
  · cases hu

lemma advances_finish (h : s.step (.finish w) = some t) : ∃ old new, Advances s t w old new := by
  obtain ⟨u, hu, rfl⟩ := Option.map_eq_some_iff.mp h
  simp only [PoolHistory.step] at hu
  split at hu
  · next task hw =>
    cases hu
    exact ⟨_, .ready, hw, .finish task _, rfl, rfl⟩
  · cases hu

lemma advance_wake (h : s.advance (.wake w) = some t) : s.workers[w]? = some .asleep ∧
    t = { s with history := { s.history with pool := s.history.pool.setWorker w .ready } } := by
  obtain ⟨u, hu, rfl⟩ := Option.map_eq_some_iff.mp h
  simp only [PoolHistory.step] at hu
  split at hu
  · next hw =>
    cases hu
    exact ⟨hw, rfl⟩
  · cases hu

/-! ### The invariant -/

lemma getElem?_awakenAll {h : PoolHistory κ} {state : WorkerState κ} (hasleep : state ≠ .asleep)
    (hready : state ≠ .ready) : (awakenAll h).pool.workers[w]? = some state ↔
      h.pool.workers[w]? = some state := by
  simp only [awakenAll, List.getElem?_map]
  rcases h.pool.workers[w]? with _ | worker
  · rfl
  · cases worker <;> simp [WorkerState.awaken, hasleep.symm, hready.symm]

lemma inv_awakenAll {h : PoolHistory κ} (hinv : h.Inv) : (awakenAll h).Inv := by
  have hhand : ∀ v task, (awakenAll h).InHand v task ↔ h.InHand v task := by
    intro v task
    simp only [PoolHistory.InHand]
    rw [getElem?_awakenAll (by simp) (by simp), getElem?_awakenAll (by simp) (by simp)]
  exact
    { hinv with
      inHand := fun v task hv => hinv.inHand v task ((hhand v task).mp hv)
      settled := by
        intro v task hmem hfunction
        rw [hhand]
        exact hinv.settled v task hmem hfunction
      exited := by
        intro v hv
        exact hinv.exited v ((getElem?_awakenAll (by simp) (by simp)).mp hv) }

structure Inv (threadCount : ℕ) (s : NotifiedPool κ) : Prop where
  history : s.history.Inv
  length : s.workers.length = threadCount
  stop_iff : s.history.pool.stop = true ↔ s.destructor ≠ .alive
  /-- As long as a worker sleeps, there is for each task in the queue somebody on the way: a worker
  in front of the mutex or a call of `notify_one`. -/
  noticed : 0 < tally sleeping s.workers →
    s.tasks.length ≤ s.notifying + tally waiting s.workers
  awake : s.destructor = .joining ∨ s.destructor = .returned → tally sleeping s.workers = 0

/-- What the destructor has in front of it. -/
def destroying (threadCount : ℕ) : DestructorPc → ℕ
  | .alive => 0
  | .notifying => threadCount + 2
  | .joining => 1
  | .returned => 0

def cost (s : NotifiedPool κ) : ℕ :=
  3 * s.tasks.length + 2 * s.notifying + tally effort s.workers +
    destroying s.workers.length s.destructor

/-- The steps of the workers, of `notify_one` and of a destructor that has been called. -/
def Works : Move κ → Prop
  | .addTask _ | .destroy | .wake _ => False
  | _ => True

instance : DecidablePred (Works : Move κ → Prop) := fun m => by
  cases m <;> first | exact .isTrue trivial | exact .isFalse id

/-- The steps that a move from outside gives the others to do. -/
def earn (threadCount : ℕ) : Move κ → ℕ
  | .addTask _ => 5
  | .destroy => threadCount + 2
  | .wake _ => 1
  | _ => 0

variable {threadCount : ℕ}

lemma inv_start (threadCount : ℕ) : (start threadCount : NotifiedPool κ).Inv threadCount where
  history := PoolHistory.inv_start threadCount
  length := List.length_replicate
  stop_iff := by simp [start, PoolHistory.start, ThreadPool.new]
  noticed _ := Nat.zero_le _
  awake := by simp [start]

/-- Behind a turn of a worker there is less to do. -/
lemma Inv.advances (h : s.Inv threadCount) {old new : WorkerState κ}
    (hadvances : Advances s t w old new) (hhistory : t.history.Inv) :
    t.Inv threadCount ∧ t.cost < s.cost := by
  obtain ⟨hold, hturn, hworkers, hframe⟩ := hadvances
  have hsleeping := tally_set sleeping hold new
  have hwaiting := tally_set waiting hold new
  have heffort := tally_set effort hold new
  obtain ⟨hstop, hnotifying, hdestructor⟩ :
      t.history.pool.stop = s.history.pool.stop ∧ t.notifying = s.notifying ∧
        t.destructor = s.destructor := by simpa using hframe
  have hlength : t.workers.length = s.workers.length := by rw [hworkers, List.length_set]
  have hnoticed := h.noticed
  have hawake := h.awake
  have halive := h.stop_iff
  rw [← hworkers] at hsleeping hwaiting heffort
  suffices hrest : (0 < tally sleeping t.workers →
        t.tasks.length ≤ t.notifying + tally waiting t.workers) ∧
      (s.destructor = .joining ∨ s.destructor = .returned → tally sleeping t.workers = 0) ∧
      t.cost < s.cost by
    refine ⟨⟨hhistory, hlength.trans h.length, ?_, hrest.1, ?_⟩, hrest.2.2⟩
    · rw [hstop, hdestructor]
      exact halive
    · rw [hdestructor]
      exact hrest.2.1
  simp only [cost, hlength, hnotifying, hdestructor]
  generalize s.tasks = before at hturn hnoticed ⊢
  generalize t.tasks = after at hturn ⊢
  cases hturn with
  | take task tasks =>
    simp only [sleeping, waiting, effort, List.length_cons] at *
    exact ⟨by omega, fun hd => by have := hawake hd; omega, by omega⟩
  | sleep hrunning =>
    have halive : s.destructor = .alive := by
      by_contra hne
      exact absurd (halive.mpr hne) (by simp [hrunning])
    simp only [sleeping, waiting, effort, List.length_nil] at *
    exact ⟨by omega, by simp [halive], by omega⟩
  | exit | call | skip | finish =>
    simp only [sleeping, waiting, effort, List.length_nil] at *
    exact ⟨by omega, fun hd => by have := hawake hd; omega, by omega⟩

lemma Inv.wake (h : s.Inv threadCount) (hstep : s.advance (.wake w) = some t) :
    t.Inv threadCount ∧ t.cost = s.cost + 1 ∧ t.notifying = s.notifying ∧
      tally waiting t.workers = tally waiting s.workers + 1 := by
  have hhistory : t.history.Inv := by
    obtain ⟨u, hu, rfl⟩ := Option.map_eq_some_iff.mp hstep
    exact h.history.step hu
  obtain ⟨hw, rfl⟩ := advance_wake hstep
  have hsleeping := tally_set sleeping hw .ready
  have hwaiting := tally_set waiting hw .ready
  have heffort := tally_set effort hw .ready
  have hnoticed := h.noticed
  have hlength : (s.workers.set w .ready).length = s.workers.length := List.length_set
  simp only [sleeping, waiting, effort] at hsleeping hwaiting heffort hnoticed
  refine ⟨⟨hhistory, hlength.trans h.length, h.stop_iff, ?_, ?_⟩, ?_, rfl, ?_⟩
  · intro _
    change s.tasks.length ≤ s.notifying + tally waiting (s.workers.set w .ready)
    omega
  · intro hd
    have hnone := h.awake hd
    omega
  · change 3 * s.tasks.length + 2 * s.notifying + tally effort (s.workers.set w .ready) +
      destroying (s.workers.set w .ready).length s.destructor = s.cost + 1
    rw [hlength, cost]
    omega
  · exact hwaiting

lemma Inv.addTask (h : s.Inv threadCount) {function : Option κ}
    (hstep : s.step (.addTask function) = some t) :
    t.Inv threadCount ∧ t.cost ≤ s.cost + 5 := by
  cases hstep
  have hhistory := h.history.addTask function
  cases hstop : s.history.pool.stop with
  | true =>
    have heq : (s.history.addTask function).pool = s.history.pool := by
      simp [PoolHistory.addTask, ThreadPool.addTask, hstop]
    refine ⟨⟨hhistory, ?_, ?_, ?_, ?_⟩, ?_⟩
    · simpa [workers, heq] using h.length
    · simpa [heq] using h.stop_iff
    · simpa [workers, tasks, heq] using h.noticed
    · simpa [workers, heq] using h.awake
    · simp [cost, workers, tasks, heq]
  | false =>
    have heq : (s.history.addTask function).pool =
        { s.history.pool with tasks := s.history.pool.tasks ++ [⟨s.history.offered, function⟩] } := by
      simp [PoolHistory.addTask, ThreadPool.addTask, hstop]
    refine ⟨⟨hhistory, ?_, ?_, ?_, ?_⟩, ?_⟩
    · simpa [workers, heq] using h.length
    · simpa [heq] using h.stop_iff
    · have hnoticed := h.noticed
      simp only [workers, tasks, heq, List.length_append, List.length_singleton] at hnoticed ⊢
      simp only [Bool.false_eq_true, if_false]
      omega
    · simpa [workers, heq] using h.awake
    · simp only [cost, workers, tasks, heq, List.length_append, List.length_singleton]
      simp only [Bool.false_eq_true, if_false]
      omega

lemma Inv.destroy (h : s.Inv threadCount) (hstep : s.step .destroy = some t) :
    t.Inv threadCount ∧ t.cost = s.cost + (threadCount + 2) := by
  simp only [step, Option.ite_none_right_eq_some, advance, PoolHistory.step, Option.map_some,
    Option.some.injEq] at hstep
  obtain ⟨halive, rfl⟩ := hstep
  refine ⟨⟨h.history.setStop, h.length, by simp [ThreadPool.setStop], h.noticed, by simp⟩, ?_⟩
  simp [cost, workers, tasks, ThreadPool.setStop, halive, destroying, ← h.length]

lemma Inv.notifyAll (h : s.Inv threadCount) (hstep : s.step .notifyAll = some t) :
    t.Inv threadCount ∧ t.cost < s.cost := by
  simp only [step, Option.ite_none_right_eq_some, Option.some.injEq] at hstep
  obtain ⟨hnotifying, rfl⟩ := hstep
  obtain ⟨heffort, hnone, hle⟩ := tally_awaken s.workers
  have hlength : (s.workers.map WorkerState.awaken).length = s.workers.length := List.length_map _
  refine ⟨⟨inv_awakenAll h.history, hlength.trans h.length, ?_, ?_, fun _ => hnone⟩, ?_⟩
  · have hstop := h.stop_iff
    simpa [hnotifying, awakenAll] using hstop
  · intro hpos
    exact absurd hpos (by simp [workers, awakenAll, hnone])
  · change 3 * s.tasks.length + 2 * s.notifying + tally effort (s.workers.map WorkerState.awaken) +
      destroying (s.workers.map WorkerState.awaken).length .joining < s.cost
    rw [heffort, cost, hnotifying, destroying, destroying]
    omega

lemma Inv.join (h : s.Inv threadCount) (hstep : s.step .join = some t) :
    t.Inv threadCount ∧ t.cost < s.cost := by
  simp only [step, Option.ite_none_right_eq_some, Option.some.injEq] at hstep
  obtain ⟨⟨hjoining, -⟩, rfl⟩ := hstep
  refine ⟨⟨h.history, h.length, ?_, h.noticed, fun _ => h.awake (.inl hjoining)⟩, ?_⟩
  · have hstop := h.stop_iff
    simpa [hjoining] using hstop
  · simp [cost, workers, tasks, hjoining, destroying]

lemma Inv.notifyOne (h : s.Inv threadCount) (hstep : s.step (.notifyOne w) = some t) :
    t.Inv threadCount ∧ t.cost < s.cost := by
  simp only [step, Option.ite_none_right_eq_some] at hstep
  obtain ⟨hpos, hstep⟩ := hstep
  obtain ⟨u, hu, rfl⟩ := Option.map_eq_some_iff.mp hstep
  obtain ⟨hw, rfl⟩ := advance_wake hu
  obtain ⟨hinv, hcost, -, hwaiting⟩ := h.wake hu
  have hnoticed := h.noticed
  have hsleeping := tally_set sleeping hw .ready
  refine ⟨⟨hinv.history, hinv.length, hinv.stop_iff, ?_, hinv.awake⟩, ?_⟩
  · intro _
    simp only [workers, tasks, ThreadPool.setWorker, sleeping] at *
    omega
  · simp only [cost, workers, tasks] at *
    omega

lemma tally_sleeping_eq_zero {workers : List (WorkerState κ)}
    (h : ¬ workers.any (·.isAsleep)) : tally sleeping workers = 0 := by
  rw [tally, List.sum_eq_zero]
  simp only [List.any_eq_true, not_exists, not_and] at h
  intro weight hmem
  obtain ⟨worker, hworker, rfl⟩ := List.mem_map.mp hmem
  have hawake := h worker hworker
  cases worker <;> simp [WorkerState.isAsleep, sleeping] at hawake ⊢

lemma Inv.notifyNone (h : s.Inv threadCount) (hstep : s.step .notifyNone = some t) :
    t.Inv threadCount ∧ t.cost < s.cost := by
  simp only [step, Option.ite_none_right_eq_some, Option.some.injEq] at hstep
  obtain ⟨⟨hpos, hnobody⟩, rfl⟩ := hstep
  have hnone := tally_sleeping_eq_zero hnobody
  refine ⟨⟨h.history, h.length, h.stop_iff, fun hsome => ?_, h.awake⟩, ?_⟩
  · exact absurd hnone hsome.ne'
  · simp only [cost, workers, tasks]
    omega

lemma cost_step {m : Move κ} (h : s.Inv threadCount) (hstep : s.step m = some t) :
    t.Inv threadCount ∧ t.cost ≤ s.cost + earn threadCount m ∧
      (Works m → t.cost < s.cost + earn threadCount m) := by
  -- A step of those who work earns nothing.
  have hworks : t.Inv threadCount ∧ t.cost < s.cost → t.Inv threadCount ∧
      t.cost ≤ s.cost + earn threadCount m ∧ (Works m → t.cost < s.cost + earn threadCount m) :=
    fun ⟨hinv, hless⟩ => ⟨hinv, by omega, fun _ => by omega⟩
  have hhistory : ∀ {m}, s.advance m = some t → t.history.Inv := by
    intro m hadvance
    obtain ⟨u, hu, rfl⟩ := Option.map_eq_some_iff.mp hadvance
    exact h.history.step hu
  cases m with
  | addTask function =>
    obtain ⟨hinv, hle⟩ := h.addTask hstep
    exact ⟨hinv, hle, False.elim⟩
  | notifyOne w => exact hworks (h.notifyOne hstep)
  | notifyNone => exact hworks (h.notifyNone hstep)
  | destroy =>
    obtain ⟨hinv, hcost⟩ := h.destroy hstep
    exact ⟨hinv, hcost.le, False.elim⟩
  | notifyAll => exact hworks (h.notifyAll hstep)
  | join => exact hworks (h.join hstep)
  | takeTask w =>
    obtain ⟨new, hadvances⟩ := advances_takeTask hstep
    exact hworks (h.advances hadvances (hhistory hstep))
  | call w =>
    obtain ⟨old, new, hadvances⟩ := advances_call hstep
    exact hworks (h.advances hadvances (hhistory hstep))
  | finish w =>
    obtain ⟨old, new, hadvances⟩ := advances_finish hstep
    exact hworks (h.advances hadvances (hhistory hstep))
  | wake w =>
    obtain ⟨hinv, hcost, -⟩ := h.wake hstep
    exact ⟨hinv, hcost.le, False.elim⟩

/-! ### A standstill -/

/-- Nobody who works can go on. -/
def Still (s : NotifiedPool κ) : Prop := ∀ m, Works m → s.step m = none

lemma Still.worker (h : s.Still) {worker : WorkerState κ} (hw : s.workers[w]? = some worker) :
    worker = .asleep ∨ worker = .exited := by
  cases worker with
  | ready =>
    have hstep := h (.takeTask w) trivial
    simp [step, advance, PoolHistory.step, hw] at hstep
  | asleep => exact .inl rfl
  | holding task =>
    have hstep := h (.call w) trivial
    simp [step, advance, PoolHistory.step, hw] at hstep
  | running task =>
    have hstep := h (.finish w) trivial
    simp [step, advance, PoolHistory.step, hw] at hstep
  | exited => exact .inr rfl

lemma Still.notifying (h : s.Still) : s.notifying = 0 := by
  by_contra hne
  have hpos := Nat.pos_of_ne_zero hne
  by_cases hany : s.workers.any (·.isAsleep)
  · obtain ⟨worker, hmem, hasleep⟩ := List.any_eq_true.mp hany
    obtain ⟨w, hw⟩ := List.mem_iff_getElem?.mp hmem
    have hstep := h (.notifyOne w) trivial
    cases worker <;> simp [WorkerState.isAsleep] at hasleep
    simp [step, hpos, advance, PoolHistory.step, hw] at hstep
  · have hstep := h .notifyNone trivial
    rw [step, if_pos ⟨hpos, hany⟩] at hstep
    cases hstep

lemma tally_waiting_eq_zero {workers : List (WorkerState κ)}
    (h : ∀ (w : ℕ) (worker : WorkerState κ), workers[w]? = some worker →
      worker = .asleep ∨ worker = .exited) : tally waiting workers = 0 := by
  rw [tally, List.sum_eq_zero]
  intro weight hmem
  obtain ⟨worker, hworker, rfl⟩ := List.mem_map.mp hmem
  obtain ⟨w, hw⟩ := List.mem_iff_getElem?.mp hworker
  rcases h w worker hw with rfl | rfl <;> rfl

/-- Where no worker sleeps, all of them have left. -/
lemma Still.all_exited (h : s.Still) (hnone : tally sleeping s.workers = 0) :
    ∀ worker ∈ s.workers, worker = .exited := by
  intro worker hmem
  obtain ⟨w, hw⟩ := List.mem_iff_getElem?.mp hmem
  rcases h.worker hw with rfl | rfl
  · have hzero := List.sum_eq_zero_iff.mp hnone 1 (List.mem_map.mpr ⟨.asleep, hmem, rfl⟩)
    exact absurd hzero one_ne_zero
  · rfl

lemma Still.tasks (h : s.Still) (hinv : s.Inv threadCount) (hcount : 0 < threadCount) :
    s.tasks = [] := by
  rcases Nat.eq_zero_or_pos (tally sleeping s.workers) with hnone | hsome
  · obtain ⟨worker, rest, hworkers⟩ : ∃ worker rest, s.workers = worker :: rest := by
      apply List.exists_cons_of_length_pos
      rw [hinv.length]
      exact hcount
    apply (hinv.history.exited 0 _).2
    have hexited := h.all_exited hnone worker (by simp [hworkers])
    rw [show s.history.pool.workers = worker :: rest from hworkers, List.getElem?_cons_zero,
      hexited]
  · have hnoticed := hinv.noticed hsome
    rw [h.notifying, tally_waiting_eq_zero fun w worker => h.worker] at hnoticed
    exact List.eq_nil_of_length_eq_zero (Nat.le_zero.mp hnoticed)

lemma Still.executed (h : s.Still) (hinv : s.Inv threadCount) (hcount : 0 < threadCount)
    {task : PoolTask κ} (hmem : task ∈ s.history.accepted) (hfunction : task.function.isSome) :
    ∃ w, (w, task) ∈ s.history.executed := by
  have horder := hinv.history.order
  rw [show s.history.pool.tasks = [] from h.tasks hinv hcount, List.append_nil] at horder
  rw [← horder] at hmem
  obtain ⟨⟨w, taken⟩, htaken, rfl⟩ := List.mem_map.mp hmem
  rcases hinv.history.settled w taken htaken hfunction with hexecuted | hholding | hrunning
  · exact ⟨w, hexecuted⟩
  · exact absurd (h.worker hholding) (by simp)
  · exact absurd (h.worker hrunning) (by simp)

lemma Still.destructor (h : s.Still) (hinv : s.Inv threadCount) :
    s.destructor = .alive ∨ s.destructor = .returned := by
  cases hdestructor : s.destructor with
  | alive => exact .inl rfl
  | notifying =>
    have hstep := h .notifyAll trivial
    simp [step, hdestructor] at hstep
  | joining =>
    have hexited := h.all_exited (hinv.awake (.inl hdestructor))
    have hstep := h .join trivial
    have hall : s.workers.all (·.isExited) = true := by
      rw [List.all_eq_true]
      intro worker hmem
      rw [hexited worker hmem]
      rfl
    rw [step, if_pos ⟨hdestructor, hall⟩] at hstep
    cases hstep
  | returned => exact .inr rfl

/-- Under every schedule the workers, the calls of `notify_one` and the destructor come to a
standstill: their steps are bounded by what is there to do and by what is added meanwhile. At a
standstill each accepted task has been executed, and the destructor has returned if it was called.
So no notification is lost to a task. -/
theorem accepted_settle (hcount : 0 < threadCount) (h : Reachable step (start threadCount) s)
    {ms : List (Move κ)} (hrun : run step s ms = some t) :
    ms.countP (fun m => Works m) ≤ s.cost + (ms.map (earn threadCount)).sum ∧
      (t.Still → (∀ task ∈ t.history.accepted, task.function.isSome →
          ∃ w, (w, task) ∈ t.history.executed) ∧
        t.tasks = [] ∧ (t.destructor = .alive ∨ t.destructor = .returned)) := by
  have hstep : ∀ (s : NotifiedPool κ) m t, s.Inv threadCount → s.step m = some t →
      t.Inv threadCount := fun s m t hs hm => (cost_step hs hm).1
  have hinv := h.invariant step hstep (inv_start threadCount)
  have hend := invariant_run step hstep hinv hrun
  have hcost := countP_add_cost_le_of_earn step (fun s m t => cost_step) hinv hrun
  refine ⟨(Nat.le_add_right _ _).trans hcost, fun hstill => ⟨?_, ?_, ?_⟩⟩
  · exact fun task hmem hfunction => hstill.executed hend hcount hmem hfunction
  · exact hstill.tasks hend hcount
  · exact hstill.destructor hend

/-- Both workers sleep when the task is added, and the notified one executes it. -/
def addedAsleep : List (Move Unit) := [.takeTask 0, .takeTask 1, .addTask (some ())]

def executedAndDestroyed : List (Move Unit) :=
  [.notifyOne 1, .takeTask 1, .call 1, .finish 1, .takeTask 1, .destroy, .notifyAll, .takeTask 0,
    .takeTask 1, .join]

/-- Where the workers have left and the destructor has returned, nobody has anything to do. -/
lemma still_of_returned (hexited : ∀ worker ∈ s.workers, worker = .exited)
    (hnotifying : s.notifying = 0) (hreturned : s.destructor = .returned) : s.Still := by
  have hat : ∀ (w : ℕ) (worker : WorkerState κ), s.history.pool.workers[w]? = some worker →
      worker = .exited :=
    fun w worker hw => hexited worker (List.mem_of_getElem? hw)
  intro m hworks
  cases m with
  | addTask | destroy | wake => exact hworks.elim
  | notifyOne | notifyNone => simp [step, hnotifying]
  | notifyAll | join => simp [step, hreturned]
  | takeTask w | call w | finish w =>
    simp only [step, advance, PoolHistory.step, Option.map_eq_none_iff]
    split
    · next hw => cases hat w _ hw
    · rfl

theorem accepted_settle_executedAndDestroyed :
    ∃ s t : NotifiedPool Unit, run step (start 2) addedAsleep = some s ∧
      run step s executedAndDestroyed = some t ∧
      executedAndDestroyed.countP (fun m => Works m) ≤ 7 + 4 ∧
      ∃ w, (w, ⟨0, some ()⟩) ∈ t.history.executed := by
  have hs : run step (start 2) addedAsleep = some
      ⟨⟨⟨[.asleep, .asleep], [⟨0, some ()⟩], false⟩, 1, [⟨0, some ()⟩], [], [], []⟩, 1, .alive⟩ :=
    rfl
  have ht : run step
      ⟨⟨⟨[.asleep, .asleep], [⟨0, some ()⟩], false⟩, 1, [⟨0, some ()⟩], [], [], []⟩, 1, .alive⟩
      executedAndDestroyed = some ⟨⟨⟨[.exited, .exited], [], true⟩, 1, [⟨0, some ()⟩], [],
        [(1, ⟨0, some ()⟩)], [(1, ⟨0, some ()⟩)]⟩, 0, .returned⟩ := rfl
  obtain ⟨hcount, hsettled⟩ := accepted_settle (by decide) ⟨_, hs⟩ ht
  refine ⟨_, _, hs, ht, hcount, ?_⟩
  exact (hsettled (still_of_returned (by simp [workers]) rfl rfl)).1 ⟨0, some ()⟩ (by simp) rfl

end NotifiedPool

end TinyWebServer
