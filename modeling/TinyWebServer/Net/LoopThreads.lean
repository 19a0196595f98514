import TinyWebServer.Library.Progress

/-!
# Starting and stopping the loop threads

`EventLoopThreadPool` starts one thread for each of its loops, waits until the loop is there, and
hands the loops out in turn. To stop, it tells every loop to quit and joins the threads. A thread
has its loop on its stack, so that a pointer to the loop is good only for as long as the thread is
in `ThreadFunc`. `Loop` clears the flag that `Quit` sets: a thread that is told before it is in its
loop is not told at all. And `Quit` looks at the loop again behind the flag, when the thread may
have gone through with it.
-/

namespace TinyWebServer

/-- Where a thread is in `ThreadFunc`: in the constructor of its loop, between the notification
and the loop, in the loop, behind it, and at the end. -/
inductive ThreadPhase where
  | starting | published | looping | returned | finished
  deriving DecidableEq

/-- A thread with the `quit_` of the loop on its stack. -/
structure EventLoopThread where
  phase : ThreadPhase
  quit : Bool
  deriving DecidableEq

namespace EventLoopThread

/-- `loop_` points to the loop. -/
def hasLoop (t : EventLoopThread) : Prop :=
  t.phase = .published ∨ t.phase = .looping ∨ t.phase = .returned

instance (t : EventLoopThread) : Decidable t.hasLoop := inferInstanceAs (Decidable (_ ∨ _))

/-- The next step of the thread. In the loop that is one test of the flag, with one turn if it is
not set. -/
def advance (t : EventLoopThread) : Option EventLoopThread :=
  match t.phase with
  | .starting => some { t with phase := .published }
  | .published => some { phase := .looping, quit := false }
  | .looping => some (if t.quit then { t with phase := .returned } else t)
  | .returned => some { t with phase := .finished }
  | .finished => none

/-- The flag of `Quit`. -/
def tell (t : EventLoopThread) : EventLoopThread := { t with quit := true }

end EventLoopThread

/-- Where the owner of the pool is. -/
inductive PoolCall where
  | idle
  /-- In `Start`, with so many threads to go. -/
  | starting (left : ℕ)
  /-- In `StartLoop`, which waits for the loop of the newest thread. -/
  | waiting (left : ℕ)
  /-- In the first loop of `Stop`. -/
  | quitting (index : ℕ)
  /-- In `Quit` behind the flag, where it asks the loop for its thread and wakes it. -/
  | waking (index : ℕ)
  /-- In the second loop of `Stop`. -/
  | joining (index : ℕ)
  deriving DecidableEq

structure LoopThreadPool where
  numThreads : ℤ
  threads : List EventLoopThread
  /-- The thread on whose stack each of `loops_` is. -/
  loops : List ℕ
  next : ℕ
  call : PoolCall

namespace LoopThreadPool

inductive Move where
  | setThreadNum (numThreads : ℤ)
  | start
  | stop
  | getNextLoop
  /-- The owner goes on with its call. -/
  | owner
  /-- A thread makes a step. -/
  | thread (index : ℕ)
  deriving DecidableEq

def new : LoopThreadPool := { numThreads := 0, threads := [], loops := [], next := 0, call := .idle }

/-- The loop that `GetNextLoop` gives out, where it is not the base loop. -/
def nextLoop (p : LoopThreadPool) : Option ℕ := p.loops[p.next]?

def proceed (p : LoopThreadPool) : Option LoopThreadPool :=
  match p.call with
  | .idle => none
  | .starting 0 => some { p with call := .idle }
  | .starting (left + 1) =>
    some { p with threads := p.threads ++ [⟨.starting, false⟩], call := .waiting left }
  | .waiting left =>
    if p.threads.getLast?.any (·.hasLoop) then
      some { p with loops := p.loops ++ [p.threads.length - 1], call := .starting left }
    else none
  | .quitting index =>
    match p.loops[index]? with
    | some loop =>
      some { p with threads := p.threads.modify loop .tell, call := .waking index }
    | none => some { p with call := .joining 0 }
  | .waking index => some { p with call := .quitting (index + 1) }
  | .joining index =>
    match p.threads[index]? with
    | some t => if t.phase = .finished then some { p with call := .joining (index + 1) } else none
    | none => some { p with threads := [], loops := [], next := 0, call := .idle }

def step (p : LoopThreadPool) : Move → Option LoopThreadPool
  | .setThreadNum numThreads =>
    if p.call = .idle then some { p with numThreads := numThreads } else none
  | .start =>
    if p.call = .idle then
      some (if p.numThreads ≤ 0 then p else { p with call := .starting p.numThreads.toNat })
    else none
  | .stop => if p.call = .idle then some { p with call := .quitting 0 } else none
  | .getNextLoop =>
    if p.call = .idle then
      some (if p.loops = [] then p else { p with next := (p.next + 1) % p.loops.length })
    else none
  | .owner => p.proceed
  | .thread index =>
    (p.threads[index]?).bind fun t => t.advance.map fun u =>
      { p with threads := p.threads.set index u }

/-! ### The steps of the owner -/

section proceed

variable {p : LoopThreadPool} {i left loop : ℕ}

lemma proceed_starting (h : p.call = .starting 0) : p.proceed = some { p with call := .idle } := by
  rw [proceed, h]

lemma proceed_create (h : p.call = .starting (left + 1)) : p.proceed =
    some { p with threads := p.threads ++ [⟨.starting, false⟩], call := .waiting left } := by
  rw [proceed, h]

lemma proceed_waiting (h : p.call = .waiting left) : p.proceed =
    if p.threads.getLast?.any (·.hasLoop) then
      some { p with loops := p.loops ++ [p.threads.length - 1], call := .starting left }
    else none := by
  rw [proceed, h]

lemma proceed_quitting (h : p.call = .quitting i) (hloop : p.loops[i]? = some loop) : p.proceed =
    some { p with threads := p.threads.modify loop .tell, call := .waking i } := by
  rw [proceed, h]
  simp only [hloop]

lemma proceed_waking (h : p.call = .waking i) :
    p.proceed = some { p with call := .quitting (i + 1) } := by
  rw [proceed, h]

lemma proceed_quitting_none (h : p.call = .quitting i) (hloop : p.loops[i]? = none) :
    p.proceed = some { p with call := .joining 0 } := by
  rw [proceed, h]
  simp only [hloop]

lemma proceed_joining {t : EventLoopThread} (h : p.call = .joining i)
    (ht : p.threads[i]? = some t) : p.proceed =
      if t.phase = .finished then some { p with call := .joining (i + 1) } else none := by
  rw [proceed, h]
  simp only [ht]

lemma proceed_joining_none (h : p.call = .joining i) (ht : p.threads[i]? = none) :
    p.proceed = some { p with threads := [], loops := [], next := 0, call := .idle } := by
  rw [proceed, h]
  simp only [ht]

end proceed

/-! ### What a thread does -/

end LoopThreadPool

namespace EventLoopThread

variable {t u : EventLoopThread}

/-- The loop is there, and nobody has told it to quit. -/
def Fresh (t : EventLoopThread) : Prop :=
  (t.phase = .published ∨ t.phase = .looping) ∧ t.quit = false

/-- The flag will be cleared, or has been. -/
def Doomed (t : EventLoopThread) : Prop :=
  t.phase = .published ∨ (t.phase = .looping ∧ t.quit = false)

instance (t : EventLoopThread) : Decidable t.Doomed := inferInstanceAs (Decidable (_ ∨ _))

lemma Fresh.hasLoop (h : t.Fresh) : t.hasLoop := h.1.imp_right Or.inl

/-- The steps that a thread has to make still, turns of the loop apart. -/
def cost (t : EventLoopThread) : ℕ :=
  match t.phase with
  | .starting => 4
  | .published => 3
  | .looping => 2
  | .returned => 1
  | .finished => 0

lemma advance_cases (h : t.advance = some u) :
    (t.phase = .starting ∧ u = ⟨.published, t.quit⟩) ∨
    (t.phase = .published ∧ u = ⟨.looping, false⟩) ∨
    (t.phase = .looping ∧ t.quit = false ∧ u = t) ∨
    (t.phase = .looping ∧ t.quit = true ∧ u = ⟨.returned, true⟩) ∨
    (t.phase = .returned ∧ u = ⟨.finished, t.quit⟩) := by
  obtain ⟨phase, quit⟩ := t
  cases phase <;> cases quit <;> simp_all [advance]

/-- A thread that has its loop and was not told goes on with it. -/
lemma Fresh.advance (ht : t.Fresh) (h : t.advance = some u) : u.Fresh := by
  obtain ⟨hphase, hquit⟩ := ht
  rcases advance_cases h with ⟨h, -⟩ | ⟨-, rfl⟩ | ⟨h, -, rfl⟩ | ⟨-, h, -⟩ | ⟨h, -⟩
  · simp [h] at hphase
  · exact ⟨Or.inr rfl, rfl⟩
  · exact ⟨hphase, hquit⟩
  · simp [h] at hquit
  · simp [h] at hphase

/-- What was told too early is never told. -/
lemma Doomed.advance (ht : t.Doomed) (h : t.advance = some u) : u.Doomed := by
  rcases advance_cases h with ⟨h, -⟩ | ⟨-, rfl⟩ | ⟨h, hquit, rfl⟩ | ⟨h, hquit, -⟩ | ⟨h, -⟩
  · simp [Doomed, h] at ht
  · exact Or.inr ⟨rfl, rfl⟩
  · exact Or.inr ⟨h, hquit⟩
  · simp [Doomed, h, hquit] at ht
  · simp [Doomed, h] at ht

lemma not_doomed_advance (hstarted : t.phase ≠ .starting) (ht : ¬ t.Doomed)
    (h : t.advance = some u) : ¬ u.Doomed ∧ u.cost < t.cost := by
  rcases advance_cases h with ⟨hphase, -⟩ | ⟨hphase, -⟩ | ⟨hphase, hquit, -⟩ |
    ⟨hphase, -, rfl⟩ | ⟨hphase, rfl⟩
  · exact absurd hphase hstarted
  · exact absurd (Or.inl hphase) ht
  · exact absurd (Or.inr ⟨hphase, hquit⟩) ht
  · simp [Doomed, cost, hphase]
  · simp [Doomed, cost, hphase]

lemma phase_advance_ne_starting (h : t.advance = some u) : u.phase ≠ .starting := by
  rcases advance_cases h with ⟨-, rfl⟩ | ⟨-, rfl⟩ | ⟨h, -, rfl⟩ | ⟨-, -, rfl⟩ | ⟨-, rfl⟩ <;>
    simp [*]

lemma phase_advance_ne_published (hstarted : t.phase ≠ .starting) (h : t.advance = some u) :
    u.phase ≠ .published := by
  rcases advance_cases h with ⟨hphase, -⟩ | ⟨-, rfl⟩ | ⟨hphase, -, rfl⟩ | ⟨-, -, rfl⟩ | ⟨-, rfl⟩
  · exact absurd hphase hstarted
  · simp
  · simp [hphase]
  · simp
  · simp

/-- A thread that is not through makes a step. -/
lemma exists_advance (h : t.phase ≠ .finished) : ∃ u, t.advance = some u := by
  obtain ⟨phase, quit⟩ := t
  cases phase <;> simp_all [advance]

end EventLoopThread

namespace PoolCall

/-- The thread that `StartLoop` waits for has no entry in `loops_` yet. -/
@[simp] def awaited : PoolCall → ℕ
  | .waiting _ => 1
  | .idle | .starting _ | .quitting _ | .waking _ | .joining _ => 0

/-- How far `Stop` is with the threads. -/
@[simp] def index : PoolCall → ℕ
  | .quitting index => index
  | .waking index => index + 1
  | .joining index => index
  | .idle | .starting _ | .waiting _ => 0

/-- What the owner finds of the thread `i` of `n`. -/
def Finds (n i : ℕ) (t : EventLoopThread) : PoolCall → Prop
  | .idle => t.Fresh
  | .starting _ => t.Fresh
  | .waiting _ => t.Fresh ∨ (i + 1 = n ∧ t = ⟨.starting, false⟩)
  | .quitting index => t.phase ≠ .starting ∧ (index ≤ i → t.Fresh)
  | .waking index => t.phase ≠ .starting ∧ (index + 1 ≤ i → t.Fresh)
  | .joining index => t.phase ≠ .starting ∧ (i < index → t.phase = .finished)

open EventLoopThread in
lemma Finds.advance {call : PoolCall} {n i : ℕ} {t u : EventLoopThread} (ht : call.Finds n i t)
    (h : t.advance = some u) : call.Finds n i u := by
  cases call with
  | idle => exact Fresh.advance ht h
  | starting left => exact Fresh.advance ht h
  | waiting left =>
    obtain ht | ⟨-, rfl⟩ := ht
    · exact Or.inl (ht.advance h)
    · cases h
      exact Or.inl ⟨Or.inl rfl, rfl⟩
  | quitting index => exact ⟨phase_advance_ne_starting h, fun hi => (ht.2 hi).advance h⟩
  | waking index => exact ⟨phase_advance_ne_starting h, fun hi => (ht.2 hi).advance h⟩
  | joining index =>
    refine ⟨phase_advance_ne_starting h, fun hi => ?_⟩
    rw [EventLoopThread.advance, ht.2 hi] at h
    cases h

/-- `Stop` has set the flags of so many loops, and has not joined any thread. -/
def Telling (call : PoolCall) (told : ℕ) : Prop :=
  call = .quitting told ∨ ∃ index, call = .waking index ∧ told = index + 1

lemma Telling.ne_starting {call : PoolCall} {told n i : ℕ} {t : EventLoopThread}
    (h : call.Telling told) (ht : call.Finds n i t) : t.phase ≠ .starting := by
  rcases h with rfl | ⟨index, rfl, -⟩
  · exact ht.1
  · exact ht.1

end PoolCall

namespace LoopThreadPool

open EventLoopThread

/-! ### The pointers -/

/-- What holds of a pool whatever is called and however the threads get on. -/
structure Sound (p : LoopThreadPool) : Prop where
  next : p.loops = [] ∧ p.next = 0 ∨ p.next < p.loops.length
  loops : p.loops = List.range p.loops.length
  length : p.threads.length = p.loops.length + p.call.awaited
  index_le : p.call.index ≤ p.threads.length
  finds : ∀ i t, p.threads[i]? = some t → p.call.Finds p.threads.length i t

variable {p q : LoopThreadPool}

lemma sound_new : Sound new where
  next := Or.inl ⟨rfl, rfl⟩
  loops := rfl
  length := rfl
  index_le := le_rfl
  finds := by simp [new]

/-- One thread makes a step. -/
lemma Sound.thread (hp : p.Sound) {i : ℕ} {t u : EventLoopThread} (ht : p.threads[i]? = some t)
    (hu : t.advance = some u) : Sound { p with threads := p.threads.set i u } where
  next := hp.next
  loops := hp.loops
  length := by simpa using hp.length
  index_le := by simpa using hp.index_le
  finds := by
    intro j v hv
    rw [List.getElem?_set] at hv
    rw [List.length_set]
    split_ifs at hv with hij hlt
    · cases hv
      subst hij
      exact (hp.finds i t ht).advance hu
    · exact hp.finds j v hv

lemma Sound.getElem?_loops (hp : p.Sound) {i loop : ℕ} (h : p.loops[i]? = some loop) :
    loop = i ∧ i < p.loops.length := by
  have hlt := (List.getElem?_eq_some_iff.mp h).1
  rw [hp.loops, List.getElem?_range hlt] at h
  exact ⟨(Option.some.inj h).symm, hlt⟩

/-- The pool has made another thread. -/
lemma Sound.create (hp : p.Sound) {left : ℕ} (hcall : p.call = .starting (left + 1)) :
    Sound { p with threads := p.threads ++ [⟨.starting, false⟩], call := .waiting left } where
  next := hp.next
  loops := hp.loops
  length := by
    have hlength := hp.length
    rw [hcall] at hlength
    simpa using hlength
  index_le := Nat.zero_le _
  finds := by
    intro i t ht
    rw [List.getElem?_append] at ht
    split_ifs at ht with hlt
    · have hfresh := hp.finds i t ht
      rw [hcall] at hfresh
      exact Or.inl hfresh
    · have hi := (List.getElem?_eq_some_iff.mp ht).1
      rw [List.length_singleton] at hi
      have hzero : i - p.threads.length = 0 := by omega
      rw [hzero] at ht
      cases ht
      refine Or.inr ⟨?_, rfl⟩
      rw [List.length_append, List.length_singleton]
      omega

/-- The thread that was waited for has its loop. -/
lemma Sound.started (hp : p.Sound) {left : ℕ} (hcall : p.call = .waiting left)
    (hloop : p.threads.getLast?.any (·.hasLoop)) :
    Sound { p with loops := p.loops ++ [p.threads.length - 1], call := .starting left } := by
  have hlength := hp.length
  rw [hcall, PoolCall.awaited] at hlength
  constructor
  · right
    rcases hp.next with ⟨-, hnext⟩ | hnext
    · simp [hnext]
    · simp only [List.length_append]
      omega
  · rw [hlength, Nat.add_sub_cancel, List.length_append, List.length_singleton, List.range_succ,
      ← hp.loops]
  · simpa using hlength
  · exact Nat.zero_le _
  · intro i t ht
    have hfinds := hp.finds i t ht
    rw [hcall] at hfinds
    rcases hfinds with hfresh | ⟨hi, rfl⟩
    · exact hfresh
    · have hlast : p.threads.getLast? = some ⟨.starting, false⟩ := by
        rw [List.getLast?_eq_getElem?, ← hi, Nat.add_sub_cancel, ht]
      rw [hlast] at hloop
      simp [hasLoop] at hloop

/-- A loop is told to quit. -/
lemma Sound.tell (hp : p.Sound) {i loop : ℕ} (hcall : p.call = .quitting i)
    (hloop : p.loops[i]? = some loop) :
    Sound { p with threads := p.threads.modify loop .tell, call := .waking i } := by
  have hlength := hp.length
  rw [hcall, PoolCall.awaited] at hlength
  obtain ⟨rfl, hlt⟩ := hp.getElem?_loops hloop
  refine ⟨hp.next, hp.loops, by simpa using hlength, ?_, ?_⟩
  · simp only [PoolCall.index, List.length_modify]
    omega
  · intro j t ht
    rw [List.getElem?_modify] at ht
    obtain ⟨u, hu, rfl⟩ := Option.map_eq_some_iff.mp ht
    have hfinds := hp.finds j u hu
    rw [hcall] at hfinds
    by_cases hj : loop = j
    · rw [if_pos hj]
      exact ⟨hfinds.1, fun h => absurd h (by omega)⟩
    · rw [if_neg hj]
      exact ⟨hfinds.1, fun h => hfinds.2 (by omega)⟩

/-- `Start` and `Stop` go on. -/
lemma Sound.proceed (hp : p.Sound) (h : p.proceed = some q) : q.Sound := by
  have hlength := hp.length
  have hindex := hp.index_le
  have hfinds := hp.finds
  cases hcall : p.call with
  | idle =>
    rw [LoopThreadPool.proceed, hcall] at h
    cases h
  | starting left =>
    cases left with
    | zero =>
      rw [proceed_starting hcall] at h
      rw [hcall] at hlength hfinds
      cases h
      exact ⟨hp.next, hp.loops, hlength, Nat.zero_le _, hfinds⟩
    | succ left =>
      rw [proceed_create hcall] at h
      cases h
      exact hp.create hcall
  | waiting left =>
    rw [proceed_waiting hcall] at h
    split_ifs at h with hloop
    cases h
    exact hp.started hcall hloop
  | quitting i =>
    cases hloop : p.loops[i]? with
    | some loop =>
      rw [proceed_quitting hcall hloop] at h
      cases h
      exact hp.tell hcall hloop
    | none =>
      rw [proceed_quitting_none hcall hloop] at h
      rw [hcall] at hlength hfinds
      cases h
      exact ⟨hp.next, hp.loops, hlength, Nat.zero_le _,
        fun j t ht => ⟨(hfinds j t ht).1, fun hj => absurd hj (Nat.not_lt_zero j)⟩⟩
  | waking i =>
    rw [proceed_waking hcall] at h
    rw [hcall] at hlength hindex hfinds
    cases h
    exact ⟨hp.next, hp.loops, hlength, hindex, hfinds⟩
  | joining i =>
    cases hthread : p.threads[i]? with
    | some t =>
      rw [proceed_joining hcall hthread] at h
      rw [hcall] at hlength hfinds
      split_ifs at h with hphase
      cases h
      have hlt := (List.getElem?_eq_some_iff.mp hthread).1
      refine ⟨hp.next, hp.loops, hlength, hlt, fun j u hu => ⟨(hfinds j u hu).1, fun hj => ?_⟩⟩
      rcases Nat.lt_succ_iff_lt_or_eq.mp hj with hlt | rfl
      · exact (hfinds j u hu).2 hlt
      · cases hthread.symm.trans hu
        exact hphase
    | none =>
      rw [proceed_joining_none hcall hthread] at h
      cases h
      exact ⟨Or.inl ⟨rfl, rfl⟩, rfl, rfl, Nat.zero_le _, by simp⟩

/-- Whatever is called, and whichever thread makes a step. -/
lemma Sound.step (hp : p.Sound) {m : Move} (h : p.step m = some q) : q.Sound := by
  have hlength := hp.length
  have hfinds := hp.finds
  cases m with
  | setThreadNum numThreads =>
    rw [LoopThreadPool.step] at h
    split_ifs at h
    cases h
    exact ⟨hp.next, hp.loops, hlength, hp.index_le, hfinds⟩
  | start =>
    rw [LoopThreadPool.step] at h
    split_ifs at h with hcall hnone
    · cases h
      exact hp
    · cases h
      rw [hcall] at hlength hfinds
      exact ⟨hp.next, hp.loops, hlength, Nat.zero_le _, hfinds⟩
  | stop =>
    rw [LoopThreadPool.step] at h
    split_ifs at h with hcall
    cases h
    rw [hcall] at hlength hfinds
    refine ⟨hp.next, hp.loops, hlength, Nat.zero_le _, fun i t ht => ⟨?_, fun _ => hfinds i t ht⟩⟩
    intro hphase
    have hfresh : t.Fresh := hfinds i t ht
    simp [Fresh, hphase] at hfresh
  | getNextLoop =>
    rw [LoopThreadPool.step] at h
    split_ifs at h with hcall hnil
    · cases h
      exact hp
    · cases h
      refine ⟨Or.inr ?_, hp.loops, hlength, hp.index_le, hfinds⟩
      exact Nat.mod_lt _ (List.length_pos_of_ne_nil hnil)
  | owner => exact hp.proceed h
  | thread i =>
    rw [LoopThreadPool.step] at h
    obtain ⟨t, ht, h⟩ := Option.bind_eq_some_iff.mp h
    obtain ⟨u, hu, rfl⟩ := Option.map_eq_some_iff.mp h
    exact hp.thread ht hu

lemma Sound.of_reachable (h : Runs.Reachable LoopThreadPool.step new p) : p.Sound :=
  h.invariant _ (fun _ _ _ hp hstep => hp.step hstep) sound_new

/-- The loop that the owner is about to use. -/
def uses (p : LoopThreadPool) : Option ℕ :=
  match p.call with
  | .idle => p.nextLoop
  | .quitting index => p.loops[index]?
  | .starting _ | .waiting _ | .waking _ | .joining _ => none

/-- The owner goes on with its call, or a thread makes a step. -/
def Inner : Move → Prop
  | .owner => True
  | .thread _ => True
  | .setThreadNum _ | .start | .stop | .getNextLoop => False

lemma inner_cases {m : Move} (hm : Inner m) (h : p.step m = some q) :
    p.proceed = some q ∨ ∃ i t u, p.threads[i]? = some t ∧ t.advance = some u ∧
      q = { p with threads := p.threads.set i u } := by
  cases m with
  | owner => exact Or.inl h
  | thread i =>
    rw [LoopThreadPool.step] at h
    obtain ⟨t, ht, h⟩ := Option.bind_eq_some_iff.mp h
    obtain ⟨u, hu, rfl⟩ := Option.map_eq_some_iff.mp h
    exact Or.inr ⟨i, t, u, ht, hu, rfl⟩
  | setThreadNum _ => exact hm.elim
  | start => exact hm.elim
  | stop => exact hm.elim
  | getNextLoop => exact hm.elim

lemma proceed_idle (hidle : p.call = .idle) : p.proceed = none := by
  rw [LoopThreadPool.proceed, hidle]

/-- `Quit` is not through with a loop that has gone with the stack of its thread. -/
def Dangles (p : LoopThreadPool) : Prop :=
  ∃ i loop t, p.call = .waking i ∧ p.loops[i]? = some loop ∧ p.threads[loop]? = some t ∧ ¬ t.hasLoop

/-- A thread goes through its loop as soon as the flag is set. -/
lemma exists_dangling (hp : p.Sound) (hidle : p.call = .idle) (hsome : p.threads ≠ []) :
    ∃ ms q, (∀ m ∈ ms, Inner m) ∧ Runs.run LoopThreadPool.step p (.stop :: ms) = some q ∧
      q.Dangles := by
  obtain ⟨numThreads, threads, loops, next, call⟩ := p
  obtain ⟨t, ts, rfl⟩ := List.exists_cons_of_ne_nil hsome
  subst hidle
  have hlength : (t :: ts).length = loops.length := hp.length
  have hloops : loops = List.range loops.length := hp.loops
  have hloop : loops[0]? = some 0 := by
    rw [hloops, List.getElem?_range (by rw [← hlength]; exact Nat.succ_pos _)]
  have hfresh : t.Fresh := hp.finds 0 t rfl
  have hlooping : t.advance = some ⟨.looping, false⟩ := by
    obtain ⟨phase, quit⟩ := t
    obtain ⟨rfl | rfl, rfl⟩ := hfresh <;> rfl
  refine ⟨[.thread 0, .owner, .thread 0, .thread 0],
    ⟨numThreads, ⟨.finished, true⟩ :: ts, loops, next, .waking 0⟩, ?_, ?_,
    0, 0, ⟨.finished, true⟩, rfl, hloop, rfl, by decide⟩
  · simp [Inner]
  · simp only [Runs.run, LoopThreadPool.step, LoopThreadPool.proceed, List.getElem?_cons_zero,
      Option.bind_some, hlooping, Option.map_some, List.set_cons_zero, hloop, if_true]
    rfl

/-- No thread has been started, and the owner is at most in `Stop`. -/
structure Empty (p : LoopThreadPool) : Prop where
  loops : p.loops = []
  threads : p.threads = []
  call : p.call = .idle ∨ (∃ i, p.call = .quitting i) ∨ ∃ i, p.call = .joining i

lemma Empty.step (hp : p.Empty) {m : Move} (hm : Inner m)
    (h : p.step m = some q) : q.Empty := by
  rcases inner_cases hm h with h | ⟨i, t, u, ht, -, -⟩
  · rcases hp.call with hcall | ⟨i, hcall⟩ | ⟨i, hcall⟩
    · rw [proceed_idle hcall] at h
      cases h
    · rw [proceed_quitting_none hcall (by simp [hp.loops])] at h
      cases h
      exact ⟨hp.loops, hp.threads, Or.inr (Or.inr ⟨0, rfl⟩)⟩
    · rw [proceed_joining_none hcall (by simp [hp.threads])] at h
      cases h
      exact ⟨rfl, rfl, Or.inl rfl⟩
  · simp [hp.threads] at ht

/-- Without threads `Stop` is through at once. -/
lemma not_dangles_of_nil (hp : p.Sound) (hidle : p.call = .idle) (hnil : p.threads = [])
    {ms : List Move} (hms : ∀ m ∈ ms, Inner m)
    (h : Runs.run LoopThreadPool.step p (.stop :: ms) = some q) : ¬ q.Dangles := by
  have hloops : p.loops = [] := by
    have hlength := hp.length
    rw [hidle, hnil, List.length_nil, PoolCall.awaited, Nat.add_zero] at hlength
    exact List.eq_nil_of_length_eq_zero hlength.symm
  have hstop : p.step .stop = some { p with call := .quitting 0 } := if_pos hidle
  rw [Runs.run, hstop, Option.bind_some] at h
  have hstart : Empty { p with call := .quitting 0 } :=
    ⟨hloops, hnil, Or.inr (Or.inl ⟨0, rfl⟩)⟩
  have hempty := Runs.invariant_run_of LoopThreadPool.step
    (fun _ _ _ hm hu hstep => Empty.step hu hm hstep) hms hstart h
  rintro ⟨i, loop, t, -, hloop, -⟩
  simp [hempty.loops] at hloop

lemma Sound.alive_of_uses (hp : p.Sound) {loop : ℕ} (huses : p.uses = some loop) :
    ∃ t, p.threads[loop]? = some t ∧ t.hasLoop := by
  have hlength := hp.length
  have halive : ∀ i : ℕ, p.loops[i]? = some loop →
      (∀ t, p.call.Finds p.threads.length loop t → t.Fresh) →
      ∃ t, p.threads[loop]? = some t ∧ t.hasLoop := by
    intro i hi hfresh
    obtain ⟨rfl, hlt⟩ := hp.getElem?_loops hi
    obtain ⟨t, ht⟩ : ∃ t, p.threads[loop]? = some t :=
      ⟨_, List.getElem?_eq_getElem (by omega)⟩
    exact ⟨t, ht, (hfresh t (hp.finds loop t ht)).hasLoop⟩
  rw [uses] at huses
  cases hcall : p.call with
  | idle =>
    rw [hcall] at huses halive
    exact halive _ huses fun _ ht => ht
  | quitting i =>
    rw [hcall] at huses halive
    obtain ⟨hloop, -⟩ := hp.getElem?_loops huses
    exact halive i huses fun _ ht => ht.2 hloop.ge
  | starting left => simp [hcall] at huses
  | waiting left => simp [hcall] at huses
  | waking i => simp [hcall] at huses
  | joining i => simp [hcall] at huses

lemma Sound.nextLoop_ne_none (hp : p.Sound) (hidle : p.call = .idle) (hsome : p.threads ≠ []) :
    p.nextLoop ≠ none := by
  have hlength := hp.length
  rw [hidle, PoolCall.awaited, Nat.add_zero] at hlength
  rw [nextLoop, ne_eq, List.getElem?_eq_none_iff, not_le]
  rcases hp.next with ⟨hnil, -⟩ | hnext
  · rw [hnil, List.length_nil, List.length_eq_zero_iff] at hlength
    exact absurd hlength hsome
  · exact hnext

/-- The last step of `Stop` comes behind the end of every thread. -/
lemma Sound.finished_of_joined (hp : p.Sound) {i : ℕ} (hcall : p.call = .joining i)
    (hproceed : p.proceed = some q) (hidle : q.call = .idle) {t : EventLoopThread}
    (ht : t ∈ p.threads) : t.phase = .finished := by
  have hfinds := hp.finds
  rw [hcall] at hfinds
  cases hthread : p.threads[i]? with
  | some u =>
    rw [proceed_joining hcall hthread] at hproceed
    split_ifs at hproceed
    cases hproceed
    cases hidle
  | none =>
    obtain ⟨j, hj⟩ := List.mem_iff_getElem?.mp ht
    have hlt := (List.getElem?_eq_some_iff.mp hj).1
    exact (hfinds j t hj).2 (hlt.trans_le (List.getElem?_eq_none_iff.mp hthread))

/-- However the threads get on, and however often the pool is started and stopped: a loop that
`GetNextLoop` gives out or that `Stop` calls `Quit` on is on the stack of a thread that is in
`ThreadFunc`, `GetNextLoop` finds one when there are threads, and no thread goes away before it is
through. But where there are threads, `Stop` may find the loop gone before `Quit` is through with
it. -/
theorem loops_are_alive (h : Runs.Reachable LoopThreadPool.step new p) :
    (∀ loop, p.uses = some loop → ∃ t, p.threads[loop]? = some t ∧ t.hasLoop) ∧
    (p.call = .idle → p.threads ≠ [] → p.nextLoop ≠ none) ∧
    (∀ i q, p.call = .joining i → p.proceed = some q → q.call = .idle →
      ∀ t ∈ p.threads, t.phase = .finished) ∧
    (p.call = .idle → ((∃ ms q, (∀ m ∈ ms, Inner m) ∧
      Runs.run LoopThreadPool.step p (.stop :: ms) = some q ∧ q.Dangles) ↔ p.threads ≠ [])) := by
  have hp := Sound.of_reachable h
  refine ⟨fun _ => hp.alive_of_uses, hp.nextLoop_ne_none,
    fun _ _ hcall hproceed hidle _ => hp.finished_of_joined hcall hproceed hidle, fun hidle => ?_⟩
  constructor
  · rintro ⟨ms, q, hms, hrun, hdangles⟩ hnil
    exact not_dangles_of_nil hp hidle hnil hms hrun hdangles
  · exact exists_dangling hp hidle

/-- A pool of two loops that has been started, stopped and started again. -/
theorem loops_are_alive_twice :
    ∃ p, Runs.Reachable LoopThreadPool.step new p ∧ p.uses = some 1 ∧
      (∃ t, p.threads[1]? = some t ∧ t.hasLoop) ∧ p.nextLoop ≠ none ∧
      ∃ ms q, (∀ m ∈ ms, Inner m) ∧ Runs.run LoopThreadPool.step p (.stop :: ms) = some q ∧
        q.Dangles := by
  have hrun : Runs.Reachable LoopThreadPool.step new
      ⟨2, [⟨.looping, false⟩, ⟨.published, false⟩], [0, 1], 1, .idle⟩ := by
    refine ⟨[.setThreadNum 2, .start, .owner, .thread 0, .owner, .owner, .thread 1, .owner, .owner,
      .thread 0, .thread 1, .stop, .owner, .owner, .owner, .owner, .thread 0, .thread 0, .thread 1,
      .thread 1, .owner, .owner, .owner, .owner, .start, .owner, .thread 0, .owner, .owner,
      .thread 1, .owner, .thread 0, .owner, .getNextLoop], ?_⟩
    rfl
  obtain ⟨hlive, hnext, -, hdangles⟩ := loops_are_alive hrun
  exact ⟨_, hrun, rfl, hlive 1 rfl, hnext rfl (by decide), (hdangles rfl).mpr (by decide)⟩

/-! ### Stopping -/

/-- Thread `k` has been told too early, and the owner waits for it or is going to. -/
structure Trapped (p : LoopThreadPool) (k : ℕ) : Prop where
  stopping : (∃ told, p.call.Telling told ∧ k < told) ∨ ∃ i ≤ k, p.call = .joining i
  doomed : ∃ t, p.threads[k]? = some t ∧ t.Doomed

lemma Trapped.not_idle {k : ℕ} (h : p.Trapped k) : p.call ≠ .idle := by
  rcases h.stopping with ⟨told, hcall | ⟨i, hcall, -⟩, -⟩ | ⟨i, -, hcall⟩ <;> simp [hcall]

lemma Trapped.proceed (hp : p.Sound) {k : ℕ} (hk : p.Trapped k) (h : p.proceed = some q) :
    q.Trapped k := by
  obtain ⟨t, ht, hdoomed⟩ := hk.doomed
  rcases hk.stopping with ⟨told, hcall | ⟨i, hcall, rfl⟩, hlt⟩ | ⟨i, hle, hcall⟩
  · cases hloop : p.loops[told]? with
    | some loop =>
      rw [proceed_quitting hcall hloop] at h
      cases h
      obtain ⟨rfl, -⟩ := hp.getElem?_loops hloop
      refine ⟨Or.inl ⟨loop + 1, Or.inr ⟨loop, rfl, rfl⟩, by omega⟩, t, ?_, hdoomed⟩
      simp [ht, hlt.ne']
    | none =>
      rw [proceed_quitting_none hcall hloop] at h
      cases h
      exact ⟨Or.inr ⟨0, Nat.zero_le k, rfl⟩, t, ht, hdoomed⟩
  · rw [proceed_waking hcall] at h
    cases h
    exact ⟨Or.inl ⟨i + 1, Or.inl rfl, hlt⟩, t, ht, hdoomed⟩
  · cases hthread : p.threads[i]? with
    | some u =>
      rw [proceed_joining hcall hthread] at h
      split_ifs at h with hphase
      cases h
      have hne : i ≠ k := by
        rintro rfl
        cases hthread.symm.trans ht
        simp [Doomed, hphase] at hdoomed
      exact ⟨Or.inr ⟨i + 1, by omega, rfl⟩, t, ht, hdoomed⟩
    | none =>
      have hi := List.getElem?_eq_none_iff.mp hthread
      have hk := (List.getElem?_eq_some_iff.mp ht).1
      omega

/-- The owner does not get out of it. -/
lemma Trapped.step (hp : p.Sound) {k : ℕ} (hk : p.Trapped k) {m : Move} (hm : Inner m)
    (h : p.step m = some q) : q.Trapped k := by
  rcases inner_cases hm h with h | ⟨i, t, u, ht, hu, rfl⟩
  · exact hk.proceed hp h
  · obtain ⟨v, hv, hdoomed⟩ := hk.doomed
    refine ⟨hk.stopping, ?_⟩
    by_cases hik : i = k
    · subst hik
      cases ht.symm.trans hv
      have hlt := (List.getElem?_eq_some_iff.mp hv).1
      exact ⟨u, List.getElem?_set_self hlt, hdoomed.advance hu⟩
    · exact ⟨v, by rw [List.getElem?_set_ne hik, hv], hdoomed⟩

lemma Trapped.run (hp : p.Sound) {k : ℕ} (hk : p.Trapped k) {ms : List Move}
    (hms : ∀ m ∈ ms, Inner m) (h : Runs.run LoopThreadPool.step p ms = some q) : q.Trapped k :=
  (Runs.invariant_run_of _ (P := fun p => p.Sound ∧ p.Trapped k)
    (fun _ _ _ hm hboth hstep => ⟨hboth.1.step hstep, hboth.2.step hboth.1 hm hstep⟩) hms
    ⟨hp, hk⟩ h).2

/-- `Stop` gets through: every thread that has been told is on its way out of its loop, and every
other one is in it. -/
structure Heard (p : LoopThreadPool) : Prop where
  stopping : (∃ told, p.call.Telling told ∧
      ∀ j t, p.threads[j]? = some t → t.phase ≠ .published ∧ (j < told → ¬ t.Doomed)) ∨
    ∃ i, p.call = .joining i ∧ ∀ t ∈ p.threads, ¬ t.Doomed

/-- The steps that the owner and the threads have to make still. -/
def cost (p : LoopThreadPool) : ℕ :=
  (p.threads.map EventLoopThread.cost).sum +
    match p.call with
    | .quitting i => 3 * p.threads.length + 2 - 2 * i
    | .waking i => 3 * p.threads.length + 1 - 2 * i
    | .joining i => p.threads.length + 1 - i
    | .idle | .starting _ | .waiting _ => 0

/-- What does not depend on the flag is as before. -/
lemma map_modify_tell {β : Type*} {f : EventLoopThread → β} (hf : ∀ t, f t.tell = f t)
    (ts : List EventLoopThread) (i : ℕ) : (ts.modify i .tell).map f = ts.map f := by
  apply List.ext_getElem?
  intro j
  rw [List.getElem?_map, List.getElem?_map, List.getElem?_modify, Option.map_eq_map,
    Option.map_map]
  congr 1
  funext t
  rw [Function.comp_apply]
  split_ifs
  · exact hf t
  · rfl

lemma sum_cost_set {ts : List EventLoopThread} {i : ℕ} {t u : EventLoopThread}
    (ht : ts[i]? = some t) (hu : u.cost < t.cost) :
    ((ts.set i u).map EventLoopThread.cost).sum < (ts.map EventLoopThread.cost).sum := by
  induction ts generalizing i with
  | nil => simp at ht
  | cons v ts ih =>
    cases i with
    | zero =>
      cases ht
      simpa using hu
    | succ i => simpa using ih ht

/-- As long as the owner is not through, it or the thread that it waits for makes a step that
counts. -/
lemma Heard.progress (hp : p.Sound) (h : p.Heard) :
    ∃ m q, Inner m ∧ p.step m = some q ∧ q.cost < p.cost := by
  have hlength := hp.length
  have hindex := hp.index_le
  rcases h.stopping with ⟨i, hcall | ⟨i, hcall, rfl⟩, -⟩ | ⟨i, hcall, hheard⟩
  · rw [hcall, PoolCall.awaited] at hlength
    rw [hcall, PoolCall.index] at hindex
    cases hloop : p.loops[i]? with
    | some loop =>
      have hlt := (hp.getElem?_loops hloop).2
      refine ⟨.owner, _, trivial, proceed_quitting hcall hloop, ?_⟩
      simp only [cost, hcall, map_modify_tell (f := EventLoopThread.cost) fun _ => rfl,
        List.length_modify]
      omega
    | none =>
      refine ⟨.owner, _, trivial, proceed_quitting_none hcall hloop, ?_⟩
      simp only [cost, hcall]
      omega
  · rw [hcall, PoolCall.index] at hindex
    refine ⟨.owner, _, trivial, proceed_waking hcall, ?_⟩
    simp only [cost, hcall]
    omega
  · rw [hcall, PoolCall.index] at hindex
    cases hthread : p.threads[i]? with
    | none =>
      refine ⟨.owner, _, trivial, proceed_joining_none hcall hthread, ?_⟩
      simp only [cost, hcall, List.map_nil, List.sum_nil]
      omega
    | some t =>
      by_cases hphase : t.phase = .finished
      · have hlt := (List.getElem?_eq_some_iff.mp hthread).1
        refine ⟨.owner, { p with call := .joining (i + 1) }, trivial, ?_, ?_⟩
        · exact (proceed_joining hcall hthread).trans (if_pos hphase)
        · simp only [cost, hcall]
          omega
      · obtain ⟨u, hu⟩ := exists_advance hphase
        have hstarted : t.phase ≠ .starting := by
          have hfinds := hp.finds i t hthread
          rw [hcall] at hfinds
          exact hfinds.1
        have hdoomed := hheard t (List.mem_of_getElem? hthread)
        refine ⟨.thread i, { p with threads := p.threads.set i u }, trivial, ?_, ?_⟩
        · rw [LoopThreadPool.step, hthread, Option.bind_some, hu, Option.map_some]
        · have hless := sum_cost_set hthread (not_doomed_advance hstarted hdoomed hu).2
          simp only [cost, hcall, List.length_set]
          omega

lemma Heard.proceed (hp : p.Sound) (h : p.Heard) (hq : p.proceed = some q) :
    q.call = .idle ∨ q.Heard := by
  rcases h.stopping with ⟨i, hcall | ⟨i, hcall, rfl⟩, hheard⟩ | ⟨i, hcall, hheard⟩
  · cases hloop : p.loops[i]? with
    | some loop =>
      rw [proceed_quitting hcall hloop] at hq
      cases hq
      obtain ⟨rfl, -⟩ := hp.getElem?_loops hloop
      refine Or.inr ⟨Or.inl ⟨loop + 1, Or.inr ⟨loop, rfl, rfl⟩, ?_⟩⟩
      intro j t ht
      rw [List.getElem?_modify] at ht
      obtain ⟨u, hu, rfl⟩ := Option.map_eq_some_iff.mp ht
      obtain ⟨hpublished, htold⟩ := hheard j u hu
      by_cases hj : loop = j
      · rw [if_pos hj]
        refine ⟨hpublished, fun _ => ?_⟩
        rintro (hphase | ⟨-, hquit⟩)
        · exact hpublished hphase
        · cases hquit
      · rw [if_neg hj]
        exact ⟨hpublished, fun hlt => htold (by omega)⟩
    | none =>
      rw [proceed_quitting_none hcall hloop] at hq
      cases hq
      have hlength := hp.length
      rw [hcall, PoolCall.awaited, Nat.add_zero] at hlength
      rw [List.getElem?_eq_none_iff, ← hlength] at hloop
      refine Or.inr ⟨Or.inr ⟨0, rfl, fun t ht => ?_⟩⟩
      obtain ⟨j, hj⟩ := List.mem_iff_getElem?.mp ht
      have hlt := (List.getElem?_eq_some_iff.mp hj).1
      exact (hheard j t hj).2 (hlt.trans_le hloop)
  · rw [proceed_waking hcall] at hq
    cases hq
    exact Or.inr ⟨Or.inl ⟨i + 1, Or.inl rfl, hheard⟩⟩
  · cases hthread : p.threads[i]? with
    | some t =>
      rw [proceed_joining hcall hthread] at hq
      split_ifs at hq
      cases hq
      exact Or.inr ⟨Or.inr ⟨i + 1, rfl, hheard⟩⟩
    | none =>
      rw [proceed_joining_none hcall hthread] at hq
      cases hq
      exact Or.inl rfl

lemma Heard.thread (hp : p.Sound) (h : p.Heard) {i : ℕ} {t u : EventLoopThread}
    (ht : p.threads[i]? = some t) (hu : t.advance = some u) :
    Heard { p with threads := p.threads.set i u } := by
  have hlt := (List.getElem?_eq_some_iff.mp ht).1
  have hfinds := hp.finds i t ht
  rcases h.stopping with ⟨k, hcall, hheard⟩ | ⟨k, hcall, hheard⟩
  · have hstarted := hcall.ne_starting hfinds
    refine ⟨Or.inl ⟨k, hcall, fun j v hv => ?_⟩⟩
    by_cases hij : i = j
    · subst hij
      cases (List.getElem?_set_self hlt).symm.trans hv
      exact ⟨phase_advance_ne_published hstarted hu,
        fun htold => (not_doomed_advance hstarted ((hheard i t ht).2 htold) hu).1⟩
    · exact hheard j v ((List.getElem?_set_ne hij).symm.trans hv)
  · rw [hcall] at hfinds
    refine ⟨Or.inr ⟨k, hcall, fun v hv => ?_⟩⟩
    rcases List.mem_or_eq_of_mem_set hv with hv | rfl
    · exact hheard v hv
    · exact (not_doomed_advance hfinds.1 (hheard t (List.mem_of_getElem? ht)) hu).1

/-- The call to `Stop` has come to its end, or it will. -/
def Ends (p : LoopThreadPool) : Prop := p.call = .idle ∨ p.Heard

lemma Ends.step (hp : p.Sound) (h : p.Ends) {m : Move} (hm : Inner m) (hstep : p.step m = some q) :
    q.Ends := by
  rcases inner_cases hm hstep with hstep | ⟨i, t, u, ht, hu, rfl⟩
  · rcases h with hidle | hheard
    · rw [proceed_idle hidle] at hstep
      cases hstep
    · exact hheard.proceed hp hstep
  · exact h.imp id fun hheard => hheard.thread hp ht hu

/-- A call that ends can be brought to its end from wherever it is. -/
lemma Ends.exists_run (hp : p.Sound) (h : p.Ends) :
    ∃ ms q, (∀ m ∈ ms, Inner m) ∧ Runs.run LoopThreadPool.step p ms = some q ∧ q.call = .idle := by
  have hprogress : ∀ p : LoopThreadPool, p.Sound ∧ p.Ends → ¬ p.call = .idle →
      ∃ m q, Inner m ∧ p.step m = some q ∧ (q.Sound ∧ q.Ends) ∧ q.cost < p.cost := by
    rintro p ⟨hp, h⟩ hidle
    obtain ⟨m, q, hm, hstep, hless⟩ := (h.resolve_left hidle).progress hp
    exact ⟨m, q, hm, hstep, ⟨hp.step hstep, h.step hp hm hstep⟩, hless⟩
  exact Runs.exists_run_of_progress LoopThreadPool.step hprogress ⟨hp, h⟩

/-- The owner can tell one thread after another before any of them makes a step. -/
lemma exists_run_quitting (hp : p.Sound) {i n : ℕ} (hcall : p.call = .quitting i)
    (hn : i + n ≤ p.threads.length) :
    ∃ q, Runs.run LoopThreadPool.step p (List.replicate (2 * n) .owner) = some q ∧
      q.call = .quitting (i + n) ∧
      q.threads.map EventLoopThread.phase = p.threads.map EventLoopThread.phase := by
  induction n generalizing p i with
  | zero => exact ⟨p, rfl, hcall, rfl⟩
  | succ n ih =>
    have hlength := hp.length
    rw [hcall, PoolCall.awaited, Nat.add_zero] at hlength
    have hloop : p.loops[i]? = some i := by
      rw [hp.loops, List.getElem?_range (by omega)]
    have hproceed := proceed_quitting hcall hloop
    have hwoken := proceed_waking
      (p := { p with threads := p.threads.modify i .tell, call := .waking i }) rfl
    obtain ⟨q, hrun, hq, hsame⟩ := ih ((hp.proceed hproceed).proceed hwoken) (i := i + 1) rfl
      (by rw [List.length_modify]; omega)
    refine ⟨q, ?_, ?_, hsame.trans (map_modify_tell (fun _ => rfl) p.threads i)⟩
    · rw [Nat.mul_succ, List.replicate_succ, List.replicate_succ, Runs.run, LoopThreadPool.step,
        hproceed, Option.bind_some, Runs.run, LoopThreadPool.step, hwoken, Option.bind_some, hrun]
    · rw [hq]
      congr 1
      omega

/-- `Stop` may wait for ever, if and only if there is a thread that is not in its loop yet when
`Stop` is called: that thread can be told before `Loop` clears the flag. -/
theorem stop_may_hang_iff (h : Runs.Reachable LoopThreadPool.step new p) (hidle : p.call = .idle) :
    (∃ ms q, (∀ m ∈ ms, Inner m) ∧ Runs.run LoopThreadPool.step p (.stop :: ms) = some q ∧
      ∀ ms' r, (∀ m ∈ ms', Inner m) → Runs.run LoopThreadPool.step q ms' = some r →
        r.call ≠ .idle) ↔
      ∃ t ∈ p.threads, t.phase = .published := by
  have hp := Sound.of_reachable h
  have hfinds := hp.finds
  rw [hidle] at hfinds
  have hstop : p.step .stop = some { p with call := .quitting 0 } := if_pos hidle
  have hsound := hp.step hstop
  constructor
  · rintro ⟨ms, q, hms, hrun, hhangs⟩
    by_contra hnone
    -- no thread is told too early, so that the call comes to its end from every state on its way
    have hends : Ends { p with call := .quitting 0 } := by
      refine Or.inr ⟨Or.inl ⟨0, Or.inl rfl, fun j t ht => ⟨fun hphase => ?_, fun hj => ?_⟩⟩⟩
      · exact hnone ⟨t, List.mem_of_getElem? ht, hphase⟩
      · exact absurd hj (Nat.not_lt_zero j)
    rw [Runs.run, hstop, Option.bind_some] at hrun
    have hboth := Runs.invariant_run_of LoopThreadPool.step (P := fun p => p.Sound ∧ p.Ends)
      (fun _ _ _ hm hb hstep => ⟨hb.1.step hstep, hb.2.step hb.1 hm hstep⟩) hms ⟨hsound, hends⟩ hrun
    obtain ⟨ms', r, hms', hrun', hr⟩ := hboth.2.exists_run hboth.1
    exact hhangs ms' r hms' hrun' hr
  · rintro ⟨t, hmem, hphase⟩
    obtain ⟨k, hk⟩ := List.mem_iff_getElem?.mp hmem
    have hlt := (List.getElem?_eq_some_iff.mp hk).1
    obtain ⟨q, hrun, hcall, hsame⟩ := exists_run_quitting hsound (i := 0) (n := k + 1) rfl
      (by simpa using hlt)
    have htold : q.threads[k]?.map EventLoopThread.phase = some .published := by
      rw [← List.getElem?_map, hsame, List.getElem?_map, hk, Option.map_some, hphase]
    obtain ⟨u, hu, hpublished⟩ := Option.map_eq_some_iff.mp htold
    have htrapped : q.Trapped k :=
      ⟨Or.inl ⟨_, Or.inl hcall, by omega⟩, u, hu, Or.inl hpublished⟩
    have hq : q.Sound := Runs.invariant_run _ (fun _ _ _ hp hstep => hp.step hstep) hsound hrun
    refine ⟨List.replicate (2 * (k + 1)) .owner, q, ?_, ?_, ?_⟩
    · intro m hm
      rw [(List.mem_replicate.mp hm).2]
      trivial
    · rw [Runs.run, hstop, Option.bind_some, hrun]
    · intro ms' r hms' hrun'
      exact (htrapped.run hq hms' hrun').not_idle

/-- One thread that has reached its loop, and one that has not. -/
theorem stop_may_hang_published :
    ∃ p, Runs.Reachable LoopThreadPool.step new p ∧
      ∃ ms q, (∀ m ∈ ms, Inner m) ∧ Runs.run LoopThreadPool.step p (.stop :: ms) = some q ∧
        ∀ ms' r, (∀ m ∈ ms', Inner m) → Runs.run LoopThreadPool.step q ms' = some r →
          r.call ≠ .idle := by
  have hrun : Runs.Reachable LoopThreadPool.step new
      ⟨2, [⟨.looping, false⟩, ⟨.published, false⟩], [0, 1], 0, .idle⟩ :=
    ⟨[.setThreadNum 2, .start, .owner, .thread 0, .owner, .owner, .thread 1, .owner, .thread 0,
      .owner], rfl⟩
  exact ⟨_, hrun, (stop_may_hang_iff hrun rfl).mpr ⟨⟨.published, false⟩, by simp, rfl⟩⟩

/-- Every thread has been told and has heard it, or all of them are gone. -/
def Closing (p : LoopThreadPool) : Prop :=
  (p.call = .idle ∧ p.threads = []) ∨ ∃ i, p.call = .joining i ∧ ∀ t ∈ p.threads, ¬ t.Doomed

lemma Closing.ends (h : p.Closing) : p.Ends := h.imp And.left fun hjoining => ⟨Or.inr hjoining⟩

/-- Now every step counts. -/
lemma Closing.step (hp : p.Sound) (h : p.Closing) {m : Move} (hm : Inner m)
    (hstep : p.step m = some q) : q.Closing ∧ q.cost < p.cost := by
  rcases h with ⟨hidle, hnil⟩ | ⟨i, hcall, hheard⟩
  · rcases inner_cases hm hstep with hstep | ⟨j, t, u, ht, -, -⟩
    · rw [proceed_idle hidle] at hstep
      cases hstep
    · simp [hnil] at ht
  · have hindex := hp.index_le
    have hfinds := hp.finds
    rw [hcall] at hindex hfinds
    rw [PoolCall.index] at hindex
    rcases inner_cases hm hstep with hstep | ⟨j, t, u, ht, hu, rfl⟩
    · cases hthread : p.threads[i]? with
      | some t =>
        have hlt := (List.getElem?_eq_some_iff.mp hthread).1
        rw [proceed_joining hcall hthread] at hstep
        split_ifs at hstep
        cases hstep
        refine ⟨Or.inr ⟨i + 1, rfl, hheard⟩, ?_⟩
        simp only [cost, hcall]
        omega
      | none =>
        rw [proceed_joining_none hcall hthread] at hstep
        cases hstep
        refine ⟨Or.inl ⟨rfl, rfl⟩, ?_⟩
        simp only [cost, hcall, List.map_nil, List.sum_nil]
        omega
    · have hdoomed := hheard t (List.mem_of_getElem? ht)
      obtain ⟨hkept, hless⟩ := not_doomed_advance (hfinds j t ht).1 hdoomed hu
      refine ⟨Or.inr ⟨i, hcall, fun v hv => ?_⟩, ?_⟩
      · rcases List.mem_or_eq_of_mem_set hv with hv | rfl
        · exact hheard v hv
        · exact hkept
      · have hsum := sum_cost_set ht hless
        simp only [cost, hcall, List.length_set]
        omega

/-- Once every thread has been told, `Stop` can come to its end if and only if no flag has been
cleared or is going to be, and then it does, whoever makes the steps. -/
theorem stop_returns_iff (h : Runs.Reachable LoopThreadPool.step new p) {i : ℕ}
    (hcall : p.call = .joining i) :
    ((∃ ms q, (∀ m ∈ ms, Inner m) ∧ Runs.run LoopThreadPool.step p ms = some q ∧
        q.call = .idle) ↔ ∀ t ∈ p.threads, ¬ t.Doomed) ∧
      ((∀ t ∈ p.threads, ¬ t.Doomed) → ∀ ms q, (∀ m ∈ ms, Inner m) →
        Runs.run LoopThreadPool.step p ms = some q →
          ms.length ≤ p.cost ∧ (q.call = .idle ∨ ∃ m r, Inner m ∧ q.step m = some r)) := by
  have hp := Sound.of_reachable h
  refine ⟨⟨?_, fun hheard => ?_⟩, fun hheard ms q hms hrun => ?_⟩
  · rintro ⟨ms, q, hms, hrun, hidle⟩ t hmem hdoomed
    obtain ⟨k, hk⟩ := List.mem_iff_getElem?.mp hmem
    have hle : i ≤ k := by
      by_contra hlt
      have hfinds := hp.finds k t hk
      rw [hcall] at hfinds
      simp [Doomed, hfinds.2 (not_le.mp hlt)] at hdoomed
    have htrapped : p.Trapped k := ⟨Or.inr ⟨i, hle, hcall⟩, t, hk, hdoomed⟩
    exact (htrapped.run hp hms hrun).not_idle hidle
  · exact Ends.exists_run hp (Or.inr ⟨Or.inr ⟨i, hcall, hheard⟩⟩)
  · have hclosing : p.Closing := Or.inr ⟨i, hcall, hheard⟩
    have hcost : ∀ (p : LoopThreadPool) m q, Inner m → p.Sound ∧ p.Closing → p.step m = some q →
        (q.Sound ∧ q.Closing) ∧ q.cost < p.cost := by
      rintro p m q hm ⟨hp, h⟩ hstep
      obtain ⟨hq, hless⟩ := h.step hp hm hstep
      exact ⟨⟨hp.step hstep, hq⟩, hless⟩
    have hboth := Runs.invariant_run_of _ (fun p m q hm hp hstep => (hcost p m q hm hp hstep).1)
      hms ⟨hp, hclosing⟩ hrun
    refine ⟨Runs.length_le_of_cost _ hcost hms ⟨hp, hclosing⟩ hrun, ?_⟩
    rcases hboth.2.ends with hidle | hheard'
    · exact Or.inl hidle
    · obtain ⟨m, r, hm, hstep, -⟩ := hheard'.progress hboth.1
      exact Or.inr ⟨m, r, hm, hstep⟩

/-- The only thread is told in its loop. -/
theorem stop_returns_looping :
    ∃ p ms q, Runs.Reachable LoopThreadPool.step new p ∧ p.call = .joining 0 ∧
      (∀ m ∈ ms, Inner m) ∧ Runs.run LoopThreadPool.step p ms = some q ∧ q.call = .idle := by
  have hrun : Runs.Reachable LoopThreadPool.step new
      ⟨1, [⟨.looping, true⟩], [0], 0, .joining 0⟩ :=
    ⟨[.setThreadNum 1, .start, .owner, .thread 0, .owner, .owner, .thread 0, .stop, .owner, .owner,
      .owner], rfl⟩
  obtain ⟨ms, q, hms, hms', hq⟩ := (stop_returns_iff hrun rfl).1.mpr (by decide)
  exact ⟨_, ms, q, hrun, rfl, hms, hms', hq⟩

/-! ### Handing the loops out -/

/-- The loops that `GetNextLoop` gives out along a run. -/
def handedOut (p : LoopThreadPool) : List Move → List ℕ
  | [] => []
  | m :: ms =>
    (if m = .getNextLoop then p.nextLoop.toList else []) ++
      (p.step m).elim [] fun q => q.handedOut ms

/-- No call to `Start` or `Stop` begins. -/
def Hands : Move → Prop
  | .getNextLoop | .thread _ | .setThreadNum _ => True
  | .start | .stop | .owner => False

lemma step_hands (hidle : p.call = .idle) {m : Move} (hm : Hands m) (h : p.step m = some q) :
    q.call = .idle ∧ q.loops = p.loops ∧
      (m = .getNextLoop → p.loops ≠ [] → q.next = (p.next + 1) % p.loops.length) ∧
      (¬ m = .getNextLoop → q.next = p.next) := by
  cases m with
  | setThreadNum n =>
    rw [LoopThreadPool.step, if_pos hidle] at h
    cases h
    simp [hidle]
  | getNextLoop =>
    rw [LoopThreadPool.step, if_pos hidle] at h
    cases h
    split_ifs with hnil <;> simp [hidle, hnil]
  | thread i =>
    rw [LoopThreadPool.step] at h
    obtain ⟨t, -, h⟩ := Option.bind_eq_some_iff.mp h
    obtain ⟨u, -, rfl⟩ := Option.map_eq_some_iff.mp h
    simp [hidle]
  | start => exact hm.elim
  | stop => exact hm.elim
  | owner => exact hm.elim

/-- The loops are given out in turn. -/
lemma handedOut_eq (hp : p.Sound) (hidle : p.call = .idle) (hsome : p.loops ≠ []) {ms : List Move}
    (hms : ∀ m ∈ ms, Hands m) (h : Runs.run LoopThreadPool.step p ms = some q) :
    p.handedOut ms =
      (List.range (p.handedOut ms).length).map fun j => (p.next + j) % p.loops.length := by
  induction ms generalizing p with
  | nil => rfl
  | cons m ms ih =>
    rw [List.forall_mem_cons] at hms
    obtain ⟨u, hu, hrest⟩ := Runs.run_cons _ h
    obtain ⟨huidle, hloops, hturn, hkeep⟩ := step_hands hidle hms.1 hu
    have hih := ih (hp.step hu) huidle (hloops ▸ hsome) hms.2 hrest
    rw [hloops] at hih
    have hpos := List.length_pos_of_ne_nil hsome
    have hnext : p.next < p.loops.length := by
      rcases hp.next with ⟨hnil, -⟩ | hnext
      · exact absurd hnil hsome
      · exact hnext
    rw [handedOut, hu, Option.elim_some]
    by_cases hm : m = .getNextLoop
    · have hgiven : p.nextLoop = some p.next := by
        rw [nextLoop, hp.loops, List.getElem?_range hnext]
      rw [if_pos hm, hgiven, Option.toList_some, List.singleton_append, List.length_cons,
        List.range_succ_eq_map, List.map_cons, List.map_map, Nat.add_zero, Nat.mod_eq_of_lt hnext]
      congr 1
      rw [hih, hturn hm hsome]
      simp only [List.length_map, List.length_range, Function.comp_def, Nat.mod_add_mod]
      congr 1
      funext j
      congr 1
      omega
    · rw [if_neg hm, List.nil_append, ← hkeep hm]
      exact hih

lemma mod_eq_iff_modEq {k next loop : ℕ} (hnext : next < k) (hloop : loop < k) (j : ℕ) :
    (next + j) % k = loop ↔ j ≡ loop + (k - next) [MOD k] := by
  have hsum : next + (loop + (k - next)) = loop + k := by omega
  have hshift : next + j ≡ next + (loop + (k - next)) [MOD k] ↔ (next + j) % k = loop := by
    rw [hsum, Nat.ModEq, Nat.add_mod_right, Nat.mod_eq_of_lt hloop]
  rw [← hshift]
  exact ⟨Nat.ModEq.add_left_cancel' next, Nat.ModEq.add_left next⟩

lemma count_turns {k next loop : ℕ} (hnext : next < k) (hloop : loop < k) (n : ℕ) :
    ((List.range n).map fun j => (next + j) % k).count loop =
      n.count (· ≡ loop + (k - next) [MOD k]) := by
  induction n with
  | zero => rfl
  | succ n ih =>
    rw [List.range_succ, List.map_append, List.count_append, ih, Nat.count_succ, List.map_singleton,
      List.count_singleton]
    simp only [beq_iff_eq, mod_eq_iff_modEq hnext hloop]

/-- As long as the pool is not started or stopped, however its threads get on, `GetNextLoop` gives
out each of `k` loops `n / k` times or once more when it is called `n` times. -/
theorem getNextLoop_fair (h : Runs.Reachable LoopThreadPool.step new p) (hidle : p.call = .idle)
    {ms : List Move} (hms : ∀ m ∈ ms, Hands m) (hrun : Runs.run LoopThreadPool.step p ms = some q)
    {loop : ℕ} (hloop : loop < p.loops.length) :
    (p.handedOut ms).count loop = (p.handedOut ms).length / p.loops.length ∨
      (p.handedOut ms).count loop = (p.handedOut ms).length / p.loops.length + 1 := by
  have hp := Sound.of_reachable h
  have hpos : 0 < p.loops.length := Nat.zero_lt_of_lt hloop
  have hnext : p.next < p.loops.length := by
    rcases hp.next with ⟨hnil, -⟩ | hnext
    · simp [hnil] at hpos
    · exact hnext
  have hcount : (p.handedOut ms).count loop =
      (p.handedOut ms).length.count
        (· ≡ loop + (p.loops.length - p.next) [MOD p.loops.length]) := by
    conv_lhs => rw [handedOut_eq hp hidle (List.ne_nil_of_length_pos hpos) hms hrun]
    exact count_turns hnext hloop _
  rw [hcount, Nat.count_modEq_card _ hpos]
  split_ifs
  · exact Or.inr rfl
  · exact Or.inl rfl

/-- Three loops and five calls, with a thread that gets on between them. -/
theorem getNextLoop_fair_three :
    ∃ p ms, Runs.Reachable LoopThreadPool.step new p ∧ (p.handedOut ms).length = 5 ∧
      ((p.handedOut ms).count 2 = 5 / 3 ∨ (p.handedOut ms).count 2 = 5 / 3 + 1) := by
  have hrun : Runs.Reachable LoopThreadPool.step new
      ⟨3, List.replicate 3 ⟨.published, false⟩, [0, 1, 2], 0, .idle⟩ :=
    ⟨[.setThreadNum 3, .start, .owner, .thread 0, .owner, .owner, .thread 1, .owner, .owner,
      .thread 2, .owner, .owner], rfl⟩
  have hms : ∀ m ∈ [Move.getNextLoop, .getNextLoop, .thread 1, .getNextLoop, .getNextLoop,
      .getNextLoop], Hands m := by
    simp [Hands]
  exact ⟨_, _, hrun, rfl, getNextLoop_fair hrun rfl hms rfl (by decide)⟩

end LoopThreadPool

end TinyWebServer
