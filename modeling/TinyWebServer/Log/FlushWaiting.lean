import TinyWebServer.Log.Durability

/-!
# Waiting in `Flush`

The condition variable of `Flush` as it is: a call that finds the queue not empty sleeps, the
backend wakes all sleepers after each round of writing, and who has been woken looks at the queue
again. Nobody wakes without being notified, and a logger that was stopped is not started again.
-/

namespace TinyWebServer

open AsyncLogger Runs

/-- Where a thread stands in `Flush`. -/
inductive FlushPc where
  /-- It has found the logger running. -/
  | entered
  | asleep
  /-- It has been notified and needs the mutex. -/
  | woken
  | returned
  deriving DecidableEq

def FlushPc.notify : FlushPc → FlushPc
  | asleep => woken
  | pc => pc

structure WaitingLogger where
  logger : AsyncLogger
  flushers : List FlushPc
  deriving DecidableEq

namespace WaitingLogger

def started : WaitingLogger := ⟨.started, []⟩

/-- The predicate of the wait, under the mutex. -/
def look (logger : AsyncLogger) : FlushPc := if logger.buffers = [] then .returned else .asleep

inductive Move where
  | append (line : Bytes)
  | backend
  | stop
  | commit (n : ℕ)
  /-- A thread calls `Flush`. -/
  | enter
  /-- The section of `Flush`, up to the first look at the queue. -/
  | flush (i : ℕ)
  /-- A thread that has been notified gets the mutex and looks again. -/
  | wake (i : ℕ)
  deriving DecidableEq

/-- The logger goes on. -/
def advance (s : WaitingLogger) (m : AsyncLogger.Move) : Option WaitingLogger :=
  (s.logger.step m).map fun logger => { s with logger := logger }

def step (s : WaitingLogger) : Move → Option WaitingLogger
  | .append line => s.advance (.append line)
  | .backend =>
    let flushers := if s.logger.backend = .notify then s.flushers.map .notify else s.flushers
    (s.advance .backend).map fun t => { t with flushers := flushers }
  | .stop => s.advance .stop
  | .commit n => s.advance (.commit n)
  | .enter =>
    if s.logger.running then some { s with flushers := s.flushers ++ [.entered] } else none
  | .flush i =>
    if s.flushers[i]? = some .entered then
      let logger := s.logger.flush
      some ⟨logger, s.flushers.set i (look logger)⟩
    else none
  | .wake i =>
    if s.flushers[i]? = some .woken then
      some { s with flushers := s.flushers.set i (look s.logger) }
    else none

end WaitingLogger

namespace AsyncLogger

variable {l l' : AsyncLogger}

/-! ### What the threads of the logger do -/

/-- A step of `WriteBuffersToFile`, as far as the queue is concerned. -/
inductive RemainderTurn (l l' : AsyncLogger) : Remainder → Remainder → Prop
  | collect {taken : List BufferPtr} (hlength : taken.length ≤ l.buffers.length + 1)
      (hbuffers : l'.buffers = []) (hcurrent : contents l'.currentBuffer = []) :
      RemainderTurn l l' .collect (.write taken)
  | write {buffer : BufferPtr} {rest : List BufferPtr} (hbuffers : l'.buffers = l.buffers)
      (hcurrent : l'.currentBuffer = l.currentBuffer) :
      RemainderTurn l l' (.write (buffer :: rest)) (.write rest)
  | written (hbuffers : l'.buffers = l.buffers) (hcurrent : l'.currentBuffer = l.currentBuffer) :
      RemainderTurn l l' (.write []) .done

/-- A step of the backend, as far as the queue is concerned. -/
inductive BackendTurn (l l' : AsyncLogger) : BackendPc → BackendPc → Prop
  | check (hrunning : l.running = true) (hbuffers : l'.buffers = l.buffers) :
      BackendTurn l l' .check .take
  | stop (hrunning : l.running = false) (hbuffers : l'.buffers = l.buffers) :
      BackendTurn l l' .check (.leave .collect)
  | take (hbuffers : l'.buffers = []) :
      BackendTurn l l' .take (.write (l.buffers ++ [l.currentBuffer]))
  | write {buffer : BufferPtr} {rest : List BufferPtr} (hbuffers : l'.buffers = l.buffers) :
      BackendTurn l l' (.write (buffer :: rest)) (.write rest)
  | written (hbuffers : l'.buffers = l.buffers) : BackendTurn l l' (.write []) .notify
  | notify (hbuffers : l'.buffers = l.buffers) : BackendTurn l l' .notify .check
  | leave {before after : Remainder} (hturn : RemainderTurn l l' before after) :
      BackendTurn l l' (.leave before) (.leave after)

lemma length_queueCurrent_le (l : AsyncLogger) (replacement : BufferPtr) :
    (l.queueCurrent replacement).buffers.length ≤ l.buffers.length + 1 := by
  rw [queueCurrent]
  split_ifs
  · exact Nat.le_succ _
  · simp

lemma turn_of_writeRemainder {before after : Remainder}
    (h : l.writeRemainder before = some (after, l')) :
    RemainderTurn l l' before after ∧
      (l'.running, l'.backend, l'.stopper) = (l.running, l.backend, l.stopper) := by
  cases before with
  | collect =>
    have hcurrent := contents_queueCurrent (s := l) contents_none
    have hlength := l.length_queueCurrent_le none
    rw [writeRemainder, collect, queueCurrent_eq] at h
    cases h
    exact ⟨.collect hlength rfl hcurrent, rfl⟩
  | write buffers =>
    cases buffers with
    | nil =>
      cases h
      exact ⟨.written rfl rfl, rfl⟩
    | cons buffer rest =>
      cases h
      exact ⟨.write rfl rfl, rfl⟩
  | done => cases h

lemma turn_of_backendStep (h : l.backendStep = some l') :
    BackendTurn l l' l.backend l'.backend ∧ (l'.running, l'.stopper) = (l.running, l.stopper) := by
  rw [AsyncLogger.backendStep] at h
  split at h
  · next hbackend =>
    cases h
    rw [hbackend]
    cases hrunning : l.running with
    | true => exact ⟨.check hrunning rfl, rfl⟩
    | false => exact ⟨.stop hrunning rfl, rfl⟩
  · next hbackend =>
    cases h
    rw [hbackend, takeBuffers]
    dsimp only
    split_ifs
    all_goals exact ⟨.take rfl, rfl⟩
  · next buffer rest hbackend =>
    cases h
    rw [hbackend, writeBuffer]
    dsimp only
    split_ifs
    all_goals exact ⟨.write rfl, rfl⟩
  · next hbackend =>
    cases h
    rw [hbackend]
    exact ⟨.written rfl, rfl⟩
  · next hbackend =>
    cases h
    rw [hbackend]
    exact ⟨.notify rfl, rfl⟩
  · next remainder hbackend =>
    simp only [Option.map_eq_some_iff, Prod.exists] at h
    obtain ⟨after, u, hwrite, rfl⟩ := h
    obtain ⟨hturn, hframe⟩ := turn_of_writeRemainder hwrite
    rw [hbackend]
    refine ⟨.leave ?_, ?_⟩
    · cases hturn with
      | collect hlength hbuffers hcurrent => exact .collect hlength hbuffers hcurrent
      | write hbuffers hcurrent => exact .write hbuffers hcurrent
      | written hbuffers hcurrent => exact .written hbuffers hcurrent
    · simp only [Prod.mk.injEq] at hframe ⊢
      exact ⟨hframe.1, hframe.2.2⟩

/-- A step of `Stop`, as far as the queue is concerned. -/
inductive StopTurn (l l' : AsyncLogger) : StopPc → StopPc → Prop
  | tell (hrunning : l'.running = false) (hbuffers : l'.buffers = l.buffers)
      (hcurrent : l'.currentBuffer = l.currentBuffer) : StopTurn l l' .idle .join
  | joined (hbackend : l.backend = .leave .done) (hrunning : l'.running = l.running)
      (hbuffers : l'.buffers = l.buffers) (hcurrent : l'.currentBuffer = l.currentBuffer) :
      StopTurn l l' .join (.leave .collect)
  | leave {before after : Remainder} (hrunning : l'.running = l.running)
      (hturn : RemainderTurn l l' before after) : StopTurn l l' (.leave before) (.leave after)

lemma turn_of_stopStep (h : l.stopStep = some l') :
    StopTurn l l' l.stopper l'.stopper ∧ l'.backend = l.backend := by
  rw [AsyncLogger.stopStep] at h
  split at h
  · next hstopper =>
    cases h
    rw [hstopper]
    exact ⟨.tell rfl rfl rfl, rfl⟩
  · next hstopper =>
    simp only [Option.ite_none_right_eq_some, Option.some.injEq] at h
    obtain ⟨hdone, rfl⟩ := h
    rw [hstopper]
    exact ⟨.joined hdone rfl rfl rfl, rfl⟩
  · next remainder hstopper =>
    simp only [Option.map_eq_some_iff, Prod.exists] at h
    obtain ⟨after, u, hwrite, rfl⟩ := h
    obtain ⟨hturn, hframe⟩ := turn_of_writeRemainder hwrite
    simp only [Prod.mk.injEq] at hframe
    rw [hstopper]
    refine ⟨.leave hframe.1 ?_, hframe.2.1⟩
    cases hturn with
    | collect hlength hbuffers hcurrent => exact .collect hlength hbuffers hcurrent
    | write hbuffers hcurrent => exact .write hbuffers hcurrent
    | written hbuffers hcurrent => exact .written hbuffers hcurrent

lemma frame_append (l : AsyncLogger) (line : Bytes) :
    ((l.append line).2.running, (l.append line).2.backend, (l.append line).2.stopper) =
      (l.running, l.backend, l.stopper) := by
  have hqueue := queueCurrent_eq l none
  rw [append]
  split_ifs with hguard
  · rfl
  · split
    · rfl
    · rw [hqueue]
      dsimp only
      split_ifs
      all_goals rfl

/-! ### The end of the backend -/

/-- The backend leaves when the logger has been stopped, and then there is nothing left. -/
structure Closes (l : AsyncLogger) : Prop where
  running_iff : l.running = true ↔ l.stopper = .idle
  stopped : ∀ remainder, l.backend = .leave remainder → l.running = false
  drained : ∀ remainder, l.backend = .leave remainder → remainder ≠ .collect →
    l.buffers = [] ∧ contents l.currentBuffer = []

lemma closes_started : started.Closes := ⟨by simp [started], by simp [started], by simp [started]⟩

/-- Once the buffers have been collected there is nothing to queue. -/
lemma RemainderTurn.drained {before after : Remainder} (h : RemainderTurn l l' before after)
    (hbefore : before ≠ .collect → l.buffers = [] ∧ contents l.currentBuffer = []) :
    l'.buffers = [] ∧ contents l'.currentBuffer = [] := by
  cases h with
  | collect _ hbuffers hcurrent => exact ⟨hbuffers, hcurrent⟩
  | write hbuffers hcurrent =>
    rw [hbuffers, hcurrent]
    exact hbefore (by simp)
  | written hbuffers hcurrent =>
    rw [hbuffers, hcurrent]
    exact hbefore (by simp)

lemma Closes.backendStep (hl : l.Closes) (h : l.backendStep = some l') : l'.Closes := by
  obtain ⟨hturn, hframe⟩ := turn_of_backendStep h
  simp only [Prod.mk.injEq] at hframe
  obtain ⟨hrunning, hstopper⟩ := hframe
  have hrunning_iff : l'.running = true ↔ l'.stopper = .idle := by
    rw [hrunning, hstopper]
    exact hl.running_iff
  generalize hbefore : l.backend = before at hturn
  generalize hafter : l'.backend = after at hturn
  cases hturn with
  | stop hstop =>
    refine ⟨hrunning_iff, fun _ _ => hrunning.trans hstop, ?_⟩
    intro remainder hleave hne
    cases hafter.symm.trans hleave
    exact absurd rfl hne
  | leave hturn =>
    exact ⟨hrunning_iff, fun _ _ => hrunning.trans (hl.stopped _ hbefore),
      fun _ _ _ => hturn.drained (hl.drained _ hbefore)⟩
  | _ => exact ⟨hrunning_iff, by simp [hafter], by simp [hafter]⟩

lemma Closes.stopStep (hl : l.Closes) (h : l.stopStep = some l') : l'.Closes := by
  obtain ⟨hturn, hbackend⟩ := turn_of_stopStep h
  generalize hbefore : l.stopper = before at hturn
  generalize hafter : l'.stopper = after at hturn
  have hrunning : before ≠ .idle → l.running = false := by
    rintro hne
    rw [← Bool.not_eq_true, hl.running_iff, hbefore]
    exact hne
  constructor
  · rw [hafter]
    cases hturn with
    | tell hstop => simp [hstop]
    | joined _ hsame => simp [hsame, hrunning]
    | leave hsame => simp [hsame, hrunning]
  · intro _ _
    cases hturn with
    | tell hstop => exact hstop
    | joined _ hsame => exact hsame.trans (hrunning (by simp))
    | leave hsame => exact hsame.trans (hrunning (by simp))
  · intro remainder hleave hne
    rw [hbackend] at hleave
    have hdrained := hl.drained remainder hleave hne
    cases hturn with
    | tell _ hbuffers hcurrent => rwa [hbuffers, hcurrent]
    | joined _ _ hbuffers hcurrent => rwa [hbuffers, hcurrent]
    | leave _ hturn => exact hturn.drained fun _ => hdrained

lemma Closes.append {line : Bytes} (hl : l.Closes) (h : l.step (.append line) = some l') :
    l'.Closes := by
  simp only [AsyncLogger.step, Option.ite_none_right_eq_some, Option.some.injEq] at h
  obtain ⟨hidle, rfl⟩ := h
  have hframe := l.frame_append line
  simp only [Prod.mk.injEq] at hframe
  obtain ⟨hrunning, hbackend, hstopper⟩ := hframe
  have hnot : ∀ remainder, l.backend ≠ .leave remainder := by
    intro remainder hleave
    have hstop := hl.stopped remainder hleave
    rw [hl.running_iff.mpr hidle] at hstop
    cases hstop
  constructor
  · rw [hrunning, hstopper]
    exact hl.running_iff
  · intro remainder hleave
    exact absurd (hbackend.symm.trans hleave) (hnot remainder)
  · intro remainder hleave
    exact absurd (hbackend.symm.trans hleave) (hnot remainder)

/-- An empty buffer is not queued. -/
lemma queueCurrent_of_nil (h : contents l.currentBuffer = []) (replacement : BufferPtr) :
    l.queueCurrent replacement = l := if_pos h

lemma Closes.flush (hl : l.Closes) : l.flush.Closes := by
  rw [AsyncLogger.flush]
  by_cases hnil : contents l.currentBuffer = []
  · rw [queueCurrent_of_nil hnil]
    exact hl
  · rw [queueCurrent, if_neg hnil]
    refine ⟨hl.running_iff, hl.stopped, fun remainder hleave hne => ?_⟩
    exact absurd (hl.drained remainder hleave hne).2 hnil

/-- The backend is going to notify once more, whatever the others do. -/
def MayNotify (l : AsyncLogger) : Prop :=
  match l.backend with
  | .check => l.running = true
  | .take | .write _ | .notify => True
  | .leave _ => False

instance (l : AsyncLogger) : Decidable l.MayNotify := by
  rw [MayNotify]
  split <;> infer_instance

lemma not_mayNotify_iff : ¬ l.MayNotify ↔
    (l.backend = .check ∧ l.running = false) ∨ ∃ remainder, l.backend = .leave remainder := by
  cases hbackend : l.backend <;> simp [MayNotify, hbackend]

end AsyncLogger

namespace WaitingLogger

variable {s t : WaitingLogger} {i : ℕ}

lemma closes_step {m : Move} (hs : s.logger.Closes) (h : s.step m = some t) : t.logger.Closes := by
  cases m with
  | append line =>
    obtain ⟨l, hl, rfl⟩ := Option.map_eq_some_iff.mp h
    exact hs.append hl
  | backend =>
    simp only [step, advance, Option.map_map, Option.map_eq_some_iff] at h
    obtain ⟨l, hl, rfl⟩ := h
    exact hs.backendStep hl
  | stop =>
    obtain ⟨l, hl, rfl⟩ := Option.map_eq_some_iff.mp h
    exact hs.stopStep hl
  | commit n =>
    cases h
    exact ⟨hs.running_iff, hs.stopped, hs.drained⟩
  | enter =>
    simp only [step, Option.ite_none_right_eq_some, Option.some.injEq] at h
    obtain ⟨-, rfl⟩ := h
    exact hs
  | flush j =>
    simp only [step, Option.ite_none_right_eq_some, Option.some.injEq] at h
    obtain ⟨-, rfl⟩ := h
    exact hs.flush
  | wake j =>
    simp only [step, Option.ite_none_right_eq_some, Option.some.injEq] at h
    obtain ⟨-, rfl⟩ := h
    exact hs

lemma closes_of_reachable (h : Reachable step started s) : s.logger.Closes :=
  h.invariant (P := fun s => s.logger.Closes) step (fun _ _ _ hs hstep => closes_step hs hstep)
    closes_started

/-! ### Who is not notified any more -/

lemma getElem?_set_of_ne {pc pc' pc'' : FlushPc} {flushers : List FlushPc} {j : ℕ}
    (hi : flushers[i]? = some pc) (hj : flushers[j]? = some pc') (hne : pc ≠ pc') :
    (flushers.set j pc'')[i]? = some pc := by
  rw [List.getElem?_set_ne, hi]
  rintro rfl
  exact hne (Option.some.inj (hi.symm.trans hj))

/-- A sleeper that the backend will not notify sleeps on. -/
lemma asleep_step {m : Move} (hi : s.flushers[i]? = some .asleep) (hs : ¬ s.logger.MayNotify)
    (h : s.step m = some t) : t.flushers[i]? = some .asleep ∧ ¬ t.logger.MayNotify := by
  rw [not_mayNotify_iff] at hs ⊢
  cases m with
  | append line =>
    obtain ⟨l, hl, rfl⟩ := Option.map_eq_some_iff.mp h
    simp only [AsyncLogger.step, Option.ite_none_right_eq_some, Option.some.injEq] at hl
    obtain ⟨-, rfl⟩ := hl
    have hframe := s.logger.frame_append line
    simp only [Prod.mk.injEq] at hframe
    refine ⟨hi, ?_⟩
    rwa [hframe.1, hframe.2.1]
  | backend =>
    simp only [step, advance, Option.map_map, Option.map_eq_some_iff] at h
    obtain ⟨l, hl, rfl⟩ := h
    have hnotify : s.logger.backend ≠ .notify := by
      rcases hs with ⟨hcheck, -⟩ | ⟨remainder, hleave⟩
      · simp [hcheck]
      · simp [hleave]
    obtain ⟨hturn, -⟩ := turn_of_backendStep hl
    refine ⟨by simpa [hnotify] using hi, .inr ?_⟩
    dsimp only [Function.comp_apply]
    generalize hbefore : s.logger.backend = before at hturn hs
    generalize l.backend = after at hturn
    cases hturn with
    | stop => exact ⟨_, rfl⟩
    | leave => exact ⟨_, rfl⟩
    | check hrunning => simp [hrunning] at hs
    | _ => simp at hs
  | stop =>
    obtain ⟨l, hl, rfl⟩ := Option.map_eq_some_iff.mp h
    obtain ⟨hturn, hbackend⟩ := turn_of_stopStep hl
    refine ⟨hi, ?_⟩
    rw [hbackend]
    refine hs.imp_left fun hcheck => ⟨hcheck.1, ?_⟩
    generalize s.logger.stopper = before at hturn
    generalize l.stopper = after at hturn
    cases hturn with
    | tell hstop => exact hstop
    | joined _ hsame => exact hsame.trans hcheck.2
    | leave hsame => exact hsame.trans hcheck.2
  | commit n =>
    cases h
    exact ⟨hi, hs⟩
  | enter =>
    simp only [step, Option.ite_none_right_eq_some, Option.some.injEq] at h
    obtain ⟨-, rfl⟩ := h
    exact ⟨by rw [List.getElem?_append_left (List.getElem?_eq_some_iff.mp hi).1, hi], hs⟩
  | flush j =>
    simp only [step, Option.ite_none_right_eq_some, Option.some.injEq] at h
    obtain ⟨hj, rfl⟩ := h
    refine ⟨getElem?_set_of_ne hi hj (by simp), ?_⟩
    rw [AsyncLogger.flush, queueCurrent_eq]
    exact hs
  | wake j =>
    simp only [step, Option.ite_none_right_eq_some, Option.some.injEq] at h
    obtain ⟨hj, rfl⟩ := h
    exact ⟨getElem?_set_of_ne hi hj (by simp), hs⟩

/-! ### Who returns -/

variable {l : AsyncLogger}

lemma reachable_step {m : Move} (h : s.step m = some t) : Reachable step s t :=
  ⟨[m], by rw [run, h]; rfl⟩

/-- The backend goes on by itself. -/
lemma reachable_backend (h : s.logger.backendStep = some l) (hnotify : s.logger.backend ≠ .notify) :
    Reachable step s ⟨l, s.flushers⟩ := by
  apply reachable_step (m := .backend)
  simp [step, advance, AsyncLogger.step, h, hnotify]

/-- The backend can come to its next notification and beyond it. -/
def Notified (s : WaitingLogger) : Prop :=
  ∃ l, Reachable step s ⟨l, s.flushers.map .notify⟩ ∧ l.backend = .check

lemma Notified.of_step (h : s.logger.backendStep = some l) (hnotify : s.logger.backend ≠ .notify)
    (hl : Notified ⟨l, s.flushers⟩) : s.Notified := by
  obtain ⟨l', hl', hcheck⟩ := hl
  exact ⟨l', (reachable_backend h hnotify).trans step hl', hcheck⟩

lemma notified_of_notify (h : s.logger.backend = .notify) : s.Notified := by
  refine ⟨{ s.logger with backend := .check }, reachable_step (m := .backend) ?_, rfl⟩
  simp [step, advance, AsyncLogger.step, AsyncLogger.backendStep, h]

lemma notified_of_write {buffers : List BufferPtr} (h : s.logger.backend = .write buffers) :
    s.Notified := by
  induction buffers generalizing s with
  | nil =>
    have hstep : s.logger.backendStep = some { s.logger.fflush with backend := .notify } := by
      rw [AsyncLogger.backendStep, h]
    exact .of_step hstep (by simp [h]) (notified_of_notify rfl)
  | cons buffer rest ih =>
    have hstep : s.logger.backendStep =
        some { s.logger.writeBuffer buffer with backend := .write rest } := by
      rw [AsyncLogger.backendStep, h]
    exact .of_step hstep (by simp [h])
      (ih (s := ⟨{ s.logger.writeBuffer buffer with backend := .write rest }, s.flushers⟩) rfl)

lemma takeBuffers_eq (l : AsyncLogger) :
    l.takeBuffers.backend = .write (l.buffers ++ [l.currentBuffer]) ∧ l.takeBuffers.buffers = [] := by
  simp only [takeBuffers]
  split_ifs
  all_goals exact ⟨rfl, rfl⟩

lemma backendStep_of_take (h : l.backend = .take) : l.backendStep = some l.takeBuffers := by
  rw [AsyncLogger.backendStep, h]

lemma backendStep_of_check (h : l.backend = .check) : l.backendStep =
    some { l with backend := if l.running then .take else .leave .collect } := by
  rw [AsyncLogger.backendStep, h]

lemma notified_of_take (h : s.logger.backend = .take) : s.Notified :=
  .of_step (backendStep_of_take h) (by simp [h]) (notified_of_write (takeBuffers_eq s.logger).1)

lemma notified_of_mayNotify (h : s.logger.MayNotify) : s.Notified := by
  cases hbackend : s.logger.backend with
  | check =>
    rw [MayNotify, hbackend] at h
    exact .of_step (backendStep_of_check hbackend) (by simp [hbackend])
      (notified_of_take (if_pos h))
  | take => exact notified_of_take hbackend
  | write buffers => exact notified_of_write hbackend
  | notify => exact notified_of_notify hbackend
  | leave remainder => simp [MayNotify, hbackend] at h

/-- The call can return. -/
def MayReturn (s : WaitingLogger) (i : ℕ) : Prop :=
  ∃ t, Reachable step s t ∧ t.flushers[i]? = some .returned

lemma MayReturn.of_reachable (h : Reachable step s t) (ht : t.MayReturn i) : s.MayReturn i := by
  obtain ⟨u, hu, hreturned⟩ := ht
  exact ⟨u, h.trans step hu, hreturned⟩

lemma mayReturn_of_empty (hi : s.flushers[i]? = some .woken) (h : s.logger.buffers = []) :
    s.MayReturn i := by
  have hstep : s.step (.wake i) =
      some { s with flushers := s.flushers.set i (look s.logger) } := if_pos hi
  refine ⟨_, reachable_step hstep, ?_⟩
  have hlt : i < s.flushers.length := (List.getElem?_eq_some_iff.mp hi).1
  simp [look, h, hlt]

lemma backendStep_of_collect (h : l.backend = .leave .collect) : l.backendStep =
    some { l.collect.2 with backend := .leave (.write l.collect.1) } := by
  rw [AsyncLogger.backendStep, h]
  rfl

/-- The backend can empty the queue before it writes. -/
lemma mayReturn_of_collect (hi : s.flushers[i]? = some .woken)
    (h : s.logger.backend = .leave .collect) : s.MayReturn i :=
  .of_reachable (reachable_backend (backendStep_of_collect h) (by simp [h]))
    (mayReturn_of_empty hi rfl)

lemma mayReturn_of_check (hi : s.flushers[i]? = some .woken) (h : s.logger.backend = .check) :
    s.MayReturn i := by
  refine .of_reachable (reachable_backend (backendStep_of_check h) (by simp [h])) ?_
  cases hrunning : s.logger.running with
  | true =>
    refine .of_reachable (reachable_backend (backendStep_of_take rfl) ?_) ?_
    · simp
    · exact mayReturn_of_empty hi (takeBuffers_eq _).2
  | false => exact mayReturn_of_collect hi rfl

lemma mayReturn_of_notified {pc : FlushPc} (h : s.Notified) (hi : s.flushers[i]? = some pc)
    (hpc : pc.notify = .woken) : s.MayReturn i := by
  obtain ⟨l, hl, hcheck⟩ := h
  refine .of_reachable hl (mayReturn_of_check ?_ hcheck)
  rw [List.getElem?_map, hi, Option.map_some, hpc]

lemma mayReturn_of_woken (hs : s.logger.Closes) (hi : s.flushers[i]? = some .woken) :
    s.MayReturn i := by
  by_cases hnotify : s.logger.MayNotify
  · exact mayReturn_of_notified (notified_of_mayNotify hnotify) hi rfl
  · rcases not_mayNotify_iff.mp hnotify with ⟨hcheck, -⟩ | ⟨remainder, hleave⟩
    · exact mayReturn_of_check hi hcheck
    · by_cases hcollect : remainder = .collect
      · exact mayReturn_of_collect hi (hcollect ▸ hleave)
      · exact mayReturn_of_empty hi (hs.drained remainder hleave hcollect).1

lemma reachable_flush (hi : s.flushers[i]? = some .entered) :
    Reachable step s ⟨s.logger.flush, s.flushers.set i (look s.logger.flush)⟩ :=
  reachable_step (m := .flush i) (if_pos hi)

/-- With nothing in the queue and nothing to queue a call returns at once. -/
lemma mayReturn_of_drained (hi : s.flushers[i]? = some .entered)
    (h : s.logger.buffers = [] ∧ contents s.logger.currentBuffer = []) : s.MayReturn i := by
  have hlt : i < s.flushers.length := (List.getElem?_eq_some_iff.mp hi).1
  have hflush : s.logger.flush = s.logger := queueCurrent_of_nil h.2 _
  refine ⟨_, reachable_flush hi, ?_⟩
  simp [hflush, look, h.1, hlt]

/-- Before the backend has left it can empty the queue first. -/
lemma mayReturn_of_leaving (hi : s.flushers[i]? = some .entered)
    (h : s.logger.backend = .leave .collect) : s.MayReturn i := by
  refine .of_reachable (reachable_backend (backendStep_of_collect h) (by simp [h])) ?_
  exact mayReturn_of_drained hi ⟨rfl, contents_queueCurrent contents_none⟩

lemma mayReturn_of_entered (hs : s.logger.Closes) (hi : s.flushers[i]? = some .entered) :
    s.MayReturn i := by
  by_cases hnotify : s.logger.MayNotify
  · -- the call queues the current buffer and sleeps until the backend has written it
    have hlt : i < s.flushers.length := (List.getElem?_eq_some_iff.mp hi).1
    refine .of_reachable (reachable_flush hi) ?_
    by_cases hempty : s.logger.flush.buffers = []
    · exact ⟨_, Reachable.refl step _, by simp [look, hempty, hlt]⟩
    · apply mayReturn_of_notified (notified_of_mayNotify _) _ (rfl : FlushPc.asleep.notify = _)
      · rw [AsyncLogger.flush, queueCurrent_eq]
        exact hnotify
      · simp [look, hempty, hlt]
  · rcases not_mayNotify_iff.mp hnotify with ⟨hcheck, hrunning⟩ | ⟨remainder, hleave⟩
    · refine .of_reachable (reachable_backend (backendStep_of_check hcheck) (by simp [hcheck])) ?_
      exact mayReturn_of_leaving hi (by simp [hrunning])
    · by_cases hremainder : remainder = .collect
      · exact mayReturn_of_leaving hi (hremainder ▸ hleave)
      · exact mayReturn_of_drained hi (hs.drained remainder hleave hremainder)

/-- A call of `Flush` can return unless it sleeps and the backend, told to stop, will not notify
again: then it sleeps for good. -/
theorem mayReturn_iff (h : Reachable step started s) {pc : FlushPc} (hi : s.flushers[i]? = some pc)
    (hpc : pc ≠ .returned) : s.MayReturn i ↔ (pc = .asleep → s.logger.MayNotify) := by
  have hs := closes_of_reachable h
  constructor
  · rintro ⟨t, ht, hreturned⟩ rfl
    by_contra hnotify
    have hasleep := ht.invariant (P := fun s => s.flushers[i]? = some .asleep ∧
      ¬ s.logger.MayNotify) step (fun s m t hs hstep => asleep_step hs.1 hs.2 hstep) ⟨hi, hnotify⟩
    cases hasleep.1.symm.trans hreturned
  · intro hasleep
    cases pc with
    | entered => exact mayReturn_of_entered hs hi
    | asleep => exact mayReturn_of_notified (notified_of_mayNotify (hasleep rfl)) hi rfl
    | woken => exact mayReturn_of_woken hs hi
    | returned => exact absurd rfl hpc

/-- A line and a flush that waits for it, and `Stop` before the backend takes it. -/
def stoppedWaiting : List Move := [.append [97], .enter, .flush 0, .stop]

/-- The call sleeps for good. -/
theorem mayReturn_iff_stoppedWaiting :
    ∃ s, run step started stoppedWaiting = some s ∧ ¬ s.MayReturn 0 := by
  have hrun : (run step started stoppedWaiting).any (fun s =>
      s.flushers[0]? = some .asleep ∧ ¬ s.logger.MayNotify) = true := by decide +kernel
  obtain ⟨s, hs, hstate⟩ := (Option.any_eq_true _ _).mp hrun
  obtain ⟨hi, hnotify⟩ := of_decide_eq_true hstate
  refine ⟨s, hs, fun hreturn => hnotify ?_⟩
  exact (mayReturn_iff ⟨_, hs⟩ hi (by simp)).mp hreturn rfl

end WaitingLogger

end TinyWebServer
