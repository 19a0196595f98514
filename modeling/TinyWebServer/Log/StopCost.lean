import TinyWebServer.Library.Progress
import TinyWebServer.Log.FlushWaiting

/-!
# How long `Stop` takes

Once the logger has been told to stop, what the backend and `Stop` have left to do is bounded by
the buffers in the queue and by the calls of `Flush` that may still queue one; every call of
`Append` has returned.
-/

namespace TinyWebServer

open AsyncLogger Runs

namespace AsyncLogger

variable {l l' : AsyncLogger} {n n' : ℕ}

/-- The steps of `WriteBuffersToFile` that are left, with so many buffers in the queue. -/
def remainderCost (n : ℕ) : Remainder → ℕ
  | .collect => n + 3
  | .write buffers => buffers.length + 1
  | .done => 0

/-- The steps of a backend that has been told to stop. -/
def backendCost (n : ℕ) : BackendPc → ℕ
  | .check => n + 4
  | .take => n + 8
  | .write buffersToWrite => buffersToWrite.length + n + 6
  | .notify => n + 5
  | .leave remainder => remainderCost n remainder

/-- The steps of `Stop` behind the join. -/
def stopCost (n : ℕ) : StopPc → ℕ
  | .idle => n + 5
  | .join => n + 4
  | .leave remainder => remainderCost n remainder

lemma remainderCost_le (hn : n' ≤ n) (remainder : Remainder) :
    remainderCost n' remainder ≤ remainderCost n remainder := by
  cases remainder <;> simp [remainderCost, hn]

lemma backendCost_le (hn : n' ≤ n) (pc : BackendPc) : backendCost n' pc ≤ backendCost n pc := by
  cases pc <;> simp [backendCost, hn, remainderCost_le]

lemma stopCost_le (hn : n' ≤ n) (pc : StopPc) : stopCost n' pc ≤ stopCost n pc := by
  cases pc <;> simp [stopCost, hn, remainderCost_le]

/-- A buffer more in the queue costs a step. -/
lemma remainderCost_succ_le (n : ℕ) (remainder : Remainder) :
    remainderCost (n + 1) remainder ≤ remainderCost n remainder + 1 := by
  cases remainder <;> simp [remainderCost, Nat.add_right_comm]

lemma backendCost_succ_le (n : ℕ) (pc : BackendPc) :
    backendCost (n + 1) pc ≤ backendCost n pc + 1 := by
  cases pc with
  | leave remainder => exact remainderCost_succ_le n remainder
  | _ => simp only [backendCost]; omega

lemma stopCost_succ_le (n : ℕ) (pc : StopPc) : stopCost (n + 1) pc ≤ stopCost n pc + 1 := by
  cases pc with
  | leave remainder => exact remainderCost_succ_le n remainder
  | _ => simp only [stopCost]; omega

lemma RemainderTurn.cost {before after : Remainder} (h : RemainderTurn l l' before after) :
    l'.buffers.length ≤ l.buffers.length ∧
      remainderCost l'.buffers.length after < remainderCost l.buffers.length before := by
  cases h with
  | collect hlength hbuffers =>
    simp only [hbuffers, List.length_nil, remainderCost]
    omega
  | write hbuffers => simp [hbuffers, remainderCost]
  | written hbuffers => simp [hbuffers, remainderCost]

lemma BackendTurn.cost {before after : BackendPc} (h : BackendTurn l l' before after)
    (hstopped : l.running = false) : l'.buffers.length ≤ l.buffers.length ∧
      backendCost l'.buffers.length after < backendCost l.buffers.length before := by
  cases h with
  | check hrunning => simp [hstopped] at hrunning
  | stop _ hbuffers => simp [hbuffers, backendCost, remainderCost]
  | take hbuffers => simp [hbuffers, backendCost]
  | write hbuffers => simp [hbuffers, backendCost]
  | written hbuffers => simp [hbuffers, backendCost]
  | notify hbuffers => simp [hbuffers, backendCost]
  | leave hturn => exact hturn.cost

lemma StopTurn.cost {before after : StopPc} (h : StopTurn l l' before after)
    (hidle : before ≠ .idle) : l'.buffers.length ≤ l.buffers.length ∧
      stopCost l'.buffers.length after < stopCost l.buffers.length before := by
  cases h with
  | tell => exact absurd rfl hidle
  | joined _ _ hbuffers => simp [hbuffers, stopCost, remainderCost]
  | leave _ hturn => exact hturn.cost

lemma isSome_writeRemainder (l : AsyncLogger) {remainder : Remainder} (h : remainder ≠ .done) :
    (l.writeRemainder remainder).isSome := by
  cases remainder with
  | collect => rfl
  | write buffers => cases buffers <;> rfl
  | done => exact absurd rfl h

lemma isSome_backendStep (h : l.backend ≠ .leave .done) :
    l.backendStep.isSome := by
  rw [AsyncLogger.backendStep]
  split
  · rfl
  · rfl
  · rfl
  · rfl
  · rfl
  · next remainder hbackend =>
    rw [Option.isSome_map]
    exact l.isSome_writeRemainder fun hdone => h (hbackend.trans (congrArg _ hdone))

lemma isSome_stopStep (h : l.stopper ≠ .leave .done)
    (hjoin : l.stopper = .join → l.backend = .leave .done) : l.stopStep.isSome := by
  rw [AsyncLogger.stopStep]
  split
  · rfl
  · next hstopper =>
    rw [if_pos (hjoin hstopper)]
    rfl
  · next remainder hstopper =>
    rw [Option.isSome_map]
    exact l.isSome_writeRemainder fun hdone => h (hstopper.trans (congrArg _ hdone))

end AsyncLogger

namespace WaitingLogger

variable {s t : WaitingLogger}

def cost (s : WaitingLogger) : ℕ :=
  backendCost s.logger.buffers.length s.logger.backend +
    stopCost s.logger.buffers.length s.logger.stopper + 2 * s.flushers.count .entered

/-- The steps of the backend and of `Stop`. -/
def Stops (m : Move) : Prop := m = .backend ∨ m = .stop

instance : DecidablePred Stops := fun _ => inferInstanceAs (Decidable (_ ∨ _))

/-- The logger has been told to stop. -/
def Told (s : WaitingLogger) : Prop := s.logger.Closes ∧ s.logger.stopper ≠ .idle

lemma Told.running (hs : s.Told) : s.logger.running = false := by
  rw [← Bool.not_eq_true, hs.1.running_iff]
  exact hs.2

lemma count_map_notify (flushers : List FlushPc) :
    (flushers.map FlushPc.notify).count FlushPc.entered = flushers.count .entered := by
  induction flushers with
  | nil => rfl
  | cons pc flushers ih => cases pc <;> simp [FlushPc.notify, ih]

lemma look_ne_entered (l : AsyncLogger) : look l ≠ .entered := by
  rw [look]
  split_ifs <;> simp

/-- Whoever goes through the section of `Flush` has not done so before. -/
lemma count_set_look {flushers : List FlushPc} {i : ℕ} (hi : flushers[i]? = some .entered)
    (l : AsyncLogger) : (flushers.set i (look l)).count .entered + 1 = flushers.count .entered := by
  obtain ⟨hlt, hentered⟩ := List.getElem?_eq_some_iff.mp hi
  have hpos : 0 < flushers.count .entered := List.count_pos_iff.mpr (List.mem_of_getElem? hi)
  rw [List.count_set hlt, hentered]
  simp [look_ne_entered]
  omega

lemma cost_backend (hs : s.Told) (h : s.step .backend = some t) : t.Told ∧ t.cost < s.cost := by
  have hcloses := closes_step hs.1 h
  simp only [step, advance, Option.map_map, Option.map_eq_some_iff] at h
  obtain ⟨l, hl, rfl⟩ := h
  obtain ⟨hturn, hframe⟩ := turn_of_backendStep hl
  obtain ⟨hle, hless⟩ := hturn.cost hs.running
  simp only [Prod.mk.injEq] at hframe
  have hstop := stopCost_le hle s.logger.stopper
  have hcount : (if s.logger.backend = .notify then s.flushers.map .notify
      else s.flushers).count .entered = s.flushers.count .entered := by
    split_ifs
    · exact count_map_notify s.flushers
    · rfl
  refine ⟨⟨hcloses, ?_⟩, ?_⟩
  · exact hframe.2 ▸ hs.2
  · simp only [cost, Function.comp_apply, hcount, hframe.2]
    omega

lemma cost_stop (hs : s.Told) (h : s.step .stop = some t) : t.Told ∧ t.cost < s.cost := by
  have hcloses := closes_step hs.1 h
  obtain ⟨l, hl, rfl⟩ := Option.map_eq_some_iff.mp h
  obtain ⟨hturn, hbackend⟩ := turn_of_stopStep hl
  obtain ⟨hle, hless⟩ := hturn.cost hs.2
  have hback := backendCost_le hle s.logger.backend
  refine ⟨⟨hcloses, ?_⟩, ?_⟩
  · generalize s.logger.stopper = before at hturn
    dsimp only
    generalize l.stopper = after at hturn
    cases hturn <;> simp
  · simp only [cost, hbackend]
    omega

lemma cost_flush {i : ℕ} (hs : s.Told) (h : s.step (.flush i) = some t) :
    t.Told ∧ t.cost ≤ s.cost := by
  have hcloses := closes_step hs.1 h
  simp only [step, Option.ite_none_right_eq_some, Option.some.injEq] at h
  obtain ⟨hi, rfl⟩ := h
  have hcount := count_set_look hi s.logger.flush
  have hlength := s.logger.length_queueCurrent_le (some .empty)
  have hback := (backendCost_le hlength s.logger.backend).trans (backendCost_succ_le _ _)
  have hstop := (stopCost_le hlength s.logger.stopper).trans (stopCost_succ_le _ _)
  have hbackend : s.logger.flush.backend = s.logger.backend := by
    rw [AsyncLogger.flush, queueCurrent_eq]
  have hstopper : s.logger.flush.stopper = s.logger.stopper := by
    rw [AsyncLogger.flush, queueCurrent_eq]
  refine ⟨⟨hcloses, ?_⟩, ?_⟩
  · dsimp only
    rw [hstopper]
    exact hs.2
  · simp only [cost, hbackend, hstopper]
    rw [AsyncLogger.flush] at hcount ⊢
    omega

/-- Calls of `Flush` may queue what is in the current buffer, and that is paid for. -/
lemma cost_step {m : Move} (hs : s.Told) (h : s.step m = some t) :
    t.Told ∧ t.cost ≤ s.cost ∧ (Stops m → t.cost < s.cost) := by
  have hcloses := closes_step hs.1 h
  cases m with
  | append line =>
    obtain ⟨l, hl, rfl⟩ := Option.map_eq_some_iff.mp h
    simp [AsyncLogger.step, hs.2] at hl
  | backend =>
    obtain ⟨htold, hless⟩ := cost_backend hs h
    exact ⟨htold, hless.le, fun _ => hless⟩
  | stop =>
    obtain ⟨htold, hless⟩ := cost_stop hs h
    exact ⟨htold, hless.le, fun _ => hless⟩
  | commit n =>
    cases h
    exact ⟨⟨hcloses, hs.2⟩, le_rfl, by simp [Stops]⟩
  | enter => simp [step, hs.running] at h
  | flush i =>
    obtain ⟨htold, hle⟩ := cost_flush hs h
    exact ⟨htold, hle, by simp [Stops]⟩
  | wake i =>
    simp only [step, Option.ite_none_right_eq_some, Option.some.injEq] at h
    obtain ⟨hi, rfl⟩ := h
    obtain ⟨hlt, hwoken⟩ := List.getElem?_eq_some_iff.mp hi
    have hcount : (s.flushers.set i (look s.logger)).count .entered = s.flushers.count .entered := by
      rw [List.count_set hlt, hwoken]
      simp [look_ne_entered]
    refine ⟨⟨hcloses, hs.2⟩, ?_, by simp [Stops]⟩
    simp only [cost, hcount, le_refl]

/-- As long as `Stop` has not returned, the backend or `Stop` can go on. -/
lemma stops_progress (s : WaitingLogger) (h : s.logger.stopper ≠ .leave .done) :
    ∃ m, Stops m ∧ (s.step m).isSome := by
  by_cases hjoin : s.logger.stopper = .join → s.logger.backend = .leave .done
  · refine ⟨.stop, .inr rfl, ?_⟩
    simp only [step, advance, Option.isSome_map]
    exact isSome_stopStep h hjoin
  · rw [Classical.not_imp] at hjoin
    refine ⟨.backend, .inl rfl, ?_⟩
    simp only [step, advance, Option.isSome_map]
    exact isSome_backendStep hjoin.2

/-- After `Stop` has told the logger to stop, it returns under every schedule: the steps of the
backend and of `Stop` that are left are bounded, whatever other threads do in `Flush` meanwhile, and
until `Stop` has returned one of them is possible. -/
theorem stop_returns (h : Reachable step started s) (htold : s.logger.stopper ≠ .idle)
    {ms : List Move} (hrun : run step s ms = some t) : ms.countP Stops ≤ s.cost ∧
      (t.logger.stopper = .leave .done ∨ ∃ m, Stops m ∧ (t.step m).isSome) := by
  have hcount := countP_add_cost_le step (fun s m t => cost_step)
    ⟨closes_of_reachable h, htold⟩ hrun
  refine ⟨(Nat.le_add_right _ _).trans hcount, ?_⟩
  by_cases hdone : t.logger.stopper = .leave .done
  · exact .inl hdone
  · exact .inr (stops_progress t hdone)

/-- Behind the store in `Stop` of the example, where nothing has been taken yet. -/
theorem stop_returns_stoppedWaiting :
    ∃ s, run step started stoppedWaiting = some s ∧ s.cost = 10 ∧
      ∀ ms t, run step s ms = some t → ms.countP Stops ≤ 10 := by
  have hrun : (run step started stoppedWaiting).any (fun s =>
      s.cost = 10 ∧ s.logger.stopper ≠ .idle) = true := by decide +kernel
  obtain ⟨s, hs, hstate⟩ := (Option.any_eq_true _ _).mp hrun
  obtain ⟨hcost, htold⟩ := of_decide_eq_true hstate
  refine ⟨s, hs, hcost, fun ms t hms => ?_⟩
  exact hcost ▸ (stop_returns ⟨_, hs⟩ htold hms).1

end WaitingLogger

end TinyWebServer
