import TinyWebServer.Library.Runs

/-!
# Runs that come to an end

A run in which each step costs something is not longer than what can be spent, and where a step
can be made until a goal is reached the goal is reached.
-/

namespace Runs

variable {σ μ : Type*} (step : σ → μ → Option σ) {I : σ → Prop} {M : μ → Prop} {cost : σ → ℕ}

/-- Where each of the admitted steps costs something, a run of them is not longer than what can be
spent. -/
lemma length_le_of_cost
    (hcost : ∀ s m t, M m → I s → step s m = some t → I t ∧ cost t < cost s) {s t : σ} {ms : List μ}
    (hms : ∀ m ∈ ms, M m) (hs : I s) (h : run step s ms = some t) : ms.length ≤ cost s := by
  induction ms generalizing s with
  | nil => exact Nat.zero_le _
  | cons m ms ih =>
    rw [List.forall_mem_cons] at hms
    obtain ⟨u, hu, hrest⟩ := run_cons step h
    obtain ⟨hI, hless⟩ := hcost s m u hms.1 hs hu
    have hlength := ih hms.2 hI hrest
    rw [List.length_cons]
    omega

/-- Where each admitted step costs something and some moves earn something, the admitted steps of a
run are not more than what could be spent and what has been earned. -/
lemma countP_add_cost_le_of_earn [DecidablePred M] {earn : μ → ℕ}
    (hcost : ∀ s m t, I s → step s m = some t →
      I t ∧ cost t ≤ cost s + earn m ∧ (M m → cost t < cost s + earn m))
    {s t : σ} {ms : List μ} (hs : I s) (h : run step s ms = some t) :
    ms.countP M + cost t ≤ cost s + (ms.map earn).sum := by
  induction ms generalizing s with
  | nil =>
    cases h
    simp
  | cons m ms ih =>
    obtain ⟨u, hu, hrest⟩ := run_cons step h
    obtain ⟨hI, hle, hless⟩ := hcost s m u hs hu
    have hcount := ih hI hrest
    rw [List.countP_cons, List.map_cons, List.sum_cons]
    split_ifs with hm
    · have hlt := hless (of_decide_eq_true hm)
      omega
    · omega

/-- The admitted steps are not more than what can be spent, however many others lie between them
that cost nothing. -/
lemma countP_add_cost_le [DecidablePred M]
    (hcost : ∀ s m t, I s → step s m = some t → I t ∧ cost t ≤ cost s ∧ (M m → cost t < cost s))
    {s t : σ} {ms : List μ} (hs : I s) (h : run step s ms = some t) :
    ms.countP M + cost t ≤ cost s := by
  have hcount := @countP_add_cost_le_of_earn _ _ step I M cost _ (fun _ => 0) hcost _ _ _ hs h
  simpa using hcount

/-- Where a step that costs something can be made as long as the goal is not reached, some run of
admitted steps reaches the goal. -/
lemma exists_run_of_progress {goal : σ → Prop}
    (hprogress : ∀ s, I s → ¬ goal s → ∃ m t, M m ∧ step s m = some t ∧ I t ∧ cost t < cost s)
    {s : σ} (hs : I s) : ∃ ms t, (∀ m ∈ ms, M m) ∧ run step s ms = some t ∧ goal t := by
  induction hn : cost s using Nat.strongRecOn generalizing s with
  | ind n ih =>
    by_cases hgoal : goal s
    · exact ⟨[], s, by simp, rfl, hgoal⟩
    · obtain ⟨m, t, hm, hstep, ht, hless⟩ := hprogress s hs hgoal
      obtain ⟨ms, u, hms, hrun, hu⟩ := ih (cost t) (hn ▸ hless) ht rfl
      refine ⟨m :: ms, u, List.forall_mem_cons.mpr ⟨hm, hms⟩, ?_, hu⟩
      rw [run, hstep, Option.bind_some, hrun]

end Runs
