import Mathlib

/-!
# Runs of a system with labelled steps

A system makes a step for a move if the move is enabled. What every step preserves holds along
every run, and a run that meets a condition at each of its steps keeps what the condition
protects.
-/

namespace Runs

variable {σ μ : Type*} (step : σ → μ → Option σ)

/-- The state behind a list of moves, if each of them was enabled. -/
def run (s : σ) : List μ → Option σ
  | [] => some s
  | m :: ms => (step s m).bind fun t => run t ms

lemma run_cons {s t : σ} {m : μ} {ms : List μ} (h : run step s (m :: ms) = some t) :
    ∃ u, step s m = some u ∧ run step u ms = some t :=
  Option.bind_eq_some_iff.mp h

lemma run_append (s : σ) (ms ms' : List μ) :
    run step s (ms ++ ms') = (run step s ms).bind fun t => run step t ms' := by
  induction ms generalizing s with
  | nil => rfl
  | cons m ms ih =>
    rw [List.cons_append, run, run, Option.bind_assoc]
    congr 1
    funext t
    exact ih t

lemma run_snoc {s t : σ} {ms : List μ} {m : μ} (h : run step s (ms ++ [m]) = some t) :
    ∃ u, run step s ms = some u ∧ step u m = some t := by
  rw [run_append] at h
  obtain ⟨u, hu, hlast⟩ := Option.bind_eq_some_iff.mp h
  obtain ⟨v, hv, hnil⟩ := run_cons step hlast
  cases hnil
  exact ⟨u, hu, hv⟩

/-- Each move of a run makes its step. -/
lemma exists_step_of_isPrefix {s t : σ} {ms ms' : List μ} {m : μ} (h : run step s ms = some t)
    (hbegins : ms' ++ [m] <+: ms) : ∃ u v, run step s ms' = some u ∧ step u m = some v := by
  obtain ⟨rest, rfl⟩ := hbegins
  rw [run_append] at h
  obtain ⟨v, hv, -⟩ := Option.bind_eq_some_iff.mp h
  obtain ⟨u, hu, hlast⟩ := run_snoc step hv
  exact ⟨u, v, hu, hlast⟩

/-- A state that some list of moves leads to. -/
def Reachable (s t : σ) : Prop := ∃ ms, run step s ms = some t

lemma Reachable.refl (s : σ) : Reachable step s s := ⟨[], rfl⟩

lemma Reachable.trans {s t u : σ} (hst : Reachable step s t) (htu : Reachable step t u) :
    Reachable step s u := by
  obtain ⟨ms, hms⟩ := hst
  obtain ⟨ms', hms'⟩ := htu
  refine ⟨ms ++ ms', ?_⟩
  rw [run_append, hms, Option.bind_some, hms']

/-- The move behind a beginning of a run is one of the run. -/
lemma mem_of_snoc_isPrefix {ms ms' : List μ} {m : μ} (h : ms' ++ [m] <+: ms) : m ∈ ms :=
  h.subset (List.mem_append_right ms' (List.mem_singleton_self m))

/-- What every step for one of the admitted moves preserves holds along a run of such moves. -/
lemma invariant_run_of {P : σ → Prop} {M : μ → Prop}
    (hstep : ∀ s m t, M m → P s → step s m = some t → P t) {s t : σ} {ms : List μ}
    (hms : ∀ m ∈ ms, M m) (hs : P s) (h : run step s ms = some t) : P t := by
  induction ms generalizing s with
  | nil =>
    cases h
    exact hs
  | cons m ms ih =>
    rw [List.forall_mem_cons] at hms
    obtain ⟨u, hu, hrest⟩ := run_cons step h
    exact ih hms.2 (hstep s m u hms.1 hs hu) hrest

/-- What every step preserves holds along every run. -/
lemma invariant_run {P : σ → Prop} (hstep : ∀ s m t, P s → step s m = some t → P t) {s t : σ}
    {ms : List μ} (hs : P s) (h : run step s ms = some t) : P t :=
  invariant_run_of step (fun s m t (_ : True) => hstep s m t) (fun _ _ => trivial) hs h

lemma Reachable.invariant {P : σ → Prop} (hstep : ∀ s m t, P s → step s m = some t → P t)
    {s t : σ} (h : Reachable step s t) (hs : P s) : P t := by
  obtain ⟨ms, hms⟩ := h
  exact invariant_run step hstep hs hms

/-- What a record of the moves keeps in step with the states agrees with them behind every run. -/
lemma run_simulates {τ : Type*} {record : τ → μ → τ} {R : σ → τ → Prop}
    (hstep : ∀ s t m u, R s t → step s m = some u → R u (record t m)) {s u : σ} {t : τ}
    {ms : List μ} (hR : R s t) (h : run step s ms = some u) : R u (ms.foldl record t) := by
  induction ms generalizing s t with
  | nil =>
    cases h
    exact hR
  | cons m ms ih =>
    obtain ⟨v, hv, hrest⟩ := run_cons step h
    exact ih (hstep s t m v hR hv) hrest

/-- A run that meets a condition at each of its steps keeps what the condition protects. -/
theorem forall_run_of {P : σ → Prop} {C : σ → μ → Prop}
    (hstep : ∀ s m t, C s m → P s → step s m = some t → P t) {s : σ} (hP : P s) {ms : List μ}
    (hms : ∀ ms' m u, ms' ++ [m] <+: ms → run step s ms' = some u → C u m) :
    ∀ ms' u, ms' <+: ms → run step s ms' = some u → P u := by
  intro ms'
  induction ms' using List.reverseRecOn with
  | nil =>
    intro u _ hu
    cases hu
    exact hP
  | append_singleton ms' m ih =>
    intro v hbegins hv
    obtain ⟨u, hu, hlast⟩ := run_snoc step hv
    have hPu := ih u ((List.prefix_append ms' [m]).trans hbegins) hu
    exact hstep u m v (hms ms' m u hbegins hu) hPu hlast

/-- A property that a step keeps or breaks according to a condition holds everywhere on a run if
and only if the condition holds at each step. -/
theorem forall_run_iff_of {I P : σ → Prop} {C : σ → μ → Prop} {M : μ → Prop}
    (hinv : ∀ s m t, M m → I s → step s m = some t → I t)
    (hstep : ∀ s m t, M m → I s → P s → step s m = some t → (P t ↔ C s m)) {s : σ} (hI : I s)
    (hP : P s) {ms : List μ} (hms : ∀ m ∈ ms, M m) {t : σ} (h : run step s ms = some t) :
    (∀ ms' u, ms' <+: ms → run step s ms' = some u → P u) ↔
      ∀ ms' m u, ms' ++ [m] <+: ms → run step s ms' = some u → C u m := by
  have hmove : ∀ {ms' m}, ms' ++ [m] <+: ms → M m := fun h =>
    hms _ (mem_of_snoc_isPrefix h)
  have hreach : ∀ {ms' m u}, ms' ++ [m] <+: ms → run step s ms' = some u → I u := fun h hu =>
    invariant_run_of step hinv (fun m hm => hms m (h.subset (List.mem_append_left _ hm))) hI hu
  have hnext : ∀ {ms' m u}, ms' ++ [m] <+: ms → run step s ms' = some u →
      ∃ v, step u m = some v ∧ run step s (ms' ++ [m]) = some v := by
    intro ms' m u hbegins hu
    obtain ⟨u', v, hu', hlast⟩ := exists_step_of_isPrefix step h hbegins
    cases hu.symm.trans hu'
    refine ⟨v, hlast, ?_⟩
    rw [run_append, hu]
    simp only [Option.bind_some, run, hlast]
  constructor
  · intro hall ms' m u hprefix hu
    obtain ⟨v, hv, hrun⟩ := hnext hprefix hu
    have hPu := hall ms' u ((List.prefix_append ms' [m]).trans hprefix) hu
    exact (hstep u m v (hmove hprefix) (hreach hprefix hu) hPu hv).mp
      (hall (ms' ++ [m]) v hprefix hrun)
  · intro hall ms' u hprefix hu
    have hboth := forall_run_of step (P := fun u => I u ∧ P u) (C := fun u m => M m ∧ C u m)
      (fun u m v hm hu hv => ⟨hinv u m v hm.1 hu.1 hv, (hstep u m v hm.1 hu.1 hu.2 hv).mpr hm.2⟩)
      ⟨hI, hP⟩ (fun ms' m u hbegins hu => ⟨hmove hbegins, hall ms' m u hbegins hu⟩)
    exact (hboth ms' u hprefix hu).2

/-- The same for runs of any moves. -/
theorem forall_run_iff {I P : σ → Prop} {C : σ → μ → Prop}
    (hinv : ∀ s m t, I s → step s m = some t → I t)
    (hstep : ∀ s m t, I s → P s → step s m = some t → (P t ↔ C s m)) {s : σ} (hI : I s) (hP : P s)
    {ms : List μ} {t : σ} (h : run step s ms = some t) :
    (∀ ms' u, ms' <+: ms → run step s ms' = some u → P u) ↔
      ∀ ms' m u, ms' ++ [m] <+: ms → run step s ms' = some u → C u m :=
  forall_run_iff_of step (fun s m t (_ : True) => hinv s m t) (fun s m t _ => hstep s m t) hI hP
    (fun _ _ => trivial) h

/-- A property of the steps that agrees with a condition in every state an invariant allows holds
at each step of a run if and only if the condition does. -/
theorem forall_step_iff {I : σ → Prop} {Q C : σ → μ → Prop}
    (hinv : ∀ s m t, I s → step s m = some t → I t) (hstep : ∀ s m, I s → (Q s m ↔ C s m)) {s : σ}
    (hI : I s) (ms : List μ) :
    (∀ ms' m u, ms' ++ [m] <+: ms → run step s ms' = some u → Q u m) ↔
      ∀ ms' m u, ms' ++ [m] <+: ms → run step s ms' = some u → C u m := by
  have hreach : ∀ {ms' u}, run step s ms' = some u → I u := fun hu =>
    invariant_run step hinv hI hu
  constructor
  · intro hall ms' m u hbegins hu
    exact (hstep u m (hreach hu)).mp (hall ms' m u hbegins hu)
  · intro hall ms' m u hbegins hu
    exact (hstep u m (hreach hu)).mpr (hall ms' m u hbegins hu)

/-- What holds at each step of a run holds at the first one and at those that follow. -/
lemma forall_step_cons {C : σ → μ → Prop} {s : σ} {m : μ} {ms : List μ} (hfirst : C s m)
    (hrest : ∀ t, step s m = some t →
      ∀ ms' m' u, ms' ++ [m'] <+: ms → run step t ms' = some u → C u m') :
    ∀ ms' m' u, ms' ++ [m'] <+: m :: ms → run step s ms' = some u → C u m' := by
  intro ms' m' u hbegins hu
  cases ms' with
  | nil =>
    cases hu
    rw [List.nil_append, List.cons_prefix_cons] at hbegins
    exact hbegins.1 ▸ hfirst
  | cons m₀ ms' =>
    rw [List.cons_append, List.cons_prefix_cons] at hbegins
    obtain ⟨t, ht, hrun⟩ := run_cons step hu
    exact hrest t (hbegins.1 ▸ ht) ms' m' u hbegins.2 hrun

/-- The condition holds at each step of a run if and only if it does at the first one and at those
that follow. -/
lemma forall_step_cons_iff {C : σ → μ → Prop} {s t : σ} {m : μ} {ms : List μ}
    (ht : step s m = some t) :
    (∀ ms' m' u, ms' ++ [m'] <+: m :: ms → run step s ms' = some u → C u m') ↔
      C s m ∧ ∀ ms' m' u, ms' ++ [m'] <+: ms → run step t ms' = some u → C u m' := by
  constructor
  · intro h
    refine ⟨h [] m s (List.cons_prefix_cons.mpr ⟨rfl, List.nil_prefix⟩) rfl, ?_⟩
    intro ms' m' u hbegins hu
    refine h (m :: ms') m' u (List.cons_prefix_cons.mpr ⟨rfl, hbegins⟩) ?_
    rw [run, ht]
    exact hu
  · rintro ⟨hfirst, hrest⟩
    apply forall_step_cons step hfirst
    intro t' ht'
    cases ht.symm.trans ht'
    exact hrest

end Runs
