import TinyWebServer.Library.Runs

/-!
# Stocks that are refilled by the crate

A stock hands out units and takes them back. It fetches a new crate when, and only when, a unit is
asked for and none is left. Then the number of its crates depends on nothing but the greatest
number of units that were out at a time.
-/

namespace Runs

variable {σ μ : Type*} (step : σ → μ → Option σ) (measure : σ → ℕ)

/-- The values that a measure takes in the states of a run. -/
def values (s : σ) (ms : List μ) : Set ℕ :=
  {n | ∃ ms' t, ms' <+: ms ∧ run step s ms' = some t ∧ measure t = n}

/-- The greatest value that a measure takes in the states of a run. -/
def IsPeak (s : σ) (ms : List μ) (peak : ℕ) : Prop := IsGreatest (values step measure s ms) peak

variable {s t : σ} {ms : List μ} {m : μ} {peak : ℕ}

lemma values_nil : values step measure s [] = {measure s} := by
  ext n
  constructor
  · rintro ⟨ms', t, hbegins, hrun, rfl⟩
    cases List.prefix_nil.mp hbegins
    cases hrun
    rfl
  · rintro rfl
    exact ⟨[], s, List.nil_prefix, rfl, rfl⟩

lemma values_snoc (h : run step s (ms ++ [m]) = some t) :
    values step measure s (ms ++ [m]) = values step measure s ms ∪ {measure t} := by
  ext n
  constructor
  · rintro ⟨ms', u, hbegins, hrun, rfl⟩
    rcases List.prefix_concat_iff.mp hbegins with rfl | hbegins
    · cases h.symm.trans hrun
      exact Or.inr rfl
    · exact Or.inl ⟨ms', u, hbegins, hrun, rfl⟩
  · rintro (⟨ms', u, hbegins, hrun, rfl⟩ | rfl)
    · exact ⟨ms', u, hbegins.trans (List.prefix_append ms [m]), hrun, rfl⟩
    · exact ⟨ms ++ [m], t, List.prefix_rfl, h, rfl⟩

lemma isPeak_nil : IsPeak step measure s [] (measure s) := by
  rw [IsPeak, values_nil]
  exact isGreatest_singleton

lemma IsPeak.snoc (hpeak : IsPeak step measure s ms peak)
    (h : run step s (ms ++ [m]) = some t) :
    IsPeak step measure s (ms ++ [m]) (max peak (measure t)) := by
  rw [IsPeak, values_snoc step measure h]
  exact hpeak.union isGreatest_singleton

end Runs

/-- How many crates there are, how many units are in them and how many are out. -/
structure Stock where
  crates : ℕ
  free : ℕ
  out : ℕ

namespace Stock

/-- What happens to a stock with so many units to a crate. -/
inductive Step (perCrate : ℕ) (s t : Stock) : Prop
  | keep (same : t = s)
  | handOut (crates : t.crates = s.crates) (free : t.free + 1 = s.free) (out : t.out = s.out + 1)
  | fetch (empty : s.free = 0) (crates : t.crates = s.crates + 1) (free : t.free + 1 = perCrate)
    (out : t.out = s.out + 1)
  | takeBack (crates : t.crates = s.crates) (free : t.free = s.free + 1) (out : t.out + 1 = s.out)

/-- Every unit is accounted for, and there are as many crates as the peak needs. -/
structure Accounts (perCrate : ℕ) (s : Stock) (peak : ℕ) : Prop where
  units : s.free + s.out = perCrate * s.crates
  out_le : s.out ≤ peak
  crates : s.crates = peak ⌈/⌉ perCrate

variable {perCrate peak : ℕ} {s t : Stock}

lemma accounts_empty (perCrate : ℕ) : Accounts perCrate ⟨0, 0, 0⟩ 0 where
  units := rfl
  out_le := le_rfl
  crates := (zero_ceilDiv perCrate).symm

/-- The peak fits into the crates. -/
lemma Accounts.peak_le (h : Accounts perCrate s peak) (hpos : 0 < perCrate) :
    peak ≤ perCrate * s.crates :=
  (ceilDiv_le_iff_le_mul hpos).mp h.crates.ge

lemma Accounts.step (h : Accounts perCrate s peak) (hpos : 0 < perCrate)
    (hstep : Step perCrate s t) : Accounts perCrate t (max peak t.out) := by
  have hpeak := h.peak_le hpos
  have hunits := h.units
  have hout := h.out_le
  cases hstep with
  | keep same =>
    subst same
    rw [max_eq_left hout]
    exact h
  | handOut crates free out =>
    have hfits : t.out ≤ perCrate * s.crates := by omega
    refine ⟨?_, le_max_right .., ?_⟩
    · rw [crates]
      omega
    · apply le_antisymm
      · rw [crates, h.crates]
        exact (gc_mul_ceilDiv hpos).monotone_l (le_max_left ..)
      · rw [ceilDiv_le_iff_le_mul hpos, crates]
        exact max_le hpeak hfits
  | fetch empty crates free out =>
    -- Without a free unit the peak was reached again, and the next unit is one too many.
    have hfull : t.out = perCrate * s.crates + 1 := by omega
    have hlater : max peak t.out = perCrate * s.crates + 1 := by omega
    refine ⟨?_, le_max_right .., ?_⟩
    · rw [crates, Nat.mul_succ]
      omega
    · rw [hlater, crates]
      apply le_antisymm
      · apply Nat.succ_le_of_lt
        rw [lt_iff_not_ge, ceilDiv_le_iff_le_mul hpos]
        exact Nat.not_succ_le_self _
      · rw [ceilDiv_le_iff_le_mul hpos, Nat.mul_succ]
        omega
  | takeBack crates free out =>
    have hless : t.out ≤ peak := by omega
    rw [max_eq_left hless]
    refine ⟨?_, hless, crates.trans h.crates⟩
    rw [crates]
    omega

/-- A system whose steps do to a stock what can happen to it has behind every run as many crates as
the peak of the run needs. -/
theorem accounts_run {σ μ : Type*} {step : σ → μ → Option σ} {I : σ → Prop} (stock : σ → Stock)
    (hpos : 0 < perCrate) (hinv : ∀ s m t, I s → step s m = some t → I t)
    (hstep : ∀ s m t, I s → step s m = some t → Step perCrate (stock s) (stock t)) {s : σ}
    (hI : I s) (hempty : stock s = ⟨0, 0, 0⟩) {ms : List μ} {t : σ}
    (h : Runs.run step s ms = some t) :
    ∃ peak, Runs.IsPeak step (fun s => (stock s).out) s ms peak ∧
      Accounts perCrate (stock t) peak := by
  induction ms using List.reverseRecOn generalizing t with
  | nil =>
    cases h
    refine ⟨_, Runs.isPeak_nil step _, ?_⟩
    rw [hempty]
    exact accounts_empty perCrate
  | append_singleton ms m ih =>
    obtain ⟨u, hu, hlast⟩ := Runs.run_snoc step h
    obtain ⟨peak, hpeak, haccounts⟩ := ih hu
    exact ⟨_, hpeak.snoc step _ h,
      haccounts.step hpos (hstep u m t (Runs.invariant_run step hinv hI hu) hlast)⟩

end Stock
