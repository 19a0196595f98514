import TinyWebServer.Net.WheelSchedule

/-!
# Timers on time

A timer of `t` seconds is due on the `t`-th tick, or on the next one. One of less than a lap waits
for the hand to come to its slot. One of a lap or more should see the hand come round, but its task
moves with the hand once they have met.
-/

namespace TinyWebServer

variable {κ : Type*}

/-- What a tick returns, and the timers whose callbacks it ran. -/
structure TickReport (κ : Type*) where
  returned : ℕ
  ran : List (TimerTask κ)

/-- A tick, or an `AddTimeout` for another descriptor. -/
def WheelMove.Elsewhere (fd : ℤ) : WheelMove κ → Prop
  | .tick => True
  | .addTimeout fd' _ _ => fd' ≠ fd
  | .removeTimeout _ => False
  | .clear => False

/-- The ticks among some calls. -/
def ticks : List (WheelMove κ) → ℕ
  | [] => 0
  | .tick :: ms => ticks ms + 1
  | _ :: ms => ticks ms

namespace TimerWheel

variable {w : TimerWheel κ} {n : ℕ} {fd : ℤ} {c : Countdown κ} {ms : List (WheelMove κ)}

def report (calls : κ → List (WheelMove κ)) (w : TimerWheel κ) : TickReport κ :=
  let result := tick (runCallback calls) (w, [])
  ⟨result.1, result.2.2⟩

/-- One report for each tick of a run. -/
def reports (calls : κ → List (WheelMove κ)) : TimerWheel κ → List (WheelMove κ) →
    List (TickReport κ)
  | _, [] => []
  | w, .tick :: ms => w.report calls :: reports calls (w.next calls .tick).1 ms
  | w, m :: ms => reports calls (w.next calls m).1 ms

/-! ### The countdown along a run -/

lemma countdownNext_of_ne {fd' : ℤ} (hne : fd' ≠ fd) (n : ℕ) (c : Countdown κ) (timeoutSeconds : ℤ)
    (callback : Option κ) :
    countdownNext n fd c (.addTimeout fd' timeoutSeconds callback) = c := by
  cases callback with
  | none => rfl
  | some callback => simp [countdownNext, hne]

lemma foldl_countdownNext (hms : ∀ m ∈ ms, m.Elsewhere fd) (c : Countdown κ) :
    ms.foldl (countdownNext n fd) c = Countdown.tick^[ticks ms] c := by
  induction ms generalizing c with
  | nil => rfl
  | cons m ms ih =>
    rw [List.forall_mem_cons] at hms
    rw [List.foldl_cons, ih hms.2]
    cases m with
    | tick => rfl
    | addTimeout fd' timeoutSeconds callback =>
      rw [countdownNext_of_ne hms.1]
      rfl
    | removeTimeout fd' => exact hms.1.elim
    | clear => exact hms.1.elim

lemma reports_spec (calls : κ → List (WheelMove κ)) (h : Idle n w) (hshows : Shows fd c w)
    (hms : ∀ m ∈ ms, m.Elsewhere fd) :
    (reports calls w ms).length = ticks ms ∧
    ∀ k report, (reports calls w ms)[k]? = some report →
      report.returned = report.ran.length ∧
      (report.ran.filter (·.fd = fd)).map (·.callback) = (Countdown.tick^[k] c).fires := by
  induction ms generalizing w c with
  | nil => exact ⟨rfl, fun k report hreport => by simp [reports] at hreport⟩
  | cons m ms ih =>
    rw [List.forall_mem_cons] at hms
    have hnext : Idle n (w.next calls m).1 := h.next m
    have hshows' := hshows.next calls h m
    obtain ⟨hlength, hreports⟩ := ih hnext hshows' hms.2
    cases m with
    | tick =>
      refine ⟨congrArg (· + 1) hlength, fun k report hreport => ?_⟩
      cases k with
      | zero =>
        cases hreport
        exact ⟨(tick_ran calls h).1, (hshows.tick calls h).2⟩
      | succ k => exact hreports k report hreport
    | addTimeout fd' timeoutSeconds callback =>
      rw [countdownNext_of_ne hms.1] at hreports
      exact ⟨hlength, hreports⟩
    | removeTimeout fd' => exact hms.1.elim
    | clear => exact hms.1.elim

/-- A timer that is pending runs in the tick behind its waits and laps, and in no other. -/
lemma ran_iff (calls : κ → List (WheelMove κ)) (h : Idle n w) {callback : κ} {waits : ℕ} {laps : ℤ}
    (hshows : Shows fd (.pending callback waits laps) w) (hms : ∀ m ∈ ms, m.Elsewhere fd) {k : ℕ}
    {report : TickReport κ} (hreport : (reports calls w ms)[k]? = some report) :
    (∃ task ∈ report.ran, task.fd = fd) ↔ k = waits + laps.toNat := by
  have hran := ((reports_spec calls h hshows hms).2 k report hreport).2
  rw [Countdown.fires_iterate_tick] at hran
  constructor
  · rintro ⟨task, htask, hfd⟩
    by_contra hne
    rw [if_neg hne, List.map_eq_nil_iff, List.filter_eq_nil_iff] at hran
    exact hran task htask (decide_eq_true hfd)
  · rintro rfl
    by_contra hnone
    have hempty : report.ran.filter (·.fd = fd) = [] := by
      rw [List.filter_eq_nil_iff]
      intro task htask
      simpa using fun hfd => hnone ⟨task, htask, hfd⟩
    rw [hempty, if_pos rfl] at hran
    cases hran

/-! ### Waits and laps -/

/-- A timeout past the first lap waits for its laps only if a lap is one tick, or in the second
tick of the second lap of two slots. -/
lemma le_waits_add_laps_iff (hn : 1 ≤ n) {t : ℕ} (hle : n ≤ t) :
    t ≤ t % n + (if t ≤ n then 0 else t / n) + 1 ↔ n = 1 ∨ n = 2 ∧ t = 3 := by
  have hdiv := Nat.div_add_mod t n
  rcases eq_or_lt_of_le hle with rfl | hlt
  · rw [if_pos le_rfl, Nat.mod_self]
    omega
  rw [if_neg (by omega)]
  have hlaps : 1 ≤ t / n := Nat.div_pos hle hn
  constructor
  · intro hearly
    -- Each lap but for one tick is missing.
    have hmissing : n * (t / n) ≤ t / n + 1 := by omega
    rcases eq_or_lt_of_le hn with hone | htwo
    · exact Or.inl hone.symm
    · right
      have hdouble : 2 * (t / n) ≤ n * (t / n) := Nat.mul_le_mul_right _ htwo
      have hlap : t / n = 1 := by omega
      rw [hlap] at hmissing hdiv
      have htwo' : n = 2 := by omega
      subst htwo'
      omega
  · rintro (rfl | ⟨rfl, rfl⟩)
    · rw [Nat.div_one]
      omega
    · norm_num

lemma waits_add_laps_le (n t : ℕ) : t % n + (if t ≤ n then 0 else t / n) ≤ t := by
  split_ifs with hle
  · exact Nat.mod_le t n
  · have hdiv := Nat.div_add_mod t n
    rcases Nat.eq_zero_or_pos n with rfl | hn
    · simp
    · have : t / n ≤ n * (t / n) := Nat.le_mul_of_pos_left _ hn
      omega

/-! ### Timeouts of a lap or more -/

/-- The timer of the descriptor fires on the `t`-th tick or on the next one. -/
structure OnTime (fd : ℤ) (t : ℕ) (reports : List (TickReport κ)) : Prop where
  due : ∀ (k : ℕ) (report : TickReport κ), reports[k]? = some report →
    (∃ task ∈ report.ran, task.fd = fd) → t ≤ k + 1 ∧ k + 1 ≤ t + 1
  fires : t + 1 ≤ reports.length →
    ∃ (k : ℕ) (report : TickReport κ), reports[k]? = some report ∧ ∃ task ∈ report.ran, task.fd = fd

/-- A timer of a lap or more is on time if and only if the wheel has one slot, or two and the
timeout is three seconds, or the run ends before it fires. It fires behind as many ticks as the
remainder of the timeout by the size and its laps make up, where a timeout of just one lap counts
as none. -/
theorem onTime_iff (hn : 1 ≤ n) (tickIntervalMs : ℤ) (calls : κ → List (WheelMove κ))
    {w : TimerWheel κ} (hw : Runs.Reachable (step calls) (new n tickIntervalMs) w) {fd : ℤ} {t : ℕ}
    (hle : n ≤ t) {callback : κ} (hadd : (w.addTimeout fd t (some callback)).1.isSuccess)
    {ms : List (WheelMove κ)} (hms : ∀ m ∈ ms, m.Elsewhere fd) :
    OnTime fd t (reports calls (w.addTimeout fd t (some callback)).2 ms) ↔
      n = 1 ∨ (n = 2 ∧ t = 3) ∨ ticks ms ≤ t % n + if t ≤ n then 0 else t / n := by
  have hidle := idle_of_reachable hn hw
  have haccepted : ¬ Refused n fd t (some callback) := by
    intro hrefused
    rw [← hidle.filed.wheelSize] at hrefused
    exact (addTimeout_of_refused hrefused).1 hadd
  have hint : n < 2 ^ 31 := by
    have hmax := toInt_lt (n * kMaxCycles)
    simp only [Refused, not_or, not_lt] at haccepted
    omega
  have hshows := shows_addTimeout hidle haccepted
  rw [waitsOf_of_lt hint, lapsOf_of_lt hint] at hshows
  have hafter := hidle.addTimeout fd t (some callback)
  have hlength := (reports_spec calls hafter hshows hms).1
  have hran : ∀ (k : ℕ) (report : TickReport κ),
      (reports calls (w.addTimeout fd t (some callback)).2 ms)[k]? = some report →
        ((∃ task ∈ report.ran, task.fd = fd) ↔ k = t % n + if t ≤ n then 0 else t / n) :=
    fun k report => ran_iff calls hafter hshows hms
  have hearly := le_waits_add_laps_iff hn hle
  have hlate := waits_add_laps_le n t
  generalize t % n + (if t ≤ n then 0 else t / n) = delay at hran hearly hlate ⊢
  rw [← or_assoc, ← hearly, ← hlength]
  constructor
  · intro hon
    rw [or_iff_not_imp_right, not_le]
    intro hlong
    have hreport := List.getElem?_eq_getElem hlong
    exact (hon.due delay _ hreport ((hran delay _ hreport).mpr rfl)).1
  · intro hdue
    constructor
    · intro k report hreport hfired
      have hk := (hran k report hreport).mp hfired
      have hlong := (List.getElem?_eq_some_iff.mp hreport).1
      omega
    · intro hlong
      have hbound :
          delay < (reports calls (w.addTimeout fd t (some callback)).2 ms).length := by omega
      have hreport := List.getElem?_eq_getElem hbound
      exact ⟨delay, _, hreport, (hran delay _ hreport).mpr rfl⟩

/-- Three seconds on a wheel of two slots. -/
theorem onTime_iff_two :
    OnTime 5 3 (reports (fun _ => []) ((new 2 1000).addTimeout 5 3 (some ())).2
        [.tick, .addTimeout 6 1 (some ()), .tick, .tick, .tick]) ↔
      2 = 1 ∨ (2 = 2 ∧ 3 = 3) ∨
        ticks [.tick, .addTimeout 6 1 (some ()), .tick, .tick, .tick] ≤
          3 % 2 + if 3 ≤ 2 then 0 else 3 / 2 :=
  onTime_iff (by norm_num) 1000 (fun _ => []) (Runs.Reachable.refl _ _) (by norm_num) (by decide)
    (by simp [WheelMove.Elsewhere])

/-- Ten minutes on a wheel of sixty slots pass in eleven ticks. -/
theorem early_ten_minutes :
    ¬ OnTime 5 600 (reports (fun _ => []) ((new 60 1000).addTimeout 5 600 (some ())).2
        (List.replicate 11 .tick)) := by
  intro hon
  have hran : ((reports (fun _ => []) ((new 60 1000).addTimeout 5 600 (some ())).2
      (List.replicate 11 .tick))[10]?).map (fun report => report.ran.map (·.fd)) = some [5] := by
    decide +kernel
  obtain ⟨report, hreport, hfds⟩ := Option.map_eq_some_iff.mp hran
  have hfired : (5 : ℤ) ∈ report.ran.map (·.fd) := by
    rw [hfds]
    exact List.mem_singleton_self 5
  have hdue := (hon.due 10 report hreport (List.mem_map.mp hfired)).1
  simp at hdue

/-! ### Timeouts of less than a lap -/

/-- Callbacks that do not touch the wheel. -/
def quiet : κ → List (WheelMove κ) := fun _ => []

/-- The callback runs in the tick behind the first `t` and in no other, the timer is pending until
then, and each tick counts the callbacks that it runs. -/
structure Punctual (fd : ℤ) (t : ℕ) (callback : κ) (w : TimerWheel κ) (ms : List (WheelMove κ)) :
    Prop where
  once : ∀ (k : ℕ) (report : TickReport κ), (reports quiet w ms)[k]? = some report →
    (report.ran.filter (·.fd = fd)).map (·.callback) = if k = t then [callback] else []
  hasTimer : ((w.after quiet ms).hasTimer fd).1 = decide (ticks ms ≤ t)
  returned : ∀ report ∈ reports quiet w ms, report.returned = report.ran.length

lemma hasTimer_of_shows (h : Idle n w) (hshows : Shows fd c w) (hfd : 0 ≤ fd) :
    (w.hasTimer fd).1 = true ↔ c ≠ .spent := by
  have hread : (w.hasTimer fd).1 = decide (fd ∈ w.timers) := by
    rw [hasTimer, if_neg (not_lt.mpr hfd), withLock, if_neg (by simp [h.free])]
  rw [hread, decide_eq_true_iff]
  cases c with
  | pending callback waits laps => exact iff_of_true hshows.2.mem_timers (by simp)
  | spent => exact iff_of_false hshows.1 (by simp)

/-- With a pending timer the run is punctual if the waits and the laps make up the timeout. -/
lemma punctual_of_shows (h : Idle n w) {callback : κ} {waits t : ℕ} {laps : ℤ} (hfd : 0 ≤ fd)
    (hshows : Shows fd (.pending callback waits laps) w) (ht : waits + laps.toNat = t)
    (hms : ∀ m ∈ ms, m.Elsewhere fd) : Punctual fd t callback w ms := by
  obtain ⟨-, hreports⟩ := reports_spec quiet h hshows hms
  have hafter := hshows.after quiet h ms
  rw [foldl_countdownNext hms] at hafter
  refine ⟨fun k report hreport => ?_, ?_, fun report hmem => ?_⟩
  · rw [(hreports k report hreport).2, Countdown.fires_iterate_tick, ht]
  · have hpending := hasTimer_of_shows (h.after quiet ms) hafter hfd
    rw [Ne, Countdown.iterate_tick_eq_spent_iff, ht, not_lt] at hpending
    rw [Bool.eq_iff_iff, hpending, decide_eq_true_iff]
  · obtain ⟨k, hk⟩ := List.mem_iff_getElem?.mp hmem
    exact (hreports k report hk).1

/-- A run of ticks past the timeout tells what the waits and the laps are. -/
lemma waits_add_laps_of_punctual (h : Idle n w) {callback : κ} {waits t : ℕ} {laps : ℤ}
    (hshows : Shows fd (.pending callback waits laps) w)
    (hall : ∀ ms, (∀ m ∈ ms, m.Elsewhere fd) → Punctual fd t callback w ms) :
    waits + laps.toNat = t := by
  have hms : ∀ m ∈ List.replicate (t + 1) (WheelMove.tick (κ := κ)), m.Elsewhere fd := by
    intro m hm
    rw [List.eq_of_mem_replicate hm]
    trivial
  have hticks : ∀ k, ticks (List.replicate k (WheelMove.tick (κ := κ))) = k := by
    intro k
    induction k with
    | zero => rfl
    | succ k ih => exact congrArg (· + 1) ih
  obtain ⟨hlength, hreports⟩ := reports_spec quiet h hshows hms
  rw [hticks] at hlength
  have hbound : t < (reports quiet w (List.replicate (t + 1) .tick)).length := by omega
  have hreport := List.getElem?_eq_getElem hbound
  have honce := (hall _ hms).once t _ hreport
  rw [(hreports t _ hreport).2, Countdown.fires_iterate_tick, if_pos rfl] at honce
  by_contra hne
  rw [if_neg (fun heq => hne heq.symm)] at honce
  cases honce

/-- A size whose cast is zero has a tenfold whose cast is zero. -/
lemma toInt_ne_zero_of_le {t : ℤ} (hpos : 0 < t) (hle : t ≤ toInt (n * kMaxCycles)) :
    toInt n ≠ 0 := by
  intro hzero
  obtain ⟨j, hj⟩ := exists_toInt_eq n
  obtain ⟨j', hj'⟩ := exists_toInt_eq (n * kMaxCycles)
  have hlt := toInt_lt (n * kMaxCycles)
  rw [Nat.cast_mul, show ((kMaxCycles : ℕ) : ℤ) = 10 from rfl] at hj'
  omega

/-- For less than a lap, the waits and the laps make up the timeout if the cast of the size is
not below it, or far enough below zero, or one. -/
lemma waits_add_laps_eq_iff {t : ℕ} (hlt : t < n) (hne : toInt n ≠ 0) :
    waitsOf n t + (lapsOf n t).toNat = t ↔
      (t : ℤ) ≤ toInt n ∨ toInt n = 1 ∨ (t : ℤ) < -toInt n := by
  rw [waitsOf, lapsOf]
  by_cases hround : (t : ℤ) ≤ toInt n
  · rw [if_pos hround, if_pos hround, Int.toNat_natCast, Nat.mod_eq_of_lt hlt]
    exact iff_of_true rfl (Or.inl hround)
  rw [if_neg hround, if_neg hround, or_iff_right hround]
  have hsmall : ∀ k : ℕ, (((t : ℤ).tmod k).toNat) % n = t % k := by
    intro k
    rw [← Int.ofNat_tmod, Int.toNat_natCast]
    exact Nat.mod_eq_of_lt ((Nat.mod_le t k).trans_lt hlt)
  rcases lt_or_gt_of_ne hne with hneg | hpos
  · obtain ⟨k, hk⟩ := Int.eq_ofNat_of_zero_le (show 0 ≤ -toInt n by omega)
    have hcast : toInt n = -(k : ℤ) := by omega
    have hlaps : ((t : ℤ).tdiv (-(k : ℤ))).toNat = 0 := by
      rw [Int.tdiv_neg, ← Int.ofNat_tdiv]
      exact Int.toNat_neg_natCast _
    rw [hcast, Int.tmod_neg, hsmall, hlaps, neg_neg, Nat.add_zero, Nat.cast_lt]
    rw [or_iff_right (by omega)]
    have hk : 0 < k := by omega
    exact ⟨fun heq => heq ▸ Nat.mod_lt t hk, Nat.mod_eq_of_lt⟩
  · obtain ⟨k, hk⟩ := Int.eq_ofNat_of_zero_le hpos.le
    rw [hk] at hround hpos ⊢
    rw [hsmall, ← Int.ofNat_tdiv, Int.toNat_natCast, or_iff_left (by omega), Nat.cast_eq_one]
    have hdiv := Nat.div_add_mod t k
    have hlaps : 1 ≤ t / k := Nat.div_pos (by omega) (by omega)
    constructor
    · intro heq
      have hone : k * (t / k) = 1 * (t / k) := by omega
      exact Nat.eq_of_mul_eq_mul_right hlaps hone
    · rintro rfl
      omega

/-- A timer of less than a lap, for a descriptor without one, is punctual in every run of ticks and
of `AddTimeout` for other descriptors if and only if the descriptor is not negative, the cast of
ten laps admits the timeout, and the cast of one lap leaves it alone. -/
theorem punctual_iff (hn : 2 ≤ n) (tickIntervalMs : ℤ) {w : TimerWheel κ}
    (hw : Runs.Reachable (step quiet) (new n tickIntervalMs) w) {fd : ℤ} (hfresh : fd ∉ w.timers)
    {t : ℕ} (ht : 1 ≤ t) (hlt : t < n) (callback : κ) :
    (∀ ms : List (WheelMove κ), (∀ m ∈ ms, m.Elsewhere fd) →
        Punctual fd t callback (w.addTimeout fd t (some callback)).2 ms) ↔
      0 ≤ fd ∧ (t : ℤ) ≤ toInt (n * kMaxCycles) ∧
        ((t : ℤ) ≤ toInt n ∨ toInt n = 1 ∨ (t : ℤ) < -toInt n) := by
  have hidle := idle_of_reachable (by omega) hw
  have hafter := hidle.addTimeout fd t (some callback)
  by_cases hrefused : Refused n fd t (some callback)
  · refine iff_of_false (fun hall => ?_) ?_
    · -- Nothing is pending behind a call that was turned down.
      have hpending := (hall [] (fun _ hm => nomatch hm)).hasTimer
      rw [← hidle.filed.wheelSize] at hrefused
      rw [(addTimeout_of_refused hrefused).2] at hpending
      have hnone : (w.hasTimer fd).1 = false := by
        rw [hasTimer]
        split_ifs
        · rfl
        · rw [withLock, if_neg (by simp [hidle.free])]
          simpa using hfresh
      change (w.hasTimer fd).1 = _ at hpending
      rw [hnone] at hpending
      simp [ticks] at hpending
    · rintro ⟨hfd, hmax, -⟩
      rcases hrefused with h | h | h | h
      · exact absurd h (not_lt.mpr hfd)
      · omega
      · cases h
      · exact absurd h (not_lt.mpr hmax)
  · have hshows := shows_addTimeout hidle hrefused
    simp only [Refused, not_or, not_lt] at hrefused
    obtain ⟨hfd, -, -, hmax⟩ := hrefused
    have hne := toInt_ne_zero_of_le (show (0 : ℤ) < t by omega) hmax
    rw [and_iff_right hfd, and_iff_right hmax, ← waits_add_laps_eq_iff hlt hne]
    constructor
    · exact waits_add_laps_of_punctual hafter hshows
    · intro hsum ms hms
      exact punctual_of_shows hafter hfd hshows hsum hms

/-- Thirty seconds on a wheel of sixty slots. -/
theorem punctual_iff_sixty :
    (∀ ms : List (WheelMove Unit), (∀ m ∈ ms, m.Elsewhere 5) →
        Punctual 5 30 () ((new 60 1000).addTimeout 5 30 (some ())).2 ms) ↔
      (0 : ℤ) ≤ 5 ∧ ((30 : ℕ) : ℤ) ≤ toInt (60 * kMaxCycles) ∧
        (((30 : ℕ) : ℤ) ≤ toInt 60 ∨ toInt 60 = 1 ∨ ((30 : ℕ) : ℤ) < -toInt 60) :=
  punctual_iff (by norm_num) 1000 (Runs.Reachable.refl _ _) (by simp [new]) (by norm_num)
    (by norm_num) ()

/-- One second on a wheel of `2 ^ 28` slots, whose ten laps are negative as an `int`. -/
theorem refused_second :
    ¬ ((new (2 ^ 28) 1000).addTimeout 5 1 (some ())).1.isSuccess ∧
    ¬ ∀ ms : List (WheelMove Unit), (∀ m ∈ ms, m.Elsewhere 5) →
        Punctual 5 1 () ((new (2 ^ 28) 1000).addTimeout 5 1 (some ())).2 ms := by
  have hrefused : Refused (new (2 ^ 28) 1000 : TimerWheel Unit).wheelSize 5 1 (some ()) := by
    decide
  refine ⟨(addTimeout_of_refused hrefused).1, fun hall => ?_⟩
  have hpending := (hall [] (fun _ hm => nomatch hm)).hasTimer
  rw [(addTimeout_of_refused hrefused).2] at hpending
  cases hpending

end TimerWheel

end TinyWebServer
