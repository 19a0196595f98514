import TinyWebServer.Net.WheelSchedule

/-!
# The slot of a cancellation

A task does not store its slot. A cancellation takes the laps of the task for the number of slots
between the hand and the task, which they are only by chance.
-/

namespace TinyWebServer

namespace TimerWheel

variable {κ : Type*} {P : ℤ → κ → Prop} {w : TimerWheel κ} {n : ℕ} {fd : ℤ} {c : Countdown κ}

/-- The slot whose list a cancellation erases the task from. -/
def cancelSlot (w : TimerWheel κ) (fd : ℤ) : ℕ :=
  addInt w.currentSlot ((w.node fd).elim 0 (·.remainingTicks)) % w.wheelSize

/-- `RemoveTimeout` and the replacement in `AddTimeout` erase from that slot. -/
lemma detach_eq_erase (hmem : fd ∈ w.timers) :
    w.detach fd =
      { w.erase (w.cancelSlot fd) fd with
        timers := (w.erase (w.cancelSlot fd) fd).timers.filter (· ≠ fd)
        totalTasksCancelled := (w.erase (w.cancelSlot fd) fd).totalTasksCancelled + 1 } := by
  rw [detach, if_pos hmem]
  rfl

/-! ### What a cancellation computes -/

lemma mem_of_hangs {task : TimerTask κ} {slot : ℕ} (h : Hangs task slot w) :
    task ∈ w.wheel slot := by
  have htask := h.tasks slot
  rw [if_pos rfl] at htask
  apply List.mem_of_mem_filter (p := (·.fd = task.fd))
  rw [htask]
  exact List.mem_singleton_self task

lemma eq_of_hangs {task other : TimerTask κ} {slot i : ℕ} (h : Hangs task slot w)
    (hother : other ∈ w.wheel i) (hfd : other.fd = task.fd) : i = slot ∧ other = task := by
  have hmem : other ∈ (w.wheel i).filter (·.fd = task.fd) :=
    List.mem_filter.mpr ⟨hother, decide_eq_true hfd⟩
  rw [h.tasks] at hmem
  split_ifs at hmem with hi
  · exact ⟨hi, List.mem_singleton.mp hmem⟩
  · cases hmem

lemma node_of_hangs (hinv : Inv P w) {task : TimerTask κ} {slot : ℕ} (h : Hangs task slot w) :
    w.node task.fd = some task := by
  have htask := mem_of_hangs h
  cases hnode : w.node task.fd with
  | none =>
    have hslot : slot < w.slotCount := by
      rw [hinv.slotCount_eq]
      exact hinv.slot_lt slot task htask
    have hmem : task ∈ w.tasks :=
      List.mem_flatMap.mpr ⟨slot, List.mem_range.mpr hslot, htask⟩
    exact absurd (decide_eq_true rfl) (List.find?_eq_none.mp hnode task hmem)
  | some other =>
    obtain ⟨i, -, hother⟩ := List.mem_flatMap.mp (List.mem_of_find?_eq_some hnode)
    have hfd : other.fd = task.fd := by
      have hfound : w.tasks.find? (·.fd = task.fd) = some other := hnode
      simpa using List.find?_some hfound
    rw [(eq_of_hangs h hother hfd).2]

/-- Taken from one slot, a signed number and a number of slots lead to the same slot if they agree
up to full rounds, where a sum below zero comes out `2 ^ 64` higher. -/
lemma addInt_modEq_iff {slot waits : ℕ} {k : ℤ} (hk : -2 ^ 64 ≤ slot + k) :
    addInt slot k ≡ slot + waits [MOD n] ↔
      (if slot + k < 0 then k + 2 ^ 64 else k) ≡ waits [ZMOD n] := by
  have hsum : (addInt slot k : ℤ) = slot + if slot + k < 0 then k + 2 ^ 64 else k := by
    rw [addInt]
    split_ifs
    · rw [Int.toNat_of_nonneg (by omega), add_assoc]
    · rw [Int.toNat_of_nonneg (by omega)]
  rw [← Int.natCast_modEq_iff, hsum, Nat.cast_add]
  exact ⟨fun h => h.add_left_cancel' _, fun h => h.add_left _⟩

/-- The computed slot is the right one if the laps agree with the slots in between. -/
lemma mem_cancelSlot_iff (h : Idle n w) {callback : κ} {waits : ℕ} {laps : ℤ}
    (hlaps : -2 ^ 64 ≤ w.currentSlot + laps)
    (hshows : Shows fd (.pending callback waits laps) w) :
    (∃ task ∈ w.wheel (w.cancelSlot fd), task.fd = fd) ↔
      (if w.currentSlot + laps < 0 then laps + 2 ^ 64 else laps) ≡ waits [ZMOD n] := by
  obtain ⟨-, hhangs⟩ := hshows
  have hnode : w.node fd = some ⟨fd, callback, laps⟩ := node_of_hangs h.filed.inv hhangs
  have hslot : w.cancelSlot fd = addInt w.currentSlot laps % w.wheelSize := by
    rw [cancelSlot, hnode]
    rfl
  rw [hslot, ← addInt_modEq_iff hlaps]
  rw [h.filed.wheelSize] at hhangs ⊢
  constructor
  · rintro ⟨task, htask, hfd⟩
    exact (eq_of_hangs hhangs htask hfd).1
  · intro hagree
    rw [Nat.ModEq] at hagree
    rw [hagree]
    exact ⟨_, mem_of_hangs hhangs, rfl⟩

/-! ### The age of a timer -/

/-- The timeout of the timer that a descriptor has got last, and the ticks since. -/
structure Setting where
  timeoutSeconds : ℤ
  age : ℕ

def settingNext (n : ℕ) (fd : ℤ) (a : Option Setting) : WheelMove κ → Option Setting
  | .addTimeout fd' timeoutSeconds callback =>
    if fd' = fd ∧ ¬ Refused n fd' timeoutSeconds callback then some ⟨timeoutSeconds, 0⟩ else a
  | .removeTimeout fd' => if fd' = fd ∧ 0 ≤ fd then none else a
  | .clear => none
  | .tick => a.map fun set => { set with age := set.age + 1 }

/-- The timer that the calls have left the descriptor, unless it has fired since. -/
def lastSetting (n : ℕ) (fd : ℤ) (ms : List (WheelMove κ)) : Option Setting :=
  ms.foldl (settingNext n fd) none

/-- The countdown is that of the timer, as many ticks later as it is old. -/
def Aged (n : ℕ) : Option Setting → Countdown κ → Prop
  | none, c => c = .spent
  | some set, c =>
    0 < set.timeoutSeconds ∧ set.timeoutSeconds ≤ toInt (n * kMaxCycles) ∧
      ∃ callback, c = Countdown.tick^[set.age]
        (.pending callback (waitsOf n set.timeoutSeconds) (lapsOf n set.timeoutSeconds))

lemma Aged.next {a : Option Setting} (h : Aged n a c) (m : WheelMove κ) :
    Aged n (settingNext n fd a m) (countdownNext n fd c m) := by
  cases m with
  | addTimeout fd' timeoutSeconds callback =>
    by_cases hset : fd' = fd ∧ ¬ Refused n fd' timeoutSeconds callback
    · rw [settingNext, if_pos hset]
      cases callback with
      | none => exact absurd (Or.inr (Or.inr (Or.inl rfl))) hset.2
      | some callback =>
        rw [countdownNext, if_pos hset]
        have haccepted := hset.2
        simp only [Refused, not_or, not_lt, not_le] at haccepted
        obtain ⟨-, hpos, -, hmax⟩ := haccepted
        exact ⟨hpos, hmax, callback, rfl⟩
    · rw [settingNext, if_neg hset]
      cases callback with
      | none => exact h
      | some callback =>
        rw [countdownNext, if_neg hset]
        exact h
  | removeTimeout fd' =>
    rw [settingNext, countdownNext]
    split_ifs
    · exact rfl
    · exact h
  | clear => exact rfl
  | tick =>
    cases a with
    | none =>
      cases h
      exact rfl
    | some set =>
      obtain ⟨hpos, hmax, callback, rfl⟩ := h
      exact ⟨hpos, hmax, callback, (Function.iterate_succ_apply' Countdown.tick set.age _).symm⟩

lemma aged_lastSetting (n : ℕ) (fd : ℤ) (ms : List (WheelMove κ)) :
    Aged n (lastSetting n fd ms) (ms.foldl (countdownNext n fd) .spent) := by
  have hrun : ∀ (ms : List (WheelMove κ)) (a : Option Setting) (c : Countdown κ), Aged n a c →
      Aged n (ms.foldl (settingNext n fd) a) (ms.foldl (countdownNext n fd) c) := by
    intro ms
    induction ms with
    | nil => exact fun a c h => h
    | cons m ms ih => exact fun a c h => ih _ _ (h.next m)
  exact hrun ms none .spent rfl

/-! ### When it is the right one -/

/-- With `a` ticks behind a timeout of `t` seconds, the laps that are left agree with the slots
that are left to wait, up to full rounds of the wheel. Laps below zero, which only a size past the
`int` range gives, come out `2 ^ 64` higher unless the current slot makes up for them. -/
def Hits (n currentSlot : ℕ) (t : ℤ) (a : ℕ) : Prop :=
  let left := lapsOf n t - (a - waitsOf n t : ℕ)
  (if currentSlot + left < 0 then left + 2 ^ 64 else left) ≡ (waitsOf n t - a : ℕ) [ZMOD n]

instance (n currentSlot : ℕ) (t : ℤ) (a : ℕ) : Decidable (Hits n currentSlot t a) :=
  inferInstanceAs (Decidable (_ ≡ _ [ZMOD n]))

/-- For a size in the `int` range the current slot does not matter. -/
lemma hits_iff_of_lt (hint : n < 2 ^ 31) (currentSlot : ℕ) {t a : ℕ}
    (ha : a ≤ t % n + if t ≤ n then 0 else t / n) :
    Hits n currentSlot t a ↔
      t % n - a ≡ (if t ≤ n then 0 else t / n) - (a - t % n) [MOD n] := by
  rw [Hits, waitsOf_of_lt hint, lapsOf_of_lt hint]
  generalize (if t ≤ n then 0 else t / n) = laps at ha ⊢
  have hleft : (laps : ℤ) - (a - t % n : ℕ) = (laps - (a - t % n) : ℕ) := by omega
  simp only [hleft]
  rw [if_neg (by omega), Int.natCast_modEq_iff]
  exact Nat.ModEq.comm

/-- A timer of less than a lap is looked for in the right slot when its own tick is next. -/
lemma hits_iff_of_short (hint : n < 2 ^ 31) (currentSlot : ℕ) {t a : ℕ} (ht : t < n)
    (ha : a ≤ t) : Hits n currentSlot t a ↔ a = t := by
  have hmod : t % n = t := Nat.mod_eq_of_lt ht
  have hbound : a ≤ t % n + if t ≤ n then 0 else t / n := by
    rw [hmod]
    exact ha.trans (Nat.le_add_right _ _)
  rw [hits_iff_of_lt hint currentSlot hbound, if_pos ht.le, hmod, Nat.zero_sub,
    Nat.modEq_zero_iff_dvd]
  constructor
  · intro hdvd
    have hzero := Nat.eq_zero_of_dvd_of_lt hdvd (by omega)
    omega
  · rintro rfl
    rw [Nat.sub_self]
    exact Nat.dvd_zero n

/-- A division cannot make the laps larger than the timeout, in either direction. -/
lemma neg_le_lapsOf {t : ℤ} (hpos : 0 < t) : -t ≤ lapsOf n t := by
  rw [lapsOf]
  split_ifs
  · omega
  · have habs : (t.tdiv (toInt n)).natAbs ≤ t.natAbs := by
      rw [Int.natAbs_tdiv]
      exact Nat.div_le_self _ _
    omega

/-- In every state that a wheel reaches, the slot that a cancellation computes for a pending
descriptor is that of its task if and only if the timeout of its timer and the ticks since say so,
with the current slot where the laps are negative. -/
theorem cancelSlot_iff (n : ℕ) (tickIntervalMs : ℤ) (calls : κ → List (WheelMove κ))
    {ms : List (WheelMove κ)} {w : TimerWheel κ}
    (h : Runs.run (step calls) (new n tickIntervalMs) ms = some w) {fd : ℤ} (hfd : fd ∈ w.timers) :
    ∃ set, lastSetting n fd ms = some set ∧
      ((∃ task ∈ w.wheel (w.cancelSlot fd), task.fd = fd) ↔
        Hits n w.currentSlot set.timeoutSeconds set.age) := by
  rcases Nat.eq_zero_or_pos n with rfl | hn
  · rw [(hollow_of_reachable ⟨ms, h⟩).timers] at hfd
    cases hfd
  have hidle := idle_of_reachable hn ⟨ms, h⟩
  have hshows := (shows_new n tickIntervalMs fd).after calls (idle_new hn tickIntervalMs) ms
  rw [← eq_after_of_run h] at hshows
  have haged := aged_lastSetting n fd ms
  cases hset : lastSetting n fd ms with
  | none =>
    rw [hset] at haged
    rw [haged] at hshows
    exact absurd hfd hshows.1
  | some set =>
    rw [hset] at haged
    obtain ⟨hpos, hmax, callback, hcountdown⟩ := haged
    rw [hcountdown] at hshows
    refine ⟨set, rfl, ?_⟩
    rcases le_or_gt set.age (waitsOf n set.timeoutSeconds + (lapsOf n set.timeoutSeconds).toNat)
      with hle | hlt
    · rw [Countdown.iterate_tick_of_le hle] at hshows
      have hlower := neg_le_lapsOf (n := n) hpos
      have hupper := toInt_lt (n * kMaxCycles)
      exact mem_cancelSlot_iff hidle (by omega) hshows
    · -- A timer that has fired is not pending.
      rw [Countdown.iterate_tick_of_lt hlt] at hshows
      exact absurd hfd hshows.1

/-- A second behind its addition, a timer of one second hangs in the current slot. -/
theorem cancelSlot_iff_second :
    ∃ w : TimerWheel Unit,
      Runs.run (step fun _ => []) (new 60 1000) [.addTimeout 5 1 (some ()), .tick] = some w ∧
      5 ∈ w.timers ∧
      ∃ set, lastSetting 60 5 [WheelMove.addTimeout 5 1 (some ()), .tick] = some set ∧
        ((∃ task ∈ w.wheel (w.cancelSlot 5), task.fd = 5) ↔
          Hits 60 w.currentSlot set.timeoutSeconds set.age) := by
  obtain ⟨w, hrun, hfd⟩ : ∃ w : TimerWheel Unit,
      Runs.run (step fun _ => []) (new 60 1000) [.addTimeout 5 1 (some ()), .tick] = some w ∧
        5 ∈ w.timers := ⟨_, rfl, by decide⟩
  exact ⟨w, hrun, hfd, cancelSlot_iff 60 1000 (fun _ => []) hrun hfd⟩

/-- A timer of thirty seconds is looked for in the current slot at once. -/
theorem cancels_wrong_slot :
    ∃ w : TimerWheel Unit,
      Runs.run (step fun _ => []) (new 60 1000) [.addTimeout 5 30 (some ())] = some w ∧
      5 ∈ w.timers ∧ ¬ ∃ task ∈ w.wheel (w.cancelSlot 5), task.fd = 5 :=
  ⟨_, rfl, by decide, by decide⟩

end TimerWheel

end TinyWebServer
