import Mathlib

/-!
# Countdowns in two stages

Something waits for its place in a cycle and then for a number of laps. Each tick takes one from
the wait, or from the laps when there is nothing left to wait, and a tick that finds no wait and
no laps fires. The laps are a machine's signed integer; one that is not positive means none.
-/

inductive Countdown (α : Type*) where
  | pending (item : α) (waits : ℕ) (laps : ℤ)
  | spent

namespace Countdown

variable {α : Type*} {item : α} {waits : ℕ} {laps : ℤ}

def tick : Countdown α → Countdown α
  | pending item (waits + 1) laps => pending item waits laps
  | pending item 0 laps => if 0 < laps then pending item 0 (laps - 1) else spent
  | spent => spent

/-- What the next tick fires. -/
def fires : Countdown α → List α
  | pending item 0 laps => if 0 < laps then [] else [item]
  | _ => []

@[simp] lemma tick_wait (item : α) (waits : ℕ) (laps : ℤ) :
    (pending item (waits + 1) laps).tick = pending item waits laps := rfl

lemma tick_lap (item : α) (h : 0 < laps) :
    (pending item 0 laps).tick = pending item 0 (laps - 1) := if_pos h

lemma tick_fire (item : α) (h : laps ≤ 0) : (pending item 0 laps).tick = spent :=
  if_neg (not_lt.mpr h)

@[simp] lemma tick_spent : (spent : Countdown α).tick = spent := rfl

@[simp] lemma fires_spent : (spent : Countdown α).fires = [] := rfl

lemma fires_pending (item : α) (waits : ℕ) (laps : ℤ) :
    (pending item waits laps).fires = if waits = 0 ∧ laps ≤ 0 then [item] else [] := by
  cases waits with
  | zero =>
    rw [fires]
    split_ifs with hlaps hnone hnone
    · exact absurd hnone.2 (not_le.mpr hlaps)
    · rfl
    · rfl
    · exact absurd ⟨rfl, not_lt.mp hlaps⟩ hnone
  | succ waits => simp [fires]

lemma iterate_tick_spent (k : ℕ) : tick^[k] (spent : Countdown α) = spent :=
  Function.iterate_fixed tick_spent k

/-- The laps begin when the wait is over. -/
lemma iterate_tick_of_le {k : ℕ} (h : k ≤ waits + laps.toNat) :
    tick^[k] (pending item waits laps) = pending item (waits - k) (laps - (k - waits : ℕ)) := by
  induction k generalizing waits laps with
  | zero => simp
  | succ k ih =>
    rw [Function.iterate_succ_apply]
    cases waits with
    | succ waits =>
      rw [tick_wait, ih (by omega), Nat.add_sub_add_right, Nat.add_sub_add_right]
    | zero =>
      rw [tick_lap item (by omega), ih (by omega)]
      congr 1
      · simp
      · push_cast
        omega

lemma iterate_tick_of_lt {k : ℕ} (h : waits + laps.toNat < k) :
    tick^[k] (pending item waits laps) = spent := by
  obtain ⟨j, rfl⟩ : ∃ j, k = j + (waits + laps.toNat + 1) :=
    ⟨k - (waits + laps.toNat + 1), by omega⟩
  rw [Function.iterate_add_apply, Function.iterate_succ_apply', iterate_tick_of_le le_rfl,
    Nat.sub_eq_zero_of_le (Nat.le_add_right _ _), tick_fire item (by omega), iterate_tick_spent]

/-- It fires once, on the tick behind the waits and the laps. -/
lemma fires_iterate_tick (item : α) (waits : ℕ) (laps : ℤ) (k : ℕ) :
    (tick^[k] (pending item waits laps)).fires =
      if k = waits + laps.toNat then [item] else [] := by
  rcases le_or_gt k (waits + laps.toNat) with hle | hlt
  · rw [iterate_tick_of_le hle, fires_pending]
    congr 1
    rw [eq_iff_iff]
    omega
  · rw [iterate_tick_of_lt hlt, if_neg (by omega)]
    rfl

lemma iterate_tick_eq_spent_iff {k : ℕ} :
    tick^[k] (pending item waits laps) = spent ↔ waits + laps.toNat < k := by
  constructor
  · intro h
    by_contra hle
    rw [iterate_tick_of_le (not_lt.mp hle)] at h
    cases h
  · exact iterate_tick_of_lt

end Countdown
