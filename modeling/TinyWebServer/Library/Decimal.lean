import TinyWebServer.Library.Bytes

/-!
# Decimal numerals

What `std::to_string` prints: digits only, and the number can be read off them again.
-/

namespace Bytes

/-- The blanks are control characters and the space. -/
lemma not_isspace_of_lt {b : UInt8} (h : 32 < b) : isspace b = false := by
  rw [isspace, Bool.or_eq_false_iff, Bool.and_eq_false_iff, decide_eq_false_iff_not,
    decide_eq_false_iff_not, decide_eq_false_iff_not, UInt8.not_le, UInt8.not_le]
  exact ⟨(UInt8.ne_of_lt h).symm, Or.inr (UInt8.lt_trans (by decide) h)⟩

lemma not_isspace_of_isdigit {b : UInt8} (h : isdigit b = true) : isspace b = false := by
  rw [isdigit, Bool.and_eq_true, decide_eq_true_eq] at h
  exact not_isspace_of_lt (UInt8.lt_of_lt_of_le (by decide) h.1)

lemma digit_of_isDigit {c : Char} (h : c.isDigit) :
    isdigit c.toNat.toUInt8 = true ∧ c.toNat.toUInt8.toNat = c.toNat := by
  rw [Char.isDigit, Bool.and_eq_true, decide_eq_true_iff, decide_eq_true_iff, ge_iff_le,
    UInt32.le_iff_toNat_le, UInt32.le_iff_toNat_le] at h
  have hlow : 48 ≤ c.toNat := h.1
  have hhigh : c.toNat ≤ 57 := h.2
  have hvalue : c.toNat.toUInt8.toNat = c.toNat := by
    rw [Nat.toUInt8_eq, UInt8.toNat_ofNat']
    omega
  refine ⟨?_, hvalue⟩
  rw [isdigit, Bool.and_eq_true, decide_eq_true_iff, decide_eq_true_iff, UInt8.le_iff_toNat_le,
    UInt8.le_iff_toNat_le, hvalue]
  exact ⟨hlow, hhigh⟩

lemma isDigit_of_mem {n : ℕ} {c : Char} (h : c ∈ Nat.toDigits 10 n) : c.isDigit :=
  Nat.isDigit_of_mem_toDigits (by decide) (by decide) h

lemma isdigit_of_mem_ofNat {n : ℕ} {b : UInt8} (h : b ∈ ofNat n) : isdigit b = true := by
  obtain ⟨c, hc, rfl⟩ := List.mem_map.mp h
  exact (digit_of_isDigit (isDigit_of_mem hc)).1

lemma ofNat_ne_nil (n : ℕ) : ofNat n ≠ [] := by
  simp [ofNat, Nat.toDigits_ne_nil]

lemma ofNat_eq_cons (n : ℕ) : ∃ b s, ofNat n = b :: s ∧ isdigit b = true := by
  obtain ⟨b, s, h⟩ := List.exists_cons_of_ne_nil (ofNat_ne_nil n)
  exact ⟨b, s, h, isdigit_of_mem_ofNat (h ▸ List.mem_cons_self ..)⟩

/-- There are no leading zeros. -/
lemma ofNat_eq_cons_ne_zero {n : ℕ} (hn : 0 < n) : ∃ b s, ofNat n = b :: s ∧ b ≠ 48 := by
  induction n using Nat.strong_induction_on with
  | _ n ih =>
    rcases Nat.lt_or_ge n 10 with hsmall | hlarge
    · interval_cases n <;> exact ⟨_, _, rfl, by decide⟩
    · obtain ⟨b, s, hs, hb⟩ := ih (n / 10) (by omega) (by omega)
      rw [ofNat] at hs
      rw [ofNat, Nat.toDigits_of_base_le (by decide) hlarge, List.map_append, hs]
      exact ⟨b, _, List.cons_append, hb⟩

lemma length_ofNat_le_iff {n k : ℕ} (hk : 0 < k) : (ofNat n).length ≤ k ↔ n < 10 ^ k := by
  rw [ofNat, List.length_map]
  exact Nat.length_toDigits_le_iff (by decide) hk

/-- The number that a printed number denotes is the number. -/
lemma digitsVal_ofNat (n : ℕ) : digitsVal (ofNat n) = n := by
  have hfold : ∀ (cs : List Char) (m : ℕ), (∀ c ∈ cs, c.isDigit) →
      (cs.map fun c => c.toNat.toUInt8).foldl (fun n b => n * 10 + (b.toNat - 48)) m =
        Nat.ofDigitChars 10 cs m := by
    intro cs
    induction cs with
    | nil => intro m _; rfl
    | cons c cs ih =>
      intro m hcs
      rw [List.map_cons, List.foldl_cons, Nat.ofDigitChars_cons,
        ih _ fun c' h => hcs c' (List.mem_cons_of_mem _ h),
        (digit_of_isDigit (hcs c (List.mem_cons_self ..))).2, Nat.mul_comm m 10]
      rfl
  exact (hfold _ 0 fun _ => isDigit_of_mem).trans Nat.ofDigitChars_ten_toDigits

/-- Leading zeros do not count. -/
lemma digitsVal_replicate_append (k : ℕ) (s : Bytes) :
    digitsVal (List.replicate k 48 ++ s) = digitsVal s := by
  induction k with
  | zero => rfl
  | succ k ih =>
    rw [List.replicate_succ, List.cons_append, ← ih]
    rfl

lemma ofNat_injective : Function.Injective ofNat := by
  intro n m h
  have hval := congrArg digitsVal h
  rwa [digitsVal_ofNat, digitsVal_ofNat] at hval

/-- A printed integer holds digits and a minus sign. -/
lemma digit_or_minus_of_mem_ofInt {n : ℤ} {b : UInt8} (h : b ∈ ofInt n) :
    isdigit b = true ∨ b = 45 := by
  cases n with
  | ofNat n => exact Or.inl (isdigit_of_mem_ofNat h)
  | negSucc n =>
    rcases List.mem_append.mp h with h | h
    · exact Or.inr (List.mem_singleton.mp h)
    · exact Or.inl (isdigit_of_mem_ofNat h)

lemma ofInt_eq_cons (n : ℤ) : ∃ b s, ofInt n = b :: s ∧ (isdigit b = true ∨ b = 45) := by
  have hne : ofInt n ≠ [] := by
    cases n with
    | ofNat n => exact ofNat_ne_nil n
    | negSucc n => exact List.cons_ne_nil _ _
  obtain ⟨b, s, hs⟩ := List.exists_cons_of_ne_nil hne
  exact ⟨b, s, hs, digit_or_minus_of_mem_ofInt (hs ▸ List.mem_cons_self ..)⟩

lemma ofInt_injective : Function.Injective ofInt := by
  have hminus : ∀ n k, ofNat n ≠ bytes "-" ++ ofNat k := by
    intro n k h
    have hmem : (45 : UInt8) ∈ ofNat n := h ▸ List.mem_append_left _ (by decide)
    exact absurd (isdigit_of_mem_ofNat hmem) (by decide)
  intro n m h
  cases n with
  | ofNat n =>
    cases m with
    | ofNat m => rw [ofNat_injective h]
    | negSucc m => exact absurd h (hminus n (m + 1))
  | negSucc n =>
    cases m with
    | ofNat m => exact absurd h.symm (hminus m (n + 1))
    | negSucc m =>
      have := ofNat_injective (List.append_cancel_left h)
      rw [Nat.add_right_cancel this]

end Bytes
