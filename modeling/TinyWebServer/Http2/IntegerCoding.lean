import TinyWebServer.Http2.HpackReference

/-!
# Integers of any prefix

`DecodeInteger` takes the encodings of RFC 7541 section 5.1, whatever the width of the prefix and
the bits above it, and what it takes has the value that it gives out: the sum is never so large
that it wraps around.
-/

namespace TinyWebServer

namespace HpackDecoder

/-- The number in groups of seven bits, the least significant ones first; the top bits are not
part of it. -/
def groupsValue : Bytes → ℕ
  | [] => 0
  | byte :: data => byte.toNat % 128 + 128 * groupsValue data

/-- The number in the low bits of the first byte and in the groups behind it. -/
def integerValue (prefixBits : ℕ) : Bytes → ℕ
  | [] => 0
  | byte :: data => byte.toNat % 2 ^ prefixBits + groupsValue data

/-! ### Encodings and their values -/

lemma groupsValue_of_continues {n : ℕ} {data : Bytes} (h : Continues n data) :
    groupsValue data = n := by
  induction h with
  | last hgroup =>
    rw [groupsValue, groupsValue, UInt8.toNat_ofNat']
    omega
  | more hgroup hrest ih =>
    rw [groupsValue, ih, UInt8.toNat_ofNat']
    omega

lemma integerValue_of_encodes {prefixBits high n : ℕ} {data : Bytes}
    (hhigh : high + 2 ^ prefixBits ≤ 256) (haligned : high % 2 ^ prefixBits = 0)
    (h : EncodesInteger prefixBits high n data) : integerValue prefixBits data = n := by
  have hpow : 0 < 2 ^ prefixBits := Nat.two_pow_pos prefixBits
  cases h with
  | short hn =>
    rw [integerValue, toNat_prefix hhigh haligned (by omega)]
    rfl
  | long hn =>
    rw [integerValue, toNat_prefix hhigh haligned (by omega), groupsValue_of_continues hn]

/-! ### What the decoder takes is an encoding -/

/-- A byte is a group of seven bits with or without the bit that announces another one. -/
lemma exists_group (byte : UInt8) :
    ∃ group < 128, byte = UInt8.ofNat group ∨ byte = UInt8.ofNat (group + 128) := by
  have hbyte : byte.toNat < 256 := byte.toNat_lt
  rcases Nat.lt_or_ge byte.toNat 128 with hlow | hhigh
  · exact ⟨byte.toNat, hlow, Or.inl UInt8.ofNat_toNat.symm⟩
  · refine ⟨byte.toNat - 128, by omega, Or.inr ?_⟩
    rw [Nat.sub_add_cancel hhigh, UInt8.ofNat_toNat]

lemma continues_of_decodeContinuation {m result n : ℕ} {data rest : Bytes}
    (hresult : result < 2 ^ 8 + 2 ^ m) (h : decodeContinuation m result data = .ok (n, rest)) :
    ∃ x consumed, Continues x consumed ∧ data = consumed ++ rest ∧ n = result + x * 2 ^ m := by
  induction data generalizing m result with
  | nil => simp [decodeContinuation] at h
  | cons byte data ih =>
    obtain ⟨group, hgroup, hbyte⟩ := exists_group byte
    obtain ⟨hlast, hstop, hmore, hgo⟩ := group_bits hgroup
    rw [decodeContinuation] at h
    by_cases hm : 28 < m + 7
    · simp [hm] at h
    obtain ⟨hexact, hnext⟩ := uint32_add_group hresult hgroup (Nat.le_of_not_lt hm)
    rcases hbyte with rfl | rfl
    · simp only [hm, if_false, hlast, hexact, hstop, ne_eq, not_true] at h
      cases h
      exact ⟨group, _, .last hgroup, rfl, rfl⟩
    · simp only [hm, if_false, hmore, hexact, hgo, ne_eq, not_false_eq_true, if_true] at h
      obtain ⟨x, consumed, hx, rfl, rfl⟩ := ih hnext h
      refine ⟨group + 128 * x, _, .more hgroup hx, rfl, ?_⟩
      rw [pow_add]
      ring

/-- The bits of a byte above the prefix, and those of the prefix. -/
lemma exists_high {prefixBits : ℕ} (hbits : prefixBits ≤ 8) (byte : UInt8) :
    ∃ high, high + 2 ^ prefixBits ≤ 256 ∧ high % 2 ^ prefixBits = 0 ∧
      byte = UInt8.ofNat (high + byte.toNat % 2 ^ prefixBits) := by
  obtain ⟨widths, hwidths⟩ : 2 ^ prefixBits ∣ 256 := Nat.pow_dvd_pow 2 hbits
  have hbyte : byte.toNat < 2 ^ prefixBits * widths := hwidths ▸ byte.toNat_lt
  refine ⟨2 ^ prefixBits * (byte.toNat / 2 ^ prefixBits), ?_, Nat.mul_mod_right _ _, ?_⟩
  · rw [hwidths, ← Nat.mul_succ]
    exact Nat.mul_le_mul_left _ (Nat.div_lt_of_lt_mul hbyte)
  · rw [Nat.div_add_mod, UInt8.ofNat_toNat]

lemma encodes_of_decodeInteger {prefixBits n : ℕ} {data rest : Bytes} (hbits : prefixBits ≤ 8)
    (h : decodeInteger prefixBits data = .ok (n, rest)) :
    ∃ high consumed, high + 2 ^ prefixBits ≤ 256 ∧ high % 2 ^ prefixBits = 0 ∧
      EncodesInteger prefixBits high n consumed ∧ data = consumed ++ rest := by
  have hpow : 2 ^ prefixBits ≤ 2 ^ 8 := Nat.pow_le_pow_right (by decide) hbits
  have hpos : 0 < 2 ^ prefixBits := Nat.two_pow_pos prefixBits
  cases data with
  | nil => simp [decodeInteger] at h
  | cons byte data =>
    obtain ⟨high, hhigh, haligned, hbyte⟩ := exists_high hbits byte
    have hlt : byte.toNat % 2 ^ prefixBits < 2 ^ prefixBits := Nat.mod_lt _ hpos
    simp only [decodeInteger] at h
    split_ifs at h with hfull
    · obtain ⟨x, consumed, hx, rfl, rfl⟩ := continues_of_decodeContinuation (by omega) h
      refine ⟨high, byte :: consumed, hhigh, haligned, ?_, rfl⟩
      rw [hfull] at hbyte ⊢
      rw [pow_zero, mul_one, hbyte]
      exact .long hx
    · cases h
      refine ⟨high, [byte], hhigh, haligned, ?_, rfl⟩
      have hshort := @EncodesInteger.short prefixBits high (byte.toNat % 2 ^ prefixBits) (by omega)
      rwa [← hbyte] at hshort

/-! ### Both directions -/

/-- The encoder spends at most five bytes on what the guard of the decoder admits. -/
lemma atMostFive_encodeInteger (high : ℕ) {prefixBits n : ℕ}
    (hn : n - (2 ^ prefixBits - 1) < 2 ^ 28) : AtMostFive (encodeInteger prefixBits high n) := by
  rw [encodeInteger, AtMostFive]
  split_ifs with hsmall
  · simp
  · have := length_continuation_le (k := 4) (by decide) (show _ < 128 ^ 4 by omega)
    rw [List.length_cons]
    omega

/-- Every encoding with at most 28 bits behind the prefix is decoded, with what follows left as it
is; and the result of any success is the value of the bytes it took. -/
theorem decodeInteger_exact {prefixBits : ℕ} (hbits : prefixBits ≤ 8) :
    (∀ n, n < 2 ^ prefixBits - 1 ∨ n - (2 ^ prefixBits - 1) < 2 ^ 28 →
      ∀ setting < 2 ^ (8 - prefixBits), ∀ suffix,
        decodeInteger prefixBits (encodeInteger prefixBits (setting * 2 ^ prefixBits) n ++ suffix) =
          .ok (n, suffix)) ∧
    ∀ data n rest, decodeInteger prefixBits data = .ok (n, rest) →
      ∃ consumed, data = consumed ++ rest ∧ n = integerValue prefixBits consumed := by
  constructor
  · intro n hn setting hsetting suffix
    have hhigh : setting * 2 ^ prefixBits + 2 ^ prefixBits ≤ 256 := by
      calc setting * 2 ^ prefixBits + 2 ^ prefixBits = (setting + 1) * 2 ^ prefixBits := by ring
        _ ≤ 2 ^ (8 - prefixBits) * 2 ^ prefixBits := Nat.mul_le_mul_right _ hsetting
        _ = 2 ^ 8 := by rw [← pow_add, Nat.sub_add_cancel hbits]
    exact decodeInteger_of_encodes (encodes_encodeInteger prefixBits _ n) hbits hhigh
      (Nat.mul_mod_left _ _) (atMostFive_encodeInteger _ (by omega)) suffix
  · intro data n rest h
    obtain ⟨high, consumed, hhigh, haligned, hencodes, rfl⟩ := encodes_of_decodeInteger hbits h
    exact ⟨consumed, rfl, (integerValue_of_encodes hhigh haligned hencodes).symm⟩

/-- 1337 behind a prefix of five bits, and the same number with a group of zeros at its end. -/
theorem decodeInteger_exact_five :
    decodeInteger 5 (encodeInteger 5 (5 * 2 ^ 5) 1337 ++ [0x2A]) = .ok (1337, [0x2A]) ∧
    ∃ consumed, [0x1F, 0x9A, 0x8A, 0x00, 0x2A] = consumed ++ [0x2A] ∧
      1337 = integerValue 5 consumed :=
  ⟨(decodeInteger_exact (by decide)).1 1337 (by decide) 5 (by decide) [0x2A],
    (decodeInteger_exact (by decide)).2 _ 1337 [0x2A] rfl⟩

end HpackDecoder

end TinyWebServer
