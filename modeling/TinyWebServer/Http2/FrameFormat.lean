import TinyWebServer.Http2.Connection

/-!
# The HTTP/2 frame format

The shifts of the writers and those of the parsers undo each other: a frame header that is
serialised is parsed as it was, and so are the items of a SETTINGS payload.
-/

namespace TinyWebServer

namespace H2FrameParser

/-! ### Numbers in network byte order -/

lemma bigEndian_two (n : ℕ) : bigEndian [UInt8.ofNat (n / 2 ^ 8), UInt8.ofNat n] = n % 2 ^ 16 := by
  simp only [bigEndian, List.foldl_cons, List.foldl_nil, UInt8.toNat_ofNat']
  omega

lemma bigEndian_three (n : ℕ) :
    bigEndian [UInt8.ofNat (n / 2 ^ 16), UInt8.ofNat (n / 2 ^ 8), UInt8.ofNat n] = n % 2 ^ 24 := by
  simp only [bigEndian, List.foldl_cons, List.foldl_nil, UInt8.toNat_ofNat']
  omega

lemma bigEndian_four (n : ℕ) :
    bigEndian [UInt8.ofNat (n / 2 ^ 24), UInt8.ofNat (n / 2 ^ 16), UInt8.ofNat (n / 2 ^ 8),
      UInt8.ofNat n] = n % 2 ^ 32 := by
  simp only [bigEndian, List.foldl_cons, List.foldl_nil, UInt8.toNat_ofNat']
  omega

lemma bigEndian_lt (s : Bytes) : bigEndian s < 256 ^ s.length := by
  induction s using List.reverseRecOn with
  | nil => simp [bigEndian]
  | append_singleton s b ih =>
    have hb := b.toNat_lt
    rw [bigEndian] at ih ⊢
    rw [List.foldl_append, List.length_append, List.length_singleton, pow_succ]
    simp only [List.foldl_cons, List.foldl_nil]
    omega

lemma ofNat_bigEndian_three (b₀ b₁ b₂ : UInt8) :
    UInt8.ofNat (bigEndian [b₀, b₁, b₂] / 2 ^ 16) = b₀ ∧
    UInt8.ofNat (bigEndian [b₀, b₁, b₂] / 2 ^ 8) = b₁ ∧
    UInt8.ofNat (bigEndian [b₀, b₁, b₂]) = b₂ := by
  have h₀ := b₀.toNat_lt
  have h₁ := b₁.toNat_lt
  have h₂ := b₂.toNat_lt
  simp only [← UInt8.toNat_inj, UInt8.toNat_ofNat', bigEndian, List.foldl_cons, List.foldl_nil]
  omega

lemma ofNat_bigEndian_four (b₀ b₁ b₂ b₃ : UInt8) :
    UInt8.ofNat (bigEndian [b₀, b₁, b₂, b₃] / 2 ^ 24) = b₀ ∧
    UInt8.ofNat (bigEndian [b₀, b₁, b₂, b₃] / 2 ^ 16) = b₁ ∧
    UInt8.ofNat (bigEndian [b₀, b₁, b₂, b₃] / 2 ^ 8) = b₂ ∧
    UInt8.ofNat (bigEndian [b₀, b₁, b₂, b₃]) = b₃ := by
  have h₀ := b₀.toNat_lt
  have h₁ := b₁.toNat_lt
  have h₂ := b₂.toNat_lt
  have h₃ := b₃.toNat_lt
  simp only [← UInt8.toNat_inj, UInt8.toNat_ofNat', bigEndian, List.foldl_cons, List.foldl_nil]
  omega

lemma toUInt8_shiftRight_uint16 (n : UInt16) : (n >>> 8).toUInt8 = UInt8.ofNat (n.toNat / 2 ^ 8) := by
  apply UInt8.toNat_inj.mp
  simp [Nat.shiftRight_eq_div_pow]

/-- A shift by whole bytes picks one of the four bytes of a number. -/
lemma toUInt8_shiftRight_uint32 (n k : UInt32) (hk : k.toNat < 32) :
    (n >>> k).toUInt8 = UInt8.ofNat (n.toNat / 2 ^ k.toNat) := by
  apply UInt8.toNat_inj.mp
  simp [Nat.shiftRight_eq_div_pow, Nat.mod_eq_of_lt hk]

lemma bigEndian_uint16 (n : UInt16) : bigEndian [(n >>> 8).toUInt8, n.toUInt8] = n.toNat := by
  rw [toUInt8_shiftRight_uint16, ← UInt8.ofNat_uInt16ToNat, bigEndian_two]
  exact Nat.mod_eq_of_lt n.toNat_lt

lemma bigEndian_uint32Bytes (n : UInt32) : bigEndian (H2Connection.uint32Bytes n) = n.toNat := by
  rw [H2Connection.uint32Bytes, toUInt8_shiftRight_uint32 n 24 (by decide),
    toUInt8_shiftRight_uint32 n 16 (by decide), toUInt8_shiftRight_uint32 n 8 (by decide),
    ← UInt8.ofNat_uInt32ToNat]
  exact (bigEndian_four n.toNat).trans (Nat.mod_eq_of_lt n.toNat_lt)

/-! ### Headers -/

lemma length_serializeHeader (header : H2FrameHeader) : (serializeHeader header).length = 9 := rfl

/-- The bit fields are found again where they were put, so that only the checks of the header
decide. -/
lemma parseHeader_serializeHeader_append (header : H2FrameHeader) (payload : Bytes) :
    parseHeader (serializeHeader header ++ payload) =
      if header.validate.isSuccess then some header else none := by
  obtain ⟨length, type, flags, streamId, reserved⟩ := header
  have hstreamId := streamId.isLt
  have hreserved := reserved.isLt
  have hword : (streamId.toNat + reserved.toNat * 2 ^ 31) % 2 ^ 32 =
      streamId.toNat + reserved.toNat * 2 ^ 31 := Nat.mod_eq_of_lt (by omega)
  have hlengthBits : BitVec.ofNat 24 (length.toNat % 2 ^ 24) = length := by
    apply BitVec.eq_of_toNat_eq
    rw [BitVec.toNat_ofNat, Nat.mod_mod, Nat.mod_eq_of_lt length.isLt]
  have hstreamBits : BitVec.ofNat 31 (streamId.toNat + reserved.toNat * 2 ^ 31) = streamId := by
    apply BitVec.eq_of_toNat_eq
    rw [BitVec.toNat_ofNat, Nat.add_mul_mod_self_right, Nat.mod_eq_of_lt hstreamId]
  have hreservedBit :
      BitVec.ofNat 1 ((streamId.toNat + reserved.toNat * 2 ^ 31) / 2 ^ 31) = reserved := by
    apply BitVec.eq_of_toNat_eq
    rw [BitVec.toNat_ofNat, Nat.add_mul_div_right _ _ (by norm_num), Nat.div_eq_of_lt hstreamId,
      Nat.zero_add, Nat.mod_eq_of_lt hreserved]
  simp only [serializeHeader, List.cons_append, List.nil_append, parseHeader, bigEndian_three,
    bigEndian_four, hword, hlengthBits, hstreamBits, hreservedBit]

lemma parseHeader_serializeHeader {header : H2FrameHeader} (payload : Bytes)
    (h : header.validate.isSuccess) :
    parseHeader (serializeHeader header ++ payload) = some header :=
  (parseHeader_serializeHeader_append header payload).trans (if_pos h)

/-- A header that is accepted is the one that its nine bytes serialise. -/
lemma serializeHeader_of_parseHeader {data : Bytes} {header : H2FrameHeader}
    (h : parseHeader data = some header) : serializeHeader header = data.take 9 := by
  rw [parseHeader.eq_def] at h
  split at h
  · rename_i l₀ l₁ l₂ type flags s₀ s₁ s₂ s₃ _
    dsimp only at h
    split_ifs at h
    cases h
    have hlength : bigEndian [l₀, l₁, l₂] % 2 ^ 24 = bigEndian [l₀, l₁, l₂] :=
      Nat.mod_eq_of_lt ((bigEndian_lt _).trans_eq (by norm_num))
    have hword : bigEndian [s₀, s₁, s₂, s₃] < 2 ^ 32 := (bigEndian_lt _).trans_eq (by norm_num)
    have hsplit : bigEndian [s₀, s₁, s₂, s₃] % 2 ^ 31 +
        bigEndian [s₀, s₁, s₂, s₃] / 2 ^ 31 % 2 ^ 1 * 2 ^ 31 = bigEndian [s₀, s₁, s₂, s₃] := by
      omega
    obtain ⟨hl₀, hl₁, hl₂⟩ := ofNat_bigEndian_three l₀ l₁ l₂
    obtain ⟨hs₀, hs₁, hs₂, hs₃⟩ := ofNat_bigEndian_four s₀ s₁ s₂ s₃
    simp only [serializeHeader, BitVec.toNat_ofNat, hlength, hsplit, hl₀, hl₁, hl₂, hs₀, hs₁, hs₂,
      hs₃, List.take_succ_cons, List.take_zero]
  · cases h

/-- The codec of frame headers is a bijection on the valid ones. -/
theorem frameHeader_codec :
    (∀ header, parseHeader (serializeHeader header) =
      if header.validate.isSuccess then some header else none) ∧
    (∀ data header, parseHeader data = some header → serializeHeader header = data.take 9) := by
  refine ⟨fun header => ?_, fun data header => serializeHeader_of_parseHeader⟩
  have h := parseHeader_serializeHeader_append header []
  rwa [List.append_nil] at h

/-! ### SETTINGS payloads -/

lemma length_settingsPayload (settings : List (UInt16 × UInt32)) :
    (H2Connection.settingsPayload settings).length = 6 * settings.length := by
  induction settings with
  | nil => rfl
  | cons item settings ih =>
    obtain ⟨identifier, value⟩ := item
    simp only [H2Connection.settingsPayload, H2Connection.uint32Bytes, List.length_cons,
      List.length_append, List.length_nil, ih]
    omega

lemma settingsItems_settingsPayload (settings : List (UInt16 × UInt32)) :
    settingsItems (H2Connection.settingsPayload settings) = settings := by
  induction settings with
  | nil => rfl
  | cons item settings ih =>
    obtain ⟨identifier, value⟩ := item
    have hvalue := bigEndian_uint32Bytes value
    rw [H2Connection.uint32Bytes] at hvalue
    simp only [H2Connection.settingsPayload, H2Connection.uint32Bytes, List.cons_append,
      List.nil_append, settingsItems, bigEndian_uint16, hvalue, ih, UInt16.ofNat_toNat,
      UInt32.ofNat_toNat]

/-- The list comes back in the order in which it was written. -/
lemma parseSettingsPayload_settingsPayload (settings : List (UInt16 × UInt32)) :
    parseSettingsPayload (H2Connection.settingsPayload settings) = some settings := by
  rw [parseSettingsPayload, length_settingsPayload, Nat.mul_mod_right,
    settingsItems_settingsPayload]
  rfl

end H2FrameParser

end TinyWebServer
