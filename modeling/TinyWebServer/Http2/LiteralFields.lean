import TinyWebServer.Http2.Hpack

/-!
# Literal header fields

The encodings of RFC 7541 sections 5 and 6.2 for integers, strings and literal fields, and what
the decoder makes of them: no literal with a new name, and none that is not indexed, is decoded.
-/

namespace TinyWebServer

namespace HpackDecoder

/-! ### The encoder's side -/

/-- The bytes behind a full prefix: groups of seven bits, the least significant ones first. -/
def continuation (n : ℕ) : Bytes :=
  if _h : n < 128 then [UInt8.ofNat n]
  else UInt8.ofNat (n % 128 + 128) :: continuation (n / 128)
termination_by n
decreasing_by omega

/-- An integer with a prefix of `prefixBits` bits under the given high bits. -/
def encodeInteger (prefixBits high n : ℕ) : Bytes :=
  if n < 2 ^ prefixBits - 1 then [UInt8.ofNat (high + n)]
  else UInt8.ofNat (high + (2 ^ prefixBits - 1)) :: continuation (n - (2 ^ prefixBits - 1))

/-- A string without Huffman coding. -/
def encodeString (s : Bytes) : Bytes := encodeInteger 7 0 s.length ++ s

/-- The literal representations of section 6.2 without those that index a known name. -/
inductive LiteralRep where
  | incrementalNewName
  | withoutIndexingNewName
  | withoutIndexing (nameIndex : ℕ)
  | neverIndexedNewName
  | neverIndexed (nameIndex : ℕ)

namespace LiteralRep

/-- A name index is a positive `uint32_t` that refers to an entry with that name. -/
def Valid (d : HpackDecoder) (name : Bytes) : LiteralRep → Prop
  | withoutIndexing nameIndex | neverIndexed nameIndex =>
    nameIndex < 2 ^ 32 ∧ ∃ entry, d.getTableEntry nameIndex = some entry ∧ entry.name = name
  | _ => True

def encode (name value : Bytes) : LiteralRep → Bytes
  | incrementalNewName => 0x40 :: (encodeString name ++ encodeString value)
  | withoutIndexingNewName => 0x00 :: (encodeString name ++ encodeString value)
  | withoutIndexing nameIndex => encodeInteger 4 0x00 nameIndex ++ encodeString value
  | neverIndexedNewName => 0x10 :: (encodeString name ++ encodeString value)
  | neverIndexed nameIndex => encodeInteger 4 0x10 nameIndex ++ encodeString value

end LiteralRep

/-- The field is decoded to its name and value, nothing behind it is touched, and only a literal
with incremental indexing changes the dynamic table. -/
def LiteralDecodes (d : HpackDecoder) (rep : LiteralRep) (name value suffix : Bytes) : Prop :=
  ∃ header d', d.decodeHeaderField (rep.encode name value ++ suffix) ⟨[], [], false⟩ =
      (.ok (header, suffix), d') ∧ header.name = name ∧ header.value = value ∧
    (rep ≠ .incrementalNewName → d'.dynamicTable = d.dynamicTable)

/-! ### How much the decoder takes -/

lemma length_continuation_le {n k : ℕ} (hk : 0 < k) (h : n < 128 ^ k) :
    (continuation n).length ≤ k := by
  induction k generalizing n with
  | zero => omega
  | succ k ih =>
    rw [continuation]
    split_ifs with hsmall
    · simp
    · rw [List.length_cons]
      have hlt : n / 128 < 128 ^ k := by
        rw [Nat.div_lt_iff_lt_mul (by omega)]
        rwa [pow_succ] at h
      have hpos : 0 < k := by
        by_contra hzero
        rw [show k = 0 by omega, pow_zero] at hlt
        omega
      have := ih hpos hlt
      omega

/-- A group of seven bits is added without wrapping around. -/
lemma uint32_add_group {m result group : ℕ} (hresult : result < 2 ^ 8 + 2 ^ m)
    (hgroup : group < 128) (hm : m + 7 ≤ 28) :
    uint32 (result + group <<< m) = result + group * 2 ^ m ∧
      result + group * 2 ^ m < 2 ^ 8 + 2 ^ (m + 7) := by
  have hpow : 2 ^ m ≤ 2 ^ 21 := Nat.pow_le_pow_right (by omega) (by omega)
  have hmul : group * 2 ^ m ≤ 127 * 2 ^ m := Nat.mul_le_mul_right _ (by omega)
  constructor
  · rw [uint32, Nat.shiftLeft_eq]
    apply Nat.mod_eq_of_lt
    omega
  · rw [pow_add]
    omega

/-- One turn of the loop that reads the bytes behind a full prefix. -/
lemma decodeContinuation_cons {m result n : ℕ} {byte : UInt8} {data rest : Bytes}
    (hresult : result < 2 ^ 8 + 2 ^ m)
    (h : decodeContinuation m result (byte :: data) = .ok (n, rest)) :
    ∃ group, group < 128 ∧ m + 7 ≤ 28 ∧
      (n = result + group * 2 ^ m ∧ rest = data ∨
        result + group * 2 ^ m < 2 ^ 8 + 2 ^ (m + 7) ∧
          decodeContinuation (m + 7) (result + group * 2 ^ m) data = .ok (n, rest)) := by
  rw [decodeContinuation] at h
  by_cases hm : 28 < m + 7
  · simp [hm] at h
  have hgroup : (byte &&& 0x7F).toNat < 128 := by
    rw [UInt8.toNat_and]
    exact Nat.lt_of_le_of_lt Nat.and_le_right (by decide)
  generalize (byte &&& 0x7F).toNat = group at h hgroup
  obtain ⟨hexact, hnext⟩ := uint32_add_group hresult hgroup (Nat.le_of_not_lt hm)
  simp only [hm, hexact, if_false] at h
  refine ⟨group, hgroup, Nat.le_of_not_lt hm, ?_⟩
  split_ifs at h
  · exact Or.inr ⟨hnext, h⟩
  · cases h
    exact Or.inl ⟨rfl, rfl⟩

/-- The continuation bytes that were read hold the number in groups of seven bits. -/
lemma decodeContinuation_ok {m result n : ℕ} {data rest : Bytes} (hresult : result < 2 ^ 8 + 2 ^ m)
    (h : decodeContinuation m result data = .ok (n, rest)) :
    ∃ x k, 0 < k ∧ n = result + x * 2 ^ m ∧ x < 128 ^ k ∧ data.length = rest.length + k := by
  induction data generalizing m result with
  | nil => simp [decodeContinuation] at h
  | cons byte data ih =>
    obtain ⟨group, hgroup, -, ⟨rfl, rfl⟩ | ⟨hnext, hmore⟩⟩ := decodeContinuation_cons hresult h
    · exact ⟨group, 1, Nat.one_pos, rfl, hgroup, List.length_cons⟩
    · obtain ⟨x, k, hk, rfl, hx, hlen⟩ := ih hnext hmore
      refine ⟨group + 128 * x, k + 1, Nat.succ_pos k, ?_, ?_, ?_⟩
      · rw [pow_add]
        ring
      · rw [pow_succ]
        omega
      · rw [List.length_cons, hlen]
        rfl

/-- No encoding of an integer that the decoder takes is shorter than the encoder's. -/
lemma length_encodeInteger_le (high : ℕ) {n : ℕ} {data rest : Bytes}
    (h : decodeInteger 7 data = .ok (n, rest)) :
    (encodeInteger 7 high n).length + rest.length ≤ data.length := by
  cases data with
  | nil => simp [decodeInteger] at h
  | cons byte data =>
    simp only [decodeInteger] at h
    split_ifs at h with hfull
    · rw [hfull] at h
      obtain ⟨x, k, hk, rfl, hx, hlen⟩ := decodeContinuation_ok (by omega) h
      have := length_continuation_le hk hx
      rw [encodeInteger, if_neg (by omega)]
      simp only [pow_zero, mul_one, Nat.add_sub_cancel_left, List.length_cons]
      omega
    · cases h
      rw [encodeInteger, if_pos (by omega), List.length_cons, List.length_cons, List.length_nil]
      omega

/-- Reading a string takes at least as many bytes as the encoder spends on it. -/
lemma length_encodeString_le {data s rest : Bytes} (h : decodeString data = .ok (s, rest)) :
    (encodeString s).length + rest.length ≤ data.length := by
  rw [decodeString] at h
  split_ifs at h
  cases hint : decodeInteger 7 data with
  | error err => simp [hint] at h
  | ok result =>
    obtain ⟨n, tail⟩ := result
    rw [hint] at h
    dsimp only at h
    split_ifs at h with hshort
    cases h
    have := length_encodeInteger_le 0 hint
    rw [encodeString, List.length_append, List.length_take, List.length_drop,
      min_eq_left (by omega)]
    omega

lemma length_encodeString_pos (s : Bytes) : 0 < (encodeString s).length := by
  rw [encodeString, encodeInteger]
  split_ifs <;> simp

/-- The first byte of a name index, and how few bytes follow it. -/
lemma encodeInteger_four {high n : ℕ} (hhigh : high ≤ 16) (hn : n < 2 ^ 32) :
    ∃ byte tail, encodeInteger 4 high n = byte :: tail ∧ byte.toNat = high + min n 15 ∧
      (0 < n → tail.length < min n 15) := by
  rw [encodeInteger]
  split_ifs with hsmall
  · refine ⟨_, _, rfl, ?_, ?_⟩
    · rw [UInt8.toNat_ofNat']
      omega
    · intro hpos
      rw [List.length_nil]
      omega
  · refine ⟨_, _, rfl, ?_, ?_⟩
    · rw [UInt8.toNat_ofNat']
      omega
    · intro _
      have := length_continuation_le (n := n - (2 ^ 4 - 1)) (k := 5) (by omega) (by omega)
      omega

lemma decodeString_of_short {byte : UInt8} {data : Bytes} {s rest : Bytes}
    (hbyte : byte.toNat < 127) (h : decodeString (byte :: data) = .ok (s, rest)) :
    byte.toNat ≤ data.length ∧ s = data.take byte.toNat ∧ rest = data.drop byte.toNat := by
  have hint : decodeInteger 7 (byte :: data) = .ok (byte.toNat, data) := by
    simp only [decodeInteger]
    rw [Nat.mod_eq_of_lt (by omega), if_neg (by omega)]
  rw [decodeString, if_neg (List.cons_ne_nil _ _), hint] at h
  dsimp only at h
  split_ifs at h with hshort
  cases h
  exact ⟨by omega, rfl, rfl⟩

/-! ### The three prefixes -/

/-- A field that starts with the bits `0000` is read as two strings. -/
lemma decodeHeaderField_zero_prefix {d d' : HpackDecoder} {byte : UInt8} {data rest : Bytes}
    {header header' : HpackHeader} (hbyte : byte.toNat < 16)
    (h : d.decodeHeaderField (byte :: data) header = (.ok (header', rest), d')) :
    ∃ middle, decodeString (byte :: data) = .ok (header'.name, middle) ∧
      decodeString middle = .ok (header'.value, rest) := by
  have hbits : byte &&& 0x80 = 0 ∧ byte &&& 0xC0 ≠ 0x40 ∧ byte &&& 0xF0 = 0x00 := by
    have : ∀ n : Fin 16, UInt8.ofNat n.val &&& 0x80 = 0 ∧ UInt8.ofNat n.val &&& 0xC0 ≠ 0x40 ∧
        UInt8.ofNat n.val &&& 0xF0 = 0x00 := by decide
    simpa using this ⟨byte.toNat, hbyte⟩
  rw [decodeHeaderField, List.length_cons, decodeHeaderFieldFuel] at h
  dsimp only at h
  rw [if_neg (not_not.mpr hbits.1), if_neg hbits.2.1, if_pos hbits.2.2] at h
  cases hname : decodeString (byte :: data) with
  | error err => simp [hname] at h
  | ok result =>
    obtain ⟨name, middle⟩ := result
    rw [hname] at h
    dsimp only at h
    cases hvalue : decodeString middle with
    | error err => simp [hvalue] at h
    | ok result =>
      obtain ⟨value, tail⟩ := result
      rw [hvalue] at h
      cases h
      exact ⟨middle, rfl, hvalue⟩

/-- A field that starts with the bits `0001` is refused. -/
lemma decodeHeaderField_never_indexed {d : HpackDecoder} {byte : UInt8} {data : Bytes}
    {header : HpackHeader} (hlow : 16 ≤ byte.toNat) (hhigh : byte.toNat < 32) :
    d.decodeHeaderField (byte :: data) header =
      (.error ⟨.kParseError, bytes "Unknown HPACK encoding: 0x" ++ Bytes.ofNat byte.toNat⟩, d) := by
  have hbits : byte &&& 0x80 = 0 ∧ byte &&& 0xC0 ≠ 0x40 ∧ byte &&& 0xF0 ≠ 0x00 ∧
      byte &&& 0xE0 ≠ 0x20 := by
    have : ∀ n : Fin 32, 16 ≤ n.val → UInt8.ofNat n.val &&& 0x80 = 0 ∧
        UInt8.ofNat n.val &&& 0xC0 ≠ 0x40 ∧ UInt8.ofNat n.val &&& 0xF0 ≠ 0x00 ∧
        UInt8.ofNat n.val &&& 0xE0 ≠ 0x20 := by decide
    simpa using this ⟨byte.toNat, hhigh⟩ hlow
  rw [decodeHeaderField, List.length_cons, decodeHeaderFieldFuel]
  dsimp only
  rw [if_neg (not_not.mpr hbits.1), if_neg hbits.2.1, if_neg hbits.2.2.1, if_neg hbits.2.2.2]

/-- The name index zero of a literal with a new name refers to no entry. -/
lemma decodeHeaderField_incremental_new_name (d : HpackDecoder) (data : Bytes)
    (header : HpackHeader) :
    d.decodeHeaderField (0x40 :: data) header =
      (.error ⟨.kParseError, bytes "Invalid HPACK name index: " ++ Bytes.ofNat 0⟩, d) := by
  rw [decodeHeaderField, List.length_cons, decodeHeaderFieldFuel]
  rfl

/-- A name index that is read as the length of a name makes the decoder take too many bytes. -/
lemma decodeHeaderField_name_index {d d' : HpackDecoder} {byte : UInt8}
    {data suffix : Bytes} {header header' : HpackHeader} (hbyte : byte.toNat < 16)
    (hlen : data.length < byte.toNat + (encodeString header'.value).length + suffix.length) :
    d.decodeHeaderField (byte :: data) header ≠ (.ok (header', suffix), d') := by
  intro h
  obtain ⟨middle, hname, hvalue⟩ := decodeHeaderField_zero_prefix hbyte h
  obtain ⟨hle, -, rfl⟩ := decodeString_of_short (by omega) hname
  have htaken := length_encodeString_le hvalue
  rw [List.length_drop] at htaken
  omega

/-- The first byte of a literal with a new name is read as an empty name, the name as the value,
and the value is left over. -/
lemma decodeHeaderField_new_name {d d' : HpackDecoder} {suffix : Bytes}
    {header header' : HpackHeader} :
    d.decodeHeaderField
        (0x00 :: (encodeString header'.name ++ encodeString header'.value ++ suffix)) header ≠
      (.ok (header', suffix), d') := by
  intro h
  obtain ⟨middle, hname, hvalue⟩ := decodeHeaderField_zero_prefix (by decide) h
  obtain ⟨-, hnil, rfl⟩ := decodeString_of_short (by decide) hname
  have hvalue' : decodeString (0x00 :: (encodeString header'.value ++ suffix)) =
      .ok (header'.value, suffix) := by
    rw [show header'.name = [] from hnil] at hvalue
    exact hvalue
  obtain ⟨-, -, hrest⟩ := decodeString_of_short (by decide) hvalue'
  have hlen : suffix.length = (encodeString header'.value ++ suffix).length :=
    congrArg List.length hrest
  have hpos := length_encodeString_pos header'.value
  rw [List.length_append] at hlen
  omega

/-- None of these representations is ever decoded. -/
theorem not_literalDecodes (d : HpackDecoder) (rep : LiteralRep) (name value suffix : Bytes)
    (hrep : rep.Valid d name) : ¬ LiteralDecodes d rep name value suffix := by
  rintro ⟨header, d', h, rfl, rfl, -⟩
  cases rep with
  | incrementalNewName =>
    rw [LiteralRep.encode, List.cons_append, decodeHeaderField_incremental_new_name] at h
    cases h
  | withoutIndexingNewName =>
    rw [LiteralRep.encode, List.cons_append] at h
    exact decodeHeaderField_new_name h
  | withoutIndexing nameIndex =>
    obtain ⟨hindex, entry, hentry, -⟩ := hrep
    have hpos : 0 < nameIndex := by
      rcases Nat.eq_zero_or_pos nameIndex with rfl | hpos
      · cases hentry
      · exact hpos
    obtain ⟨byte, tail, hencode, hbyte, htail⟩ := encodeInteger_four (Nat.zero_le 16) hindex
    rw [LiteralRep.encode, hencode, List.cons_append, List.cons_append] at h
    refine decodeHeaderField_name_index (by omega) ?_ h
    have := htail hpos
    simp only [List.length_append]
    omega
  | neverIndexedNewName =>
    rw [LiteralRep.encode, List.cons_append,
      decodeHeaderField_never_indexed (by decide) (by decide)] at h
    cases h
  | neverIndexed nameIndex =>
    obtain ⟨byte, tail, hencode, hbyte, -⟩ := encodeInteger_four (le_refl 16) hrep.1
    rw [LiteralRep.encode, hencode, List.cons_append, List.cons_append,
      decodeHeaderField_never_indexed (by omega) (by omega)] at h
    cases h

/-- `:path: a`, not indexed, with the name taken from the static table. -/
theorem not_literalDecodes_path :
    ¬ LiteralDecodes (new 4096) (.withoutIndexing 4) (bytes ":path") (bytes "a") [] :=
  not_literalDecodes (new 4096) (.withoutIndexing 4) (bytes ":path") (bytes "a") []
    ⟨by decide, ⟨bytes ":path", bytes "/", false⟩, by decide, rfl⟩

/-- `a: b` with incremental indexing and a new name is refused as an invalid name index. -/
theorem not_literalDecodes_incremental :
    ¬ LiteralDecodes (new 4096) .incrementalNewName (bytes "a") (bytes "b") [] := by
  rintro ⟨header, d', h, -⟩
  rw [LiteralRep.encode, List.cons_append, decodeHeaderField_incremental_new_name] at h
  cases h

end HpackDecoder

end TinyWebServer
