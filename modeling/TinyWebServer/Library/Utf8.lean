import TinyWebServer.Library.Bytes

/-!
# Text in UTF-8

A byte string is text if it encodes some characters. An ASCII character is its own byte, and no
byte of another character is in the ASCII range, so that what is done to ASCII bytes one at a time
is done to characters.
-/

namespace Utf8

def encode (cs : List Char) : Bytes := cs.flatMap String.utf8EncodeChar

/-- The bytes of some characters. -/
def Valid (s : Bytes) : Prop := ∃ cs, s = encode cs

lemma valid_nil : Valid [] := ⟨[], rfl⟩

lemma Valid.append {s t : Bytes} (hs : Valid s) (ht : Valid t) : Valid (s ++ t) := by
  obtain ⟨cs, rfl⟩ := hs
  obtain ⟨ds, rfl⟩ := ht
  exact ⟨cs ++ ds, List.flatMap_append.symm⟩

lemma utf8EncodeChar_of_lt {c : Char} (h : c.toNat < 128) :
    String.utf8EncodeChar c = [UInt8.ofNat c.toNat] :=
  if_pos (Nat.le_of_lt_succ h)

lemma le_of_mem_utf8EncodeChar {c : Char} (h : 128 ≤ c.toNat) {byte : UInt8}
    (hbyte : byte ∈ String.utf8EncodeChar c) : 128 ≤ byte.toNat := by
  have hv : ¬ c.val.toNat ≤ 0x7F := Nat.not_le.mpr h
  rw [String.utf8EncodeChar] at hbyte
  simp only [hv, if_false] at hbyte
  split_ifs at hbyte <;>
    · simp only [List.mem_cons, List.not_mem_nil, or_false] at hbyte
      rcases hbyte with rfl | rfl | rfl | rfl <;>
        · rw [UInt8.toNat_ofNat']
          omega

/-- A byte in the ASCII range is a character by itself. -/
lemma valid_singleton {byte : UInt8} (h : byte.toNat < 128) : Valid [byte] := by
  have hvalid : byte.toNat.isValidChar := Or.inl (by omega)
  have hc : (Char.ofNat byte.toNat).toNat = byte.toNat := by
    rw [Char.ofNat, dif_pos hvalid]
    rfl
  refine ⟨[Char.ofNat byte.toNat], ?_⟩
  rw [encode, List.flatMap_singleton, utf8EncodeChar_of_lt (by rwa [hc]), hc, UInt8.ofNat_toNat]

lemma valid_of_lt {s : Bytes} (h : ∀ byte ∈ s, byte.toNat < 128) : Valid s := by
  induction s with
  | nil => exact valid_nil
  | cons byte s ih =>
    rw [List.forall_mem_cons] at h
    exact (valid_singleton h.1).append (ih h.2)

lemma valid_utf8EncodeChar (c : Char) : Valid (String.utf8EncodeChar c) :=
  ⟨[c], by rw [encode, List.flatMap_singleton]⟩

/-- Text stays text if other text is put for its ASCII characters. -/
lemma Valid.flatMap {f : UInt8 → Bytes} (hascii : ∀ byte, byte.toNat < 128 → Valid (f byte))
    (hhigh : ∀ byte, 128 ≤ byte.toNat → f byte = [byte]) {s : Bytes} (hs : Valid s) :
    Valid (s.flatMap f) := by
  obtain ⟨cs, rfl⟩ := hs
  induction cs with
  | nil => exact valid_nil
  | cons c cs ih =>
    rw [encode, List.flatMap_cons, List.flatMap_append]
    refine Valid.append ?_ ih
    rcases Nat.lt_or_ge c.toNat 128 with hlow | hlarge
    · rw [utf8EncodeChar_of_lt hlow, List.flatMap_singleton]
      exact hascii _ (by rwa [UInt8.toNat_ofNat', Nat.mod_eq_of_lt (by omega)])
    · have hself : (String.utf8EncodeChar c).flatMap f = String.utf8EncodeChar c := by
        rw [List.flatMap_congr fun byte h => hhigh byte (le_of_mem_utf8EncodeChar hlarge h)]
        exact List.flatMap_singleton' _
      rw [hself]
      exact valid_utf8EncodeChar c

/-- An ASCII literal is text. -/
lemma valid_bytes {s : String} (h : s.toList.all fun c => c.toNat < 128) : Valid (bytes s) := by
  apply valid_of_lt
  intro byte hbyte
  obtain ⟨c, hc, rfl⟩ := List.mem_map.mp hbyte
  have hlt : c.toNat < 128 := of_decide_eq_true (List.all_eq_true.mp h c hc)
  rw [Nat.toUInt8, UInt8.toNat_ofNat']
  omega

end Utf8
