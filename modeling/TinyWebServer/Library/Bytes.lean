import Mathlib

/-!
# Byte strings

`std::string` as a list of bytes, with the operations of the C++ standard library that byte
parsers use: `find`, repeated `std::getline`, formatted extraction of a word from a stream,
blank trimming, `std::tolower`, `std::to_string` and `std::stoll`.
-/

/-- The contents of a `std::string`: any bytes, NUL included. -/
abbrev Bytes := List UInt8

/-- An ASCII literal. -/
def bytes (s : String) : Bytes := s.toList.map fun c => c.toNat.toUInt8

namespace Bytes

def cr : UInt8 := 13
def lf : UInt8 := 10
def slash : UInt8 := 47
def crlf : Bytes := [cr, lf]

/-! ### Searching -/

/-- `s.find(pat)`: the position of the first occurrence. -/
def find (pat : Bytes) : Bytes → Option ℕ
  | [] => if pat = [] then some 0 else none
  | b :: s => if pat.isPrefixOf (b :: s) then some 0 else (find pat s).map (· + 1)

/-- `s.find(c)` for a single byte. -/
def findByte (c : UInt8) : Bytes → Option ℕ
  | [] => none
  | b :: s => if b = c then some 0 else (findByte c s).map (· + 1)

lemma find_cons_of_mismatch {pat s : Bytes} {b : UInt8} (h : ¬ pat <+: b :: s) :
    find pat (b :: s) = (find pat s).map (· + 1) := by
  rw [find, if_neg]
  rwa [List.isPrefixOf_iff_prefix]

lemma find_of_prefix {pat s : Bytes} (h : pat <+: s) : find pat s = some 0 := by
  cases s with
  | nil => rw [find, if_pos (List.prefix_nil.mp h)]
  | cons b s => rw [find, if_pos (List.isPrefixOf_iff_prefix.mpr h)]

/-- An occurrence lies inside the string. -/
lemma find_add_length_le {pat s : Bytes} {i : ℕ} (h : find pat s = some i) :
    i + pat.length ≤ s.length := by
  induction s generalizing i with
  | nil =>
    rw [find] at h
    split_ifs at h with hpat
    cases h
    simp [hpat]
  | cons b s ih =>
    rw [find] at h
    split_ifs at h with hpre
    · cases h
      simpa using (List.isPrefixOf_iff_prefix.mp hpre).length_le
    · obtain ⟨j, hj, rfl⟩ := Option.map_eq_some_iff.mp h
      have := ih hj
      simp only [List.length_cons]
      omega

lemma prefix_append_iff_of_length_le {pat s : Bytes} (t : Bytes) (h : pat.length ≤ s.length) :
    pat <+: s ++ t ↔ pat <+: s :=
  ⟨fun hp => List.prefix_of_prefix_length_le hp (List.prefix_append s t) h,
    fun hp => hp.trans (List.prefix_append s t)⟩

/-- Bytes arriving later do not move the first occurrence. -/
lemma find_append {pat s : Bytes} {i : ℕ} (t : Bytes) (h : find pat s = some i) :
    find pat (s ++ t) = some i := by
  induction s generalizing i with
  | nil =>
    rw [find] at h
    split_ifs at h with hpat
    cases h
    exact find_of_prefix (by simp [hpat])
  | cons b s ih =>
    have hlen := find_add_length_le h
    rw [find] at h
    split_ifs at h with hpre
    · cases h
      exact find_of_prefix ((List.isPrefixOf_iff_prefix.mp hpre).trans (List.prefix_append _ t))
    · obtain ⟨j, hj, rfl⟩ := Option.map_eq_some_iff.mp h
      have hlen' : pat.length ≤ (b :: s).length := by omega
      rw [List.cons_append, find_cons_of_mismatch, ih hj]
      · rfl
      · rw [← List.cons_append, prefix_append_iff_of_length_le t hlen']
        rwa [List.isPrefixOf_iff_prefix] at hpre

/-- A prefix without the first byte of the pattern is skipped. -/
lemma find_append_of_notMem {c : UInt8} {pat s : Bytes} (t : Bytes) (h : c ∉ s) :
    find (c :: pat) (s ++ t) = (find (c :: pat) t).map (· + s.length) := by
  induction s with
  | nil => simp
  | cons b s ih =>
    rw [List.mem_cons, not_or] at h
    rw [List.cons_append, find_cons_of_mismatch, ih h.2, Option.map_map]
    · rfl
    · rintro ⟨u, hu⟩
      exact h.1 (List.cons.inj hu).1

/-- What stands somewhere is found, there or further in front. -/
lemma find_append_self_ne_none (pat s t : Bytes) : find pat (s ++ (pat ++ t)) ≠ none := by
  induction s with
  | nil =>
    rw [List.nil_append, find_of_prefix (List.prefix_append pat t)]
    exact Option.some_ne_none 0
  | cons b s ih =>
    rw [List.cons_append, find]
    split_ifs
    · exact Option.some_ne_none 0
    · simpa using ih

lemma exists_append_of_find {pat s : Bytes} (h : (find pat s).isSome) :
    ∃ u v, s = u ++ (pat ++ v) := by
  induction s with
  | nil =>
    rw [find] at h
    split_ifs at h with hnil
    · exact ⟨[], [], by simp [hnil]⟩
    · simp at h
  | cons b s ih =>
    rw [find] at h
    split_ifs at h with hprefix
    · obtain ⟨v, hv⟩ := List.isPrefixOf_iff_prefix.mp hprefix
      exact ⟨[], v, hv.symm⟩
    · obtain ⟨u, v, rfl⟩ := ih (by simpa using h)
      exact ⟨b :: u, v, rfl⟩

/-- A string that is found is found without its first bytes too. -/
lemma isSome_find_of_append {u pat s : Bytes} (h : (find (u ++ pat) s).isSome) :
    (find pat s).isSome := by
  obtain ⟨v, w, rfl⟩ := exists_append_of_find h
  rw [Option.isSome_iff_ne_none]
  have hfind := find_append_self_ne_none pat (v ++ u) w
  rwa [List.append_assoc, ← List.append_assoc u pat w] at hfind

lemma findByte_append_cons {c : UInt8} {s : Bytes} (t : Bytes) (h : c ∉ s) :
    findByte c (s ++ c :: t) = some s.length := by
  induction s with
  | nil => simp [findByte]
  | cons b s ih =>
    rw [List.mem_cons, not_or] at h
    rw [List.cons_append, findByte, if_neg (Ne.symm h.1), ih h.2]
    rfl

lemma findByte_of_notMem {c : UInt8} {s : Bytes} (h : c ∉ s) : findByte c s = none := by
  induction s with
  | nil => rfl
  | cons b s ih =>
    rw [List.mem_cons, not_or] at h
    rw [findByte, if_neg (Ne.symm h.1), ih h.2]
    rfl

/-! ### Lines and words -/

/-- The pieces that repeated `std::getline(stream, line, delim)` extracts. -/
def getlines (delim : UInt8) : Bytes → List Bytes
  | [] => []
  | b :: s =>
    if b = delim then [] :: getlines delim s
    else match getlines delim s with
      | [] => [[b]]
      | line :: lines => (b :: line) :: lines

/-- The white space of the C locale. -/
def isspace (b : UInt8) : Bool := b = 32 || (9 ≤ b && b ≤ 13)

/-- `stream >> word`: the word and what the stream still holds, if there is a word. -/
def extract (s : Bytes) : Option (Bytes × Bytes) :=
  match s.dropWhile isspace with
  | [] => none
  | b :: t => some ((b :: t).takeWhile (fun c => !isspace c), (b :: t).dropWhile (fun c => !isspace c))

/-- A line without its carriage return, if it ends in one. -/
def popCr (line : Bytes) : Bytes :=
  if line.getLast? = some cr then line.dropLast else line

/-- A line that holds no delimiter is extracted whole; extraction goes on behind it. -/
lemma getlines_append_cons {delim : UInt8} {line : Bytes} (s : Bytes) (h : delim ∉ line) :
    getlines delim (line ++ delim :: s) = line :: getlines delim s := by
  induction line with
  | nil => simp [getlines]
  | cons b line ih =>
    rw [List.mem_cons, not_or] at h
    rw [List.cons_append, getlines, if_neg (Ne.symm h.1), ih h.2]

lemma getlines_of_notMem {delim : UInt8} {line : Bytes} (hne : line ≠ []) (h : delim ∉ line) :
    getlines delim line = [line] := by
  induction line with
  | nil => exact absurd rfl hne
  | cons b line ih =>
    rw [List.mem_cons, not_or] at h
    rw [getlines, if_neg (Ne.symm h.1)]
    by_cases hnil : line = []
    · simp [hnil, getlines]
    · rw [ih hnil h.2]

/-- No piece holds the delimiter. -/
lemma notMem_of_mem_getlines {delim : UInt8} {s line : Bytes} (h : line ∈ getlines delim s) :
    delim ∉ line := by
  induction s generalizing line with
  | nil => simp [getlines] at h
  | cons b s ih =>
    rw [getlines] at h
    split_ifs at h with hb
    · rcases List.mem_cons.mp h with rfl | h
      · simp
      · exact ih h
    · cases hl : getlines delim s with
      | nil =>
        rw [hl] at h
        rw [List.mem_singleton.mp h]
        simpa using Ne.symm hb
      | cons first lines =>
        rw [hl] at h ih
        rcases List.mem_cons.mp h with rfl | h
        · simpa using ⟨Ne.symm hb, ih (List.mem_cons_self ..)⟩
        · exact ih (List.mem_cons_of_mem _ h)

lemma popCr_append_cr (line : Bytes) : popCr (line ++ [cr]) = line := by
  simp [popCr]

lemma popCr_of_notMem {line : Bytes} (h : cr ∉ line) : popCr line = line := by
  rw [popCr, if_neg]
  intro hlast
  exact h (List.mem_of_getLast? hlast)

/-- A word with white space or nothing behind it is what extraction returns. -/
lemma extract_append {word s : Bytes} (hne : word ≠ []) (hword : ∀ b ∈ word, isspace b = false)
    (hs : ∀ b ∈ s.head?, isspace b = true) : extract (word ++ s) = some (word, s) := by
  cases word with
  | nil => exact absurd rfl hne
  | cons b word =>
    have hb : isspace b = false := hword b (List.mem_cons_self ..)
    have hstop : s.takeWhile (fun c => !isspace c) = [] ∧
        s.dropWhile (fun c => !isspace c) = s := by
      cases s with
      | nil => simp
      | cons c s => simp [hs c (by simp)]
    have hall : ∀ c ∈ b :: word, (!isspace c) = true := fun c hc => by simp [hword c hc]
    have hdrop : (b :: word ++ s).dropWhile isspace = b :: (word ++ s) := by simp [hb]
    rw [extract, hdrop]
    simp only [Option.some.injEq, Prod.mk.injEq, ← List.cons_append]
    rw [List.takeWhile_append_of_pos hall, List.dropWhile_append_of_pos hall, hstop.1, hstop.2]
    simp

/-- White space in front of a word is skipped. -/
lemma extract_cons_of_isspace {b : UInt8} {s : Bytes} (h : isspace b = true) :
    extract (b :: s) = extract s := by
  simp [extract, h]

/-- A byte string that extraction can return. -/
def IsWord (word : Bytes) : Prop := word ≠ [] ∧ ∀ b ∈ word, isspace b = false

instance (word : Bytes) : Decidable (IsWord word) :=
  inferInstanceAs (Decidable (word ≠ [] ∧ ∀ b ∈ word, isspace b = false))

lemma IsWord.notMem {word : Bytes} {b : UInt8} (h : IsWord word) (hb : isspace b = true) :
    b ∉ word := by
  intro hmem
  simp [h.2 b hmem] at hb

/-! ### Lines that end in CRLF -/

/-- A line of text: some bytes, but neither a carriage return nor a line feed. -/
structure IsLine (line : Bytes) : Prop where
  ne_nil : line ≠ []
  no_cr : cr ∉ line
  no_lf : lf ∉ line

/-- One CRLF in front of anything but another one is skipped. -/
lemma find_crlf_cons {b : UInt8} (s : Bytes) (hb : b ≠ cr) :
    find (crlf ++ crlf) (crlf ++ b :: s) = (find (crlf ++ crlf) (b :: s)).map (· + 2) := by
  have hcr : ¬ crlf ++ crlf <+: cr :: lf :: b :: s := by
    rintro ⟨t, ht⟩
    simp only [crlf, List.cons_append, List.nil_append, List.cons.injEq, true_and] at ht
    exact hb ht.1.symm
  have hlf : ¬ crlf ++ crlf <+: lf :: b :: s := by
    rintro ⟨t, ht⟩
    simp [crlf, cr, lf] at ht
  change find (crlf ++ crlf) (cr :: lf :: b :: s) = _
  rw [find_cons_of_mismatch hcr, find_cons_of_mismatch hlf, Option.map_map]
  rfl

lemma intercalate_crlf_eq_cons {lines : List Bytes} (hne : lines ≠ [])
    (h : ∀ line ∈ lines, IsLine line) :
    ∃ b s, List.intercalate crlf lines = b :: s ∧ b ≠ cr := by
  obtain ⟨line, lines, rfl⟩ := List.exists_cons_of_ne_nil hne
  have hline := h line (List.mem_cons_self ..)
  obtain ⟨b, line, rfl⟩ := List.exists_cons_of_ne_nil hline.ne_nil
  have hb : b ≠ cr := by
    rintro rfl
    exact hline.no_cr (List.mem_cons_self ..)
  by_cases hnil : lines = []
  · exact ⟨b, line, by rw [hnil, List.intercalate_singleton], hb⟩
  · exact ⟨b, line ++ crlf ++ List.intercalate crlf lines,
      by simp [List.intercalate_cons_of_ne_nil hnil], hb⟩

/-- Behind lines separated by CRLF, the first empty line is the first place where two CRLF meet. -/
lemma find_intercalate_crlf {lines : List Bytes} (hne : lines ≠ [])
    (h : ∀ line ∈ lines, IsLine line) (s : Bytes) :
    find (crlf ++ crlf) (List.intercalate crlf lines ++ (crlf ++ crlf ++ s)) =
      some (List.intercalate crlf lines).length := by
  induction lines with
  | nil => exact absurd rfl hne
  | cons line lines ih =>
    have hskip : ∀ t, find (crlf ++ crlf) (line ++ t) =
        (find (crlf ++ crlf) t).map (· + line.length) :=
      fun t => find_append_of_notMem t (h line (List.mem_cons_self ..)).no_cr
    by_cases hlines : lines = []
    · subst hlines
      rw [List.intercalate_singleton, hskip, find_of_prefix (List.prefix_append _ _)]
      simp
    · have hrest := fun line hmem => h line (List.mem_cons_of_mem _ hmem)
      have hfind := ih hlines hrest
      obtain ⟨b, t, hnext, hb⟩ := intercalate_crlf_eq_cons hlines hrest
      rw [List.intercalate_cons_of_ne_nil hlines, List.append_assoc, List.append_assoc, hskip]
      rw [hnext] at hfind ⊢
      rw [List.cons_append] at hfind ⊢
      rw [find_crlf_cons _ hb, hfind]
      simp [crlf]
      omega

/-- Reading lines back: `getline` up to the line feed, and the carriage return goes. -/
lemma map_popCr_getlines {lines : List Bytes} (h : ∀ line ∈ lines, IsLine line) :
    (getlines lf (List.intercalate crlf lines)).map popCr = lines := by
  induction lines with
  | nil => rfl
  | cons line lines ih =>
    have hline := h line (List.mem_cons_self ..)
    by_cases hlines : lines = []
    · subst hlines
      rw [List.intercalate_singleton, getlines_of_notMem hline.ne_nil hline.no_lf,
        List.map_singleton, popCr_of_notMem hline.no_cr]
    · have hlf : lf ∉ line ++ [cr] := by simpa [cr, lf] using hline.no_lf
      have hsplit : List.intercalate crlf (line :: lines) =
          (line ++ [cr]) ++ lf :: List.intercalate crlf lines := by
        simp [List.intercalate_cons_of_ne_nil hlines, crlf]
      rw [hsplit, getlines_append_cons _ hlf, List.map_cons, popCr_append_cr,
        ih fun line hmem => h line (List.mem_cons_of_mem _ hmem)]

/-! ### Trimming and case -/

/-- The blanks of `find_first_not_of(" \t")`. -/
def isblank (b : UInt8) : Bool := b = 32 || b = 9

/-- Remove the blanks on both sides. -/
def trim (s : Bytes) : Bytes := (s.dropWhile isblank).rdropWhile isblank

/-- `std::tolower` in the C locale. -/
def tolower (b : UInt8) : UInt8 := if 65 ≤ b ∧ b ≤ 90 then b + 32 else b

/-! ### Numbers -/

/-- `std::to_string` of a non-negative number. -/
def ofNat (n : ℕ) : Bytes := (Nat.toDigits 10 n).map fun c => c.toNat.toUInt8

/-- `std::to_string`. -/
def ofInt : ℤ → Bytes
  | .ofNat n => ofNat n
  | .negSucc n => bytes "-" ++ ofNat (n + 1)

def isdigit (b : UInt8) : Bool := 48 ≤ b && b ≤ 57

/-- The number that a string of digits denotes. -/
def digitsVal (s : Bytes) : ℕ := s.foldl (fun n b => n * 10 + (b.toNat - 48)) 0

/-- `std::stoll`: `none` where it throws, for want of a digit or because the number does not
fit 64 bits. What follows the digits is ignored. -/
def stoll (s : Bytes) : Option ℤ :=
  let s := s.dropWhile isspace
  let negative := s.head? = some 45
  let s := if s.head? = some 45 ∨ s.head? = some 43 then s.tail else s
  let digits := s.takeWhile isdigit
  let n : ℤ := if negative then -(digitsVal digits) else digitsVal digits
  if digits = [] then none
  else if n < -(2 ^ 63) ∨ 2 ^ 63 ≤ n then none
  else some n

/-! ### C strings -/

/-- What a system call sees of `s.c_str()`: the bytes in front of the first NUL. -/
def cstr (s : Bytes) : Bytes := s.takeWhile fun b => b != 0

lemma all_ne_zero {s : Bytes} (h : (0 : UInt8) ∉ s) : ∀ b ∈ s, (b != 0) = true := by
  intro b hb
  rw [bne_iff_ne]
  rintro rfl
  exact h hb

lemma cstr_of_notMem {s : Bytes} (h : (0 : UInt8) ∉ s) : cstr s = s :=
  List.takeWhile_eq_self_iff.mpr (all_ne_zero h)

lemma cstr_append_of_notMem {s : Bytes} (t : Bytes) (h : (0 : UInt8) ∉ s) :
    cstr (s ++ t) = s ++ cstr t :=
  List.takeWhile_append_of_pos (all_ne_zero h)

lemma cstr_append_of_mem {s : Bytes} (t : Bytes) (h : (0 : UInt8) ∈ s) :
    cstr (s ++ t) = cstr s := by
  induction s with
  | nil => simp at h
  | cons b s ih =>
    by_cases hb : b = 0
    · simp [cstr, hb]
    · have hs : (0 : UInt8) ∈ s := by simpa [Ne.symm hb] using h
      simp only [cstr, List.cons_append, List.takeWhile_cons] at ih ⊢
      rw [ih hs]

end Bytes
