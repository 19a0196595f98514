import TinyWebServer.Library.Decimal

/-!
# JSON texts

The grammar of RFC 8259, read from the front: strings and numbers by functions, values by
derivations over what is left of the text. A string is read into pieces, the bytes it shows and the
code units it escapes, and the pieces are then decoded to UTF-8.
-/

namespace JsonText

inductive Value where
  | null
  | boolean (value : Bool)
  /-- A number as it is written. -/
  | number (lexeme : Bytes)
  | string (value : Bytes)
  | array (elements : List Value)
  | object (members : List (Bytes × Value))

/-! ### Strings -/

/-- A part of a string: a byte as it stands or behind a backslash, or a UTF-16 code unit. -/
inductive Piece where
  | byte (b : UInt8)
  | unit (u : ℕ)

/-- The character that a letter behind a backslash stands for. -/
def unescape (letter : UInt8) : Option UInt8 :=
  if letter = 34 ∨ letter = 92 ∨ letter = 47 then some letter
  else if letter = 98 then some 8
  else if letter = 102 then some 12
  else if letter = 110 then some 10
  else if letter = 114 then some 13
  else if letter = 116 then some 9
  else none

def hexDigit (b : UInt8) : Option ℕ :=
  if 48 ≤ b ∧ b ≤ 57 then some (b.toNat - 48)
  else if 65 ≤ b ∧ b ≤ 70 then some (b.toNat - 55)
  else if 97 ≤ b ∧ b ≤ 102 then some (b.toNat - 87)
  else none

/-- Where a string is being read. -/
inductive Position where
  | plain
  /-- Behind a backslash. -/
  | escaped
  /-- Within the digits of a code unit, with this many to come behind the next one. -/
  | hex (more value : ℕ)

def prepend (piece : Piece) (result : List Piece × Bytes) : List Piece × Bytes :=
  (piece :: result.1, result.2)

/-- The pieces up to the closing quote, and what is left behind it. -/
def scan : Position → Bytes → Option (List Piece × Bytes)
  | _, [] => none
  | .plain, b :: text =>
    if b = 34 then some ([], text)
    else if b = 92 then scan .escaped text
    else if b < 32 then none
    else (scan .plain text).map (prepend (.byte b))
  | .escaped, b :: text =>
    if b = 117 then scan (.hex 3 0) text
    else (unescape b).bind fun c => (scan .plain text).map (prepend (.byte c))
  | .hex 0 value, b :: text =>
    (hexDigit b).bind fun d => (scan .plain text).map (prepend (.unit (16 * value + d)))
  | .hex (more + 1) value, b :: text =>
    (hexDigit b).bind fun d => scan (.hex more (16 * value + d)) text

/-- The three bytes or fewer of a code unit. -/
def encodeUnit (u : ℕ) : Bytes :=
  if u < 0x80 then [UInt8.ofNat u]
  else if u < 0x800 then [UInt8.ofNat (0xC0 + u / 64), UInt8.ofNat (0x80 + u % 64)]
  else [UInt8.ofNat (0xE0 + u / 4096), UInt8.ofNat (0x80 + u / 64 % 64),
    UInt8.ofNat (0x80 + u % 64)]

/-- The four bytes of a surrogate pair. -/
def encodePair (high low : ℕ) : Bytes :=
  let c := 0x10000 + 1024 * (high - 0xD800) + (low - 0xDC00)
  [UInt8.ofNat (0xF0 + c / 262144), UInt8.ofNat (0x80 + c / 4096 % 64),
    UInt8.ofNat (0x80 + c / 64 % 64), UInt8.ofNat (0x80 + c % 64)]

def isHigh (u : ℕ) : Bool := 0xD800 ≤ u && u < 0xDC00

def isLow (u : ℕ) : Bool := 0xDC00 ≤ u && u < 0xE000

/-- The string in UTF-8. -/
def decode : List Piece → Bytes
  | [] => []
  | .byte b :: pieces => b :: decode pieces
  | .unit high :: .unit low :: pieces =>
    if isHigh high && isLow low then encodePair high low ++ decode pieces
    else encodeUnit high ++ decode (.unit low :: pieces)
  | .unit u :: pieces => encodeUnit u ++ decode pieces

/-- A string behind its opening quote. -/
def scanString (text : Bytes) : Option (Bytes × Bytes) :=
  (scan .plain text).map fun result => (decode result.1, result.2)

/-! ### Numbers -/

/-- One digit or more. -/
def scanDigits (text : Bytes) : Option (Bytes × Bytes) :=
  if text.takeWhile Bytes.isdigit = [] then none
  else some (text.takeWhile Bytes.isdigit, text.dropWhile Bytes.isdigit)

/-- The integer part, without leading zeros. -/
def scanInt : Bytes → Option (Bytes × Bytes)
  | [] => none
  | b :: text => if b = 48 then some ([48], text) else scanDigits (b :: text)

def scanFraction : Bytes → Option (Bytes × Bytes)
  | [] => some ([], [])
  | b :: text =>
    if b = 46 then (scanDigits text).map fun digits => (46 :: digits.1, digits.2)
    else some ([], b :: text)

/-- An optional character of this set. -/
def scanOptional (cs : Bytes) : Bytes → Bytes × Bytes
  | [] => ([], [])
  | b :: text => if b ∈ cs then ([b], text) else ([], b :: text)

def scanExponent : Bytes → Option (Bytes × Bytes)
  | [] => some ([], [])
  | b :: text =>
    if b = 69 ∨ b = 101 then
      let sign := scanOptional [43, 45] text
      (scanDigits sign.2).map fun digits => (b :: (sign.1 ++ digits.1), digits.2)
    else some ([], b :: text)

/-- The longest number at the front. -/
def scanNumber (text : Bytes) : Option (Bytes × Bytes) :=
  let sign := scanOptional [45] text
  (scanInt sign.2).bind fun int => (scanFraction int.2).bind fun fraction =>
    (scanExponent fraction.2).map fun exponent =>
      (sign.1 ++ int.1 ++ fraction.1 ++ exponent.1, exponent.2)

/-! ### Values -/

def isWs (b : UInt8) : Bool := b = 32 || b = 9 || b = 10 || b = 13

def skipWs (text : Bytes) : Bytes := text.dropWhile isWs

mutual

/-- A value at the front of a text, and what is left of the text. -/
inductive ReadsValue : Bytes → Value → Bytes → Prop where
  | null (rest : Bytes) : ReadsValue (110 :: 117 :: 108 :: 108 :: rest) .null rest
  | true (rest : Bytes) : ReadsValue (116 :: 114 :: 117 :: 101 :: rest) (.boolean true) rest
  | false (rest : Bytes) :
      ReadsValue (102 :: 97 :: 108 :: 115 :: 101 :: rest) (.boolean false) rest
  | number {text lexeme rest : Bytes} (h : scanNumber text = some (lexeme, rest)) :
      ReadsValue text (.number lexeme) rest
  | string {text value rest : Bytes} (h : scanString text = some (value, rest)) :
      ReadsValue (34 :: text) (.string value) rest
  | noElements {text rest : Bytes} (h : skipWs text = 93 :: rest) :
      ReadsValue (91 :: text) (.array []) rest
  | array {text rest : Bytes} {elements : List Value}
      (h : ReadsElements (skipWs text) elements rest) :
      ReadsValue (91 :: text) (.array elements) rest
  | noMembers {text rest : Bytes} (h : skipWs text = 125 :: rest) :
      ReadsValue (123 :: text) (.object []) rest
  | object {text rest : Bytes} {members : List (Bytes × Value)}
      (h : ReadsMembers (skipWs text) members rest) :
      ReadsValue (123 :: text) (.object members) rest

/-- The elements of an array up to its closing bracket. -/
inductive ReadsElements : Bytes → List Value → Bytes → Prop where
  | last {text after rest : Bytes} {value : Value} (hvalue : ReadsValue text value after)
      (hclose : skipWs after = 93 :: rest) : ReadsElements text [value] rest
  | more {text after next rest : Bytes} {value : Value} {elements : List Value}
      (hvalue : ReadsValue text value after) (hcomma : skipWs after = 44 :: next)
      (hmore : ReadsElements (skipWs next) elements rest) :
      ReadsElements text (value :: elements) rest

/-- The members of an object up to its closing brace. -/
inductive ReadsMembers : Bytes → List (Bytes × Value) → Bytes → Prop where
  | last {text name afterName next after rest : Bytes} {value : Value}
      (hname : scanString text = some (name, afterName)) (hcolon : skipWs afterName = 58 :: next)
      (hvalue : ReadsValue (skipWs next) value after) (hclose : skipWs after = 125 :: rest) :
      ReadsMembers (34 :: text) [(name, value)] rest
  | more {text name afterName next after following rest : Bytes} {value : Value}
      {members : List (Bytes × Value)} (hname : scanString text = some (name, afterName))
      (hcolon : skipWs afterName = 58 :: next) (hvalue : ReadsValue (skipWs next) value after)
      (hcomma : skipWs after = 44 :: following)
      (hmore : ReadsMembers (skipWs following) members rest) :
      ReadsMembers (34 :: text) ((name, value) :: members) rest

end

/-- The text is a value with nothing but blanks around it. -/
def Denotes (text : Bytes) (value : Value) : Prop :=
  ∃ rest, ReadsValue (skipWs text) value rest ∧ skipWs rest = []

/-! ### Scanning a string -/

/-- A byte that stands for itself in a string. -/
def IsPlain (b : UInt8) : Prop := 32 ≤ b ∧ b ≠ 34 ∧ b ≠ 92

instance (b : UInt8) : Decidable (IsPlain b) := inferInstanceAs (Decidable (_ ∧ _ ∧ _))

lemma scan_quote (text : Bytes) : scan .plain (34 :: text) = some ([], text) := rfl

lemma scan_control {b : UInt8} (h : b < 32) (text : Bytes) : scan .plain (b :: text) = none := by
  have hquote : b ≠ 34 := UInt8.ne_of_lt (UInt8.lt_trans h (by decide))
  have hbackslash : b ≠ 92 := UInt8.ne_of_lt (UInt8.lt_trans h (by decide))
  rw [scan, if_neg hquote, if_neg hbackslash, if_pos h]

lemma scan_plain {b : UInt8} (h : IsPlain b) (text : Bytes) :
    scan .plain (b :: text) = (scan .plain text).map (prepend (.byte b)) := by
  obtain ⟨hcontrol, hquote, hbackslash⟩ := h
  rw [scan, if_neg hquote, if_neg hbackslash, if_neg (UInt8.not_lt.mpr hcontrol)]

lemma scan_escape {letter : UInt8} (h : letter ≠ 117) (text : Bytes) :
    scan .plain (92 :: letter :: text) =
      (unescape letter).bind fun c => (scan .plain text).map (prepend (.byte c)) := by
  rw [scan, if_neg (by decide), if_pos rfl, scan, if_neg h]

/-- Bytes that stand for themselves up to a quote. -/
lemma scan_append_quote {s : Bytes} (h : ∀ b ∈ s, IsPlain b) (text : Bytes) :
    scan .plain (s ++ 34 :: text) = some (s.map .byte, text) := by
  induction s with
  | nil => exact scan_quote text
  | cons b s ih =>
    rw [List.forall_mem_cons] at h
    rw [List.cons_append, scan_plain h.1, ih h.2]
    rfl

lemma decode_map_byte (s : Bytes) : decode (s.map .byte) = s := by
  induction s with
  | nil => rfl
  | cons b s ih => rw [List.map_cons, decode, ih]

lemma scanString_append_quote {s : Bytes} (h : ∀ b ∈ s, IsPlain b) (text : Bytes) :
    scanString (s ++ 34 :: text) = some (s, text) := by
  rw [scanString, scan_append_quote h, Option.map_some, decode_map_byte]

/-! ### Strings that were not escaped -/

/-- An upper bound for the bytes of a piece. -/
def Piece.weight : Piece → ℕ
  | .byte _ => 1
  | .unit _ => 3

def weight (pieces : List Piece) : ℕ := (pieces.map Piece.weight).sum

lemma length_encodeUnit_le (u : ℕ) : (encodeUnit u).length ≤ 3 := by
  rw [encodeUnit]
  split_ifs <;> simp

lemma length_decode_le (pieces : List Piece) : (decode pieces).length ≤ weight pieces := by
  induction pieces using decode.induct with
  | case1 => simp [decode]
  | case2 b pieces ih =>
    rw [decode, List.length_cons, weight, List.map_cons, List.sum_cons, ← weight, Piece.weight]
    omega
  | case3 high low pieces hpair ih =>
    rw [decode, if_pos hpair, List.length_append]
    simp only [weight, List.map_cons, List.sum_cons, Piece.weight, encodePair] at ih ⊢
    simp only [List.length_cons, List.length_nil]
    omega
  | case4 high low pieces hpair ih =>
    have hunit := length_encodeUnit_le high
    rw [decode, if_neg hpair, List.length_append]
    simp only [weight, List.map_cons, List.sum_cons, Piece.weight] at ih ⊢
    omega
  | case5 u pieces hnext ih =>
    have hunit := length_encodeUnit_le u
    rw [decode, List.length_append]
    · simp only [weight, List.map_cons, List.sum_cons, Piece.weight] at ih ⊢
      omega
    · exact hnext

/-- A byte at the end of the pieces is the last one of the string. -/
lemma decode_append_byte (pieces : List Piece) (b : UInt8) :
    decode (pieces ++ [.byte b]) = decode pieces ++ [b] := by
  induction pieces using decode.induct with
  | case1 => rfl
  | case2 c pieces ih => rw [List.cons_append, decode, ih, decode, List.cons_append]
  | case3 high low pieces hpair ih =>
    rw [List.cons_append, List.cons_append, decode, if_pos hpair, ih, decode, if_pos hpair,
      List.append_assoc]
  | case4 high low pieces hpair ih =>
    rw [List.cons_append, List.cons_append, decode, if_neg hpair]
    rw [List.cons_append] at ih
    rw [ih, decode, if_neg hpair, List.append_assoc]
  | case5 u pieces hnext ih =>
    have hsnoc : ∀ low rest, pieces ++ [Piece.byte b] = .unit low :: rest → False := by
      intro low rest h
      cases pieces with
      | nil => cases h
      | cons piece pieces =>
        cases h
        exact hnext _ _ rfl
    rw [List.cons_append, decode, ih, decode, List.append_assoc]
    · exact hnext
    · exact hsnoc

/-- How many bytes of an escape are behind a position and not paid for by its piece. -/
def Position.owed : Position → ℕ
  | .plain => 0
  | .escaped => 1
  | .hex more _ => 3 - more

/-- The last byte in front of a quote is a backslash that escapes it. -/
def Swallows (position : Position) (s : Bytes) : Prop :=
  (position = .escaped ∧ s = []) ∨ ∃ u, s = u ++ [92]

lemma Swallows.cons {position position' : Position} {s : Bytes} {b : UInt8}
    (hb : position' = .escaped → b = 92) (h : Swallows position' s) :
    Swallows position (b :: s) := by
  rcases h with ⟨hposition, rfl⟩ | ⟨u, rfl⟩
  · exact Or.inr ⟨[], by rw [hb hposition, List.nil_append]⟩
  · exact Or.inr ⟨b :: u, rfl⟩

/-- How a string in front of a quote is read although nothing in it was escaped: as it stands, or
as a shorter one, or beyond the quote. -/
inductive ReadsRaw (position : Position) (s rest : Bytes) : List Piece → Bytes → Prop where
  | exact (hposition : position = .plain) (hplain : ∀ b ∈ s, IsPlain b) :
      ReadsRaw position s rest (s.map .byte) rest
  | shorter {pieces : List Piece} {left : Bytes} (h : weight pieces < s.length + position.owed) :
      ReadsRaw position s rest pieces left
  | beyond {pieces pieces' : List Piece} {left : Bytes} (hswallows : Swallows position s)
      (hrest : scan .plain rest = some (pieces', left)) :
      ReadsRaw position s rest (pieces ++ .byte 34 :: pieces') left

@[simp] lemma weight_cons (piece : Piece) (pieces : List Piece) :
    weight (piece :: pieces) = piece.weight + weight pieces := rfl

@[simp] lemma weight_map_byte (s : Bytes) : weight (s.map .byte) = s.length := by
  induction s with
  | nil => rfl
  | cons b s ih =>
    rw [List.map_cons, weight_cons, ih, Piece.weight, List.length_cons, Nat.add_comm]

/-- A byte without a piece of its own. -/
lemma ReadsRaw.skip {position position' : Position} {s rest left : Bytes} {pieces : List Piece}
    {b : UInt8} (hposition : position' ≠ .plain) (howed : position'.owed ≤ position.owed + 1)
    (hb : position' = .escaped → b = 92) (h : ReadsRaw position' s rest pieces left) :
    ReadsRaw position (b :: s) rest pieces left := by
  cases h with
  | exact hplain _ => exact absurd hplain hposition
  | shorter h =>
    refine .shorter ?_
    rw [List.length_cons]
    omega
  | beyond hswallows hrest => exact .beyond (hswallows.cons hb) hrest

/-- The last byte of an escape. -/
lemma ReadsRaw.unescaped {position : Position} {s rest left : Bytes} {pieces : List Piece}
    {piece : Piece} (b : UInt8) (hweight : piece.weight ≤ position.owed)
    (h : ReadsRaw .plain s rest pieces left) :
    ReadsRaw position (b :: s) rest (piece :: pieces) left := by
  cases h with
  | exact _ _ =>
    refine .shorter ?_
    rw [weight_cons, weight_map_byte, List.length_cons]
    omega
  | shorter h =>
    refine .shorter ?_
    rw [Position.owed, Nat.add_zero] at h
    rw [weight_cons, List.length_cons]
    omega
  | beyond hswallows hrest =>
    rw [← List.cons_append]
    exact .beyond (hswallows.cons (by simp)) hrest

/-- A byte that stands for itself. -/
lemma ReadsRaw.plain {s rest left : Bytes} {pieces : List Piece} {b : UInt8} (hb : IsPlain b)
    (h : ReadsRaw .plain s rest pieces left) :
    ReadsRaw .plain (b :: s) rest (.byte b :: pieces) left := by
  cases h with
  | exact _ hplain => exact .exact rfl (List.forall_mem_cons.mpr ⟨hb, hplain⟩)
  | shorter h =>
    refine .shorter ?_
    rw [Position.owed, Nat.add_zero] at h ⊢
    rw [weight_cons, Piece.weight, List.length_cons]
    omega
  | beyond hswallows hrest =>
    rw [← List.cons_append]
    exact .beyond (hswallows.cons (by simp)) hrest

lemma exists_of_map_prepend {piece : Piece} {scanned : Option (List Piece × Bytes)}
    {pieces : List Piece} {left : Bytes}
    (h : scanned.map (prepend piece) = some (pieces, left)) :
    ∃ pieces', scanned = some (pieces', left) ∧ pieces = piece :: pieces' := by
  obtain ⟨⟨pieces', left'⟩, hscanned, heq⟩ := Option.map_eq_some_iff.mp h
  cases heq
  exact ⟨pieces', hscanned, rfl⟩

/-- The induction is over the bytes in front of the quote, with one case for each position. -/
lemma readsRaw_of_scan {position : Position} {s rest left : Bytes} {pieces : List Piece}
    (h : scan position (s ++ 34 :: rest) = some (pieces, left)) :
    ReadsRaw position s rest pieces left := by
  induction s generalizing position pieces with
  | nil =>
    cases position with
    | plain =>
      cases h
      exact .exact rfl (by simp)
    | escaped =>
      obtain ⟨pieces', hrest, rfl⟩ := exists_of_map_prepend h
      rw [← List.nil_append (Piece.byte 34 :: pieces')]
      exact .beyond (Or.inl ⟨rfl, rfl⟩) hrest
    | hex more value => cases more <;> cases h
  | cons b s ih =>
    rw [List.cons_append] at h
    cases position with
    | plain =>
      rw [scan] at h
      split_ifs at h with hquote hbackslash hcontrol
      · cases h
        exact .shorter (by simp [weight])
      · exact (ih h).skip (by simp) (le_refl _) fun _ => hbackslash
      · obtain ⟨pieces', hrest, rfl⟩ := exists_of_map_prepend h
        exact (ih hrest).plain ⟨UInt8.not_lt.mp hcontrol, hquote, hbackslash⟩
    | escaped =>
      rw [scan] at h
      split_ifs at h with hunit
      · exact (ih h).skip (by simp) (by simp [Position.owed]) (by simp)
      · obtain ⟨c, -, hc⟩ := Option.bind_eq_some_iff.mp h
        obtain ⟨pieces', hrest, rfl⟩ := exists_of_map_prepend hc
        exact (ih hrest).unescaped b (le_refl _)
    | hex more value =>
      cases more with
      | zero =>
        obtain ⟨d, -, hd⟩ := Option.bind_eq_some_iff.mp h
        obtain ⟨pieces', hrest, rfl⟩ := exists_of_map_prepend hd
        exact (ih hrest).unescaped b (le_refl _)
      | succ more =>
        obtain ⟨d, -, hd⟩ := Option.bind_eq_some_iff.mp h
        refine (ih hd).skip (by simp) ?_ (by simp)
        simp only [Position.owed]
        omega

/-- If a string that was not escaped is read as what it is, then nothing had to be escaped; unless
it goes on behind its quote to an end with a backslash. -/
lemma plain_of_scanString {s rest left : Bytes} (h : scanString (s ++ 34 :: rest) = some (s, left))
    (hrest : ∀ pieces left', scan .plain rest = some (pieces, left') →
      ∃ pieces' b, pieces = pieces' ++ [.byte b] ∧ b ≠ 92) :
    (∀ b ∈ s, IsPlain b) ∧ left = rest := by
  obtain ⟨⟨pieces, left'⟩, hscan, heq⟩ := Option.map_eq_some_iff.mp h
  rw [Prod.mk.injEq] at heq
  obtain ⟨hdecode, rfl⟩ := heq
  cases readsRaw_of_scan hscan with
  | exact _ hplain => exact ⟨hplain, rfl⟩
  | shorter hshorter =>
    have hle := length_decode_le pieces
    rw [hdecode] at hle
    rw [Position.owed] at hshorter
    omega
  | @beyond front pieces' _ hswallows hscan' =>
    obtain ⟨u, hu⟩ : ∃ u, s = u ++ [92] := hswallows.resolve_left fun h => nomatch h.1
    obtain ⟨pieces'', b, rfl, hb⟩ := hrest _ _ hscan'
    rw [← List.cons_append, ← List.append_assoc, decode_append_byte, hu] at hdecode
    have hlast := (List.append_inj' hdecode rfl).2
    rw [List.cons.injEq] at hlast
    exact absurd hlast.1 hb

/-! ### Numbers that were printed -/

/-- The text does not go on with a number. -/
def EndsNumber (text : Bytes) : Prop :=
  ∀ b text', text = b :: text' → Bytes.isdigit b = false ∧ b ≠ 46 ∧ b ≠ 69 ∧ b ≠ 101

lemma scanDigits_ofNat (n : ℕ) {rest : Bytes} (hrest : EndsNumber rest) :
    scanDigits (Bytes.ofNat n ++ rest) = some (Bytes.ofNat n, rest) := by
  have hdigits : ∀ b ∈ Bytes.ofNat n, Bytes.isdigit b = true := fun b =>
    Bytes.isdigit_of_mem_ofNat
  have htake : rest.takeWhile Bytes.isdigit = [] ∧ rest.dropWhile Bytes.isdigit = rest := by
    cases rest with
    | nil => exact ⟨rfl, rfl⟩
    | cons b rest =>
      have hb := (hrest b rest rfl).1
      rw [List.takeWhile_cons, List.dropWhile_cons, hb]
      exact ⟨rfl, rfl⟩
  rw [scanDigits, List.takeWhile_append_of_pos hdigits, List.dropWhile_append_of_pos hdigits,
    htake.1, htake.2, List.append_nil, if_neg (Bytes.ofNat_ne_nil n)]

lemma scanInt_ofNat (n : ℕ) {rest : Bytes} (hrest : EndsNumber rest) :
    scanInt (Bytes.ofNat n ++ rest) = some (Bytes.ofNat n, rest) := by
  rcases Nat.eq_zero_or_pos n with rfl | hn
  · rfl
  · obtain ⟨b, s, hs, hb⟩ := Bytes.ofNat_eq_cons_ne_zero hn
    have hscan := scanDigits_ofNat n hrest
    rw [hs, List.cons_append] at hscan ⊢
    rw [scanInt, if_neg hb, hscan]

lemma scanFraction_of_ends {rest : Bytes} (hrest : EndsNumber rest) :
    scanFraction rest = some ([], rest) := by
  cases rest with
  | nil => rfl
  | cons b rest => rw [scanFraction, if_neg (hrest b rest rfl).2.1]

lemma scanExponent_of_ends {rest : Bytes} (hrest : EndsNumber rest) :
    scanExponent rest = some ([], rest) := by
  cases rest with
  | nil => rfl
  | cons b rest =>
    obtain ⟨-, -, hupper, hlower⟩ := hrest b rest rfl
    rw [scanExponent, if_neg (by simp [hupper, hlower])]

/-- A printed integer is a number of the grammar. -/
lemma scanNumber_ofInt (n : ℤ) {rest : Bytes} (hrest : EndsNumber rest) :
    scanNumber (Bytes.ofInt n ++ rest) = some (Bytes.ofInt n, rest) := by
  have hafter : ∀ (sign : Bytes) (k : ℕ) (text : Bytes),
      scanOptional [45] text = (sign, Bytes.ofNat k ++ rest) →
      scanNumber text = some (sign ++ Bytes.ofNat k, rest) := by
    intro sign k text hsign
    rw [scanNumber, hsign]
    simp [scanInt_ofNat k hrest, scanFraction_of_ends hrest, scanExponent_of_ends hrest]
  cases n with
  | ofNat k =>
    obtain ⟨b, s, hs, hb⟩ := Bytes.ofNat_eq_cons k
    have hminus : b ∉ ([45] : Bytes) := by
      rw [List.mem_singleton]
      rintro rfl
      contradiction
    refine hafter [] k (Bytes.ofNat k ++ rest) ?_
    rw [hs, List.cons_append, scanOptional, if_neg hminus]
  | negSucc k => exact hafter (bytes "-") (k + 1) _ rfl

/-! ### What the front of a text says about its value -/

lemma skipWs_cons {b : UInt8} (h : isWs b = false) (text : Bytes) :
    skipWs (b :: text) = b :: text :=
  List.dropWhile_cons_of_neg (by simp [h])

lemma isWs_of_isdigit {b : UInt8} (h : Bytes.isdigit b = true) : isWs b = false := by
  rw [Bytes.isdigit, Bool.and_eq_true, decide_eq_true_iff] at h
  have hne : ∀ c : UInt8, c < 48 → b ≠ c := fun c hc =>
    (UInt8.ne_of_lt (UInt8.lt_of_lt_of_le hc h.1)).symm
  simp [isWs, hne 32 (by decide), hne 9 (by decide), hne 10 (by decide), hne 13 (by decide)]

lemma scanNumber_eq_none {b : UInt8} (hdigit : Bytes.isdigit b = false) (hminus : b ≠ 45)
    (text : Bytes) : scanNumber (b :: text) = none := by
  have hsign : scanOptional [45] (b :: text) = ([], b :: text) :=
    if_neg (by rwa [List.mem_singleton])
  have hzero : b ≠ 48 := by
    rintro rfl
    contradiction
  have hdigits : scanDigits (b :: text) = none := by
    rw [scanDigits, List.takeWhile_cons, hdigit]
    rfl
  rw [scanNumber, hsign, scanInt, if_neg hzero, hdigits, Option.bind_none]

lemma readsValue_quote {text rest : Bytes} {value : Value}
    (h : ReadsValue (34 :: text) value rest) :
    ∃ s, scanString text = some (s, rest) ∧ value = .string s := by
  cases h with
  | number h =>
    rw [scanNumber_eq_none (by decide) (by decide)] at h
    cases h
  | string h => exact ⟨_, h, rfl⟩

lemma readsValue_number {b : UInt8} {text rest : Bytes} {value : Value}
    (hb : Bytes.isdigit b = true ∨ b = 45) (h : ReadsValue (b :: text) value rest) :
    ∃ lexeme, scanNumber (b :: text) = some (lexeme, rest) ∧ value = .number lexeme := by
  cases h with
  | number h => exact ⟨_, h, rfl⟩
  | _ => rcases hb with hb | hb <;> contradiction

/-- An object is empty or read as members. -/
lemma readsValue_brace {text rest : Bytes} {members : List (Bytes × Value)}
    (h : ReadsValue (123 :: text) (.object members) rest) :
    skipWs text = 125 :: rest ∨ ReadsMembers (skipWs text) members rest := by
  cases h with
  | noMembers h => exact Or.inl h
  | object h => exact Or.inr h

end JsonText
