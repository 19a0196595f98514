import TinyWebServer.Http2.HpackInsertion

/-!
# Header blocks that refer to the tables

The reference decoder keeps one table, the static entries followed by the dynamic ones, and knows
nothing of bytes or counters. A block of indexed fields and of literals with an indexed name is
decoded to what the reference decoder makes of it, as long as no integer of the block is longer than
`DecodeInteger` accepts and no sum of the sizes wraps around in 32 bits.
-/

namespace TinyWebServer

open Fitting

/-! ### What a block says -/

/-- A representation of a header field. -/
inductive BlockField where
  | indexed (index : ℕ)
  | literal (nameIndex : ℕ) (value : Bytes)

/-- Groups of seven bits, the least significant ones first, of which the last one says that it is
the last. -/
inductive Continues : ℕ → Bytes → Prop where
  | last {group : ℕ} (hgroup : group < 128) : Continues group [UInt8.ofNat group]
  | more {group n : ℕ} {data : Bytes} (hgroup : group < 128) (hrest : Continues n data) :
      Continues (group + 128 * n) (UInt8.ofNat (group + 128) :: data)

/-- An integer in the low bits of a byte or, if it is too large for them, behind that byte. -/
inductive EncodesInteger (prefixBits high : ℕ) : ℕ → Bytes → Prop where
  | short {n : ℕ} (hn : n < 2 ^ prefixBits - 1) :
      EncodesInteger prefixBits high n [UInt8.ofNat (high + n)]
  | long {n : ℕ} {data : Bytes} (hn : Continues n data) :
      EncodesInteger prefixBits high (2 ^ prefixBits - 1 + n)
        (UInt8.ofNat (high + (2 ^ prefixBits - 1)) :: data)

/-- The bytes of a field, with integers that are encoded in an admitted way. -/
inductive EncodesField (admitted : Bytes → Prop) : BlockField → Bytes → Prop where
  | indexed {index : ℕ} {data : Bytes} (hindex : EncodesInteger 7 0x80 index data)
      (hadmitted : admitted data) : EncodesField admitted (.indexed index) data
  | literal {nameIndex : ℕ} {value nameData lengthData : Bytes}
      (hname : EncodesInteger 6 0x40 nameIndex nameData) (hnameAdmitted : admitted nameData)
      (hlength : EncodesInteger 7 0 value.length lengthData)
      (hlengthAdmitted : admitted lengthData) :
      EncodesField admitted (.literal nameIndex value) (nameData ++ (lengthData ++ value))

inductive EncodesBlock (admitted : Bytes → Prop) : List BlockField → Bytes → Prop where
  | nil : EncodesBlock admitted [] []
  | cons {field : BlockField} {fields : List BlockField} {data rest : Bytes}
      (hfield : EncodesField admitted field data) (hrest : EncodesBlock admitted fields rest) :
      EncodesBlock admitted (field :: fields) (data ++ rest)

namespace Reference

/-- The name and the value of a field. -/
abbrev Pair := Bytes × Bytes

def pairSize (pair : Pair) : ℕ := pair.1.length + pair.2.length + 32

def ofHeader (header : HpackHeader) : Pair := (header.name, header.value)

def staticPairs : List Pair := HpackDecoder.staticTable.tail.map ofHeader

/-- The entry at an index that starts at one. -/
def entry (table : List Pair) (index : ℕ) : Option Pair :=
  if index = 0 then none else (staticPairs ++ table)[index - 1]?

/-- The field and the dynamic table behind it; an entry that is inserted has to fit the limit. -/
def field (limit : ℕ) (table : List Pair) : BlockField → Option (Pair × List Pair)
  | .indexed index => (entry table index).map fun pair => (pair, table)
  | .literal nameIndex value =>
    (entry table nameIndex).bind fun named =>
      if pairSize (named.1, value) ≤ limit then
        some ((named.1, value), fitting pairSize limit ((named.1, value) :: table))
      else none

def block (limit : ℕ) (table : List Pair) : List BlockField → Option (List Pair × List Pair)
  | [] => some ([], table)
  | f :: fields =>
    (field limit table f).bind fun result =>
      (block limit result.2 fields).map fun results => (result.1 :: results.1, results.2)

/-- The entry that a field inserts meets a table of which no part seems to leave room for it only
because the sum of the sizes wraps around. -/
def FieldNoWrap (limit : ℕ) (table : List Pair) : BlockField → Prop
  | .indexed _ => True
  | .literal nameIndex value => ∀ named, entry table nameIndex = some named →
    HpackDecoder.NoWrap limit (pairSize (named.1, value)) pairSize table

/-- That holds of each field of a block, at the table in front of it. -/
def BlockNoWrap (limit : ℕ) (table : List Pair) : List BlockField → Prop
  | [] => True
  | f :: fields => FieldNoWrap limit table f ∧
    ∀ result, field limit table f = some result → BlockNoWrap limit result.2 fields

end Reference

namespace HpackDecoder

def pairs (d : HpackDecoder) : List Reference.Pair := d.headers.map Reference.ofHeader

/-- If the reference decoder understands the fields, the bytes are decoded as it says, and leave the
table that it has. -/
def DecodesAsReference (d : HpackDecoder) (fields : List BlockField) (data : Bytes) : Prop :=
  ∀ pairs table, Reference.block d.maxDynamicTableSize d.pairs fields = some (pairs, table) →
    ∃ headers, (d.decode data).1 = some headers ∧ headers.map Reference.ofHeader = pairs ∧
      (d.decode data).2.pairs = table

/-- What the guard of `DecodeInteger` admits: a prefix and four more bytes. -/
def AtMostFive (data : Bytes) : Prop := data.length ≤ 5

instance (data : Bytes) : Decidable (AtMostFive data) := inferInstanceAs (Decidable (_ ≤ _))

/-! ### Integers and strings -/

lemma group_bits {group : ℕ} (hgroup : group < 128) :
    (UInt8.ofNat group &&& 0x7F).toNat = group ∧ UInt8.ofNat group &&& 0x80 = 0 ∧
    (UInt8.ofNat (group + 128) &&& 0x7F).toNat = group ∧
      UInt8.ofNat (group + 128) &&& 0x80 ≠ 0 := by
  have hall : ∀ n : Fin 128, (UInt8.ofNat n.val &&& 0x7F).toNat = n.val ∧
      UInt8.ofNat n.val &&& 0x80 = 0 ∧ (UInt8.ofNat (n.val + 128) &&& 0x7F).toNat = n.val ∧
      UInt8.ofNat (n.val + 128) &&& 0x80 ≠ 0 := by decide
  exact hall ⟨group, hgroup⟩

lemma decodeContinuation_of_continues {n m result : ℕ} {data : Bytes} (h : Continues n data)
    (hm : m + 7 * data.length ≤ 28) (hresult : result < 2 ^ 8 + 2 ^ m) (rest : Bytes) :
    decodeContinuation m result (data ++ rest) = .ok (result + n * 2 ^ m, rest) := by
  induction h generalizing m result with
  | @last group hgroup =>
    rw [List.length_singleton] at hm
    obtain ⟨hbits, hstop, -, -⟩ := group_bits hgroup
    obtain ⟨hexact, -⟩ := uint32_add_group hresult hgroup hm
    rw [List.singleton_append, decodeContinuation, hbits, hexact]
    rw [if_neg (Nat.not_lt.mpr hm), if_neg (not_not.mpr hstop)]
  | @more group n data hgroup hrest ih =>
    rw [List.length_cons] at hm
    obtain ⟨-, -, hbits, hmore⟩ := group_bits hgroup
    obtain ⟨hexact, hnext⟩ := uint32_add_group hresult hgroup (by omega)
    rw [List.cons_append, decodeContinuation, hbits, hexact]
    rw [if_neg (by omega), if_pos hmore, ih (by omega) hnext]
    congr 2
    rw [pow_add]
    ring

/-- The prefix takes the low bits of the first byte. -/
lemma toNat_prefix {prefixBits high n : ℕ} (hhigh : high + 2 ^ prefixBits ≤ 256)
    (haligned : high % 2 ^ prefixBits = 0) (hn : n < 2 ^ prefixBits) :
    (UInt8.ofNat (high + n)).toNat % 2 ^ prefixBits = n := by
  have hbyte : high + n < 2 ^ 8 := by omega
  rw [UInt8.toNat_ofNat', Nat.mod_eq_of_lt hbyte, Nat.add_mod, haligned, Nat.zero_add,
    Nat.mod_mod, Nat.mod_eq_of_lt hn]

lemma decodeInteger_of_encodes {prefixBits high n : ℕ} {data : Bytes}
    (h : EncodesInteger prefixBits high n data) (hbits : prefixBits ≤ 8)
    (hhigh : high + 2 ^ prefixBits ≤ 256) (haligned : high % 2 ^ prefixBits = 0)
    (hfive : AtMostFive data) (rest : Bytes) :
    decodeInteger prefixBits (data ++ rest) = .ok (n, rest) := by
  have hpow : 0 < 2 ^ prefixBits := Nat.two_pow_pos prefixBits
  cases h with
  | short hn =>
    rw [List.singleton_append, decodeInteger, toNat_prefix hhigh haligned (by omega)]
    exact if_neg (by omega)
  | @long n data hn =>
    rw [AtMostFive, List.length_cons] at hfive
    have hle : 2 ^ prefixBits ≤ 2 ^ 8 := Nat.pow_le_pow_right (by omega) hbits
    rw [List.cons_append, decodeInteger, toNat_prefix hhigh haligned (by omega), if_pos rfl,
      decodeContinuation_of_continues hn (by omega) (by omega), pow_zero, mul_one]

/-- An encoding starts with a byte that has the high bits. -/
lemma exists_cons_of_encodes {prefixBits high n : ℕ} {data : Bytes}
    (h : EncodesInteger prefixBits high n data) :
    ∃ low tail, low < 2 ^ prefixBits ∧ data = UInt8.ofNat (high + low) :: tail := by
  have hpow : 0 < 2 ^ prefixBits := Nat.two_pow_pos prefixBits
  cases h with
  | short hn => exact ⟨_, _, by omega, rfl⟩
  | long hn => exact ⟨_, _, by omega, rfl⟩

lemma decodeString_of_encodes {value lengthData : Bytes}
    (h : EncodesInteger 7 0 value.length lengthData) (hfive : AtMostFive lengthData)
    (rest : Bytes) : decodeString (lengthData ++ (value ++ rest)) = .ok (value, rest) := by
  have hint := decodeInteger_of_encodes h (by decide) (by decide) rfl hfive (value ++ rest)
  have hnil : lengthData ++ (value ++ rest) ≠ [] := by
    obtain ⟨low, tail, -, rfl⟩ := exists_cons_of_encodes h
    exact List.cons_ne_nil _ _
  rw [decodeString, if_neg hnil, hint]
  dsimp only
  rw [if_neg (by simp), List.take_left, List.drop_left]

/-! ### The two tables -/

lemma ofHeader_getTableEntry (d : HpackDecoder) (index : ℕ) :
    (d.getTableEntry index).map Reference.ofHeader = Reference.entry d.pairs index := by
  have hlength : Reference.staticPairs.length = 61 := by decide
  rw [Reference.entry]
  by_cases hzero : index = 0
  · rw [hzero]
    rfl
  rw [if_neg hzero]
  by_cases hstatic : index ≤ 61
  · have hlt : index - 1 < Reference.staticPairs.length := by omega
    have hindex : index - 1 + 1 = index := by omega
    rw [getTableEntry, staticTableSize, if_pos hstatic, getStaticTableEntry, staticTableSize,
      if_neg (by omega), List.getElem?_append_left hlt, Reference.staticPairs, List.getElem?_map,
      List.getElem?_tail, hindex]
  · obtain ⟨i, rfl⟩ : ∃ i, index = 61 + i := ⟨index - 61, by omega⟩
    have hle : Reference.staticPairs.length ≤ 61 + i - 1 := by omega
    have hindex : 61 + i - 1 - 61 = i - 1 := by omega
    rw [getTableEntry_add d (by omega), List.getElem?_append_right hle, hlength, hindex, pairs,
      List.getElem?_map]

lemma noWrap_headers_of_pairs {limit entrySize : ℕ} {d : HpackDecoder}
    (h : NoWrap limit entrySize Reference.pairSize d.pairs) :
    NoWrap limit entrySize HpackHeader.tableSize d.headers := by
  intro kept hkept hne
  have hsame : total Reference.pairSize (kept.map Reference.ofHeader) =
      total HpackHeader.tableSize kept := by
    rw [total, total, List.map_map]
    rfl
  rw [← hsame]
  exact h _ (hkept.map _) (by simpa using hne)

/-- An insertion is that of the reference decoder unless a sum wraps around. -/
lemma Summed.pairs_addToDynamicTable {d : HpackDecoder} (hd : Summed d) {header : HpackHeader}
    (hheader : header.Short)
    (hfits : Reference.pairSize (Reference.ofHeader header) ≤ d.maxDynamicTableSize)
    (hno : NoWrap d.maxDynamicTableSize (Reference.pairSize (Reference.ofHeader header))
      Reference.pairSize d.pairs) :
    (d.addToDynamicTable header).pairs =
      fitting Reference.pairSize d.maxDynamicTableSize (Reference.ofHeader header :: d.pairs) := by
  have hlarge : ¬ d.maxDynamicTableSize < header.tableSize := Nat.not_lt.mpr hfits
  have hinsert := (headers_addToDynamicTable_iff hd hheader).mpr
    ((if_neg hlarge).mpr (noWrap_headers_of_pairs hno))
  have hsame : ∀ header ∈ d.headers,
      Reference.pairSize (Reference.ofHeader header) = header.tableSize := fun _ _ => rfl
  rw [pairs, hinsert, insertEntry, if_neg hlarge, List.map_cons, fitting_cons _ hfits]
  exact congrArg _ (fitting_map _ _ hsame _)

/-! ### Fields and blocks -/

lemma decodeHeaderField_indexed {d : HpackDecoder} {index : ℕ} {data : Bytes}
    {header : HpackHeader} (h : EncodesInteger 7 0x80 index data) (hfive : AtMostFive data)
    (hentry : d.getTableEntry index = some header) (rest : Bytes) (old : HpackHeader) :
    d.decodeHeaderField (data ++ rest) old = (.ok (header, rest), d) := by
  have hint := decodeInteger_of_encodes h (by decide) (by decide) rfl hfive rest
  obtain ⟨low, tail, hlow, rfl⟩ := exists_cons_of_encodes h
  have hbit := (group_bits (show low < 128 from hlow)).2.2.2
  rw [Nat.add_comm] at hbit
  rw [List.cons_append] at hint ⊢
  rw [decodeHeaderField, List.length_cons, decodeHeaderFieldFuel, if_pos hbit, hint]
  dsimp only
  rw [hentry]

lemma decodeHeaderField_literal {d : HpackDecoder} {nameIndex : ℕ}
    {value nameData lengthData : Bytes} {named : HpackHeader}
    (hname : EncodesInteger 6 0x40 nameIndex nameData) (hnameFive : AtMostFive nameData)
    (hlength : EncodesInteger 7 0 value.length lengthData) (hlengthFive : AtMostFive lengthData)
    (hentry : d.getTableEntry nameIndex = some named) (rest : Bytes) :
    d.decodeHeaderField (nameData ++ (lengthData ++ (value ++ rest))) ⟨[], [], false⟩ =
      (.ok (⟨named.name, value, false⟩, rest), d.addToDynamicTable ⟨named.name, value, false⟩) := by
  have hint := decodeInteger_of_encodes hname (by decide) (by decide) rfl hnameFive
    (lengthData ++ (value ++ rest))
  have hstring := decodeString_of_encodes hlength hlengthFive rest
  obtain ⟨low, tail, hlow, rfl⟩ := exists_cons_of_encodes hname
  have hbits : ∀ n : Fin 64, UInt8.ofNat (0x40 + n.val) &&& 0x80 = 0 ∧
      UInt8.ofNat (0x40 + n.val) &&& 0xC0 = 0x40 := by decide
  obtain ⟨hindexed, hincremental⟩ := hbits ⟨low, hlow⟩
  rw [List.cons_append] at hint ⊢
  rw [decodeHeaderField, List.length_cons, decodeHeaderFieldFuel,
    if_neg (not_not.mpr hindexed), if_pos hincremental, hint]
  dsimp only
  rw [hentry]
  dsimp only
  rw [hstring]

/-- One field is decoded as the reference decoder says. -/
lemma decodeHeaderField_of_encodes {d : HpackDecoder} (hd : Summed d) {field : BlockField}
    {data : Bytes} {pair : Reference.Pair} {table : List Reference.Pair}
    (h : EncodesField AtMostFive field data)
    (hno : Reference.FieldNoWrap d.maxDynamicTableSize d.pairs field)
    (href : Reference.field d.maxDynamicTableSize d.pairs field = some (pair, table))
    (rest : Bytes) :
    ∃ header d', d.decodeHeaderField (data ++ rest) ⟨[], [], false⟩ = (.ok (header, rest), d') ∧
      Reference.ofHeader header = pair ∧ d'.pairs = table ∧ Summed d' ∧
      d'.maxDynamicTableSize = d.maxDynamicTableSize := by
  cases h with
  | @indexed index data hindex hfive =>
    rw [Reference.field, ← ofHeader_getTableEntry] at href
    cases hentry : d.getTableEntry index with
    | none =>
      rw [hentry] at href
      cases href
    | some header =>
      rw [hentry] at href
      cases href
      exact ⟨header, d, decodeHeaderField_indexed hindex hfive hentry rest _, rfl, rfl, hd, rfl⟩
  | @literal nameIndex value nameData lengthData hname hnameFive hlength hlengthFive =>
    rw [Reference.FieldNoWrap, ← ofHeader_getTableEntry] at hno
    rw [Reference.field, ← ofHeader_getTableEntry] at href
    cases hentry : d.getTableEntry nameIndex with
    | none =>
      rw [hentry] at href
      cases href
    | some named =>
      rw [hentry, Option.map_some] at hno
      rw [hentry, Option.map_some, Option.bind_some] at href
      split_ifs at href with hfits
      cases href
      have hshort : (⟨named.name, value, false⟩ : HpackHeader).Short :=
        ⟨(short_of_getTableEntry hd.shortEntries hentry).1,
          length_of_decodeString (decodeString_of_encodes hlength hlengthFive [])⟩
      refine ⟨⟨named.name, value, false⟩, _, ?_, rfl, ?_, hd.addToDynamicTable hshort,
        maxDynamicTableSize_add d _⟩
      · rw [List.append_assoc, List.append_assoc]
        exact decodeHeaderField_literal hname hnameFive hlength hlengthFive hentry rest
      · exact hd.pairs_addToDynamicTable hshort hfits (hno _ rfl)

lemma decodeFields_of_encodes {d : HpackDecoder} (hd : Summed d) {fields : List BlockField}
    {data : Bytes} {pairs : List Reference.Pair} {table : List Reference.Pair}
    (h : EncodesBlock AtMostFive fields data)
    (hno : Reference.BlockNoWrap d.maxDynamicTableSize d.pairs fields)
    (href : Reference.block d.maxDynamicTableSize d.pairs fields = some (pairs, table)) {fuel : ℕ}
    (hfuel : data.length ≤ fuel) :
    ∃ headers d', decodeFields fuel d data = (some headers, d') ∧
      headers.map Reference.ofHeader = pairs ∧ d'.pairs = table := by
  induction h generalizing d pairs fuel with
  | nil =>
    cases href
    refine ⟨[], d, ?_, rfl, rfl⟩
    cases fuel <;> rfl
  | @cons field fields data rest hfield hrest ih =>
    rw [Reference.block] at href
    obtain ⟨⟨pair, middle⟩, hpair, hmore⟩ := Option.bind_eq_some_iff.mp href
    obtain ⟨⟨pairs', table'⟩, hpairs, heq⟩ := Option.map_eq_some_iff.mp hmore
    cases heq
    have hno' := hno.2 _ hpair
    obtain ⟨header, d', hdecode, hheader, hmiddle, hd', hmax⟩ :=
      decodeHeaderField_of_encodes hd hfield hno.1 hpair rest
    rw [← hmax, ← hmiddle] at hpairs hno'
    obtain ⟨byte, tail, hcons⟩ : ∃ byte tail, data = byte :: tail := by
      cases hfield with
      | indexed hindex _ =>
        obtain ⟨low, tail, -, heq⟩ := exists_cons_of_encodes hindex
        exact ⟨_, tail, heq⟩
      | literal hname _ _ _ =>
        obtain ⟨low, tail, -, heq⟩ := exists_cons_of_encodes hname
        exact ⟨_, _, by rw [heq, List.cons_append]⟩
    rw [hcons, List.cons_append] at hdecode hfuel ⊢
    obtain ⟨fuel, rfl⟩ : ∃ n, fuel = n + 1 := Nat.exists_eq_add_of_le' (Nat.one_le_of_lt hfuel)
    have hfuel' : rest.length ≤ fuel := by
      rw [List.length_cons, List.length_append] at hfuel
      omega
    obtain ⟨headers, d'', hfields, hheaders, htable⟩ := ih hd' hno' hpairs hfuel'
    refine ⟨header :: headers, d'', ?_, ?_, htable⟩
    · rw [decodeFields, hdecode]
      dsimp only
      rw [hfields]
    · rw [List.map_cons, hheader, hheaders]

lemma Summed.decode_of_encodes {d : HpackDecoder} (hd : Summed d) {fields : List BlockField}
    {data : Bytes} (hencodes : EncodesBlock AtMostFive fields data)
    (hno : Reference.BlockNoWrap d.maxDynamicTableSize d.pairs fields) :
    d.DecodesAsReference fields data := by
  intro pairs table href
  obtain ⟨headers, d', hdecode, hheaders, htable⟩ :=
    decodeFields_of_encodes (hd.withFlag true) hencodes hno href (le_refl data.length)
  refine ⟨headers, ?_, hheaders, ?_⟩
  · rw [decode, hdecode]
  · rw [decode, hdecode]
    exact htable

/-- In every state that the decoder reaches, a block whose integers take at most five bytes each and
whose insertions meet no sum that wraps around is decoded as the reference decoder says. -/
theorem decodesAsReference {limit : ℕ} (hlimit : limit < 2 ^ 32) {ops : List HpackOp}
    {d : HpackDecoder} (h : Runs.run next (new limit) ops = some d) {fields : List BlockField}
    {data : Bytes} (hencodes : EncodesBlock AtMostFive fields data)
    (hno : Reference.BlockNoWrap d.maxDynamicTableSize d.pairs fields) :
    d.DecodesAsReference fields data :=
  ((summed_new hlimit).run h).decode_of_encodes hencodes hno

/-- `:method: GET` from the static table, `:authority: a` with incremental indexing, and the entry
that was inserted for it. -/
theorem decodesAsReference_request :
    ∃ headers, ((new 4096).decode [0x82, 0x41, 0x01, 0x61, 0xBE]).1 = some headers ∧
      headers.map Reference.ofHeader = [(bytes ":method", bytes "GET"),
        (bytes ":authority", bytes "a"), (bytes ":authority", bytes "a")] := by
  have hencodes : EncodesBlock AtMostFive [.indexed 2, .literal 1 [0x61], .indexed 62]
      [0x82, 0x41, 0x01, 0x61, 0xBE] := by
    have hmethod : EncodesField AtMostFive (.indexed 2) [0x82] :=
      .indexed (.short (by decide)) (by decide)
    have hauthority : EncodesField AtMostFive (.literal 1 [0x61]) [0x41, 0x01, 0x61] :=
      .literal (.short (by decide)) (by decide) (.short (by decide)) (by decide)
    have hagain : EncodesField AtMostFive (.indexed 62) [0xBE] :=
      .indexed (.short (by decide)) (by decide)
    exact .cons hmethod (.cons hauthority (.cons hagain .nil))
  -- the only entry is inserted into the empty table
  have hno : Reference.BlockNoWrap 4096 [] [.indexed 2, .literal 1 [0x61], .indexed 62] :=
    ⟨trivial, fun result hresult => by
      cases hresult
      exact ⟨fun _ _ _ hkept hne => absurd (List.prefix_nil.mp hkept) hne,
        fun _ _ => ⟨trivial, fun _ _ => trivial⟩⟩⟩
  obtain ⟨headers, hdecode, hheaders, -⟩ :=
    decodesAsReference (by decide) (show Runs.run next (new 4096) [] = some (new 4096) from rfl)
      hencodes hno _ _ rfl
  refine ⟨headers, hdecode, hheaders.trans ?_⟩
  decide

/-! ### Limits under which no sum wraps around -/

/-- The sizes add up to no more than the limit, and the names can have been decoded. -/
structure Modest (limit : ℕ) (table : List Reference.Pair) : Prop where
  total_le : total Reference.pairSize table ≤ limit
  names : ∀ pair ∈ table, pair.1.length ≤ maxString

lemma Modest.name_of_entry {limit index : ℕ} {table : List Reference.Pair}
    (htable : Modest limit table) {pair : Reference.Pair}
    (h : Reference.entry table index = some pair) : pair.1.length ≤ maxString := by
  rw [Reference.entry] at h
  split_ifs at h
  rcases List.mem_append.mp (List.mem_of_getElem? h) with hstatic | hdynamic
  · obtain ⟨header, hheader, rfl⟩ := List.mem_map.mp hstatic
    exact (short_of_mem_staticTable (List.mem_of_mem_tail hheader)).1
  · exact htable.names pair hdynamic

lemma Modest.insert {limit bound : ℕ} {table : List Reference.Pair} (htable : Modest limit table)
    (hbound : bound ≤ limit) {name : Bytes} (hname : name.length ≤ maxString) (value : Bytes) :
    Modest limit (fitting Reference.pairSize bound ((name, value) :: table)) where
  total_le := (total_fitting_le _ _ _).trans hbound
  names other hother := by
    rcases List.mem_cons.mp ((fitting_isPrefix _ _ _).subset hother) with rfl | hold
    · exact hname
    · exact htable.names other hold

/-- The sum of the sizes of a table and of an entry that can be decoded is less than `2 ^ 32`. -/
lemma Modest.noWrap {limit bound : ℕ} (hlimit : Tame limit) {table : List Reference.Pair}
    (htable : Modest limit table) {name value : Bytes} (hname : name.length ≤ maxString)
    (hvalue : value.length ≤ maxString) :
    NoWrap bound (Reference.pairSize (name, value)) Reference.pairSize table := by
  intro kept hkept _ hlarge
  have hpart := total_le_of_isPrefix Reference.pairSize hkept
  have htotal := htable.total_le
  rw [Tame, maxEntrySize] at hlimit
  simp only [Reference.pairSize] at hlarge ⊢
  rwa [uint32, Nat.mod_eq_of_lt (by omega)]

lemma blockNoWrap_of_tame {limit bound : ℕ} (hlimit : Tame limit) (hbound : bound ≤ limit)
    {table : List Reference.Pair} (htable : Modest limit table) {fields : List BlockField}
    {data : Bytes} (h : EncodesBlock AtMostFive fields data) :
    Reference.BlockNoWrap bound table fields := by
  induction h generalizing table with
  | nil => trivial
  | cons hfield hrest ih =>
    cases hfield with
    | indexed hindex hfive =>
      refine ⟨trivial, fun result hresult => ?_⟩
      obtain ⟨pair, -, rfl⟩ := Option.map_eq_some_iff.mp hresult
      exact ih htable
    | @literal nameIndex value nameData lengthData hname hnameFive hlength hlengthFive =>
      have hvalue := length_of_decodeString (decodeString_of_encodes hlength hlengthFive [])
      refine ⟨fun named hnamed => ?_, fun result hresult => ?_⟩
      · exact htable.noWrap hlimit (htable.name_of_entry hnamed) hvalue
      · obtain ⟨named, hnamed, hfits⟩ := Option.bind_eq_some_iff.mp hresult
        obtain ⟨-, heq⟩ := Option.ite_none_right_eq_some.mp hfits
        cases heq
        exact ih (htable.insert hbound (htable.name_of_entry hnamed) value)

lemma Counted.modest {limit : ℕ} {d : HpackDecoder} (hd : Counted limit d) :
    Modest limit d.pairs where
  total_le := by
    have hsame : total Reference.pairSize d.pairs = total DynamicTableEntry.size d.dynamicTable := by
      rw [← total_headers hd.exact, total, pairs, headers, List.map_map, total]
      rfl
    rw [hsame]
    exact hd.total_le
  names pair hpair := by
    obtain ⟨header, hheader, rfl⟩ := List.mem_map.mp hpair
    obtain ⟨entry, hentry, rfl⟩ := List.mem_map.mp hheader
    exact (hd.exact entry hentry).1.1

/-- Under a tame limit every block whose integers take at most five bytes each is decoded as the
reference decoder says. -/
theorem decodesAsReference_of_tame {limit : ℕ} (hlimit : Tame limit) {ops : List HpackOp}
    {d : HpackDecoder} (h : Runs.run next (new limit) ops = some d) {fields : List BlockField}
    {data : Bytes} (hencodes : EncodesBlock AtMostFive fields data) :
    d.DecodesAsReference fields data := by
  have hcounted := (counted_new limit).run hlimit h
  have hsummed := (summed_new (Nat.lt_of_add_right_lt hlimit)).run h
  exact hsummed.decode_of_encodes hencodes
    (blockNoWrap_of_tame hlimit hcounted.max_le hcounted.modest hencodes)

/-! ### The encoder's blocks -/

lemma continues_continuation (n : ℕ) : Continues n (continuation n) := by
  induction n using Nat.strong_induction_on with
  | _ n ih =>
    rw [continuation]
    split_ifs with hsmall
    · exact .last hsmall
    · have hrest := ih (n / 128) (Nat.div_lt_self (by omega) (by decide))
      have hmore := Continues.more (Nat.mod_lt n (by decide : 0 < 128)) hrest
      rwa [Nat.mod_add_div] at hmore

/-- What the encoder writes is an encoding. -/
lemma encodes_encodeInteger (prefixBits high n : ℕ) :
    EncodesInteger prefixBits high n (encodeInteger prefixBits high n) := by
  rw [encodeInteger]
  split_ifs with hsmall
  · exact .short hsmall
  · have hlong := @EncodesInteger.long prefixBits high _ _
      (continues_continuation (n - (2 ^ prefixBits - 1)))
    rwa [Nat.add_sub_cancel' (Nat.le_of_not_lt hsmall)] at hlong

/-! ### Integers that are too long -/

lemma lt_of_continues {n : ℕ} {data : Bytes} (h : Continues n data) : n < 128 ^ data.length := by
  induction h with
  | last hgroup => simpa using hgroup
  | more hgroup hrest ih =>
    rw [List.length_cons, pow_succ]
    omega

lemma decodeContinuation_too_long {n m result : ℕ} {data : Bytes} (h : Continues n data)
    (hm : 28 < m + 7 * data.length) (rest : Bytes) :
    decodeContinuation m result (data ++ rest) =
      .error ⟨.kParseError, bytes "Integer too large"⟩ := by
  induction h generalizing m result with
  | last hgroup =>
    rw [List.length_singleton] at hm
    rw [List.singleton_append, decodeContinuation]
    exact if_pos hm
  | @more group n data hgroup hrest ih =>
    rw [List.length_cons] at hm
    rw [List.cons_append, decodeContinuation]
    split_ifs with hlong hmore
    · rfl
    · exact ih (by omega)
    · exact absurd (group_bits hgroup).2.2.2 hmore

/-- No string that is longer than `maxString` can be read. -/
lemma decodeString_too_long {value lengthData : Bytes} (hvalue : maxString < value.length)
    (h : EncodesInteger 7 0 value.length lengthData) (rest : Bytes) :
    decodeString (lengthData ++ rest) = .error ⟨.kParseError, bytes "Integer too large"⟩ := by
  rw [maxString] at hvalue
  generalize value.length = length at h hvalue
  cases h with
  | short hn => omega
  | @long n data hn =>
    have hlt := lt_of_continues hn
    have hfive : 4 < data.length := by
      by_contra hle
      have hpow : 128 ^ data.length ≤ 128 ^ 4 := Nat.pow_le_pow_right (by decide) (by omega)
      omega
    rw [List.cons_append, decodeString, if_neg (List.cons_ne_nil _ _), decodeInteger,
      toNat_prefix (by decide) (by decide) (by decide), if_pos rfl,
      decodeContinuation_too_long hn (by omega)]

/-- The name index of `0x41` is that of `:authority`. -/
lemma decode_authority_of_error {d : HpackDecoder} {data : Bytes} {err : Error}
    (h : decodeString data = .error err) : (d.decode (0x41 :: data)).1 = none := by
  have hint : decodeInteger 6 (0x41 :: data) = .ok (1, data) := rfl
  have hentry : ∀ d : HpackDecoder, d.getTableEntry 1 = some ⟨bytes ":authority", [], false⟩ :=
    fun _ => rfl
  rw [decode, List.length_cons, decodeFields, decodeHeaderField, List.length_cons,
    decodeHeaderFieldFuel, if_neg (by decide), if_pos (by decide), hint]
  dsimp only
  rw [hentry]
  dsimp only
  rw [h]

/-- A literal whose value has `2 ^ 28 + 127` bytes is refused, though a limit of `2 ^ 29` has room
for it. -/
theorem not_decodesAsReference :
    ¬ ∀ limit < 2 ^ 32, ∀ ops d, Runs.run next (new limit) ops = some d → d.WithinLimit →
      ∀ fields data, EncodesBlock (fun _ => True) fields data →
        d.DecodesAsReference fields data := by
  intro h
  obtain ⟨value, hvalue⟩ : ∃ value : Bytes, value.length = 2 ^ 28 + 127 :=
    ⟨List.replicate (2 ^ 28 + 127) 0, List.length_replicate⟩
  have hlong := encodes_encodeInteger 7 0 value.length
  have hencodes : EncodesBlock (fun _ => True) [.literal 1 value]
      ([0x41] ++ (encodeInteger 7 0 value.length ++ value) ++ []) :=
    .cons (.literal (.short (by decide)) trivial hlong trivial) .nil
  have hfits : Reference.pairSize (bytes ":authority", value) ≤ 2 ^ 29 := by
    have hname : (bytes ":authority").length = 10 := by decide
    rw [Reference.pairSize, hvalue, hname]
    decide
  have href : Reference.block (2 ^ 29) [] [.literal 1 value] =
      some ([(bytes ":authority", value)], fitting Reference.pairSize (2 ^ 29)
        [(bytes ":authority", value)]) := by
    have hentry : Reference.entry [] 1 = some (bytes ":authority", []) := by decide
    simp only [Reference.block, Reference.field, hentry, Option.bind_some, if_pos hfits,
      Option.map_some]
  obtain ⟨headers, hdecode, -⟩ :=
    h (2 ^ 29) (by decide) [] _ rfl (Nat.zero_le _) _ _ hencodes _ _ href
  have hmax : maxString < value.length := by
    rw [hvalue, maxString]
    decide
  rw [List.append_nil, List.singleton_append,
    decode_authority_of_error (decodeString_too_long hmax hlong value)] at hdecode
  cases hdecode

end HpackDecoder

end TinyWebServer
