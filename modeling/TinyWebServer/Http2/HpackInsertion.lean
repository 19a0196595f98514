import TinyWebServer.Http2.HpackLimit

/-!
# Insertions and size updates under any limit

With a limit close to `2 ^ 32` the sum of the usage and of a new entry can wrap around, and the loop
of `AddToDynamicTable` stops too early. The usage is still what the list says modulo `2 ^ 32`, and
so is every state of the loop. A size update overwrites the limit that it is checked against.
-/

namespace TinyWebServer

open Fitting

namespace HpackDecoder

/-- The usage is the sum of the sizes as far as 32 bits hold it. -/
structure Summed (d : HpackDecoder) : Prop where
  usage : d.dynamicTableUsage = uint32 (total DynamicTableEntry.size d.dynamicTable)
  exact : ∀ entry ∈ d.dynamicTable, entry.Exact
  max_lt : d.maxDynamicTableSize < 2 ^ 32

lemma uint32_add (n m : ℕ) : uint32 (uint32 n + m) = uint32 (n + m) := Nat.mod_add_mod n _ m

@[simp]
lemma dynamicTable_evict (d : HpackDecoder) :
    d.evictDynamicTable.dynamicTable = d.dynamicTable.dropLast := by
  rw [evictDynamicTable]
  split
  · rename_i hlast
    rw [List.getLast?_eq_none_iff.mp hlast, List.dropLast_nil]
  · rfl

@[simp]
lemma maxDynamicTableSize_evict (d : HpackDecoder) :
    d.evictDynamicTable.maxDynamicTableSize = d.maxDynamicTableSize := by
  rw [evictDynamicTable]
  split <;> rfl

lemma summed_new {limit : ℕ} (h : limit < 2 ^ 32) : Summed (new limit) :=
  ⟨rfl, fun _ hentry => absurd hentry List.not_mem_nil, h⟩

namespace Summed

variable {d : HpackDecoder}

lemma evictDynamicTable (hd : Summed d) : Summed d.evictDynamicTable where
  usage := by
    cases hlast : d.dynamicTable.getLast? with
    | none =>
      rw [dynamicTable_evict, HpackDecoder.evictDynamicTable, hlast,
        List.getLast?_eq_none_iff.mp hlast]
      exact hd.usage.trans (by rw [List.getLast?_eq_none_iff.mp hlast]; rfl)
    | some entry =>
      have htable : d.dynamicTable = d.dynamicTable.dropLast ++ [entry] :=
        (List.dropLast_append_getLast? entry hlast).symm
      have hmem : entry ∈ d.dynamicTable := List.mem_of_getLast? hlast
      have hsize : entry.size < 2 ^ 32 := by
        have hle := tableSize_le (hd.exact entry hmem).1
        rw [← (hd.exact entry hmem).2, maxEntrySize, maxString] at hle
        omega
      have husage := hd.usage
      rw [htable, total_append, total_cons, total_nil, uint32] at husage
      rw [dynamicTable_evict, HpackDecoder.evictDynamicTable, hlast]
      simp only [uint32]
      omega
  exact entry hentry := hd.exact entry (mem_of_mem_evict hentry)
  max_lt := by
    rw [maxDynamicTableSize_evict]
    exact hd.max_lt

end Summed

/-! ### The loop of an insertion -/

/-- Where the loop stops: at the first table from the back that is empty or seems to leave room. -/
structure Kept (entrySize : ℕ) (d d' : HpackDecoder) : Prop where
  summed : Summed d'
  max_eq : d'.maxDynamicTableSize = d.maxDynamicTableSize
  isPrefix : d'.dynamicTable <+: d.dynamicTable
  stops : d'.dynamicTable = [] ∨ uint32 (total DynamicTableEntry.size d'.dynamicTable + entrySize) ≤
    d.maxDynamicTableSize
  goes_on : ∀ kept, kept <+: d.dynamicTable → d'.dynamicTable.length < kept.length →
    d.maxDynamicTableSize < uint32 (total DynamicTableEntry.size kept + entrySize)

lemma Summed.evictFor {d : HpackDecoder} (hd : Summed d) (entrySize : ℕ) {fuel : ℕ}
    (hfuel : d.dynamicTable.length ≤ fuel) : Kept entrySize d (evictFor entrySize fuel d) := by
  have hstay : ∀ {d : HpackDecoder}, Summed d → (d.dynamicTable = [] ∨
      uint32 (total DynamicTableEntry.size d.dynamicTable + entrySize) ≤ d.maxDynamicTableSize) →
      Kept entrySize d d := fun hd hstops =>
    { summed := hd, max_eq := rfl, isPrefix := List.prefix_rfl, stops := hstops
      goes_on := fun kept hkept hlength => absurd hkept.length_le (Nat.not_le.mpr hlength) }
  induction fuel generalizing d with
  | zero => exact hstay hd (Or.inl (List.length_eq_zero_iff.mp (Nat.le_zero.mp hfuel)))
  | succ fuel ih =>
    have hsum : uint32 (d.dynamicTableUsage + entrySize) =
        uint32 (total DynamicTableEntry.size d.dynamicTable + entrySize) := by
      rw [hd.usage, uint32_add]
    rw [HpackDecoder.evictFor, hsum]
    split_ifs with hturn
    · have hlength : d.evictDynamicTable.dynamicTable.length ≤ fuel := by
        rw [dynamicTable_evict, List.length_dropLast]
        omega
      have hrest := ih hd.evictDynamicTable hlength
      have hdrop : d.evictDynamicTable.dynamicTable <+: d.dynamicTable := by
        rw [dynamicTable_evict]
        exact List.dropLast_prefix _
      refine ⟨hrest.summed, ?_, hrest.isPrefix.trans hdrop, ?_, ?_⟩
      · rw [hrest.max_eq, maxDynamicTableSize_evict]
      · rw [← maxDynamicTableSize_evict d]
        exact hrest.stops
      · intro kept hkept hlonger
        by_cases hwhole : kept = d.dynamicTable
        · rw [hwhole]
          exact hturn.2
        · have hshort : kept.length ≤ d.dynamicTable.dropLast.length := by
            have hlt : kept.length < d.dynamicTable.length :=
              lt_of_le_of_ne hkept.length_le fun h => hwhole (hkept.eq_of_length h)
            rw [List.length_dropLast]
            omega
          rw [← maxDynamicTableSize_evict d]
          apply hrest.goes_on kept _ hlonger
          rw [dynamicTable_evict]
          exact List.prefix_of_prefix_length_le hkept (List.dropLast_prefix _) hshort
    · refine hstay hd ?_
      rw [not_and_or, not_not, Nat.not_lt] at hturn
      exact hturn

/-- No sum over a part of the table that is too large seems to fit. -/
def NoWrap (limit entrySize : ℕ) {α : Type*} (size : α → ℕ) (table : List α) : Prop :=
  ∀ kept, kept <+: table → kept ≠ [] → limit < total size kept + entrySize →
    limit < uint32 (total size kept + entrySize)

/-- The loop stops at the longest run of newest entries that leaves room, unless a larger one only
seems to. -/
lemma Kept.eq_fitting_iff {entrySize : ℕ} {d d' : HpackDecoder} (h : Kept entrySize d d')
    (hmax : entrySize ≤ d.maxDynamicTableSize) :
    d'.dynamicTable = fitting DynamicTableEntry.size (d.maxDynamicTableSize - entrySize)
        d.dynamicTable ↔
      NoWrap d.maxDynamicTableSize entrySize DynamicTableEntry.size d.dynamicTable := by
  have hlt : d.maxDynamicTableSize < 2 ^ 32 := h.max_eq ▸ h.summed.max_lt
  have hpre := fitting_isPrefix DynamicTableEntry.size (d.maxDynamicTableSize - entrySize)
    d.dynamicTable
  have hfits := total_fitting_le DynamicTableEntry.size (d.maxDynamicTableSize - entrySize)
    d.dynamicTable
  constructor
  · intro heq kept hkept _ hlarge
    apply h.goes_on kept hkept
    rw [heq]
    by_contra! hle
    have hmore := total_le_of_isPrefix DynamicTableEntry.size
      (List.prefix_of_prefix_length_le hkept hpre hle)
    omega
  · intro hno
    have hroom : total DynamicTableEntry.size d'.dynamicTable ≤
        d.maxDynamicTableSize - entrySize := by
      rcases h.stops with hnil | hstops
      · rw [hnil]
        exact Nat.zero_le _
      · by_contra! hlarge
        by_cases hnil : d'.dynamicTable = []
        · rw [hnil, total_nil] at hlarge
          omega
        · have := hno _ h.isPrefix hnil (by omega)
          omega
    have hle : d'.dynamicTable.length ≤ _ :=
      (isPrefix_fitting DynamicTableEntry.size h.isPrefix hroom).length_le
    refine (isPrefix_fitting _ h.isPrefix hroom).eq_of_length (le_antisymm hle ?_)
    by_contra! hshort
    have hgoes := h.goes_on _ hpre hshort
    rw [uint32, Nat.mod_eq_of_lt (by omega)] at hgoes
    omega

/-! ### Reachable tables -/

lemma Summed.addToDynamicTable {d : HpackDecoder} (hd : Summed d) {header : HpackHeader}
    (hheader : header.Short) : Summed (d.addToDynamicTable header) := by
  rw [HpackDecoder.addToDynamicTable, uint32_tableSize hheader]
  dsimp only
  split_ifs
  · exact hd
  · have hkept := hd.evictFor header.tableSize le_rfl
    refine ⟨?_, List.forall_mem_cons.mpr ⟨⟨hheader, rfl⟩, hkept.summed.exact⟩,
      hkept.summed.max_lt⟩
    dsimp only
    rw [hkept.summed.usage, uint32_add, total_cons, Nat.add_comm]

lemma Summed.perform {d d' : HpackDecoder} {act : TableAct} (hd : Summed d) (hact : act.Short)
    (h : d.perform act = some d') : Summed d' := by
  cases act with
  | start =>
    cases h
    exact ⟨hd.usage, hd.exact, hd.max_lt⟩
  | stop =>
    cases h
    exact ⟨hd.usage, hd.exact, hd.max_lt⟩
  | add header =>
    cases h
    exact hd.addToDynamicTable hact
  | update newSize =>
    cases h
    rw [updateDynamicTableSize]
    split_ifs with hlarge
    · exact hd
    · exact Summed.evictDynamicTable (d := { d with maxDynamicTableSize := newSize })
        ⟨hd.usage, hd.exact, (Nat.le_of_not_lt hlarge).trans_lt hd.max_lt⟩
  | clear =>
    cases h
    exact ⟨rfl, fun _ hentry => absurd hentry List.not_mem_nil, hd.max_lt⟩

lemma Summed.shortEntries {d : HpackDecoder} (hd : Summed d) : d.ShortEntries :=
  fun entry hentry => (hd.exact entry hentry).1

lemma Summed.withFlag {d : HpackDecoder} (hd : Summed d) (started : Bool) :
    Summed { d with decodingStarted := started } :=
  ⟨hd.usage, hd.exact, hd.max_lt⟩

lemma Summed.run {d d' : HpackDecoder} (hd : Summed d) {ops : List HpackOp}
    (h : Runs.run next d ops = some d') : Summed d' := by
  apply Runs.invariant_run next _ hd h
  intro u op v hu hv
  cases hv
  exact Runs.invariant_run_of HpackDecoder.perform (fun _ _ _ hact hd hv => hd.perform hact hv)
    (short_opActs hu.shortEntries op) hu (run_opActs u op)

/-- The states between the changes of a run. -/
def MetOn (limit : ℕ) (ops : List HpackOp) (d : HpackDecoder) : Prop :=
  ∃ acts, acts <+: (new limit).runActs ops ∧ Runs.run perform (new limit) acts = some d

lemma MetOn.summed {limit : ℕ} (hlimit : limit < 2 ^ 32) {ops : List HpackOp} {d : HpackDecoder}
    (h : MetOn limit ops d) : Summed d := by
  obtain ⟨acts, hacts, hrun⟩ := h
  have hshort : (new limit).ShortEntries := fun _ hentry => absurd hentry List.not_mem_nil
  exact Runs.invariant_run_of perform (fun _ _ _ hact hu hv => hu.perform hact hv)
    (fun act hact => short_runActs hshort ops act (hacts.subset hact)) (summed_new hlimit) hrun

/-! ### Insertions -/

/-- The table that RFC 7541 asks for behind an insertion. -/
def insertEntry (limit : ℕ) (header : HpackHeader) (headers : List HpackHeader) :
    List HpackHeader :=
  if limit < header.tableSize then []
  else header :: fitting HpackHeader.tableSize (limit - header.tableSize) headers

lemma total_headers {table : List DynamicTableEntry} (h : ∀ entry ∈ table, entry.Exact) :
    total HpackHeader.tableSize (table.map DynamicTableEntry.header) =
      total DynamicTableEntry.size table := by
  rw [total, total, List.map_map]
  exact congrArg List.sum (List.map_congr_left fun entry hentry => (h entry hentry).2.symm)

lemma noWrap_headers {limit entrySize : ℕ} {d : HpackDecoder} (hd : Summed d) :
    NoWrap limit entrySize HpackHeader.tableSize d.headers ↔
      NoWrap limit entrySize DynamicTableEntry.size d.dynamicTable := by
  constructor
  · intro h kept hkept hne
    rw [← total_headers fun entry hentry => hd.exact entry (hkept.subset hentry)]
    exact h _ (hkept.map _) (by simpa using hne)
  · intro h kept hkept hne
    obtain ⟨part, hpart, rfl⟩ := List.prefix_map_iff.mp hkept
    rw [total_headers fun entry hentry => hd.exact entry (hpart.subset hentry)]
    exact h part hpart (by simpa using hne)

lemma headers_addToDynamicTable_iff {d : HpackDecoder} (hd : Summed d) {header : HpackHeader}
    (hheader : header.Short) :
    (d.addToDynamicTable header).headers =
        insertEntry d.maxDynamicTableSize header d.headers ↔
      if d.maxDynamicTableSize < header.tableSize then d.headers = []
      else NoWrap d.maxDynamicTableSize header.tableSize HpackHeader.tableSize d.headers := by
  rw [insertEntry, addToDynamicTable, uint32_tableSize hheader]
  split_ifs with hlarge
  · rfl
  · have hmax : header.tableSize ≤ d.maxDynamicTableSize := Nat.le_of_not_lt hlarge
    have hkept := hd.evictFor header.tableSize le_rfl
    have hsame : ∀ entry ∈ d.dynamicTable, entry.header.tableSize = entry.size :=
      fun entry hentry => (hd.exact entry hentry).2.symm
    have hmap := fitting_map DynamicTableEntry.size DynamicTableEntry.header hsame
      (d.maxDynamicTableSize - header.tableSize)
    rw [noWrap_headers hd, ← hkept.eq_fitting_iff hmax, headers, headers, List.map_cons,
      List.cons.injEq, ← hmap]
    refine ⟨fun h => ?_, fun h => ⟨rfl, congrArg _ h⟩⟩
    have hlength := congrArg List.length h.2
    rw [List.length_map, List.length_map] at hlength
    exact (List.prefix_of_prefix_length_le hkept.isPrefix (fitting_isPrefix _ _ _)
      hlength.le).eq_of_length hlength

/-- A literal with incremental indexing that is decoded is inserted. -/
lemma decodeHeaderField_incremental {d d' : HpackDecoder} {firstByte : UInt8} {rest data : Bytes}
    {header₀ header : HpackHeader} (hliteral : firstByte &&& 0xC0 = 0x40)
    (hfield : d.decodeHeaderField (firstByte :: rest) header₀ = (.ok (header, data), d')) :
    d' = d.addToDynamicTable header ∧ (d.ShortEntries → header.Short) := by
  have hindexed : firstByte &&& 0x80 = 0 := by
    have hmask : firstByte &&& 0x80 = (firstByte &&& 0xC0) &&& 0x80 := by
      rw [UInt8.and_assoc]
      rfl
    rw [hmask, hliteral]
    rfl
  rw [decodeHeaderField, List.length_cons, decodeHeaderFieldFuel] at hfield
  dsimp only at hfield
  rw [if_neg (not_not.mpr hindexed), if_pos hliteral] at hfield
  split at hfield
  · cases hfield
  · split at hfield
    · cases hfield
    · rename_i hname
      split at hfield
      · cases hfield
      · rename_i hvalue
        cases hfield
        exact ⟨rfl, fun hd => ⟨(short_of_getTableEntry hd hname).1, length_of_decodeString hvalue⟩⟩

/-- Behind a literal with incremental indexing the table is the one of RFC 7541 if and only if an
entry that is too large meets an empty table, and no sum wraps around for one that is not. -/
theorem headers_incremental_iff {limit : ℕ} (hlimit : limit < 2 ^ 32) {ops : List HpackOp}
    {d d' : HpackDecoder} (hd : MetOn limit ops d) {firstByte : UInt8} {rest data : Bytes}
    {header₀ header : HpackHeader} (hliteral : firstByte &&& 0xC0 = 0x40)
    (hfield : d.decodeHeaderField (firstByte :: rest) header₀ = (.ok (header, data), d')) :
    d'.headers = insertEntry d.maxDynamicTableSize header d.headers ↔
      if d.maxDynamicTableSize < header.tableSize then d.headers = []
      else NoWrap d.maxDynamicTableSize header.tableSize HpackHeader.tableSize d.headers := by
  have hsummed := hd.summed hlimit
  obtain ⟨rfl, hshort⟩ := decodeHeaderField_incremental hliteral hfield
  exact headers_addToDynamicTable_iff hsummed
    (hshort fun entry hentry => (hsummed.exact entry hentry).1)

/-- The decoder of 50 bytes behind a first entry of 43. -/
def oneEntry : HpackDecoder := (new 50).operate (.decode [0x41, 0x01, 0x61])

lemma metOn_oneEntry : MetOn 50 [.decode [0x41, 0x01, 0x61]] oneEntry :=
  ⟨_, List.prefix_rfl, by rw [run_runActs]; rfl⟩

theorem headers_incremental_oneEntry :
    (oneEntry.addToDynamicTable ⟨bytes ":authority", bytes "b", false⟩).headers =
        insertEntry 50 ⟨bytes ":authority", bytes "b", false⟩ oneEntry.headers ↔
      if 50 < 43 then oneEntry.headers = []
      else NoWrap 50 43 HpackHeader.tableSize oneEntry.headers := by
  have hfield : oneEntry.decodeHeaderField [0x41, 0x01, 0x62] ⟨[], [], false⟩ =
      (.ok (⟨bytes ":authority", bytes "b", false⟩, []),
        oneEntry.addToDynamicTable ⟨bytes ":authority", bytes "b", false⟩) := by
    decide
  exact headers_incremental_iff (by decide) metOn_oneEntry (by decide) hfield

/-- An entry of 52 bytes leaves the old one in the table. -/
theorem headers_incremental_too_large :
    MetOn 50 [.decode [0x41, 0x01, 0x61]] oneEntry ∧ oneEntry.WithinLimit ∧
    ∃ header d', oneEntry.decodeHeaderField
        [0x41, 0x0A, 0x61, 0x61, 0x61, 0x61, 0x61, 0x61, 0x61, 0x61, 0x61, 0x61] ⟨[], [], false⟩ =
          (.ok (header, []), d') ∧
      oneEntry.maxDynamicTableSize < header.tableSize ∧ d'.headers ≠ [] :=
  ⟨metOn_oneEntry, by decide, ⟨bytes ":authority", List.replicate 10 0x61, false⟩, oneEntry,
    by decide, by decide, by decide⟩

/-- Under a limit that leaves room for one more entry no sum wraps around. -/
lemma MetOn.noWrap {limit : ℕ} (hlimit : Tame limit) {ops : List HpackOp} {d : HpackDecoder}
    (h : MetOn limit ops d) {header : HpackHeader} (hheader : header.Short) :
    NoWrap d.maxDynamicTableSize header.tableSize HpackHeader.tableSize d.headers := by
  obtain ⟨acts, hacts, hrun⟩ := h
  have hnew := counted_new limit
  have hcounted : Counted limit d :=
    Runs.invariant_run_of perform (fun _ _ _ hact hu hv => hu.perform hlimit hact hv)
      (fun act hact => short_runActs hnew.shortEntries ops act (hacts.subset hact)) hnew hrun
  intro kept hkept _ hlarge
  have hpart := total_le_of_isPrefix HpackHeader.tableSize hkept
  rw [headers, total_headers hcounted.exact] at hpart
  have htotal := hcounted.total_le
  have hsize := tableSize_le hheader
  rw [Tame] at hlimit
  rwa [uint32, Nat.mod_eq_of_lt (by omega)]

/-- So an entry that is not too large is inserted as RFC 7541 says. -/
theorem headers_incremental_of_tame {limit : ℕ} (hlimit : Tame limit) {ops : List HpackOp}
    {d d' : HpackDecoder} (hd : MetOn limit ops d) {firstByte : UInt8} {rest data : Bytes}
    {header₀ header : HpackHeader} (hliteral : firstByte &&& 0xC0 = 0x40)
    (hfield : d.decodeHeaderField (firstByte :: rest) header₀ = (.ok (header, data), d'))
    (hfits : header.tableSize ≤ d.maxDynamicTableSize) :
    d'.headers = insertEntry d.maxDynamicTableSize header d.headers := by
  have hsummed := hd.summed (Nat.lt_of_add_right_lt hlimit)
  obtain ⟨rfl, hshort⟩ := decodeHeaderField_incremental hliteral hfield
  have hheader := hshort fun entry hentry => (hsummed.exact entry hentry).1
  rw [headers_addToDynamicTable_iff hsummed hheader, if_neg (Nat.not_lt.mpr hfits)]
  exact hd.noWrap hlimit hheader

/-! ### Size updates -/

/-- A size update is accepted in this state. -/
def Accepts (d : HpackDecoder) : TableAct → Prop
  | .update newSize => (d.updateDynamicTableSize newSize).1.isSuccess
  | _ => True

/-- The sizes that the size updates ask for. -/
def askedSizes : List TableAct → List ℕ
  | [] => []
  | .update newSize :: acts => newSize :: askedSizes acts
  | _ :: acts => askedSizes acts

lemma accepts_update_iff (d : HpackDecoder) (newSize : ℕ) :
    d.Accepts (.update newSize) ↔ newSize ≤ d.maxDynamicTableSize := by
  rw [Accepts, updateDynamicTableSize]
  split_ifs with hlarge
  · exact iff_of_false (Error.not_isSuccess_kProtocolError _) (Nat.not_le.mpr hlarge)
  · exact iff_of_true Error.isSuccess_success (Nat.le_of_not_lt hlarge)

@[simp]
lemma maxDynamicTableSize_evictFor (entrySize fuel : ℕ) (d : HpackDecoder) :
    (evictFor entrySize fuel d).maxDynamicTableSize = d.maxDynamicTableSize := by
  induction fuel generalizing d with
  | zero => rfl
  | succ fuel ih =>
    rw [evictFor]
    split_ifs
    · rw [ih, maxDynamicTableSize_evict]
    · rfl

lemma maxDynamicTableSize_add (d : HpackDecoder) (header : HpackHeader) :
    (d.addToDynamicTable header).maxDynamicTableSize = d.maxDynamicTableSize := by
  rw [addToDynamicTable]
  dsimp only
  split_ifs
  · rfl
  · exact maxDynamicTableSize_evictFor _ _ d

/-- An accepted size becomes the limit for the next one. -/
lemma maxDynamicTableSize_update {d : HpackDecoder} {newSize : ℕ}
    (h : newSize ≤ d.maxDynamicTableSize) :
    (d.updateDynamicTableSize newSize).2.maxDynamicTableSize = newSize := by
  rw [updateDynamicTableSize, if_neg (Nat.not_lt.mpr h)]
  exact maxDynamicTableSize_evict { d with maxDynamicTableSize := newSize }

lemma accepts_run_iff (d : HpackDecoder) (acts : List TableAct) :
    (∀ acts' act u, acts' ++ [act] <+: acts → Runs.run perform d acts' = some u →
      u.Accepts act) ↔ (d.maxDynamicTableSize :: askedSizes acts).IsChain (· ≥ ·) := by
  induction acts generalizing d with
  | nil => simp [askedSizes]
  | cons act acts ih =>
    have hsame : ∀ d' : HpackDecoder, d'.maxDynamicTableSize = d.maxDynamicTableSize →
        d.perform act = some d' → d.Accepts act → askedSizes (act :: acts) = askedSizes acts →
        ((∀ acts' act' u, acts' ++ [act'] <+: act :: acts → Runs.run perform d acts' = some u →
          u.Accepts act') ↔
            (d.maxDynamicTableSize :: askedSizes (act :: acts)).IsChain (· ≥ ·)) := by
      intro d' hmax hperform haccepts hasked
      rw [Runs.forall_step_cons_iff perform hperform, ih, hmax, hasked]
      exact and_iff_right haccepts
    cases act with
    | start => exact hsame { d with decodingStarted := true } rfl rfl trivial rfl
    | stop => exact hsame { d with decodingStarted := false } rfl rfl trivial rfl
    | add header => exact hsame _ (maxDynamicTableSize_add d header) rfl trivial rfl
    | clear => exact hsame d.clearDynamicTable rfl rfl trivial rfl
    | update newSize =>
      have hperform : d.perform (.update newSize) = some (d.updateDynamicTableSize newSize).2 := rfl
      rw [Runs.forall_step_cons_iff perform hperform, ih, accepts_update_iff, askedSizes,
        List.isChain_cons_cons]
      refine and_congr_right fun hle => ?_
      rw [maxDynamicTableSize_update hle]

/-- All size updates of a run are accepted if and only if no one asks for more than the one before
it, and the first one for no more than the decoder was made with. -/
theorem accepts_updates_iff (limit : ℕ) (ops : List HpackOp) :
    (∀ acts act d, acts ++ [act] <+: (new limit).runActs ops →
      Runs.run perform (new limit) acts = some d → d.Accepts act) ↔
    (limit :: askedSizes ((new limit).runActs ops)).Pairwise (· ≥ ·) := by
  rw [accepts_run_iff, List.isChain_iff_pairwise]
  rfl

/-- Down to 1024 bytes and up again to the 4096 that the decoder was made with. -/
theorem not_accepts_raise :
    ¬ ∀ ops : List HpackOp,
      (∀ newSize ∈ askedSizes ((new 4096).runActs ops), newSize ≤ 4096) →
      ∀ acts act d, acts ++ [act] <+: (new 4096).runActs ops →
        Runs.run perform (new 4096) acts = some d → d.Accepts act := by
  intro h
  have hlast := h [.updateDynamicTableSize 1024, .updateDynamicTableSize 4096] (by decide)
    [.update 1024] (.update 4096) _ List.prefix_rfl rfl
  rw [accepts_update_iff] at hlast
  exact absurd hlast (by decide)

end HpackDecoder

end TinyWebServer
