import TinyWebServer.Http2.HpackTable

/-!
# The counters of the HPACK table

The usage and the number of entries are kept beside the list. Under a limit that leaves room for one
more entry no sum wraps around, so the counters are what the list says they are, and an insertion
keeps the longest run of newest entries that leaves room for the new one.
-/

namespace TinyWebServer

open Fitting Journal

/-- The recorded size is that of the header, and the header can have been decoded. -/
def DynamicTableEntry.Exact (entry : DynamicTableEntry) : Prop :=
  entry.header.Short ∧ entry.size = entry.header.tableSize

namespace HpackDecoder

def maxEntrySize : ℕ := 2 * maxString + 32

/-- The usage of a table within the limit and one more entry can be added up in 32 bits. -/
def Tame (limit : ℕ) : Prop := limit + maxEntrySize < 2 ^ 32

lemma tame_of_le {limit : ℕ} (h : limit ≤ 2 ^ 31) : Tame limit := by
  rw [Tame, maxEntrySize, maxString]
  omega

/-- The decoder with this table, and the counters that belong to it. -/
def withTable (d : HpackDecoder) (table : List DynamicTableEntry) : HpackDecoder :=
  { d with
    dynamicTable := table, dynamicTableSize := table.length
    dynamicTableUsage := total DynamicTableEntry.size table }

/-- The counters are those of the table, which stays within the limit of the constructor. -/
structure Counted (limit : ℕ) (d : HpackDecoder) : Prop where
  eq_withTable : d = d.withTable d.dynamicTable
  exact : ∀ entry ∈ d.dynamicTable, entry.Exact
  total_le : total DynamicTableEntry.size d.dynamicTable ≤ limit
  max_le : d.maxDynamicTableSize ≤ limit

lemma tableSize_le {header : HpackHeader} (h : header.Short) : header.tableSize ≤ maxEntrySize := by
  obtain ⟨hname, hvalue⟩ := h
  rw [HpackHeader.tableSize, maxEntrySize]
  omega

lemma uint32_tableSize {header : HpackHeader} (h : header.Short) :
    uint32 (header.name.length + header.value.length + 32) = header.tableSize := by
  have hle := tableSize_le h
  rw [maxEntrySize, maxString] at hle
  exact Nat.mod_eq_of_lt (hle.trans_lt (by omega))

lemma counted_new (limit : ℕ) : Counted limit (new limit) :=
  ⟨rfl, fun _ h => absurd h List.not_mem_nil, Nat.zero_le _, le_refl _⟩

namespace Counted

variable {limit : ℕ} {d : HpackDecoder}

lemma usage (hd : Counted limit d) :
    d.dynamicTableUsage = total DynamicTableEntry.size d.dynamicTable := by
  rw [hd.eq_withTable]
  rfl

lemma size (hd : Counted limit d) : d.dynamicTableSize = d.dynamicTable.length := by
  rw [hd.eq_withTable]
  rfl

lemma withTable (hd : Counted limit d) {table : List DynamicTableEntry}
    (hexact : ∀ entry ∈ table, entry.Exact)
    (htotal : total DynamicTableEntry.size table ≤ limit) : Counted limit (d.withTable table) :=
  ⟨rfl, hexact, htotal, hd.max_le⟩

/-- The oldest entries may go. -/
lemma withTable_of_isPrefix (hd : Counted limit d) {table : List DynamicTableEntry}
    (h : table <+: d.dynamicTable) : Counted limit (d.withTable table) :=
  hd.withTable (fun entry hentry => hd.exact entry (h.subset hentry))
    ((total_le_of_isPrefix _ h).trans hd.total_le)

/-- Every entry takes at least 32 bytes of the limit. -/
lemma length_lt (hd : Counted limit d) (hlimit : Tame limit) :
    d.dynamicTable.length + 1 < 2 ^ 32 := by
  have hleast : ∀ entry ∈ d.dynamicTable, 32 ≤ entry.size := by
    intro entry hentry
    rw [(hd.exact entry hentry).2, HpackHeader.tableSize]
    exact Nat.le_add_left _ _
  have hlength := length_mul_le_total DynamicTableEntry.size hleast
  have htotal := hd.total_le
  rw [Tame, maxEntrySize, maxString] at hlimit
  omega

lemma evictDynamicTable_eq (hd : Counted limit d) (hlimit : Tame limit) :
    d.evictDynamicTable = d.withTable d.dynamicTable.dropLast := by
  rw [evictDynamicTable]
  cases hlast : d.dynamicTable.getLast? with
  | none =>
    rw [List.getLast?_eq_none_iff] at hlast
    rw [hlast, List.dropLast_nil, ← hlast]
    exact hd.eq_withTable
  | some entry =>
    have htable : d.dynamicTable = d.dynamicTable.dropLast ++ [entry] :=
      (List.dropLast_append_getLast? entry hlast).symm
    have hlength := hd.length_lt hlimit
    have htotal := hd.total_le
    rw [htable, List.length_append, List.length_singleton] at hlength
    rw [htable, total_append, total_cons, total_nil] at htotal
    have husage : uint32 (d.dynamicTableUsage + 2 ^ 32 - entry.size) =
        total DynamicTableEntry.size d.dynamicTable.dropLast := by
      rw [hd.usage]
      conv_lhs => rw [htable, total_append, total_cons, total_nil]
      rw [Tame] at hlimit
      rw [uint32]
      omega
    have hsize : uint32 (d.dynamicTableSize + 2 ^ 32 - 1) = d.dynamicTable.dropLast.length := by
      rw [hd.size]
      conv_lhs => rw [htable, List.length_append, List.length_singleton]
      rw [uint32]
      omega
    dsimp only
    rw [husage, hsize]
    rfl

/-- The loop keeps the longest run of newest entries that leaves room for the new one. -/
lemma evictFor_eq (hd : Counted limit d) (hlimit : Tame limit) {entrySize fuel : ℕ}
    (hentry : entrySize ≤ maxEntrySize) (hmax : entrySize ≤ d.maxDynamicTableSize)
    (hfuel : d.dynamicTable.length ≤ fuel) :
    evictFor entrySize fuel d = d.withTable
      (fitting DynamicTableEntry.size (d.maxDynamicTableSize - entrySize) d.dynamicTable) := by
  induction fuel generalizing d with
  | zero =>
    rw [Nat.le_zero, List.length_eq_zero_iff] at hfuel
    rw [evictFor, hfuel, fitting, ← hfuel]
    exact hd.eq_withTable
  | succ fuel ih =>
    have hsum : uint32 (d.dynamicTableUsage + entrySize) =
        total DynamicTableEntry.size d.dynamicTable + entrySize := by
      rw [hd.usage]
      apply Nat.mod_eq_of_lt
      have htotal := hd.total_le
      rw [Tame] at hlimit
      omega
    rw [evictFor, hsum]
    split_ifs with hturn
    · have hd' := hd.withTable_of_isPrefix (List.dropLast_prefix d.dynamicTable)
      rw [hd.evictDynamicTable_eq hlimit, ih hd' hmax]
      · change d.withTable (fitting _ (d.maxDynamicTableSize - entrySize)
          d.dynamicTable.dropLast) = _
        rw [fitting_dropLast]
        exact Nat.sub_lt_right_of_lt_add hmax hturn.2
      · change d.dynamicTable.dropLast.length ≤ fuel
        rw [List.length_dropLast]
        omega
    · rw [fitting_of_total_le]
      · exact hd.eq_withTable
      · by_cases hnil : d.dynamicTable = []
        · rw [hnil]
          exact Nat.zero_le _
        · have hstop : ¬ d.maxDynamicTableSize <
              total DynamicTableEntry.size d.dynamicTable + entrySize := fun h => hturn ⟨hnil, h⟩
          omega

/-- An entry that fits goes in front of what is kept, and one that does not changes nothing. -/
lemma addToDynamicTable_eq (hd : Counted limit d) (hlimit : Tame limit) {header : HpackHeader}
    (hheader : header.Short) :
    d.addToDynamicTable header =
      if d.maxDynamicTableSize < header.tableSize then d
      else d.withTable (fitting DynamicTableEntry.size d.maxDynamicTableSize
        (⟨header, header.tableSize⟩ :: d.dynamicTable)) := by
  rw [addToDynamicTable, uint32_tableSize hheader]
  dsimp only
  split_ifs with hlarge
  · rfl
  · have hmax : header.tableSize ≤ d.maxDynamicTableSize := Nat.le_of_not_lt hlarge
    rw [hd.evictFor_eq hlimit (tableSize_le hheader) hmax le_rfl,
      fitting_cons (a := ⟨header, header.tableSize⟩) DynamicTableEntry.size hmax]
    dsimp only
    generalize hkept : fitting DynamicTableEntry.size (d.maxDynamicTableSize - header.tableSize)
      d.dynamicTable = kept
    have hfits : total DynamicTableEntry.size kept ≤ d.maxDynamicTableSize - header.tableSize := by
      rw [← hkept]
      exact total_fitting_le _ _ _
    have hlength : kept.length ≤ d.dynamicTable.length := by
      rw [← hkept]
      exact (fitting_isPrefix _ _ _).length_le
    have hcount := hd.length_lt hlimit
    have hmax' := hd.max_le
    have husage : uint32 (total DynamicTableEntry.size kept + header.tableSize) =
        total DynamicTableEntry.size (⟨header, header.tableSize⟩ :: kept) := by
      rw [total_cons, Nat.add_comm]
      rw [Tame] at hlimit
      apply Nat.mod_eq_of_lt
      omega
    have hsize : uint32 (kept.length + 1) = kept.length + 1 := by
      apply Nat.mod_eq_of_lt
      omega
    rw [HpackDecoder.withTable, HpackDecoder.withTable]
    dsimp only
    rw [husage, hsize]
    rfl

lemma updateDynamicTableSize_eq (hd : Counted limit d) (hlimit : Tame limit) (newSize : ℕ) :
    (d.updateDynamicTableSize newSize).2 =
      if d.maxDynamicTableSize < newSize then d
      else { d with maxDynamicTableSize := newSize }.withTable d.dynamicTable.dropLast := by
  rw [updateDynamicTableSize]
  split_ifs with hlarge
  · rfl
  · have hd' : Counted limit { d with maxDynamicTableSize := newSize } :=
      { eq_withTable := by
          conv_lhs => rw [hd.eq_withTable]
          rfl
        exact := hd.exact
        total_le := hd.total_le
        max_le := (Nat.le_of_not_lt hlarge).trans hd.max_le }
    exact hd'.evictDynamicTable_eq hlimit

/-- The decoder where only the flag differs. -/
lemma withFlag (hd : Counted limit d) (started : Bool) :
    Counted limit { d with decodingStarted := started } where
  eq_withTable := by
    conv_lhs => rw [hd.eq_withTable]
    rfl
  exact := hd.exact
  total_le := hd.total_le
  max_le := hd.max_le

lemma perform (hd : Counted limit d) (hlimit : Tame limit) {d' : HpackDecoder} {act : TableAct}
    (hact : act.Short) (h : d.perform act = some d') : Counted limit d' := by
  cases act with
  | start =>
    cases h
    exact hd.withFlag true
  | stop =>
    cases h
    exact hd.withFlag false
  | add header =>
    cases h
    rw [hd.addToDynamicTable_eq hlimit hact]
    split_ifs
    · exact hd
    · apply hd.withTable
      · intro entry hentry
        rcases List.mem_cons.mp ((fitting_isPrefix _ _ _).subset hentry) with rfl | hold
        · exact ⟨hact, rfl⟩
        · exact hd.exact entry hold
      · exact (total_fitting_le _ _ _).trans hd.max_le
  | update newSize =>
    cases h
    rw [hd.updateDynamicTableSize_eq hlimit]
    split_ifs with hlarge
    · exact hd
    · have hkept := hd.withTable_of_isPrefix (List.dropLast_prefix d.dynamicTable)
      exact ⟨rfl, hkept.exact, hkept.total_le, (Nat.le_of_not_lt hlarge).trans hd.max_le⟩
  | clear =>
    cases h
    exact hd.withTable (fun _ hentry => absurd hentry List.not_mem_nil) (Nat.zero_le _)

lemma shortEntries (hd : Counted limit d) : d.ShortEntries := fun entry hentry =>
  (hd.exact entry hentry).1

/-- Every state that an operation passes through. -/
lemma of_isPrefix_opActs (hd : Counted limit d) (hlimit : Tame limit) {op : HpackOp}
    {acts : List TableAct} (hacts : acts <+: d.opActs op) {u : HpackDecoder}
    (hu : Runs.run HpackDecoder.perform d acts = some u) : Counted limit u :=
  Runs.invariant_run_of HpackDecoder.perform (fun _ _ _ hact hv => hv.perform hlimit hact)
    (fun act hact => short_opActs hd.shortEntries op act (hacts.subset hact)) hd hu

lemma operate (hd : Counted limit d) (hlimit : Tame limit) (op : HpackOp) :
    Counted limit (d.operate op) :=
  hd.of_isPrefix_opActs hlimit (List.prefix_refl _) (run_opActs d op)

lemma run (hd : Counted limit d) (hlimit : Tame limit) {ops : List HpackOp} {d' : HpackDecoder}
    (h : Runs.run next d ops = some d') : Counted limit d' := by
  apply Runs.invariant_run next _ hd h
  intro u op v hu hv
  cases hv
  exact hu.operate hlimit op

end Counted

/-! ### What insertions and evictions have left -/

def headers (d : HpackDecoder) : List HpackHeader := d.dynamicTable.map DynamicTableEntry.header

/-- The list loses its last node, if it has one. -/
def evictEvents (d : HpackDecoder) : List (Event HpackHeader) :=
  if d.dynamicTable = [] then [] else [.evict]

def evictForEvents (entrySize : ℕ) : ℕ → HpackDecoder → List (Event HpackHeader)
  | 0, _ => []
  | fuel + 1, d =>
    if d.dynamicTable ≠ [] ∧ d.maxDynamicTableSize < uint32 (d.dynamicTableUsage + entrySize) then
      d.evictEvents ++ evictForEvents entrySize fuel d.evictDynamicTable
    else []

/-- What happens to the list during a change. -/
def actEvents (d : HpackDecoder) : TableAct → List (Event HpackHeader)
  | .add header =>
    let entrySize := uint32 (header.name.length + header.value.length + 32)
    if d.maxDynamicTableSize < entrySize then []
    else evictForEvents entrySize d.dynamicTable.length d ++ [.insert header]
  | .update newSize => if d.maxDynamicTableSize < newSize then [] else d.evictEvents
  | .clear => [.clear]
  | _ => []

def actsEvents (d : HpackDecoder) : List TableAct → List (Event HpackHeader)
  | [] => []
  | act :: acts => d.actEvents act ++ ((d.perform act).elim [] fun d => actsEvents d acts)

/-- All insertions, evictions and clearings of a run. -/
def history (d : HpackDecoder) : List HpackOp → List (Event HpackHeader)
  | [] => []
  | op :: ops => d.actsEvents (d.opActs op) ++ history (d.operate op) ops

/-- What is left in the journal is what is in the table. -/
def Tracks (journal : List (HpackHeader × Bool)) (d : HpackDecoder) : Prop :=
  survivors journal = d.headers

lemma Tracks.evict {journal : List (HpackHeader × Bool)} {d : HpackDecoder}
    (h : Tracks journal d) : Tracks (d.evictEvents.foldl record journal) d.evictDynamicTable := by
  rw [Tracks, headers] at h ⊢
  rw [evictEvents, evictDynamicTable]
  by_cases hnil : d.dynamicTable = []
  · rw [if_pos hnil, hnil, List.getLast?_nil, List.foldl_nil, h, hnil]
  · rw [if_neg hnil, List.getLast?_eq_some_getLast hnil]
    simp [h]

lemma Tracks.evictFor {journal : List (HpackHeader × Bool)} {d : HpackDecoder}
    (h : Tracks journal d) (entrySize fuel : ℕ) :
    Tracks ((evictForEvents entrySize fuel d).foldl record journal)
      (evictFor entrySize fuel d) := by
  induction fuel generalizing d journal with
  | zero => exact h
  | succ fuel ih =>
    rw [evictForEvents, HpackDecoder.evictFor]
    split_ifs
    · rw [List.foldl_append]
      exact ih h.evict
    · exact h

lemma Tracks.perform {journal : List (HpackHeader × Bool)} {d d' : HpackDecoder} {act : TableAct}
    (h : Tracks journal d) (hperform : d.perform act = some d') :
    Tracks ((d.actEvents act).foldl record journal) d' := by
  cases act with
  | start =>
    cases hperform
    exact h
  | stop =>
    cases hperform
    exact h
  | add header =>
    cases hperform
    rw [actEvents, addToDynamicTable]
    dsimp only
    split_ifs
    · exact h
    · have hroom := h.evictFor (uint32 (header.name.length + header.value.length + 32))
        d.dynamicTable.length
      rw [Tracks] at hroom ⊢
      rw [List.foldl_append, List.foldl_cons, List.foldl_nil, survivors_insert, hroom]
      rfl
  | update newSize =>
    cases hperform
    rw [actEvents, updateDynamicTableSize]
    split_ifs
    · exact h
    · exact Tracks.evict (d := { d with maxDynamicTableSize := newSize }) h
  | clear =>
    cases hperform
    rw [actEvents, List.foldl_cons, List.foldl_nil]
    exact survivors_clear journal

lemma Tracks.acts {journal : List (HpackHeader × Bool)} {d d' : HpackDecoder}
    {acts : List TableAct} (h : Tracks journal d) (hrun : Runs.run HpackDecoder.perform d acts = some d') :
    Tracks ((d.actsEvents acts).foldl record journal) d' := by
  induction acts generalizing d journal with
  | nil =>
    cases hrun
    exact h
  | cons act acts ih =>
    obtain ⟨u, hu, hrest⟩ := Runs.run_cons _ hrun
    rw [actsEvents, hu, List.foldl_append]
    exact ih (h.perform hu) hrest

lemma Tracks.run {journal : List (HpackHeader × Bool)} {d d' : HpackDecoder} {ops : List HpackOp}
    (h : Tracks journal d) (hrun : Runs.run next d ops = some d') :
    Tracks ((d.history ops).foldl record journal) d' := by
  induction ops generalizing d journal with
  | nil =>
    cases hrun
    exact h
  | cons op ops ih =>
    obtain ⟨u, hu, hrest⟩ := Runs.run_cons _ hrun
    cases hu
    rw [history, List.foldl_append]
    exact ih (h.acts (run_opActs d op)) hrest

lemma getTableEntry_add (d : HpackDecoder) {i : ℕ} (hi : 1 ≤ i) :
    d.getTableEntry (61 + i) = d.headers[i - 1]? := by
  have hdynamic : ¬ 61 + i ≤ staticTableSize := by
    rw [staticTableSize]
    omega
  rw [getTableEntry, if_neg hdynamic, staticTableSize, Nat.add_sub_cancel_left,
    getDynamicTableEntry, headers, List.getElem?_map]
  split_ifs with hout
  · have hlen : d.dynamicTable.length ≤ i - 1 := by omega
    rw [List.getElem?_eq_none hlen]
    rfl
  · rfl

/-- The counters are exact, and the indices behind the static table count the entries that were
inserted and are still there, the last one first. -/
theorem counters_and_addressing {limit : ℕ} (hlimit : limit ≤ 2 ^ 31) {ops : List HpackOp}
    {d : HpackDecoder} (h : Runs.run next (new limit) ops = some d) :
    d.dynamicTableSize = d.dynamicTable.length ∧
    d.dynamicTableUsage = (d.dynamicTable.map fun entry =>
      entry.header.name.length + entry.header.value.length + 32).sum ∧
    ∀ i, 1 ≤ i → d.getTableEntry (61 + i) =
      (survivors (ofEvents ((new limit).history ops)))[i - 1]? := by
  have hcounted := (counted_new limit).run (tame_of_le hlimit) h
  refine ⟨hcounted.size, ?_, fun i hi => ?_⟩
  · rw [hcounted.usage, total]
    congr 1
    apply List.map_congr_left
    intro entry hentry
    exact (hcounted.exact entry hentry).2
  · have htracks : Tracks (ofEvents ((new limit).history ops)) d := Tracks.run rfl h
    rw [getTableEntry_add d hi, htracks]

/-- Two literals under a limit with room for one of them. -/
theorem counters_and_addressing_two :
    ∃ d, Runs.run next (new 60) [.decode [0x41, 0x01, 0x61, 0x41, 0x01, 0x62]] = some d ∧
      d.dynamicTableUsage = 43 ∧
      d.getTableEntry 62 = some ⟨bytes ":authority", bytes "b", false⟩ ∧
      d.getTableEntry 62 = (survivors (ofEvents ((new 60).history
        [.decode [0x41, 0x01, 0x61, 0x41, 0x01, 0x62]])))[0]? := by
  obtain ⟨d, hrun⟩ : ∃ d, Runs.run next (new 60)
      [.decode [0x41, 0x01, 0x61, 0x41, 0x01, 0x62]] = some d := ⟨_, rfl⟩
  have hlimit : 60 ≤ 2 ^ 31 := by decide
  refine ⟨d, hrun, ?_, ?_, (counters_and_addressing hlimit hrun).2.2 1 le_rfl⟩
  · cases hrun
    decide
  · cases hrun
    decide

end HpackDecoder

end TinyWebServer
