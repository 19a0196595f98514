import TinyWebServer.Http2.LiteralFields
import TinyWebServer.Library.Fitting
import TinyWebServer.Library.Journal
import TinyWebServer.Library.Runs

/-!
# The dynamic table of the HPACK decoder

Whatever is decoded changes the decoder through a few functions on its table. An operation is a run
of such changes, and what each of them keeps holds in every state of the decoder: the counters agree
with the list, and the list is what insertions and evictions have left.
-/

namespace TinyWebServer

open Fitting Journal

/-- The calls that a peer or the owner of the decoder can cause. -/
inductive HpackOp where
  | decode (data : Bytes)
  | updateDynamicTableSize (newSize : ℕ)
  | clearDynamicTable
  | reset

namespace HpackDecoder

def operate (d : HpackDecoder) : HpackOp → HpackDecoder
  | .decode data => (d.decode data).2
  | .updateDynamicTableSize newSize => (d.updateDynamicTableSize newSize).2
  | .clearDynamicTable => d.clearDynamicTable
  | .reset => d.reset

def next (d : HpackDecoder) (op : HpackOp) : Option HpackDecoder := some (d.operate op)

/-! ### Operations as runs of changes -/

/-- A change of the decoder. -/
inductive TableAct where
  | start
  | stop
  | add (header : HpackHeader)
  | update (newSize : ℕ)
  | clear

def perform (d : HpackDecoder) : TableAct → Option HpackDecoder
  | .start => some { d with decodingStarted := true }
  | .stop => some { d with decodingStarted := false }
  | .add header => some (d.addToDynamicTable header)
  | .update newSize => some (d.updateDynamicTableSize newSize).2
  | .clear => some d.clearDynamicTable

/-- The changes that `decodeHeaderFieldFuel` makes. -/
def headerActs (header : HpackHeader) : ℕ → HpackDecoder → Bytes → List TableAct
  | 0, _, _ => []
  | _ + 1, _, [] => []
  | fuel + 1, d, firstByte :: rest =>
    let data := firstByte :: rest
    if firstByte &&& 0x80 ≠ 0 then []
    else if firstByte &&& 0xC0 = 0x40 then
      match decodeInteger 6 data with
      | .error _ => []
      | .ok (nameIndex, data) =>
        match d.getTableEntry nameIndex with
        | none => []
        | some nameEntry =>
          match decodeString data with
          | .error _ => []
          | .ok (value, _) => [.add { header with name := nameEntry.name, value := value }]
    else if firstByte &&& 0xF0 = 0x00 then
      match decodeString data with
      | .error _ => []
      | .ok (name, data) =>
        match decodeString data with
        | .error _ => []
        | .ok (value, _) => [.add { header with name := name, value := value }]
    else if firstByte &&& 0xE0 = 0x20 then
      if ¬ d.decodingStarted then []
      else
        match decodeInteger 5 data with
        | .error _ => []
        | .ok (newSize, data) =>
          let result := d.updateDynamicTableSize newSize
          .update newSize ::
            if ¬ result.1.isSuccess then [] else headerActs header fuel result.2 data
    else []

/-- The changes that `decodeFields` makes. -/
def blockActs : ℕ → HpackDecoder → Bytes → List TableAct
  | 0, _, _ => []
  | _ + 1, _, [] => []
  | fuel + 1, d, byte :: rest =>
    headerActs ⟨[], [], false⟩ (byte :: rest).length d (byte :: rest) ++
      match d.decodeHeaderField (byte :: rest) ⟨[], [], false⟩ with
      | (.error _, _) => []
      | (.ok (_, data), d) => blockActs fuel d data

def opActs (d : HpackDecoder) : HpackOp → List TableAct
  | .decode data => .start :: blockActs data.length { d with decodingStarted := true } data
  | .updateDynamicTableSize newSize => [.update newSize]
  | .clearDynamicTable => [.clear]
  | .reset => [.clear, .stop]

/-! ### How long a string can be -/

/-- What the guard against overflow in `DecodeInteger` leaves for a length. -/
def maxString : ℕ := 2 ^ 28 + 126

lemma decodeContinuation_add_le {m result n : ℕ} {data rest : Bytes}
    (hresult : result < 2 ^ 8 + 2 ^ m) (h : decodeContinuation m result data = .ok (n, rest)) :
    n + 2 ^ m ≤ result + 2 ^ 28 := by
  induction data generalizing m result with
  | nil => simp [decodeContinuation] at h
  | cons byte data ih =>
    obtain ⟨group, hgroup, hm, ⟨rfl, -⟩ | ⟨hnext, hmore⟩⟩ := decodeContinuation_cons hresult h
    · have hpow : 2 ^ (m + 7) ≤ 2 ^ 28 := Nat.pow_le_pow_right (by omega) hm
      have hmul : group * 2 ^ m ≤ 127 * 2 ^ m := Nat.mul_le_mul_right _ (by omega)
      rw [pow_add] at hpow
      omega
    · have hrest := ih hnext hmore
      have hmul : group * 2 ^ m ≤ 127 * 2 ^ m := Nat.mul_le_mul_right _ (by omega)
      rw [pow_add] at hrest
      omega

lemma decodeInteger_le {n : ℕ} {data rest : Bytes} (h : decodeInteger 7 data = .ok (n, rest)) :
    n ≤ maxString := by
  cases data with
  | nil => simp [decodeInteger] at h
  | cons byte data =>
    simp only [decodeInteger] at h
    rw [maxString]
    split_ifs at h with hfull
    · have := decodeContinuation_add_le (by omega) h
      omega
    · cases h
      omega

lemma length_of_decodeString {data s rest : Bytes} (h : decodeString data = .ok (s, rest)) :
    s.length ≤ maxString := by
  rw [decodeString] at h
  split_ifs at h
  cases hint : decodeInteger 7 data with
  | error err => simp [hint] at h
  | ok result =>
    rw [hint] at h
    dsimp only at h
    split_ifs at h
    cases h
    exact (List.length_take_le _ _).trans (decodeInteger_le hint)

end HpackDecoder

/-- The name and the value are no longer than strings that were decoded. -/
def HpackHeader.Short (header : HpackHeader) : Prop :=
  header.name.length ≤ HpackDecoder.maxString ∧ header.value.length ≤ HpackDecoder.maxString

def HpackHeader.tableSize (header : HpackHeader) : ℕ :=
  header.name.length + header.value.length + 32

namespace HpackDecoder

def TableAct.Short : TableAct → Prop
  | .add header => header.Short
  | _ => True

def ShortEntries (d : HpackDecoder) : Prop := ∀ entry ∈ d.dynamicTable, entry.header.Short

lemma short_of_mem_staticTable {header : HpackHeader} (h : header ∈ staticTable) :
    header.Short := by
  have hall : ∀ header ∈ staticTable, header.name.length ≤ 100 ∧ header.value.length ≤ 100 := by
    decide +kernel
  have hle : 100 ≤ maxString := by decide
  exact ⟨(hall header h).1.trans hle, (hall header h).2.trans hle⟩

lemma short_of_getTableEntry {d : HpackDecoder} (hd : d.ShortEntries) {index : ℕ}
    {header : HpackHeader} (h : d.getTableEntry index = some header) : header.Short := by
  rw [getTableEntry] at h
  split_ifs at h
  · rw [getStaticTableEntry] at h
    split_ifs at h
    exact short_of_mem_staticTable (List.mem_of_getElem? h)
  · rw [getDynamicTableEntry] at h
    split_ifs at h
    obtain ⟨entry, hentry, rfl⟩ := Option.map_eq_some_iff.mp h
    exact hd entry (List.mem_of_getElem? hentry)

lemma mem_of_mem_evict {d : HpackDecoder} {entry : DynamicTableEntry}
    (h : entry ∈ d.evictDynamicTable.dynamicTable) : entry ∈ d.dynamicTable := by
  rw [evictDynamicTable] at h
  split at h
  · exact h
  · exact List.dropLast_subset _ h

lemma ShortEntries.update {d : HpackDecoder} (hd : d.ShortEntries) (newSize : ℕ) :
    (d.updateDynamicTableSize newSize).2.ShortEntries := by
  rw [updateDynamicTableSize]
  split_ifs
  · exact hd
  · intro entry hentry
    exact hd entry (mem_of_mem_evict (d := { d with maxDynamicTableSize := newSize }) hentry)

/-! ### What one field does -/

/-- The changes of one field: none, an insertion, or a size update before the next field. -/
inductive FieldActs : HpackDecoder → List TableAct → HpackDecoder → Prop where
  | nothing (d : HpackDecoder) : FieldActs d [] d
  | add {d : HpackDecoder} {header : HpackHeader} : (d.ShortEntries → header.Short) →
      FieldActs d [.add header] (d.addToDynamicTable header)
  | update {d d' : HpackDecoder} {acts : List TableAct} (newSize : ℕ) :
      FieldActs (d.updateDynamicTableSize newSize).2 acts d' →
      FieldActs d (.update newSize :: acts) d'

lemma fieldActs_headerActs (header : HpackHeader) (fuel : ℕ) (d : HpackDecoder) (data : Bytes) :
    FieldActs d (headerActs header fuel d data) (decodeHeaderFieldFuel header fuel d data).2 := by
  induction fuel generalizing d data with
  | zero => exact .nothing d
  | succ fuel ih =>
    cases data with
    | nil => exact .nothing d
    | cons firstByte rest =>
      rw [headerActs, decodeHeaderFieldFuel]
      dsimp only
      by_cases hindexed : firstByte &&& 0x80 ≠ 0
      · rw [if_pos hindexed, if_pos hindexed]
        cases decodeInteger 7 (firstByte :: rest) with
        | error err => exact .nothing d
        | ok result =>
          dsimp only
          cases d.getTableEntry result.1 with
          | none => exact .nothing d
          | some entry => exact .nothing d
      rw [if_neg hindexed, if_neg hindexed]
      by_cases hincremental : firstByte &&& 0xC0 = 0x40
      · rw [if_pos hincremental, if_pos hincremental]
        cases decodeInteger 6 (firstByte :: rest) with
        | error err => exact .nothing d
        | ok result =>
          dsimp only
          cases hname : d.getTableEntry result.1 with
          | none => exact .nothing d
          | some nameEntry =>
            dsimp only
            cases hvalue : decodeString result.2 with
            | error err => exact .nothing d
            | ok result =>
              exact .add fun hd =>
                ⟨(short_of_getTableEntry hd hname).1, length_of_decodeString hvalue⟩
      rw [if_neg hincremental, if_neg hincremental]
      by_cases hliteral : firstByte &&& 0xF0 = 0x00
      · rw [if_pos hliteral, if_pos hliteral]
        cases hname : decodeString (firstByte :: rest) with
        | error err => exact .nothing d
        | ok result =>
          dsimp only
          cases hvalue : decodeString result.2 with
          | error err => exact .nothing d
          | ok result' =>
            exact .add fun _ => ⟨length_of_decodeString hname, length_of_decodeString hvalue⟩
      rw [if_neg hliteral, if_neg hliteral]
      by_cases hupdate : firstByte &&& 0xE0 = 0x20
      · rw [if_pos hupdate, if_pos hupdate]
        by_cases hstarted : d.decodingStarted
        · rw [if_neg (not_not.mpr hstarted), if_neg (not_not.mpr hstarted)]
          cases decodeInteger 5 (firstByte :: rest) with
          | error err => exact .nothing d
          | ok result =>
            dsimp only
            apply FieldActs.update
            split_ifs
            · exact ih _ _
            · exact .nothing _
        · rw [if_pos hstarted, if_pos hstarted]
          exact .nothing d
      · rw [if_neg hupdate, if_neg hupdate]
        exact .nothing d

lemma FieldActs.run {d d' : HpackDecoder} {acts : List TableAct} (h : FieldActs d acts d') :
    Runs.run perform d acts = some d' := by
  induction h with
  | nothing d => rfl
  | add _ => rfl
  | update newSize _ ih =>
    rw [Runs.run, perform, Option.bind_some]
    exact ih

/-- A field adds at most a header of short strings. -/
lemma FieldActs.short {d d' : HpackDecoder} {acts : List TableAct} (h : FieldActs d acts d')
    (hd : d.ShortEntries) : ∀ act ∈ acts, act.Short := by
  induction h with
  | nothing d => exact fun _ hact => absurd hact List.not_mem_nil
  | add hshort => exact List.forall_mem_singleton.mpr (hshort hd)
  | update newSize _ ih => exact List.forall_mem_cons.mpr ⟨trivial, ih (hd.update newSize)⟩

lemma run_headerActs (header : HpackHeader) (fuel : ℕ) (d : HpackDecoder) (data : Bytes) :
    Runs.run perform d (headerActs header fuel d data) =
      some (decodeHeaderFieldFuel header fuel d data).2 :=
  (fieldActs_headerActs header fuel d data).run

lemma run_blockActs (fuel : ℕ) (d : HpackDecoder) (data : Bytes) :
    Runs.run perform d (blockActs fuel d data) = some (decodeFields fuel d data).2 := by
  induction fuel generalizing d data with
  | zero => rfl
  | succ fuel ih =>
    cases data with
    | nil => rfl
    | cons byte rest =>
      rw [blockActs, decodeFields, Runs.run_append, run_headerActs, Option.bind_some,
        decodeHeaderField]
      cases hfield : decodeHeaderFieldFuel ⟨[], [], false⟩ (byte :: rest).length d (byte :: rest) with
      | mk result d' =>
        cases result with
        | error err => rfl
        | ok result =>
          dsimp only
          rw [ih]
          cases decodeFields fuel d' result.2 with
          | mk headers d'' =>
            cases headers with
            | none => rfl
            | some headers => rfl

/-- An operation is the run of its changes. -/
lemma run_opActs (d : HpackDecoder) (op : HpackOp) :
    Runs.run perform d (d.opActs op) = some (d.operate op) := by
  cases op with
  | decode data => exact run_blockActs data.length { d with decodingStarted := true } data
  | updateDynamicTableSize newSize => rfl
  | clearDynamicTable => rfl
  | reset => rfl

/-! ### Short entries stay short -/

lemma mem_of_mem_evictFor {entrySize fuel : ℕ} {d : HpackDecoder} {entry : DynamicTableEntry}
    (h : entry ∈ (evictFor entrySize fuel d).dynamicTable) : entry ∈ d.dynamicTable := by
  induction fuel generalizing d with
  | zero => exact h
  | succ fuel ih =>
    rw [evictFor] at h
    split_ifs at h
    · exact mem_of_mem_evict (ih h)
    · exact h

lemma ShortEntries.perform {d d' : HpackDecoder} {act : TableAct} (hd : d.ShortEntries)
    (hact : act.Short) (h : d.perform act = some d') : d'.ShortEntries := by
  cases act with
  | start =>
    cases h
    exact hd
  | stop =>
    cases h
    exact hd
  | add header =>
    cases h
    rw [addToDynamicTable]
    dsimp only
    split_ifs
    · exact hd
    · intro entry hentry
      rcases List.mem_cons.mp hentry with rfl | hold
      · exact hact
      · exact hd entry (mem_of_mem_evictFor hold)
  | update newSize =>
    cases h
    exact hd.update newSize
  | clear =>
    cases h
    exact fun entry hentry => absurd hentry List.not_mem_nil

lemma short_blockActs {fuel : ℕ} {d : HpackDecoder} {data : Bytes} (hd : d.ShortEntries) :
    ∀ act ∈ blockActs fuel d data, act.Short := by
  induction fuel generalizing d data with
  | zero => exact fun _ h => absurd h List.not_mem_nil
  | succ fuel ih =>
    cases data with
    | nil => exact fun _ h => absurd h List.not_mem_nil
    | cons byte rest =>
      have hfield : ∀ act ∈ headerActs ⟨[], [], false⟩ (byte :: rest).length d (byte :: rest),
          act.Short := (fieldActs_headerActs _ _ d _).short hd
      have hafter := Runs.invariant_run_of perform (fun _ _ _ hact hu => hu.perform hact) hfield hd
        (run_headerActs _ _ _ _)
      rw [blockActs, List.forall_mem_append]
      refine ⟨hfield, ?_⟩
      rw [decodeHeaderField]
      split
      · exact fun _ h => absurd h List.not_mem_nil
      · rename_i heq
        rw [heq] at hafter
        exact ih hafter

/-- The changes that an operation makes are by headers of short strings. -/
lemma short_opActs {d : HpackDecoder} (hd : d.ShortEntries) (op : HpackOp) :
    ∀ act ∈ d.opActs op, act.Short := by
  cases op with
  | decode data =>
    rw [opActs, List.forall_mem_cons]
    exact ⟨trivial, short_blockActs (d := { d with decodingStarted := true }) hd⟩
  | updateDynamicTableSize newSize => simp [opActs, TableAct.Short]
  | clearDynamicTable => simp [opActs, TableAct.Short]
  | reset => simp [opActs, TableAct.Short]

end HpackDecoder

end TinyWebServer
