import TinyWebServer.Log.StructuredLog
import TinyWebServer.Library.JsonText
import TinyWebServer.Library.Utf8

/-!
# Log records as JSON texts

A record is an object whose members are those of the entry, each with a way of its own to write its
value. It is read back as what the entry holds if and only if no byte that JSON does not allow in a
string gets into the record as it is.
-/

namespace TinyWebServer

open JsonText

/-! ### Members -/

/-- How a string gets into the record. -/
inductive Quoting where
  | raw
  | message
  | userAgent

namespace Quoting

def escape : Quoting → UInt8 → Bytes
  | raw => fun c => [c]
  | message => StructuredLogEntry.escapeMessage
  | userAgent => StructuredLogEntry.escapeUa

/-- The bytes that a string of this kind may have. -/
def Admits : Quoting → UInt8 → Prop
  | raw, c => IsPlain c
  | message, c => 32 ≤ c ∨ c ∈ ([8, 9, 10, 12, 13] : Bytes)
  | userAgent, c => 32 ≤ c

end Quoting

inductive RecordKey where
  | timestamp
  | level
  | file
  | line
  | function
  | message
  | requestId
  | connectionId
  | clientIp
  | userAgent
  | responseStatus
  deriving DecidableEq

def RecordKey.name : RecordKey → Bytes
  | timestamp => bytes "timestamp"
  | level => bytes "level"
  | file => bytes "file"
  | line => bytes "line"
  | function => bytes "function"
  | message => bytes "message"
  | requestId => bytes "request_id"
  | connectionId => bytes "connection_id"
  | clientIp => bytes "client_ip"
  | userAgent => bytes "user_agent"
  | responseStatus => bytes "response_status"

/-- The keys behind the timestamp in the order of the record. -/
def RecordKey.others : List RecordKey :=
  [level, file, line, function, message, requestId, connectionId, clientIp, userAgent,
    responseStatus]

/-- How the string under a key gets into the record. -/
def RecordKey.quoting : RecordKey → Quoting
  | message => .message
  | userAgent => .userAgent
  | _ => .raw

/-- A member of a record. -/
inductive RecordItem where
  | number (key : RecordKey) (value : ℤ)
  | string (key : RecordKey) (quoting : Quoting) (value : Bytes)

namespace RecordItem

def key : RecordItem → RecordKey
  | number key _ => key
  | string key _ _ => key

/-- What the member should be read as. -/
def value : RecordItem → Value
  | number _ value => .number (Bytes.ofInt value)
  | string _ _ value => .string value

def valueText : RecordItem → Bytes
  | number _ value => Bytes.ofInt value
  | string _ quoting value => 34 :: (value.flatMap quoting.escape ++ [34])

/-- The member as it is written, in front of the rest of the record. -/
def textBefore (item : RecordItem) (rest : Bytes) : Bytes :=
  34 :: (item.key.name ++ 34 :: 58 :: 32 :: (item.valueText ++ rest))

/-- The string has no byte that its way into the record does not provide for. -/
def Clean : RecordItem → Prop
  | number _ _ => True
  | string _ quoting value => ∀ c ∈ value, quoting.Admits c

end RecordItem

/-- Members behind another one, in front of the rest of the record. -/
def membersBefore (rest : Bytes) (items : List RecordItem) : Bytes :=
  items.foldr (fun item rest => 44 :: 32 :: item.textBefore rest) rest

/-- The members behind another one, and the closing brace. -/
def following (items : List RecordItem) : Bytes := membersBefore [125] items

namespace StructuredLogEntry

def timestampItem (entry : StructuredLogEntry) : RecordItem :=
  .string .timestamp .raw entry.timestampText

/-- The member under a key. -/
def itemOf (entry : StructuredLogEntry) : RecordKey → Option RecordItem
  | .timestamp => some entry.timestampItem
  | .level => some (.string .level .raw entry.level.levelStr)
  | .file => some (.string .file .raw entry.file)
  | .line => some (.number .line entry.line)
  | .function => some (.string .function .raw entry.function)
  | .message => some (.string .message .message entry.message)
  | .requestId => entry.requestId.map (.string .requestId .raw)
  | .connectionId => entry.connectionId.map (.number .connectionId)
  | .clientIp => entry.clientIp.map (.string .clientIp .raw)
  | .userAgent => entry.userAgent.map (.string .userAgent .userAgent)
  | .responseStatus => entry.responseStatus.map (.number .responseStatus)

/-- The members behind the timestamp. -/
def otherItems (entry : StructuredLogEntry) : List RecordItem :=
  RecordKey.others.filterMap entry.itemOf

lemma flatMap_raw (s : Bytes) : s.flatMap Quoting.raw.escape = s := List.flatMap_singleton' s

lemma membersBefore_filterMap_cons (f : RecordKey → Option RecordItem) (key : RecordKey)
    (keys : List RecordKey) (rest : Bytes) :
    membersBefore rest ((key :: keys).filterMap f) =
      membersBefore (membersBefore rest (keys.filterMap f)) (f key).toList := by
  rw [List.filterMap_cons]
  cases f key <;> rfl

lemma ifPresent_append {α : Type} (value : Option α) {print : α → Bytes} {item : α → RecordItem}
    {rest : Bytes} (h : ∀ v, print v ++ rest = membersBefore rest [item v]) :
    ifPresent value print ++ rest = membersBefore rest (value.map item).toList := by
  cases value with
  | none => rfl
  | some v => exact h v

lemma textBefore_raw (key : RecordKey) (s rest : Bytes) :
    (RecordItem.string key .raw s).textBefore rest =
      34 :: (key.name ++ 34 :: 58 :: 32 :: 34 :: (s ++ 34 :: rest)) := by
  simp [RecordItem.textBefore, RecordItem.valueText, RecordItem.key, flatMap_raw]

lemma membersBefore_raw (key : RecordKey) (s rest : Bytes) :
    membersBefore rest [.string key .raw s] =
      44 :: 32 :: 34 :: (key.name ++ 34 :: 58 :: 32 :: 34 :: (s ++ 34 :: rest)) := by
  rw [membersBefore, List.foldr_cons, List.foldr_nil, textBefore_raw]

lemma append_quote (s rest : Bytes) : s ++ bytes "\"" ++ rest = s ++ 34 :: rest :=
  List.append_assoc s _ rest

/-- The record is a brace and the members with their separators. -/
lemma toJson_eq (entry : StructuredLogEntry) :
    entry.toJson = 123 :: entry.timestampItem.textBefore (following entry.otherItems) := by
  have hstatus : ∀ rest, (ifPresent entry.responseStatus fun responseStatus =>
      bytes ", \"response_status\": " ++ Bytes.ofInt responseStatus) ++ rest =
        membersBefore rest (entry.responseStatus.map (.number .responseStatus)).toList :=
    fun rest => ifPresent_append _ fun _ => rfl
  have hagent : ∀ rest, (ifPresent entry.userAgent fun userAgent =>
      bytes ", \"user_agent\": \"" ++ userAgent.flatMap escapeUa ++ bytes "\"") ++ rest =
        membersBefore rest (entry.userAgent.map (.string .userAgent .userAgent)).toList :=
    fun rest => ifPresent_append _ fun _ => rfl
  have hip : ∀ rest, (ifPresent entry.clientIp fun clientIp =>
      bytes ", \"client_ip\": \"" ++ clientIp ++ bytes "\"") ++ rest =
        membersBefore rest (entry.clientIp.map (.string .clientIp .raw)).toList :=
    fun rest => ifPresent_append _ fun s => by
      rw [append_quote, membersBefore_raw]
      exact List.append_assoc _ s _
  have hconnection : ∀ rest, (ifPresent entry.connectionId fun connectionId =>
      bytes ", \"connection_id\": " ++ Bytes.ofInt connectionId) ++ rest =
        membersBefore rest (entry.connectionId.map (.number .connectionId)).toList :=
    fun rest => ifPresent_append _ fun _ => rfl
  have hrequest : ∀ rest, (ifPresent entry.requestId fun requestId =>
      bytes ", \"request_id\": \"" ++ requestId ++ bytes "\"") ++ rest =
        membersBefore rest (entry.requestId.map (.string .requestId .raw)).toList :=
    fun rest => ifPresent_append _ fun s => by
      rw [append_quote, membersBefore_raw]
      exact List.append_assoc _ s _
  rw [toJson, List.append_assoc, hstatus, List.append_assoc, hagent, List.append_assoc, hip,
    List.append_assoc, hconnection, List.append_assoc, hrequest, following, otherItems,
    RecordKey.others, timestampItem, textBefore_raw]
  simp only [membersBefore_filterMap_cons, itemOf, Option.toList_some]
  simp only [membersBefore, List.foldr_cons, List.foldr_nil, RecordItem.textBefore,
    RecordItem.valueText, RecordItem.key, flatMap_raw, List.append_assoc, List.cons_append,
    List.nil_append]
  rfl

end StructuredLogEntry

/-! ### Reading one member -/

lemma RecordKey.isPlain_of_mem (key : RecordKey) : ∀ c ∈ key.name, IsPlain c := by
  have hall : (key.name.all fun c => decide (IsPlain c)) = true := by cases key <;> rfl
  exact fun c hc => of_decide_eq_true (List.all_eq_true.mp hall c hc)

/-- The letters behind a backslash. -/
def escapeLetters : Bytes := [34, 92, 98, 102, 110, 114, 116]

/-- A byte is written as it stands, and then stands for itself if it is admitted, or as a backslash
and a letter that stands for it. -/
inductive WrittenAs (quoting : Quoting) (c : UInt8) : Bytes → Prop where
  | itself (hplain : quoting.Admits c → IsPlain c) : WrittenAs quoting c [c]
  | escaped {letter : UInt8} (hletter : letter ∈ escapeLetters)
      (hunescape : unescape letter = some c) : WrittenAs quoting c [92, letter]

lemma escapeLetters_bounds {letter : UInt8} (h : letter ∈ escapeLetters) :
    letter ≠ 117 ∧ 32 ≤ letter ∧ letter.toNat < 128 := by
  simp only [escapeLetters, List.mem_cons, List.not_mem_nil, or_false] at h
  rcases h with rfl | rfl | rfl | rfl | rfl | rfl | rfl <;> decide

lemma lt_of_unescape {letter c : UInt8} (h : letter ∈ escapeLetters)
    (hc : unescape letter = some c) : c.toNat < 128 := by
  simp only [escapeLetters, List.mem_cons, List.not_mem_nil, or_false] at h
  rcases h with rfl | rfl | rfl | rfl | rfl | rfl | rfl <;> cases hc <;> decide

namespace Quoting

lemma writtenAs_escape (quoting : Quoting) (c : UInt8) :
    WrittenAs quoting c (quoting.escape c) := by
  cases quoting with
  | raw => exact .itself id
  | message =>
    rw [escape, StructuredLogEntry.escapeMessage]
    split_ifs with hquote hbackslash hb hf hn hr ht
    · exact .escaped (by decide) (by rw [hquote]; rfl)
    · exact .escaped (by decide) (by rw [hbackslash]; rfl)
    · exact .escaped (by decide) (by rw [hb]; rfl)
    · exact .escaped (by decide) (by rw [hf]; rfl)
    · exact .escaped (by decide) (by rw [hn]; rfl)
    · exact .escaped (by decide) (by rw [hr]; rfl)
    · exact .escaped (by decide) (by rw [ht]; rfl)
    · refine .itself fun h => ⟨h.resolve_right ?_, hquote, hbackslash⟩
      simp [hb, hf, hn, hr, ht]
  | userAgent =>
    rw [escape, StructuredLogEntry.escapeUa]
    split_ifs with hquote hbackslash
    · exact .escaped (by decide) (by rw [hquote]; rfl)
    · exact .escaped (by decide) (by rw [hbackslash]; rfl)
    · exact .itself fun h => ⟨h, hquote, hbackslash⟩

/-- An admitted byte is read as itself, however it is written. -/
lemma scan_of_admits {quoting : Quoting} {c : UInt8} (h : quoting.Admits c) (text : Bytes) :
    scan .plain (quoting.escape c ++ text) = (scan .plain text).map (prepend (.byte c)) := by
  have hwritten := quoting.writtenAs_escape c
  generalize quoting.escape c = written at hwritten ⊢
  cases hwritten with
  | itself hplain => exact scan_plain (hplain h) text
  | escaped hletter hunescape =>
    rw [List.cons_append, List.singleton_append,
      scan_escape (escapeLetters_bounds hletter).1, hunescape]
    rfl

/-- An admitted byte is written without control characters. -/
lemma le_of_mem_escape {quoting : Quoting} {c d : UInt8} (h : quoting.Admits c)
    (hd : d ∈ quoting.escape c) : 32 ≤ d := by
  have hwritten := quoting.writtenAs_escape c
  generalize quoting.escape c = written at hwritten hd
  cases hwritten with
  | itself hplain =>
    rw [List.mem_singleton.mp hd]
    exact (hplain h).1
  | escaped hletter hunescape =>
    rcases List.mem_cons.mp hd with rfl | hd
    · decide
    · rw [List.mem_singleton.mp hd]
      exact (escapeLetters_bounds hletter).2.1

/-- ASCII is written in ASCII, and other bytes stay as they are. -/
lemma valid_escape (quoting : Quoting) {c : UInt8} (h : c.toNat < 128) :
    Utf8.Valid (quoting.escape c) := by
  have hwritten := quoting.writtenAs_escape c
  generalize quoting.escape c = written at hwritten ⊢
  cases hwritten with
  | itself => exact Utf8.valid_singleton h
  | escaped hletter hunescape =>
    exact (Utf8.valid_singleton (by decide)).append
      (Utf8.valid_singleton (escapeLetters_bounds hletter).2.2)

lemma escape_of_le (quoting : Quoting) {c : UInt8} (h : 128 ≤ c.toNat) :
    quoting.escape c = [c] := by
  have hwritten := quoting.writtenAs_escape c
  generalize quoting.escape c = written at hwritten ⊢
  cases hwritten with
  | itself => rfl
  | escaped hletter hc => exact absurd (lt_of_unescape hletter hc) (Nat.not_lt.mpr h)

end Quoting

/-- In an escaped string every other byte is an error. -/
lemma Quoting.scan_of_not_admits {quoting : Quoting} (hquoting : quoting ≠ .raw) {c : UInt8}
    (h : ¬ quoting.Admits c) (text : Bytes) : scan .plain (quoting.escape c ++ text) = none := by
  have hcontrol : c < 32 := by
    cases quoting with
    | raw => contradiction
    | message => exact UInt8.not_le.mp fun hc => h (Or.inl hc)
    | userAgent => exact UInt8.not_le.mp h
  have hquote : c ≠ 34 := UInt8.ne_of_lt (UInt8.lt_trans hcontrol (by decide))
  have hbackslash : c ≠ 92 := UInt8.ne_of_lt (UInt8.lt_trans hcontrol (by decide))
  have hself : quoting.escape c = [c] := by
    cases quoting with
    | raw => rfl
    | message =>
      have hother : c ∉ ([8, 9, 10, 12, 13] : Bytes) := fun hc => h (Or.inr hc)
      simp only [List.mem_cons, List.not_mem_nil, or_false, not_or] at hother
      simp [escape, StructuredLogEntry.escapeMessage, hquote, hbackslash, hother]
    | userAgent => simp [escape, StructuredLogEntry.escapeUa, hquote, hbackslash]
  rw [hself]
  exact scan_control hcontrol text

variable {quoting : Quoting} {s rest left : Bytes}

lemma scanString_of_admits (h : ∀ c ∈ s, quoting.Admits c) (rest : Bytes) :
    scanString (s.flatMap quoting.escape ++ 34 :: rest) = some (s, rest) := by
  have hscan : scan .plain (s.flatMap quoting.escape ++ 34 :: rest) =
      some (s.map .byte, rest) := by
    induction s with
    | nil => exact scan_quote rest
    | cons c s ih =>
      rw [List.forall_mem_cons] at h
      rw [List.flatMap_cons, List.append_assoc, quoting.scan_of_admits h.1, ih h.2]
      rfl
  rw [scanString, hscan, Option.map_some, decode_map_byte]

/-- An escaped string that can be read at all has only admitted bytes. -/
lemma admits_of_scan (hquoting : quoting ≠ .raw) {pieces : List Piece}
    (h : scan .plain (s.flatMap quoting.escape ++ 34 :: rest) = some (pieces, left)) :
    ∀ c ∈ s, quoting.Admits c := by
  induction s generalizing pieces with
  | nil => simp
  | cons c s ih =>
    rw [List.flatMap_cons, List.append_assoc] at h
    by_cases hc : quoting.Admits c
    · rw [quoting.scan_of_admits hc] at h
      obtain ⟨pieces', hrest, -⟩ := exists_of_map_prepend h
      exact List.forall_mem_cons.mpr ⟨hc, ih hrest⟩
    · rw [quoting.scan_of_not_admits hquoting hc] at h
      cases h

/-- What follows a member ends a number, and the string that would be read from it ends with a
blank. -/
lemma endsNumber_following (items : List RecordItem) : EndsNumber (following items) := by
  intro b text h
  cases items with
  | nil =>
    cases h
    decide
  | cons item items =>
    cases h
    decide

lemma scan_following (items : List RecordItem) {pieces : List Piece}
    (h : scan .plain (following items) = some (pieces, left)) :
    ∃ pieces' b, pieces = pieces' ++ [.byte b] ∧ b ≠ 92 := by
  cases items with
  | nil => cases h
  | cons item items =>
    cases h
    exact ⟨[.byte 44], 32, rfl, by decide⟩

/-- A string that is read as what it is has only admitted bytes. -/
lemma admits_of_scanString {items : List RecordItem}
    (h : scanString (s.flatMap quoting.escape ++ 34 :: following items) = some (s, left)) :
    ∀ c ∈ s, quoting.Admits c := by
  by_cases hquoting : quoting = .raw
  · rw [hquoting, StructuredLogEntry.flatMap_raw] at h
    rw [hquoting]
    exact (plain_of_scanString h fun _ _ => scan_following items).1
  · obtain ⟨⟨pieces, left'⟩, hscan, -⟩ := Option.map_eq_some_iff.mp h
    exact admits_of_scan hquoting hscan

/-! ### Reading all members -/

variable {item : RecordItem} {items : List RecordItem} {members : List (Bytes × Value)}

lemma RecordItem.readsValue (h : item.Clean) (items : List RecordItem) :
    ReadsValue (item.valueText ++ following items) item.value (following items) := by
  cases item with
  | number key n => exact .number (scanNumber_ofInt n (endsNumber_following items))
  | string key quoting s =>
    rw [valueText, List.cons_append, List.append_assoc]
    exact .string (scanString_of_admits h (following items))

/-- A value that is read from behind a key is clean if it is the value that was meant, and leaves
what follows its member. -/
lemma RecordItem.clean_of_readsValue {value : Value} {after : Bytes}
    (h : ReadsValue (item.valueText ++ following items) value after)
    (hvalue : item.Clean ∨ value = item.value) : item.Clean ∧ after = following items := by
  cases item with
  | number key n =>
    refine ⟨trivial, ?_⟩
    have hexact := scanNumber_ofInt n (endsNumber_following items)
    obtain ⟨b, s, hs, hb⟩ := Bytes.ofInt_eq_cons n
    rw [valueText, hs, List.cons_append] at h
    obtain ⟨lexeme, hscan, -⟩ := readsValue_number hb h
    rw [hs, List.cons_append, hscan] at hexact
    cases hexact
    rfl
  | string key quoting s =>
    rw [valueText, List.cons_append, List.append_assoc] at h
    obtain ⟨s', hscan, rfl⟩ := readsValue_quote h
    have hclean : ∀ c ∈ s, quoting.Admits c := by
      rcases hvalue with hclean | heq
      · exact hclean
      · cases heq
        exact admits_of_scanString hscan
    refine ⟨hclean, ?_⟩
    have hexact := scanString_of_admits hclean (following items)
    rw [List.singleton_append] at hscan
    rw [hscan] at hexact
    cases hexact
    rfl

/-- No blank is in front of a value but the one behind the colon. -/
lemma RecordItem.skipWs_valueText (item : RecordItem) (rest : Bytes) :
    skipWs (32 :: (item.valueText ++ rest)) = item.valueText ++ rest := by
  have hcons : ∃ b s, item.valueText = b :: s ∧ isWs b = false := by
    cases item with
    | number key n =>
      obtain ⟨b, s, hs, hb⟩ := Bytes.ofInt_eq_cons n
      refine ⟨b, s, hs, ?_⟩
      rcases hb with hb | rfl
      · exact isWs_of_isdigit hb
      · rfl
    | string key quoting s => exact ⟨34, _, rfl, rfl⟩
  obtain ⟨b, s, hs, hb⟩ := hcons
  rw [hs, List.cons_append]
  exact skipWs_cons hb _

lemma readsMembers_following (h : ∀ x ∈ item :: items, x.Clean) :
    ReadsMembers (item.textBefore (following items))
      ((item :: items).map fun x => (x.key.name, x.value)) [] := by
  induction items generalizing item with
  | nil =>
    have hvalue := RecordItem.readsValue (h item List.mem_cons_self) []
    rw [← item.skipWs_valueText] at hvalue
    exact .last (scanString_append_quote item.key.isPlain_of_mem _) rfl hvalue rfl
  | cons next items ih =>
    rw [List.forall_mem_cons] at h
    have hvalue := RecordItem.readsValue h.1 (next :: items)
    rw [← item.skipWs_valueText] at hvalue
    exact .more (scanString_append_quote item.key.isPlain_of_mem _) rfl hvalue rfl (ih h.2)

/-- The first of the members that are read has the key of the item. -/
lemma exists_of_readsMembers (h : ReadsMembers (item.textBefore (following items)) members rest) :
    ∃ value after members', ReadsValue (item.valueText ++ following items) value after ∧
      members = (item.key.name, value) :: members' ∧
      (skipWs after = 125 :: rest ∨
        ∃ next, skipWs after = 44 :: next ∧ ReadsMembers (skipWs next) members' rest) := by
  have hname := scanString_append_quote item.key.isPlain_of_mem
    (58 :: 32 :: (item.valueText ++ following items))
  cases h with
  | last hname' hcolon hvalue hclose =>
    rw [hname] at hname'
    cases hname'
    cases hcolon
    rw [item.skipWs_valueText] at hvalue
    exact ⟨_, _, [], hvalue, rfl, Or.inl hclose⟩
  | more hname' hcolon hvalue hcomma hmore =>
    rw [hname] at hname'
    cases hname'
    cases hcolon
    rw [item.skipWs_valueText] at hvalue
    exact ⟨_, _, _, hvalue, rfl, Or.inr ⟨_, hcomma, hmore⟩⟩

/-- If the members that are read say nothing wrong of any item, then all items are clean. -/
lemma clean_of_readsMembers (h : ReadsMembers (item.textBefore (following items)) members rest)
    (hvalues : ∀ x ∈ item :: items, x.Clean ∨
      ∀ value, (x.key.name, value) ∈ members → value = x.value) :
    ∀ x ∈ item :: items, x.Clean := by
  induction items generalizing item members with
  | nil =>
    obtain ⟨value, after, members', hvalue, rfl, -⟩ := exists_of_readsMembers h
    have hitem := (hvalues item List.mem_cons_self).imp_right fun h => h _ List.mem_cons_self
    rw [List.forall_mem_singleton]
    exact (RecordItem.clean_of_readsValue hvalue hitem).1
  | cons next items ih =>
    obtain ⟨value, after, members', hvalue, rfl, hafter⟩ := exists_of_readsMembers h
    have hitem := (hvalues item List.mem_cons_self).imp_right fun h => h _ List.mem_cons_self
    obtain ⟨hclean, rfl⟩ := RecordItem.clean_of_readsValue hvalue hitem
    refine List.forall_mem_cons.mpr ⟨hclean, ?_⟩
    obtain hclose | ⟨text, hcomma, hmore⟩ := hafter
    · cases hclose
    · cases hcomma
      refine ih hmore fun x hx => ?_
      exact (hvalues x (List.mem_cons_of_mem _ hx)).imp_right fun h value hmem =>
        h value (List.mem_cons_of_mem _ hmem)

/-! ### The bytes of a record -/

/-- Digits and the signs of numbers and times. -/
def IsSign (c : UInt8) : Prop := Bytes.isdigit c = true ∨ c ∈ ([45, 58, 84, 90] : Bytes)

instance (c : UInt8) : Decidable (IsSign c) := inferInstanceAs (Decidable (_ ∨ _))

lemma isPlain_of_isSign {c : UInt8} (h : IsSign c) : IsPlain c ∧ c.toNat < 128 := by
  rcases h with h | h
  · rw [Bytes.isdigit, Bool.and_eq_true, decide_eq_true_iff, decide_eq_true_iff] at h
    have hupper : c.toNat ≤ 57 := h.2
    refine ⟨⟨UInt8.le_trans (by decide) h.1, ?_, ?_⟩, by omega⟩
    · exact (UInt8.ne_of_lt (UInt8.lt_of_lt_of_le (by decide) h.1)).symm
    · exact UInt8.ne_of_lt (UInt8.lt_of_le_of_lt h.2 (by decide))
  · simp only [List.mem_cons, List.not_mem_nil, or_false] at h
    rcases h with rfl | rfl | rfl | rfl <;> decide

lemma isSign_of_mem_ofInt {n : ℤ} {c : UInt8} (h : c ∈ Bytes.ofInt n) : IsSign c :=
  (Bytes.digit_or_minus_of_mem_ofInt h).imp_right fun h => by simp [h]

lemma isSign_of_mem_padded {n : ℤ} {c : UInt8} (h : c ∈ Posix.padded n) : IsSign c := by
  rcases List.mem_append.mp h with h | h
  · rw [List.eq_of_mem_replicate h]
    exact Or.inl rfl
  · exact isSign_of_mem_ofInt h

lemma StructuredLogEntry.isSign_of_mem_timestampText {entry : StructuredLogEntry} {c : UInt8}
    (h : c ∈ entry.timestampText) : IsSign c := by
  rw [timestampText] at h
  split at h
  · have hdash : ∀ d ∈ bytes "-", IsSign d := List.forall_mem_singleton.mpr (by decide)
    have htime : ∀ d ∈ bytes "T", IsSign d := List.forall_mem_singleton.mpr (by decide)
    have hcolon : ∀ d ∈ bytes ":", IsSign d := List.forall_mem_singleton.mpr (by decide)
    have hzone : ∀ d ∈ bytes "Z", IsSign d := List.forall_mem_singleton.mpr (by decide)
    have hpadded : ∀ n, ∀ d ∈ Posix.padded n, IsSign d := fun _ _ => isSign_of_mem_padded
    have hyear : ∀ n, ∀ d ∈ Bytes.ofInt n, IsSign d := fun _ _ => isSign_of_mem_ofInt
    revert c
    simp only [putTime, List.forall_mem_append]
    exact ⟨⟨⟨⟨⟨⟨⟨⟨⟨⟨⟨hyear _, hdash⟩, hpadded _⟩, hdash⟩, hpadded _⟩, htime⟩, hpadded _⟩, hcolon⟩,
      hpadded _⟩, hcolon⟩, hpadded _⟩, hzone⟩
  · have hall : ((bytes "1970-01-01T00:00:00Z").all fun d => decide (IsSign d)) = true := rfl
    exact of_decide_eq_true (List.all_eq_true.mp hall c h)

namespace RecordItem

def IsUtf8 : RecordItem → Prop
  | number _ _ => True
  | string _ _ value => Utf8.Valid value

lemma valid_name (key : RecordKey) : Utf8.Valid key.name := by
  cases key <;> exact Utf8.valid_bytes rfl

lemma valid_valueText (h : item.IsUtf8) : Utf8.Valid item.valueText := by
  cases item with
  | number key n => exact Utf8.valid_of_lt fun c hc => (isPlain_of_isSign (isSign_of_mem_ofInt hc)).2
  | string key quoting s =>
    have hquote : Utf8.Valid [34] := Utf8.valid_singleton (by decide)
    have hs : Utf8.Valid (s.flatMap quoting.escape) :=
      Utf8.Valid.flatMap (fun _ => quoting.valid_escape) (fun _ => quoting.escape_of_le) h
    exact hquote.append (hs.append hquote)

lemma valid_textBefore (h : item.IsUtf8) (hrest : Utf8.Valid rest) :
    Utf8.Valid (item.textBefore rest) := by
  have hquote : Utf8.Valid [34] := Utf8.valid_singleton (by decide)
  have hcolon : Utf8.Valid [34, 58, 32] := Utf8.valid_of_lt (by simp)
  exact hquote.append ((valid_name item.key).append
    (hcolon.append ((valid_valueText h).append hrest)))

lemma le_of_mem_valueText (h : item.Clean) : ∀ c ∈ item.valueText, 32 ≤ c := by
  cases item with
  | number key n => exact fun c hc => (isPlain_of_isSign (isSign_of_mem_ofInt hc)).1.1
  | string key quoting s =>
    intro c hc
    rcases List.mem_cons.mp hc with rfl | hc
    · decide
    · rcases List.mem_append.mp hc with hc | hc
      · obtain ⟨d, hd, hc⟩ := List.mem_flatMap.mp hc
        exact Quoting.le_of_mem_escape (h d hd) hc
      · rw [List.mem_singleton.mp hc]
        decide

lemma le_of_mem_textBefore (h : item.Clean) (hrest : ∀ c ∈ rest, 32 ≤ c) :
    ∀ c ∈ item.textBefore rest, 32 ≤ c := by
  have hname : ∀ c ∈ item.key.name, 32 ≤ c := fun c hc => (item.key.isPlain_of_mem c hc).1
  have hvalue := le_of_mem_valueText h
  simp only [textBefore, List.forall_mem_cons, List.forall_mem_append]
  exact ⟨by decide, hname, by decide, by decide, by decide, hvalue, hrest⟩

end RecordItem

lemma valid_following (h : ∀ x ∈ items, x.IsUtf8) : Utf8.Valid (following items) := by
  induction items with
  | nil => exact Utf8.valid_singleton (by decide)
  | cons item items ih =>
    rw [List.forall_mem_cons] at h
    have hcomma : Utf8.Valid [44, 32] := Utf8.valid_of_lt (by simp)
    exact hcomma.append (RecordItem.valid_textBefore h.1 (ih h.2))

lemma le_of_mem_following (h : ∀ x ∈ items, x.Clean) : ∀ c ∈ following items, 32 ≤ c := by
  induction items with
  | nil => exact List.forall_mem_singleton.mpr (by decide)
  | cons item items ih =>
    rw [List.forall_mem_cons] at h
    have htext := RecordItem.le_of_mem_textBefore h.1 (ih h.2)
    exact List.forall_mem_cons.mpr ⟨by decide, List.forall_mem_cons.mpr ⟨by decide, htext⟩⟩

end TinyWebServer
