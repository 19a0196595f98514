import TinyWebServer.Log.JsonRecord

/-!
# Faithful log records

A record is meant to be one line with one JSON object that has the strings of its entry. This is so
for those entries whose strings have no byte that their way into the record does not provide for,
and for no others.
-/

namespace TinyWebServer

open JsonText

namespace StructuredLogEntry

variable {entry : StructuredLogEntry}

/-- The strings of an entry, as far as it has them. -/
def strings (entry : StructuredLogEntry) : List (RecordKey × Option Bytes) :=
  [(.message, some entry.message), (.file, some entry.file), (.function, some entry.function),
    (.requestId, entry.requestId), (.clientIp, entry.clientIp), (.userAgent, entry.userAgent)]

/-- The record is one line with a JSON object, in which a string is found under its key if and only
if it is the one of the entry. -/
structure Faithful (entry : StructuredLogEntry) : Prop where
  singleLine : ∀ c ∈ entry.toJson, c ≠ Bytes.lf ∧ c ≠ Bytes.cr
  utf8 : Utf8.Valid entry.toJson
  members : ∃ members, Denotes entry.toJson (.object members) ∧ ∀ field ∈ entry.strings, ∀ value,
    (field.1.name, value) ∈ members ↔ ∃ s ∈ field.2, value = .string s

/-- No string has a byte that its way into the record does not provide for. -/
def Clean (entry : StructuredLogEntry) : Prop :=
  ∀ field ∈ entry.strings, ∀ s ∈ field.2, ∀ c ∈ s, field.1.quoting.Admits c

/-! ### Members by their keys -/

/-- All members in the order of the record. -/
def items (entry : StructuredLogEntry) : List RecordItem := entry.timestampItem :: entry.otherItems

lemma mem_keys (key : RecordKey) : key ∈ RecordKey.timestamp :: RecordKey.others := by
  cases key <;> decide

lemma key_of_itemOf {key : RecordKey} {item : RecordItem} (h : entry.itemOf key = some item) :
    item.key = key := by
  cases key with
  | requestId | connectionId | clientIp | userAgent | responseStatus =>
    obtain ⟨value, -, rfl⟩ := Option.map_eq_some_iff.mp h
    rfl
  | _ =>
    cases h
    rfl

lemma mem_items_iff {item : RecordItem} :
    item ∈ entry.items ↔ entry.itemOf item.key = some item := by
  constructor
  · intro h
    rcases List.mem_cons.mp h with rfl | h
    · rfl
    · obtain ⟨key, -, hkey⟩ := List.mem_filterMap.mp h
      rwa [key_of_itemOf hkey]
  · intro h
    by_cases hkey : item.key = .timestamp
    · rw [hkey] at h
      cases h
      exact List.mem_cons_self
    · have hother := List.mem_of_ne_of_mem hkey (mem_keys item.key)
      exact List.mem_cons_of_mem _ (List.mem_filterMap.mpr ⟨item.key, hother, h⟩)

variable {field : RecordKey × Option Bytes}

lemma itemOf_string (h : field ∈ entry.strings) :
    entry.itemOf field.1 = field.2.map (.string field.1 field.1.quoting) := by
  simp only [strings, List.mem_cons, List.not_mem_nil, or_false] at h
  rcases h with rfl | rfl | rfl | rfl | rfl | rfl <;> rfl

lemma string_mem_items (h : field ∈ entry.strings) {s : Bytes} (hs : s ∈ field.2) :
    .string field.1 field.1.quoting s ∈ entry.items := by
  refine mem_items_iff.mpr ((itemOf_string h).trans ?_)
  rw [Option.mem_def.mp hs]
  rfl

/-- What holds of numbers, of the time and the level and of the strings of the entry holds of all
members. -/
lemma forall_mem_items {p : RecordItem → Prop} (hnumber : ∀ key n, p (.number key n))
    (htimestamp : p entry.timestampItem) (hlevel : p (.string .level .raw entry.level.levelStr))
    (hstring : ∀ field ∈ entry.strings, ∀ s ∈ field.2, p (.string field.1 field.1.quoting s)) :
    ∀ item ∈ entry.items, p item := by
  intro item hitem
  have hkey := mem_items_iff.mp hitem
  have hfield : ∀ field ∈ entry.strings, entry.itemOf field.1 = some item → p item := by
    intro field hfield h
    rw [itemOf_string hfield] at h
    obtain ⟨s, hs, rfl⟩ := Option.map_eq_some_iff.mp h
    exact hstring field hfield s hs
  generalize item.key = key at hkey
  cases key with
  | timestamp =>
    cases hkey
    exact htimestamp
  | level =>
    cases hkey
    exact hlevel
  | line =>
    cases hkey
    exact hnumber _ _
  | connectionId | responseStatus =>
    obtain ⟨n, -, rfl⟩ := Option.map_eq_some_iff.mp hkey
    exact hnumber _ _
  | message => exact hfield _ (List.mem_cons_self) hkey
  | file => exact hfield (.file, some entry.file) (by simp [strings]) hkey
  | function => exact hfield (.function, some entry.function) (by simp [strings]) hkey
  | requestId => exact hfield (.requestId, entry.requestId) (by simp [strings]) hkey
  | clientIp => exact hfield (.clientIp, entry.clientIp) (by simp [strings]) hkey
  | userAgent => exact hfield (.userAgent, entry.userAgent) (by simp [strings]) hkey

lemma name_injective : Function.Injective RecordKey.name := by
  have hnodup : ((RecordKey.timestamp :: RecordKey.others).map RecordKey.name).Nodup := by
    decide +kernel
  intro key key' h
  exact List.inj_on_of_nodup_map hnodup (mem_keys key) (mem_keys key') h

lemma isPlain_of_mem_levelStr {c : UInt8} (level : StructuredLogLevel) (h : c ∈ level.levelStr) :
    IsPlain c := by
  have hall : (level.levelStr.all fun d => decide (IsPlain d)) = true := by cases level <;> rfl
  exact of_decide_eq_true (List.all_eq_true.mp hall c h)

lemma clean_timestampItem : entry.timestampItem.Clean := fun _ hc =>
  (isPlain_of_isSign (isSign_of_mem_timestampText hc)).1

lemma forall_clean_iff : (∀ item ∈ entry.items, item.Clean) ↔ entry.Clean := by
  constructor
  · intro h field hfield s hs
    exact h _ (string_mem_items hfield hs)
  · intro h
    exact forall_mem_items (fun _ _ => trivial) clean_timestampItem
      (fun _ => isPlain_of_mem_levelStr entry.level) h

lemma isUtf8_of_mem_items (h : ∀ field ∈ entry.strings, ∀ s ∈ field.2, Utf8.Valid s) :
    ∀ item ∈ entry.items, item.IsUtf8 := by
  refine forall_mem_items (fun _ _ => trivial) ?_ ?_ h
  · exact Utf8.valid_of_lt fun c hc => (isPlain_of_isSign (isSign_of_mem_timestampText hc)).2
  · cases entry.level <;> exact Utf8.valid_bytes rfl

/-- The members of a clean entry are found under their keys and nowhere else. -/
lemma mem_members_iff (h : field ∈ entry.strings) (value : Value) :
    (field.1.name, value) ∈ entry.items.map (fun x => (x.key.name, x.value)) ↔
      ∃ s ∈ field.2, value = .string s := by
  rw [List.mem_map]
  constructor
  · rintro ⟨item, hitem, heq⟩
    rw [Prod.mk.injEq] at heq
    obtain ⟨hname, rfl⟩ := heq
    have hkey := mem_items_iff.mp hitem
    rw [name_injective hname, itemOf_string h] at hkey
    obtain ⟨s, hs, rfl⟩ := Option.map_eq_some_iff.mp hkey
    exact ⟨s, hs, rfl⟩
  · rintro ⟨s, hs, rfl⟩
    exact ⟨_, string_mem_items h hs, rfl⟩

/-! ### Faithful records -/

lemma faithful_of_clean (hutf8 : ∀ field ∈ entry.strings, ∀ s ∈ field.2, Utf8.Valid s)
    (h : entry.Clean) : entry.Faithful where
  singleLine := by
    have hclean := List.forall_mem_cons.mp (forall_clean_iff.mpr h)
    have hle : ∀ c ∈ entry.toJson, 32 ≤ c := by
      rw [toJson_eq]
      exact List.forall_mem_cons.mpr ⟨by decide,
        RecordItem.le_of_mem_textBefore hclean.1 (le_of_mem_following hclean.2)⟩
    refine fun c hc => ⟨?_, ?_⟩
    · rintro rfl
      exact absurd (hle _ hc) (by decide)
    · rintro rfl
      exact absurd (hle _ hc) (by decide)
  utf8 := by
    have hitems := List.forall_mem_cons.mp (isUtf8_of_mem_items hutf8)
    have htext := RecordItem.valid_textBefore hitems.1 (valid_following hitems.2)
    have hbrace : Utf8.Valid [123] := Utf8.valid_singleton (by decide)
    rw [toJson_eq]
    exact hbrace.append htext
  members := by
    refine ⟨entry.items.map fun x => (x.key.name, x.value), ⟨[], ?_, rfl⟩, ?_⟩
    · rw [toJson_eq]
      exact .object (readsMembers_following (forall_clean_iff.mpr h))
    · exact fun field hfield => mem_members_iff hfield

lemma clean_of_faithful (h : entry.Faithful) : entry.Clean := by
  obtain ⟨members, ⟨rest, hreads, -⟩, hmembers⟩ := h.members
  rw [toJson_eq] at hreads
  have htext : ReadsMembers (entry.timestampItem.textBefore (following entry.otherItems)) members
      rest := (readsValue_brace hreads).resolve_left (fun hempty => by cases hempty)
  refine forall_clean_iff.mp (clean_of_readsMembers htext ?_)
  refine forall_mem_items (fun _ _ => Or.inl trivial) (Or.inl clean_timestampItem)
    (Or.inl fun _ => isPlain_of_mem_levelStr entry.level) ?_
  intro field hfield s hs
  refine Or.inr fun value hvalue => ?_
  obtain ⟨s', hs', rfl⟩ := (hmembers field hfield value).mp hvalue
  rw [Option.mem_unique hs' hs]
  rfl

/-- The record is faithful exactly if nothing in the strings had to be escaped that is not. -/
theorem faithful_iff (h : ∀ field ∈ entry.strings, ∀ s ∈ field.2, Utf8.Valid s) :
    entry.Faithful ↔ entry.Clean :=
  ⟨clean_of_faithful, faithful_of_clean h⟩

/-- A request with a quoted message. -/
def requestEntry (userAgent : Bytes) : StructuredLogEntry where
  timestamp := 1700000000000000000
  level := .info
  message := bytes "GET \"/\"\n"
  file := bytes "server.cpp"
  line := 42
  function := bytes "handleRequest"
  requestId := some (bytes "req-1")
  connectionId := some 7
  clientIp := some (bytes "::1")
  userAgent := some userAgent
  responseStatus := none

lemma valid_requestEntry {userAgent : Bytes} (h : Utf8.Valid userAgent) :
    ∀ field ∈ (requestEntry userAgent).strings, ∀ s ∈ field.2, Utf8.Valid s := by
  simp only [strings, requestEntry, List.forall_mem_cons, Option.mem_def, Option.some.injEq,
    forall_eq']
  exact ⟨Utf8.valid_bytes rfl, Utf8.valid_bytes rfl, Utf8.valid_bytes rfl, Utf8.valid_bytes rfl,
    Utf8.valid_bytes rfl, h, by simp⟩

lemma clean_requestEntry_iff (userAgent : Bytes) :
    (requestEntry userAgent).Clean ↔ ∀ c ∈ userAgent, 32 ≤ c := by
  simp [Clean, strings, requestEntry, RecordKey.quoting, Quoting.Admits, IsPlain, bytes]

theorem faithful_requestEntry : (requestEntry (bytes "curl/8.5.0")).Faithful :=
  (faithful_iff (valid_requestEntry (Utf8.valid_bytes rfl))).mpr
    ((clean_requestEntry_iff _).mpr (by simp [bytes]))

/-- A tab of the client is written as it is. -/
theorem not_forall_faithful :
    ¬ ∀ entry : StructuredLogEntry, (∀ field ∈ entry.strings, ∀ s ∈ field.2, Utf8.Valid s) →
      entry.Faithful := by
  intro h
  have hvalid : Utf8.Valid [97, 9, 98] := Utf8.valid_of_lt (by simp)
  have hclean := clean_of_faithful (h _ (valid_requestEntry hvalid))
  exact absurd ((clean_requestEntry_iff _).mp hclean) (by simp)

end StructuredLogEntry

end TinyWebServer
