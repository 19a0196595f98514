import TinyWebServer.Http.Conditional
import TinyWebServer.Library.Decimal

/-!
# Entity tags

The tag of a file is made of its size and of its modification time in whole seconds. The handler
searches `If-None-Match` for the tag as a string; on a well-formed list of tags that is the weak
comparison with each of them. The modification time goes through the readings of two clocks on
its way into the tag.
-/

namespace TinyWebServer

/-- The bytes that may stand between the quotes of an entity tag. -/
def isEtagc (b : UInt8) : Bool := b = 0x21 || (0x23 ≤ b && b ≤ 0x7E) || 0x80 ≤ b

/-- The double quote. -/
def dquote : UInt8 := 34

structure EntityTag where
  weak : Bool
  opaqueTag : Bytes
  etagc : ∀ b ∈ opaqueTag, isEtagc b = true

namespace EntityTag

def quoted (tag : EntityTag) : Bytes := dquote :: (tag.opaqueTag ++ [dquote])

def print (tag : EntityTag) : Bytes := (if tag.weak then bytes "W/" else []) ++ tag.quoted

lemma dquote_notMem (tag : EntityTag) : dquote ∉ tag.opaqueTag := fun h =>
  absurd (tag.etagc _ h) (by decide)

end EntityTag

/-- A comma with the blanks around it. -/
structure TagSeparator where
  before : Bytes
  after : Bytes
  isblank_before : ∀ b ∈ before, Bytes.isblank b = true
  isblank_after : ∀ b ∈ after, Bytes.isblank b = true

def TagSeparator.print (separator : TagSeparator) : Bytes :=
  separator.before ++ bytes "," ++ separator.after

/-- The values of `If-None-Match`: `*`, or a list of one tag at least. -/
inductive TagCondition where
  | any
  | tags (first : EntityTag) (rest : List (TagSeparator × EntityTag))

namespace TagCondition

/-- What stands behind the first tag. -/
def printRest : List (TagSeparator × EntityTag) → Bytes
  | [] => []
  | (separator, tag) :: rest => separator.print ++ tag.print ++ printRest rest

def print : TagCondition → Bytes
  | any => bytes "*"
  | tags first rest => first.print ++ printRest rest

def entityTags : TagCondition → List EntityTag
  | any => []
  | tags first rest => first :: rest.map Prod.snd

end TagCondition

/-! ### Searching for a quoted string -/

namespace EntityTag

/-- Two strings without a quote that reach up to the same quote are equal. -/
lemma eq_of_isPrefix {x y t : Bytes} (hx : dquote ∉ x) (hy : dquote ∉ y)
    (h : x ++ [dquote] <+: y ++ dquote :: t) : x = y := by
  obtain ⟨v, hv⟩ := h
  rw [List.append_assoc, List.singleton_append] at hv
  have hx' := Bytes.findByte_append_cons v hx
  rw [hv, Bytes.findByte_append_cons t hy, Option.some_inj] at hx'
  exact (List.append_inj hv hx'.symm).1

section Search

variable {own : EntityTag} (hown : ∃ b s, own.opaqueTag = b :: s ∧ Bytes.isdigit b = true)

include hown in
/-- From an opening quote on: either the string stands here, or the search goes on behind the
closing quote, since what follows that one is no digit. -/
lemma find_quoted_append (tag : EntityTag) {t : Bytes}
    (ht : ∀ b ∈ t.head?, Bytes.isdigit b = false) :
    (Bytes.find own.quoted (tag.quoted ++ t)).isSome ↔
      tag.opaqueTag = own.opaqueTag ∨ (Bytes.find own.quoted t).isSome := by
  obtain ⟨b, s, hcons, hdigit⟩ := hown
  have hrest : tag.quoted ++ t = dquote :: (tag.opaqueTag ++ dquote :: t) := by
    simp [quoted]
  by_cases heq : tag.opaqueTag = own.opaqueTag
  · have hprefix : own.quoted <+: tag.quoted ++ t := by
      rw [quoted, quoted, heq]
      exact List.prefix_append _ _
    rw [Bytes.find_of_prefix hprefix]
    exact iff_of_true rfl (Or.inl heq)
  · have hopen : ¬ own.quoted <+: dquote :: (tag.opaqueTag ++ dquote :: t) := fun hprefix =>
      heq (eq_of_isPrefix own.dquote_notMem tag.dquote_notMem
        ((List.prefix_cons_inj dquote).mp hprefix)).symm
    have hclose : ¬ own.quoted <+: dquote :: t := by
      intro hprefix
      rw [quoted, hcons, List.prefix_cons_inj, List.cons_append] at hprefix
      obtain ⟨v, hv⟩ := hprefix
      have hhead := ht b (by rw [← hv]; rfl)
      rw [hdigit] at hhead
      cases hhead
    rw [hrest, Bytes.find_cons_of_mismatch hopen, quoted,
      Bytes.find_append_of_notMem _ tag.dquote_notMem, ← quoted,
      Bytes.find_cons_of_mismatch hclose]
    simp [heq]

include hown in
lemma find_print_append (tag : EntityTag) {t : Bytes}
    (ht : ∀ b ∈ t.head?, Bytes.isdigit b = false) :
    (Bytes.find own.quoted (tag.print ++ t)).isSome ↔
      tag.opaqueTag = own.opaqueTag ∨ (Bytes.find own.quoted t).isSome := by
  have hprefix : dquote ∉ (if tag.weak then bytes "W/" else []) := by
    split_ifs <;> decide
  rw [print, List.append_assoc, ← find_quoted_append hown tag ht, quoted,
    Bytes.find_append_of_notMem _ hprefix, Option.isSome_map]

end Search

end EntityTag

/-! ### Lists of tags -/

namespace TagSeparator

variable (separator : TagSeparator)

lemma dquote_notMem : dquote ∉ separator.print := by
  have hblank : ∀ s : Bytes, (∀ b ∈ s, Bytes.isblank b = true) → dquote ∉ s := fun s hs h =>
    absurd (hs _ h) (by decide)
  simp only [print, List.mem_append, not_or]
  exact ⟨⟨hblank _ separator.isblank_before, by decide⟩, hblank _ separator.isblank_after⟩

lemma isdigit_head? (t : Bytes) : ∀ b ∈ (separator.print ++ t).head?, Bytes.isdigit b = false := by
  intro b hb
  rw [print, List.append_assoc, List.append_assoc] at hb
  cases hbefore : separator.before with
  | nil =>
    rw [hbefore] at hb
    cases hb
    decide
  | cons c before =>
    rw [hbefore] at hb
    cases hb
    have hblank := separator.isblank_before b (hbefore ▸ List.mem_cons_self ..)
    rw [Bytes.isblank, Bool.or_eq_true, decide_eq_true_iff, decide_eq_true_iff] at hblank
    rcases hblank with rfl | rfl <;> decide

end TagSeparator

namespace TagCondition

variable {own : EntityTag} (hown : ∃ b s, own.opaqueTag = b :: s ∧ Bytes.isdigit b = true)

lemma isdigit_head?_printRest (rest : List (TagSeparator × EntityTag)) :
    ∀ b ∈ (printRest rest).head?, Bytes.isdigit b = false := by
  cases rest with
  | nil => exact nofun
  | cons item rest =>
    rw [printRest, List.append_assoc]
    exact item.1.isdigit_head? _

include hown in
lemma find_printRest (rest : List (TagSeparator × EntityTag)) :
    (Bytes.find own.quoted (printRest rest)).isSome ↔
      ∃ tag ∈ rest.map Prod.snd, tag.opaqueTag = own.opaqueTag := by
  induction rest with
  | nil => simp [printRest, EntityTag.quoted, Bytes.find]
  | cons item rest ih =>
    obtain ⟨separator, tag⟩ := item
    rw [printRest, List.append_assoc, EntityTag.quoted,
      Bytes.find_append_of_notMem _ separator.dquote_notMem, Option.isSome_map, ← EntityTag.quoted,
      EntityTag.find_print_append hown tag (isdigit_head?_printRest rest), ih]
    simp

include hown in
/-- On a list of tags the search for a quoted string is the comparison with each of them. -/
lemma find_print_tags (first : EntityTag) (rest : List (TagSeparator × EntityTag)) :
    (Bytes.find own.quoted (tags first rest).print).isSome ↔
      ∃ tag ∈ (tags first rest).entityTags, tag.opaqueTag = own.opaqueTag := by
  rw [print, EntityTag.find_print_append hown first (isdigit_head?_printRest rest),
    find_printRest hown]
  simp [entityTags]

lemma print_tags_ne (first : EntityTag) (rest : List (TagSeparator × EntityTag)) :
    (tags first rest).print ≠ bytes "*" := by
  intro h
  have hmem : dquote ∈ (tags first rest).print := by
    simp [print, EntityTag.print, EntityTag.quoted]
  rw [h] at hmem
  exact absurd hmem (by decide)

end TagCondition

/-! ### The tag of a file -/

namespace ConditionalRequestHandler

/-- The tag that `GenerateWeakETag` prints. -/
def weakETag (fileStat : FileStat) : EntityTag where
  weak := true
  opaqueTag := Bytes.ofNat fileStat.fileSize ++ bytes "-" ++
    Bytes.ofInt (toSeconds fileStat.lastModified)
  etagc b h := by
    have hchar : Bytes.isdigit b = true ∨ b = 45 := by
      rcases List.mem_append.mp h with h | h
      · rcases List.mem_append.mp h with h | h
        · exact Or.inl (Bytes.isdigit_of_mem_ofNat h)
        · exact Or.inr (List.mem_singleton.mp h)
      · exact Bytes.digit_or_minus_of_mem_ofInt h
    rcases hchar with hdigit | rfl
    · simp only [Bytes.isdigit, Bool.and_eq_true, decide_eq_true_eq, UInt8.le_iff_toNat_le,
        UInt8.reduceToNat] at hdigit
      simp only [isEtagc, Bool.or_eq_true, Bool.and_eq_true, decide_eq_true_eq,
        UInt8.le_iff_toNat_le, UInt8.reduceToNat]
      omega
    · decide

lemma print_weakETag (fileStat : FileStat) :
    (weakETag fileStat).print = generateWeakETag fileStat := by
  simp only [EntityTag.print, EntityTag.quoted, weakETag, generateWeakETag, if_true]
  simp [dquote, bytes]

lemma weakETag_eq_cons (fileStat : FileStat) :
    ∃ b s, (weakETag fileStat).opaqueTag = b :: s ∧ Bytes.isdigit b = true := by
  obtain ⟨b, s, h, hdigit⟩ := Bytes.ofNat_eq_cons fileStat.fileSize
  refine ⟨b, s ++ bytes "-" ++ Bytes.ofInt (toSeconds fileStat.lastModified), ?_, hdigit⟩
  simp only [weakETag, h, List.cons_append]

/-- The test for the whole tag never adds anything to that for its quoted part. -/
lemma checkIfNoneMatch_iff_find {request : HttpRequest} {fileStat : FileStat}
    (hetag : fileStat.etag = generateWeakETag fileStat) :
    checkIfNoneMatch request fileStat = true ↔
      request.getHeader (bytes "if-none-match") = bytes "*" ∨
      (Bytes.find (weakETag fileStat).quoted
        (request.getHeader (bytes "if-none-match"))).isSome := by
  have hcurrent : generateWeakETag fileStat = bytes "W/" ++ (weakETag fileStat).quoted :=
    (print_weakETag fileStat).symm
  have hlength : 3 < (generateWeakETag fileStat).length := by
    obtain ⟨b, s, h, -⟩ := weakETag_eq_cons fileStat
    rw [hcurrent, EntityTag.quoted, h]
    simp [bytes]
  rw [checkIfNoneMatch, hetag, ite_self]
  generalize request.getHeader (bytes "if-none-match") = value
  dsimp only
  by_cases hnil : value = []
  · rw [if_pos hnil, hnil]
    simp [bytes, EntityTag.quoted, Bytes.find]
  · rw [if_neg hnil]
    split_ifs with hstar hfind hweak
    · exact iff_of_true rfl (Or.inl hstar)
    · rw [hcurrent] at hfind
      exact iff_of_true rfl (Or.inr (Bytes.isSome_find_of_append hfind))
    · rw [hcurrent]
      simp only [hstar, false_or]
      rfl
    · refine absurd ⟨hlength, ?_⟩ hweak
      rw [hcurrent]
      rfl

/-- On every well-formed value the search is the weak comparison with the listed tags. -/
theorem checkIfNoneMatch_tags (value : TagCondition) {request : HttpRequest} {fileStat : FileStat}
    (hvalue : request.getHeader (bytes "if-none-match") = value.print)
    (hetag : fileStat.etag = generateWeakETag fileStat) :
    checkIfNoneMatch request fileStat = true ↔
      value = .any ∨
      ∃ tag ∈ value.entityTags, tag.opaqueTag = (weakETag fileStat).opaqueTag := by
  rw [checkIfNoneMatch_iff_find hetag, hvalue]
  cases value with
  | any => exact iff_of_true (Or.inl rfl) (Or.inl rfl)
  | tags first rest =>
    rw [TagCondition.find_print_tags (weakETag_eq_cons fileStat)]
    simp [TagCondition.print_tags_ne first rest]

/-- The value `"11-2" , W/"1-2"`, in which the tag of a file of one byte stands twice. -/
def twoTags : TagCondition :=
  .tags ⟨false, bytes "11-2", by simp [bytes, isEtagc]⟩
    [(⟨bytes " ", bytes " ", by simp [bytes, Bytes.isblank], by simp [bytes, Bytes.isblank]⟩,
      ⟨true, bytes "1-2", by simp [bytes, isEtagc]⟩)]

def twoTagsRequest : HttpRequest :=
  { path := bytes "/index.html", method := bytes "GET", version := bytes "HTTP/1.1"
    headers := [(bytes "if-none-match", twoTags.print)], isFinished := true }

theorem checkIfNoneMatch_twoTags :
    checkIfNoneMatch twoTagsRequest ⟨2000000000, 1, bytes "W/\"1-2\""⟩ = true ↔
      twoTags = .any ∨ ∃ tag ∈ twoTags.entityTags,
        tag.opaqueTag = (weakETag ⟨2000000000, 1, bytes "W/\"1-2\""⟩).opaqueTag :=
  checkIfNoneMatch_tags twoTags (by simp [twoTagsRequest, HttpRequest.getHeader]) (by decide)

/-! ### The tag of an unmodified file -/

/-- Which of the two clocks a call reads first: the language leaves the order of the operands to
the compiler. -/
inductive ReadingOrder where
  | fileClockFirst | systemClockFirst

/-- The clocks as one call reads them, with some delay between the readings. -/
structure Readings where
  order : ReadingOrder
  fileNow : ℤ
  delay : ℤ
  delay_nonneg : 0 ≤ delay

namespace Readings

/-- The time from the reading of the file clock to that of the system clock. -/
def lag (readings : Readings) : ℤ :=
  match readings.order with
  | .fileClockFirst => readings.delay
  | .systemClockFirst => -readings.delay

/-- The readings where the system clock is `offset` ahead of the file clock. -/
def clock (readings : Readings) (offset : ℤ) : Clock :=
  { fileNow := readings.fileNow
    systemNow := readings.fileNow + readings.lag + offset }

end Readings

/-- No whole second lies between the instants. The one at the epoch does not count, since the
fractions on both sides of it are cut off to zero. -/
def SameSecond (a b : ℤ) : Prop :=
  ∀ second : ℤ,
    (0 < second → (second * 1000000000 ≤ a ↔ second * 1000000000 ≤ b)) ∧
    (second < 0 → (a ≤ second * 1000000000 ↔ b ≤ second * 1000000000))

lemma toSeconds_neg (a : ℤ) : toSeconds (-a) = -toSeconds a := Int.neg_tdiv ..

lemma le_toSeconds {second a : ℤ} (h : 0 < second) :
    second ≤ toSeconds a ↔ second * 1000000000 ≤ a := by
  rcases le_or_gt 0 a with ha | ha
  · rw [toSeconds, Int.tdiv_eq_ediv_of_nonneg ha]
    omega
  · have hneg : 0 ≤ toSeconds (-a) := Int.tdiv_nonneg (by omega) (by decide)
    rw [toSeconds_neg] at hneg
    omega

lemma toSeconds_le {second a : ℤ} (h : second < 0) :
    toSeconds a ≤ second ↔ a ≤ second * 1000000000 := by
  have hneg : -second ≤ toSeconds (-a) ↔ -second * 1000000000 ≤ -a := le_toSeconds (by omega)
  rw [toSeconds_neg] at hneg
  omega

lemma toSeconds_eq_iff (a b : ℤ) : toSeconds a = toSeconds b ↔ SameSecond a b := by
  constructor
  · intro h second
    refine ⟨fun hpos => ?_, fun hneg => ?_⟩
    · rw [← le_toSeconds hpos, ← le_toSeconds hpos, h]
    · rw [← toSeconds_le hneg, ← toSeconds_le hneg, h]
  · intro h
    have hle : ∀ {a b : ℤ}, SameSecond a b → toSeconds b ≤ toSeconds a := by
      intro a b h
      by_contra! hlt
      rcases lt_or_ge 0 (toSeconds b) with hpos | hnonpos
      · have hb := (le_toSeconds hpos).mp le_rfl
        have ha := (le_toSeconds hpos).mpr (((h (toSeconds b)).1 hpos).mpr hb)
        omega
      · have hneg : toSeconds a < 0 := by omega
        have ha := (toSeconds_le hneg).mp le_rfl
        have hb := (toSeconds_le hneg).mpr (((h (toSeconds a)).2 hneg).mp ha)
        omega
    have hsymm : SameSecond b a := fun second =>
      ⟨fun hpos => ((h second).1 hpos).symm, fun hneg => ((h second).2 hneg).symm⟩
    exact le_antisymm (hle hsymm) (hle h)

/-- What a call reports for a regular file. -/
lemma getFileStat_regular {disk : Disk} {path : Bytes} {file : File}
    (hfile : disk (Bytes.cstr path) = .regular file) (readings : Readings) (offset : ℤ) :
    (getFileStat disk (readings.clock offset) path).1.map (·.etag) =
      some (generateWeakETag
        ⟨file.lastWriteTime + offset + readings.lag, file.content.length, []⟩) := by
  have hmodified : file.lastWriteTime - readings.fileNow +
      (readings.fileNow + readings.lag + offset) =
        file.lastWriteTime + offset + readings.lag := by
    ring
  simp only [getFileStat, Disk.existingFile, hfile, Readings.clock, hmodified, Option.map_some]

lemma generateWeakETag_eq_iff (a b : ℤ) (size : ℕ) (etag etag' : Bytes) :
    generateWeakETag ⟨a, size, etag⟩ = generateWeakETag ⟨b, size, etag'⟩ ↔
      toSeconds a = toSeconds b := by
  simp only [generateWeakETag, List.append_cancel_right_eq, List.append_cancel_left_eq]
  exact Bytes.ofInt_injective.eq_iff

/-- Two calls give a file that was not modified between them the same tag, if and only if its
modification time, shifted by the time between the readings of either call, falls into the same
second of the system clock. -/
theorem etag_stable_iff {disk disk' : Disk} {path : Bytes} {file : File}
    (hfile : disk (Bytes.cstr path) = .regular file)
    (hfile' : disk' (Bytes.cstr path) = .regular file) (offset : ℤ) (first second : Readings) :
    (getFileStat disk (first.clock offset) path).1.map (·.etag) =
        (getFileStat disk' (second.clock offset) path).1.map (·.etag) ↔
      SameSecond (file.lastWriteTime + offset + first.lag)
        (file.lastWriteTime + offset + second.lag) := by
  rw [getFileStat_regular hfile, getFileStat_regular hfile', Option.some_inj,
    generateWeakETag_eq_iff, toSeconds_eq_iff]

/-- A file that was last written at the turn of a second. -/
def punctualFile : File := ⟨bytes "x", 2000000000, true⟩

/-- A file that was last written just before the end of a second. -/
def lateFile : File := ⟨bytes "x", 1999999999, true⟩

def atOnce (order : ReadingOrder) : Readings := ⟨order, 5000000000, 0, by decide⟩

/-- A later call, with one nanosecond between the two readings. -/
def delayed (order : ReadingOrder) : Readings := ⟨order, 6000000000, 1, by decide⟩

theorem etag_stable_lateFile :
    (getFileStat (fun _ => .regular lateFile) ((atOnce .systemClockFirst).clock 0)
        (bytes "a")).1.map (·.etag) =
      (getFileStat (fun _ => .regular lateFile) ((delayed .systemClockFirst).clock 0)
        (bytes "a")).1.map (·.etag) ↔
      SameSecond (1999999999 + 0 + 0) (1999999999 + 0 + -1) :=
  @etag_stable_iff _ _ _ lateFile rfl rfl 0 (atOnce .systemClockFirst) (delayed .systemClockFirst)

/-- One nanosecond between the two readings, and the tag is another one, whichever clock is read
first. -/
theorem etag_changes :
    (getFileStat (fun _ => .regular punctualFile) ((atOnce .systemClockFirst).clock 0)
        (bytes "a")).1.map (·.etag) ≠
      (getFileStat (fun _ => .regular punctualFile) ((delayed .systemClockFirst).clock 0)
        (bytes "a")).1.map (·.etag) ∧
    (getFileStat (fun _ => .regular lateFile) ((atOnce .fileClockFirst).clock 0)
        (bytes "a")).1.map (·.etag) ≠
      (getFileStat (fun _ => .regular lateFile) ((delayed .fileClockFirst).clock 0)
        (bytes "a")).1.map (·.etag) := by
  decide

end ConditionalRequestHandler

end TinyWebServer
