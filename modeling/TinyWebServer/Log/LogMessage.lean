import TinyWebServer.Http.Request

/-!
# Formatting a log message

`Logger::Log` formats a message into a buffer of 4096 bytes on the stack, puts a newline behind it
and passes the line on to the asynchronous logger. The model notes each place of the buffer, or
behind it, that is read or written once `vsnprintf` has returned.
-/

namespace TinyWebServer

open Bytes

inductive LogLevel where
  | debug
  | info
  | warn
  | error
  | fatal
  deriving DecidableEq

namespace LogLevel

def toNat : LogLevel → ℕ
  | debug => 0
  | info => 1
  | warn => 2
  | error => 3
  | fatal => 4

def levelToString : LogLevel → Bytes
  | debug => bytes "DEBUG"
  | info => bytes "INFO "
  | warn => bytes "WARN "
  | error => bytes "ERROR"
  | fatal => bytes "FATAL"

end LogLevel

/-- What `strrchr` finds behind the last `c`. -/
def behindLast (c : UInt8) (s : Bytes) : Option Bytes :=
  if c ∈ s then some (s.rtakeWhile (· != c)) else none

/-- The name of the source file without its directories. -/
def logFilename (file : Bytes) : Bytes :=
  ((behindLast slash file).or (behindLast 92 file)).getD file

/-- The front of the log line, cut to the 511 bytes that fit its buffer with a NUL. -/
def logPrefix (currentTime : Bytes) (level : LogLevel) (file : Bytes) (line : ℤ) : Bytes :=
  (bytes "[" ++ currentTime ++ bytes "] [" ++ level.levelToString ++ bytes "] [" ++
    logFilename file ++ bytes ":" ++ ofInt line ++ bytes "] ").take 511

/-- `sizeof(message)`. -/
def messageSize : ℕ := 4096

/-- What `vsnprintf` leaves on the stack, from the start of `message` on: as much of the text as
fits, and a NUL. -/
def vsnprintf (text : Bytes) (stack : ℕ → UInt8) (i : ℕ) : UInt8 :=
  if i < min text.length (messageSize - 1) then text.getD i 0
  else if i = min text.length (messageSize - 1) then 0
  else stack i

/-- The test in front of the newline that `Log` writes. -/
def LacksNewline (message : ℕ → UInt8) (len : ℕ) : Prop := len = 0 ∨ message (len - 1) ≠ lf

instance (message : ℕ → UInt8) (len : ℕ) : Decidable (LacksNewline message len) :=
  inferInstanceAs (Decidable (_ ∨ _))

/-- The newline and the NUL behind the text, where it has no newline. -/
def endLine (message : ℕ → UInt8) (len : ℕ) : ℕ → UInt8 :=
  if LacksNewline message len then
    Function.update (Function.update message len lf) (len + 1) 0
  else message

/-- What `std::string` takes from the buffer: the bytes in front of the first NUL. -/
def messageString (message : ℕ → UInt8) : Bytes := cstr ((List.range messageSize).map message)

/-- What a call of `Log` does: the places of `message` that it reads or writes, the line that it
appends, and whether it flushes. -/
structure LogEffect where
  accesses : List ℕ
  appended : Option Bytes
  flushed : Bool

structure Logger where
  /-- `Init` has made the asynchronous logger. -/
  impl : Bool
  minLevel : LogLevel

namespace Logger

/-- The call returns at once. -/
def Ignores (l : Logger) (level : LogLevel) : Prop :=
  l.impl = false ∨ level.toNat < l.minLevel.toNat

instance (l : Logger) (level : LogLevel) : Decidable (l.Ignores level) :=
  inferInstanceAs (Decidable (_ ∨ _))

/-- `Log`, where the text is what the format and its arguments come to. `vsnprintf` reports the
length of the whole text, or an error if no `int` has it. -/
def log (l : Logger) (stack : ℕ → UInt8) (currentTime : Bytes) (level : LogLevel) (file : Bytes)
    (line : ℤ) (text : Bytes) : LogEffect :=
  if l.Ignores level then ⟨[], none, false⟩
  else if 2 ^ 31 ≤ text.length then ⟨[], none, false⟩
  else
    let message := vsnprintf text stack
    let len := text.length
    let tested := if len = 0 then [] else [len - 1]
    let written := if LacksNewline message len then [len, len + 1] else []
    let content := messageString (endLine message len)
    -- The string constructor also reads the NUL, in the buffer or behind it.
    { accesses := tested ++ written ++ List.range (content.length + 1)
      appended := some (logPrefix currentTime level file line ++ content)
      flushed := level = .fatal }

end Logger

/-! ### The text in the buffer -/

section Buffer

variable {text : Bytes} {message stack : ℕ → UInt8}

lemma vsnprintf_end {i : ℕ} (h : i = min text.length (messageSize - 1)) :
    vsnprintf text stack i = 0 := by
  rw [vsnprintf, if_neg (by omega), if_pos h]

lemma vsnprintf_last (hne : text ≠ []) (hfits : text.length < messageSize) :
    vsnprintf text stack (text.length - 1) = text.getLast hne := by
  have hpos := List.length_pos_iff.mpr hne
  rw [vsnprintf, if_pos (by omega), List.getD_eq_getElem _ _ (by omega),
    List.getLast_eq_getElem hne]

lemma length_messageString_lt {i : ℕ} (hi : i < messageSize) (h : message i = 0) :
    (messageString message).length < messageSize := by
  have hle : (messageString message).length ≤ ((List.range messageSize).map message).length :=
    (List.takeWhile_prefix _).length_le
  rw [List.length_map, List.length_range] at hle
  refine lt_of_le_of_ne hle fun heq => ?_
  have hall : messageString message = (List.range messageSize).map message := by
    refine (List.takeWhile_prefix _).eq_of_length ?_
    rw [List.length_map, List.length_range]
    exact heq
  have hmem : message i ∈ messageString message := by
    rw [hall]
    exact List.mem_map_of_mem (List.mem_range.mpr hi)
  have hne := List.mem_takeWhile_imp hmem
  rw [h] at hne
  simp at hne

lemma endLine_of_lacks {len : ℕ} (h : LacksNewline message len) :
    endLine message len (len + 1) = 0 := by
  rw [endLine, if_pos h, Function.update_self]

/-- The newline of a text of 4095 bytes is its last one. -/
lemma lacksNewline_iff_of_fits (hne : text ≠ []) (hfits : text.length < messageSize) :
    LacksNewline (vsnprintf text stack) text.length ↔ text.getLast? ≠ some lf := by
  rw [LacksNewline, vsnprintf_last hne hfits, List.getLast?_eq_some_getLast hne, ne_eq, ne_eq,
    Option.some.injEq]
  simp [hne]

/-- A text that is cut by one byte ends with the NUL in the buffer. -/
lemma lacksNewline_of_cut (h : text.length = messageSize) :
    LacksNewline (vsnprintf text stack) text.length := by
  refine Or.inr ?_
  rw [vsnprintf_end (by omega)]
  decide

end Buffer

namespace Logger

/-- The newline and the NUL behind the text fit the buffer, or it has a newline and just fits. -/
def Fits (text : Bytes) : Prop :=
  text.length < messageSize - 1 ∨ text.length = messageSize - 1 ∧ text.getLast? = some lf

variable (l : Logger) (stack : ℕ → UInt8) (currentTime : Bytes) (level : LogLevel) (file : Bytes)
  (line : ℤ) {text : Bytes}

lemma mem_accesses_iff (hlevel : ¬ l.Ignores level) (hlen : text.length < 2 ^ 31) (i : ℕ) :
    i ∈ (l.log stack currentTime level file line text).accesses ↔
      text.length ≠ 0 ∧ i = text.length - 1 ∨
      LacksNewline (vsnprintf text stack) text.length ∧
        (i = text.length ∨ i = text.length + 1) ∨
      i < (messageString (endLine (vsnprintf text stack) text.length)).length + 1 := by
  rw [log, if_neg hlevel, if_neg (by omega)]
  simp only [List.mem_append, List.mem_range, or_assoc]
  refine or_congr ?_ (or_congr ?_ Iff.rfl)
  · split_ifs with hempty
    · simp [hempty]
    · simp [hempty]
  · split_ifs with hlacks
    · simp [hlacks]
    · simp [hlacks]

lemma Fits.length_lt (hfits : Fits text) : text.length < messageSize := by
  rcases hfits with hshort | ⟨hlength, -⟩
  · omega
  · rw [hlength, messageSize]
    decide

/-- Where a newline is written, there is room for it. -/
lemma Fits.length_lt_of_lacks (hfits : Fits text)
    (hlacks : LacksNewline (vsnprintf text stack) text.length) :
    text.length + 1 < messageSize := by
  rcases hfits with hshort | ⟨hlength, hlast⟩
  · omega
  · have hne : text ≠ [] := by
      rintro rfl
      simp at hlast
    have hlt : text.length < messageSize := Fits.length_lt (Or.inr ⟨hlength, hlast⟩)
    exact absurd hlast ((lacksNewline_iff_of_fits hne hlt).mp hlacks)

lemma Fits.string_lt (hfits : Fits text) :
    (messageString (endLine (vsnprintf text stack) text.length)).length < messageSize := by
  by_cases hlacks : LacksNewline (vsnprintf text stack) text.length
  · exact length_messageString_lt (hfits.length_lt_of_lacks stack hlacks) (endLine_of_lacks hlacks)
  · have hlt := hfits.length_lt
    refine length_messageString_lt hlt ?_
    rw [endLine, if_neg hlacks]
    exact vsnprintf_end (by omega)

lemma inBounds_iff_fits (hlevel : ¬ l.Ignores level) (hlen : text.length < 2 ^ 31) :
    (∀ i ∈ (l.log stack currentTime level file line text).accesses, i < messageSize) ↔
      Fits text := by
  simp only [mem_accesses_iff l stack currentTime level file line hlevel hlen]
  constructor
  · intro hall
    by_contra hlong
    rw [Fits, not_or, not_and, not_lt] at hlong
    obtain ⟨hlong, hlast⟩ := hlong
    have hnewline : ¬ LacksNewline (vsnprintf text stack) text.length := by
      intro hlacks
      have hlt := hall (text.length + 1) (Or.inr (Or.inl ⟨hlacks, Or.inr rfl⟩))
      omega
    have hpos : text.length ≠ 0 := by
      rw [messageSize] at hlong
      omega
    have hlt := hall (text.length - 1) (Or.inl ⟨hpos, rfl⟩)
    rcases (show text.length = messageSize - 1 ∨ text.length = messageSize by omega) with h | h
    · have hne : text ≠ [] := List.ne_nil_of_length_pos (Nat.pos_of_ne_zero hpos)
      exact hnewline ((lacksNewline_iff_of_fits hne (by omega)).mpr (hlast h))
    · exact hnewline (lacksNewline_of_cut h)
  · rintro hfits i (⟨-, rfl⟩ | ⟨hlacks, hi⟩ | hi)
    · have hlt := hfits.length_lt
      omega
    · have hlt := hfits.length_lt_of_lacks stack hlacks
      omega
    · have hlt := hfits.string_lt stack
      omega

/-- `Log` keeps to its buffer if and only if it formats nothing or the text and its newline fit. -/
theorem inBounds_iff (text : Bytes) :
    (∀ i ∈ (l.log stack currentTime level file line text).accesses, i < messageSize) ↔
      l.Ignores level ∨ 2 ^ 31 ≤ text.length ∨ Fits text := by
  by_cases hlevel : l.Ignores level
  · rw [log, if_pos hlevel]
    exact iff_of_true (by simp) (Or.inl hlevel)
  · by_cases hlen : 2 ^ 31 ≤ text.length
    · rw [log, if_neg hlevel, if_pos hlen]
      exact iff_of_true (by simp) (Or.inr (Or.inl hlen))
    · rw [inBounds_iff_fits l stack currentTime level file line hlevel (not_le.mp hlen)]
      rw [or_iff_right hlevel, or_iff_right hlen]

/-! ### What a client can do -/

/-- What `HttpRequest::Parse` logs for a header line that it refuses. -/
def invalidHeaderText (headerLine : Bytes) : Bytes :=
  bytes "Invalid header line: " ++ cstr headerLine

/-- A header line of 4080 bytes without a colon. -/
def longLine : Bytes := List.replicate 4080 120

/-- The parser refuses the line, and the line that it logs overruns the buffer. -/
theorem not_inBounds_longLine :
    (HttpRequest.reset.parseHeaderLine longLine).1 = false ∧
      ¬ ∀ i ∈ ((⟨true, .info⟩ : Logger).log (fun _ => 0) [] .error (bytes "src/http_request.cpp")
        42 (invalidHeaderText longLine)).accesses, i < messageSize := by
  have hnul : (0 : UInt8) ∉ longLine := by
    intro hmem
    exact absurd (List.eq_of_mem_replicate hmem) (by decide)
  have hcolon : (58 : UInt8) ∉ longLine := by
    intro hmem
    exact absurd (List.eq_of_mem_replicate hmem) (by decide)
  have hlength : (invalidHeaderText longLine).length = 4101 := by
    rw [invalidHeaderText, cstr_of_notMem hnul, List.length_append, longLine,
      List.length_replicate]
    rfl
  refine ⟨?_, ?_⟩
  · rw [HttpRequest.parseHeaderLine, findByte_of_notMem hcolon]
  · rw [inBounds_iff_fits _ _ _ _ _ _ (by decide) (by rw [hlength]; norm_num), Fits, hlength,
      messageSize]
    decide

end Logger

end TinyWebServer
