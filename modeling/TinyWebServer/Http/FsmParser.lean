import TinyWebServer.Http.Request
import TinyWebServer.Library.ParseLoop

/-!
# The incremental parser

`HttpParser` keeps the bytes that it has not taken yet and reads lines off their front whenever
more arrive. Header names and values stay as they stand on their lines.
-/

namespace TinyWebServer

open Bytes ParseLoop

inductive ParseState where
  | kRequestLine
  | kHeaders
  | kDone
  | kError
  deriving DecidableEq

/-- What the parser has read. -/
structure ParsedHead where
  state : ParseState
  method : Bytes
  url : Bytes
  version : Bytes
  headers : List (Bytes × Bytes)
  deriving DecidableEq

namespace ParsedHead

/-- Each extraction of `iss >> method_ >> url_ >> version_` that succeeds assigns its word. -/
def parseRequestLine (head : ParsedHead) (line : Bytes) : Bool × ParsedHead :=
  match extract line with
  | none => (false, head)
  | some (method, line) =>
    let head := { head with method := method }
    match extract line with
    | none => (false, head)
    | some (url, line) =>
      let head := { head with url := url }
      match extract line with
      | none => (false, head)
      | some (version, _) => (true, { head with version := version, state := .kHeaders })

def parseHeaderLine (head : ParsedHead) (line : Bytes) : Bool × ParsedHead :=
  match findByte 58 line with
  | none => (false, head)
  | some pos =>
    (true, { head with headers := insertHeader head.headers (line.take pos) (line.drop (pos + 1)) })

/-- A line that is refused leaves the parser in an error, with what it has assigned before. -/
def accept (result : Bool × ParsedHead) : ParsedHead :=
  if result.1 then result.2 else { result.2 with state := .kError }

/-- What the loop does with a line. -/
def takeLine (head : ParsedHead) (line : Bytes) : ParsedHead :=
  match head.state with
  | .kRequestLine => accept (head.parseRequestLine line)
  | .kHeaders =>
    if line = [] then { head with state := .kDone } else accept (head.parseHeaderLine line)
  | _ => head

def Stopped (head : ParsedHead) : Prop := head.state = .kDone ∨ head.state = .kError

instance (head : ParsedHead) : Decidable head.Stopped := inferInstanceAs (Decidable (_ ∨ _))

end ParsedHead

structure HttpParser where
  head : ParsedHead
  buffer : Bytes
  deriving DecidableEq

namespace HttpParser

def new : HttpParser := ⟨⟨.kRequestLine, [], [], [], []⟩, []⟩

/-- The line in front of the first CRLF, and what the buffer keeps. -/
def getLine (buffer : Bytes) : Option (Bytes × Bytes) :=
  match find crlf buffer with
  | none => none
  | some pos => some (buffer.take pos, buffer.drop (pos + 2))

lemma getLine_eq_some {buffer line rest : Bytes} (h : getLine buffer = some (line, rest)) :
    ∃ pos, find crlf buffer = some pos ∧ pos + 2 ≤ buffer.length ∧ line = buffer.take pos ∧
      rest = buffer.drop (pos + 2) := by
  rw [getLine] at h
  cases hfind : find crlf buffer with
  | none => simp [hfind] at h
  | some pos =>
    simp only [hfind, Option.some.injEq, Prod.mk.injEq] at h
    exact ⟨pos, rfl, find_add_length_le hfind, h.1.symm, h.2.symm⟩

/-- The loop of `Parse`. -/
def parseLoop (p : HttpParser) : HttpParser :=
  if p.head.Stopped then p
  else
    match _h : getLine p.buffer with
    | none => p
    | some (line, rest) => parseLoop ⟨p.head.takeLine line, rest⟩
termination_by p.buffer.length
decreasing_by
  obtain ⟨pos, -, hpos, -, rfl⟩ := getLine_eq_some _h
  simp only [List.length_drop]
  omega

/-- Every return statement of `Parse` says whether the parser is done. -/
def parse (p : HttpParser) (data : Bytes) : Bool × HttpParser :=
  let p := parseLoop { p with buffer := p.buffer ++ data }
  (p.head.state = .kDone, p)

/-- One piece after another, with what each call returns. -/
def parseAll (p : HttpParser) : List Bytes → List Bool × HttpParser
  | [] => ([], p)
  | piece :: pieces =>
    let (result, p) := p.parse piece
    let (results, p) := p.parseAll pieces
    (result :: results, p)

/-! ### The loop as a machine -/

/-- A turn takes a line, unless the parser has stopped or there is none. -/
def turn (head : ParsedHead) (buffer : Bytes) : Turn ParsedHead Empty :=
  if head.Stopped then .wait
  else
    match find crlf buffer with
    | none => .wait
    | some pos => .consume (pos + 2) (head.takeLine (buffer.take pos))

lemma turn_consume {head head' : ParsedHead} {buffer : Bytes} {n : ℕ}
    (h : turn head buffer = .consume n head') :
    ¬ head.Stopped ∧ ∃ pos, find crlf buffer = some pos ∧ n = pos + 2 ∧ n ≤ buffer.length ∧
      head' = head.takeLine (buffer.take pos) := by
  rw [turn] at h
  split_ifs at h with hstopped
  cases hfind : find crlf buffer with
  | none => simp [hfind] at h
  | some pos =>
    simp only [hfind, Turn.consume.injEq] at h
    obtain ⟨rfl, rfl⟩ := h
    exact ⟨hstopped, pos, rfl, rfl, find_add_length_le hfind, rfl⟩

/-- A line that has been found is not found elsewhere when more bytes arrive. -/
def machine : Machine ParsedHead UInt8 Empty where
  turn := turn
  consume_pos h := by
    obtain ⟨-, pos, -, rfl, hle, -⟩ := turn_consume h
    exact ⟨by omega, hle⟩
  consume_append {_ buffer _ _} more h := by
    obtain ⟨hstopped, pos, hfind, rfl, hle, rfl⟩ := turn_consume h
    have htake : (buffer ++ more).take pos = buffer.take pos :=
      List.take_append_of_le_length (by omega)
    rw [turn, if_neg hstopped, find_append more hfind]
    dsimp only
    rw [htake]
  fail_append {_ _ e} _ _ := e.elim

/-- The parser where a run of the machine stopped. -/
def ofOutcome (o : Outcome ParsedHead UInt8 Empty) : HttpParser := ⟨o.state, o.rest⟩

lemma parseLoop_eq (head : ParsedHead) (buffer : Bytes) :
    parseLoop ⟨head, buffer⟩ = ofOutcome (machine.drain head buffer) := by
  induction head, buffer using machine.drain_induction with
  | wait head buffer h =>
    rw [machine.drain_of_wait h, parseLoop]
    split_ifs with hstopped
    · rfl
    · change turn head buffer = .wait at h
      rw [turn, if_neg hstopped] at h
      cases hfind : find crlf buffer with
      | none =>
        have hline : getLine buffer = none := by simp [getLine, hfind]
        split
        · rfl
        · simp_all
      | some pos => simp [hfind] at h
  | fail head buffer e h => exact e.elim
  | consume head buffer n head' h ih =>
    obtain ⟨hstopped, pos, hfind, rfl, -, rfl⟩ := turn_consume h
    have hline : getLine buffer = some (buffer.take pos, buffer.drop (pos + 2)) := by
      simp [getLine, hfind]
    rw [machine.drain_of_consume h, ← ih, parseLoop, if_neg hstopped]
    split
    · simp_all
    · simp_all

/-- A call feeds the machine. -/
lemma parse_ofOutcome (o : Outcome ParsedHead UInt8 Empty) (data : Bytes) :
    ((ofOutcome o).parse data).2 = ofOutcome (machine.feed o data) :=
  parseLoop_eq o.state (o.rest ++ data)

lemma parseAll_ofOutcome (o : Outcome ParsedHead UInt8 Empty) (pieces : List Bytes) :
    ((ofOutcome o).parseAll pieces).2 = ofOutcome (pieces.foldl machine.feed o) := by
  induction pieces generalizing o with
  | nil => rfl
  | cons piece pieces ih =>
    simp only [parseAll, List.foldl_cons, ← ih, parse_ofOutcome]

/-- The last call says whether the parser is done in the end. -/
lemma getLast?_parseAll (p : HttpParser) (first : Bytes) (rest : List Bytes) :
    (p.parseAll (first :: rest)).1.getLast? =
      some (decide ((p.parseAll (first :: rest)).2.head.state = .kDone)) := by
  induction rest generalizing p first with
  | nil => rfl
  | cons second rest ih =>
    have hlast := ih (p.parse first).2 second
    exact List.getLast?_cons_cons.trans hlast

/-- However a text is cut, the pieces together lead the parser where the whole text leads it, and
the last call returns what the one call returns. -/
theorem parseAll_eq_parse (first : Bytes) (rest : List Bytes) :
    (new.parseAll (first :: rest)).2 = (new.parse (first :: rest).flatten).2 ∧
      (new.parseAll (first :: rest)).1.getLast? = some (new.parse (first :: rest).flatten).1 := by
  have hsame : (new.parseAll (first :: rest)).2 = (new.parse (first :: rest).flatten).2 := by
    have hnew : new = ofOutcome ⟨new.head, [], none⟩ := rfl
    rw [hnew, parseAll_ofOutcome, parse_ofOutcome,
      machine.foldl_feed _ (List.cons_ne_nil first rest)]
  refine ⟨hsame, ?_⟩
  rw [getLast?_parseAll, hsame]
  rfl

end HttpParser

end TinyWebServer
