import TinyWebServer.Http.Request

/-!
# Requests on the wire

Well-formed requests as they are sent, and what the parser reads of them.
-/

namespace TinyWebServer

open Bytes

/-- A header field as it stands on its line; blanks around the name and the value belong to it. -/
structure WireField where
  name : Bytes
  value : Bytes
  name_plain : ∀ b ∈ name, b ≠ 58 ∧ b ≠ cr ∧ b ≠ lf
  value_plain : ∀ b ∈ value, b ≠ cr ∧ b ≠ lf

namespace WireField

def line (field : WireField) : Bytes := field.name ++ 58 :: field.value

/-- The key and the value that a reader takes from the line. -/
def entry (field : WireField) : Bytes × Bytes :=
  ((trim field.name).map tolower, trim field.value)

end WireField

/-- The request line and the header fields. -/
structure WireHead where
  method : Bytes
  path : Bytes
  version : Bytes
  fields : List WireField
  method_word : IsWord method
  path_word : IsWord path
  version_word : IsWord version

namespace WireHead

def requestLine (head : WireHead) : Bytes :=
  head.method ++ 32 :: (head.path ++ 32 :: head.version)

def lines (head : WireHead) : List Bytes := head.requestLine :: head.fields.map WireField.line

/-- The lines without the empty one that ends them. -/
def text (head : WireHead) : Bytes := List.intercalate crlf head.lines

def print (head : WireHead) : Bytes := head.text ++ headEnd

/-- What a reader takes from the head; `/` stands for the index page. -/
def request (head : WireHead) : HttpRequest :=
  { path := if head.path = bytes "/" then bytes "/index.html" else head.path
    method := head.method
    version := head.version
    headers := HttpRequest.insertAll [] (head.fields.map WireField.entry)
    isFinished := true }

end WireHead

/-- A head and the body that it announces; without a body it need not announce one. -/
structure WireRequest extends WireHead where
  body : Bytes
  announced : toWireHead.request.getContentLength = body.length ∨
    body = [] ∧ toWireHead.request.headers.lookup (bytes "content-length") = none

namespace WireRequest

def printAll (requests : List WireRequest) : Bytes :=
  requests.flatMap fun request => request.print ++ request.body

lemma printAll_cons (request : WireRequest) (requests : List WireRequest) :
    printAll (request :: requests) = request.print ++ (request.body ++ printAll requests) := by
  simp [printAll]

lemma length_printAll_le {requests requests' : List WireRequest} (h : requests <:+ requests') :
    (printAll requests).length ≤ (printAll requests').length := by
  obtain ⟨front, rfl⟩ := h
  simp [printAll]

end WireRequest

/-! ### Reading a head -/

lemma WireField.isLine_line (field : WireField) : IsLine field.line where
  ne_nil := by simp [line]
  no_cr := by
    intro hmem
    rcases List.mem_append.mp hmem with hmem | hmem
    · exact (field.name_plain _ hmem).2.1 rfl
    · rcases List.mem_cons.mp hmem with hcolon | hmem
      · simp [cr] at hcolon
      · exact (field.value_plain _ hmem).1 rfl
  no_lf := by
    intro hmem
    rcases List.mem_append.mp hmem with hmem | hmem
    · exact (field.name_plain _ hmem).2.2 rfl
    · rcases List.mem_cons.mp hmem with hcolon | hmem
      · simp [lf] at hcolon
      · exact (field.value_plain _ hmem).2 rfl

namespace WireHead

lemma notMem_requestLine (head : WireHead) {b : UInt8} (hspace : isspace b = true)
    (hb : b ≠ 32) : b ∉ head.requestLine := by
  have hmethod := head.method_word.notMem hspace
  have hpath := head.path_word.notMem hspace
  have hversion := head.version_word.notMem hspace
  simp [requestLine, hmethod, hpath, hversion, hb]

lemma isLine_of_mem_lines {head : WireHead} {line : Bytes} (h : line ∈ head.lines) :
    IsLine line := by
  rcases List.mem_cons.mp h with rfl | h
  · refine ⟨?_, notMem_requestLine head rfl (by decide), notMem_requestLine head rfl (by decide)⟩
    simp [requestLine]
  · obtain ⟨field, -, rfl⟩ := List.mem_map.mp h
    exact field.isLine_line

lemma find_print (head : WireHead) (rest : Bytes) :
    find headEnd (head.print ++ rest) = some head.text.length := by
  rw [print, List.append_assoc]
  exact find_intercalate_crlf (List.cons_ne_nil _ _) (fun _ => isLine_of_mem_lines) rest

lemma drop_print (head : WireHead) (rest : Bytes) :
    (head.print ++ rest).drop (head.text.length + 4) = rest := by
  have hlen : head.text.length + 4 = head.print.length := by
    simp [print, headEnd, crlf]
  rw [hlen, List.drop_left]

lemma parseRequestLine_requestLine (head : WireHead) (r : HttpRequest) :
    r.parseRequestLine head.requestLine =
      (true, { r with
        method := head.method
        path := head.request.path
        version := head.version }) := by
  have hmethod : extract head.requestLine =
      some (head.method, 32 :: (head.path ++ 32 :: head.version)) :=
    extract_append head.method_word.1 head.method_word.2 (by simp [isspace])
  have hpath : extract (32 :: (head.path ++ 32 :: head.version)) =
      some (head.path, 32 :: head.version) := by
    rw [extract_cons_of_isspace rfl]
    exact extract_append head.path_word.1 head.path_word.2 (by simp [isspace])
  have hversion : extract (32 :: head.version) = some (head.version, []) := by
    have hword := extract_append head.version_word.1 head.version_word.2 (s := []) (by simp)
    rwa [List.append_nil, ← extract_cons_of_isspace (b := 32) rfl] at hword
  simp only [HttpRequest.parseRequestLine, hmethod, hpath, hversion, head.path_word.1, false_or,
    request]

end WireHead

lemma parseHeaderLine_line (field : WireField) (r : HttpRequest) :
    r.parseHeaderLine field.line =
      (true, { r with headers := insertHeader r.headers field.entry.1 field.entry.2 }) := by
  have hcolon : findByte 58 field.line = some field.name.length :=
    findByte_append_cons _ fun hmem => (field.name_plain _ hmem).1 rfl
  simp only [HttpRequest.parseHeaderLine, hcolon]
  simp [WireField.line, WireField.entry]

/-- Header lines with or without their carriage returns. -/
lemma parseHeaderLines_lines {lines : List Bytes} {fields : List WireField}
    (h : lines.map popCr = fields.map WireField.line) (r : HttpRequest) :
    r.parseHeaderLines lines =
      (true, { r with headers := HttpRequest.insertAll r.headers (fields.map WireField.entry) }) := by
  induction fields generalizing lines r with
  | nil =>
    rw [List.map_eq_nil_iff.mp h]
    rfl
  | cons field fields ih =>
    cases lines with
    | nil => simp at h
    | cons line lines =>
      obtain ⟨hline, hlines⟩ := List.cons.inj h
      rw [HttpRequest.parseHeaderLines]
      simp only [hline, if_neg field.isLine_line.ne_nil, parseHeaderLine_line, if_true, ih hlines]
      rfl

/-- The parser reads back the head that was sent, whatever comes behind it. -/
theorem parse_print (head : WireHead) (rest : Bytes) :
    HttpRequest.reset.parse (head.print ++ rest) = (true, head.request) := by
  have htake : (head.print ++ rest).take head.text.length = head.text := by
    rw [WireHead.print, List.append_assoc, List.take_left]
  have hread : (getlines lf head.text).map popCr = head.lines :=
    map_popCr_getlines fun _ => WireHead.isLine_of_mem_lines
  rw [HttpRequest.parse, WireHead.find_print]
  simp only [htake]
  cases hlines : getlines lf head.text with
  | nil => simp [hlines, WireHead.lines] at hread
  | cons line lines =>
    rw [hlines, WireHead.lines] at hread
    obtain ⟨hline, hfields⟩ := List.cons.inj hread
    simp only [HttpRequest.parseLines, hline, WireHead.parseRequestLine_requestLine,
      parseHeaderLines_lines hfields]
    rfl

end TinyWebServer
