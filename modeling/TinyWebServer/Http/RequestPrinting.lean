import TinyWebServer.Http.Wire

/-!
# Printing requests

Requests as a client prints them, with one blank between a header's colon and its value, and what
the parser makes of the text.
-/

namespace TinyWebServer

open Bytes

/-- No blank comes first or last. -/
def Bare (s : Bytes) : Prop := ∀ b, s.head? = some b ∨ s.getLast? = some b → isblank b = false

structure PlainField where
  name : Bytes
  value : Bytes
  name_ne_nil : name ≠ []
  name_plain : ∀ b ∈ name, b ≠ 58 ∧ b ≠ cr ∧ b ≠ lf
  name_bare : Bare name
  value_plain : ∀ b ∈ value, b ≠ cr ∧ b ≠ lf
  value_bare : Bare value

namespace PlainField

def print (field : PlainField) : Bytes :=
  field.name ++ [58] ++ [32] ++ field.value ++ crlf

/-- The lower-cased name and the value. -/
def entry (field : PlainField) : Bytes × Bytes := (field.name.map tolower, field.value)

end PlainField

/-- No two of the headers have the same name, however it is spelled. -/
structure PlainRequest where
  method : Bytes
  path : Bytes
  version : Bytes
  fields : List PlainField
  method_word : IsWord method
  path_word : IsWord path
  version_word : IsWord version
  distinct : (fields.map fun field => field.entry.1).Nodup

def PlainRequest.print (request : PlainRequest) : Bytes :=
  request.method ++ [32] ++ request.path ++ [32] ++ request.version ++ crlf ++
    request.fields.flatMap PlainField.print ++ crlf

/-- `Parse(std::string& buffer)` with the buffer it leaves, which it only looks at. -/
def HttpRequest.parseBuffer (r : HttpRequest) (buffer : Bytes) : Bool × HttpRequest × Bytes :=
  let (result, r) := r.parse buffer
  (result, r, buffer)

/-! ### Blanks -/

lemma dropWhile_isblank {s : Bytes} (h : ∀ b, s.head? = some b → isblank b = false) :
    s.dropWhile isblank = s := by
  cases s with
  | nil => rfl
  | cons b s => exact List.dropWhile_cons_of_neg (by simp [h b rfl])

lemma Bare.trim_eq {s : Bytes} (h : Bare s) : trim s = s := by
  have hreverse : s.reverse.dropWhile isblank = s.reverse :=
    dropWhile_isblank fun b hb => h b (Or.inr (by rwa [List.head?_reverse] at hb))
  rw [trim, dropWhile_isblank fun b hb => h b (Or.inl hb), List.rdropWhile, hreverse,
    List.reverse_reverse]

lemma trim_cons_blank {b : UInt8} (hb : isblank b = true) (s : Bytes) : trim (b :: s) = trim s := by
  rw [trim, trim, List.dropWhile_cons_of_pos hb]

/-! ### The fields on the wire -/

/-- The blank behind the colon belongs to the value on the wire. -/
def PlainField.wire (field : PlainField) : WireField where
  name := field.name
  value := 32 :: field.value
  name_plain := field.name_plain
  value_plain := by
    intro b hb
    rcases List.mem_cons.mp hb with rfl | hb
    · decide
    · exact field.value_plain b hb

lemma PlainField.entry_wire (field : PlainField) : field.wire.entry = field.entry := by
  rw [WireField.entry, wire, entry, trim_cons_blank rfl, field.name_bare.trim_eq,
    field.value_bare.trim_eq]

lemma PlainField.print_eq (field : PlainField) : field.print = field.wire.line ++ crlf := by
  simp [print, WireField.line, wire]

def PlainRequest.wire (request : PlainRequest) : WireHead where
  method := request.method
  path := request.path
  version := request.version
  fields := request.fields.map PlainField.wire
  method_word := request.method_word
  path_word := request.path_word
  version_word := request.version_word

/-- Lines that each end in CRLF are lines with CRLF between them, and one more. -/
lemma intercalate_append_crlf (line : Bytes) (lines : List Bytes) :
    List.intercalate crlf (line :: lines) ++ crlf =
      line ++ crlf ++ lines.flatMap fun line => line ++ crlf := by
  induction lines generalizing line with
  | nil => simp
  | cons next lines ih =>
    rw [List.intercalate_cons_cons, List.append_assoc, ih, List.flatMap_cons]

lemma PlainRequest.print_eq (request : PlainRequest) : request.print = request.wire.print := by
  have hfields : request.fields.flatMap PlainField.print =
      (request.wire.fields.map WireField.line).flatMap fun line => line ++ crlf := by
    rw [PlainRequest.wire, List.map_map, List.flatMap_map]
    exact List.flatMap_congr fun field _ => field.print_eq
  have hline : request.method ++ [32] ++ request.path ++ [32] ++ request.version =
      request.wire.requestLine := by
    simp [WireHead.requestLine, PlainRequest.wire]
  rw [PlainRequest.print, hfields, hline, WireHead.print, WireHead.text, WireHead.lines, headEnd,
    ← List.append_assoc, intercalate_append_crlf]

/-! ### The header map -/

/-- Fields with distinct names do not replace each other. -/
lemma insertAll_perm {fields : List (Bytes × Bytes)} (h : (fields.map Prod.fst).Nodup) :
    (HttpRequest.insertAll [] fields).Perm fields := by
  induction fields using List.reverseRecOn with
  | nil => exact List.Perm.refl _
  | append_singleton fields field ih =>
    rw [List.map_append, List.map_singleton, List.nodup_append] at h
    obtain ⟨hfields, -, hapart⟩ := h
    have hkeep : (HttpRequest.insertAll [] fields).filter (fun header => header.1 ≠ field.1) =
        HttpRequest.insertAll [] fields := by
      refine List.filter_eq_self.mpr fun header hheader => decide_eq_true ?_
      exact hapart _ (HttpRequest.fst_mem_of_mem_insertAll hheader) _ (List.mem_singleton_self _)
    have hsnoc : HttpRequest.insertAll [] (fields ++ [field]) =
        field :: HttpRequest.insertAll [] fields := by
      rw [HttpRequest.insertAll, List.foldl_append]
      exact congrArg (List.cons field) hkeep
    rw [hsnoc]
    exact ((ih hfields).cons field).trans (List.perm_append_singleton _ _).symm

/-- The parser reads back what was printed, whatever comes behind it: the words of the request line
(the index page for a single slash) and exactly the printed headers under lower-cased names. -/
theorem parseBuffer_print (request : PlainRequest) (rest : Bytes) :
    ∃ parsed, HttpRequest.reset.parseBuffer (request.print ++ rest) =
        (true, parsed, request.print ++ rest) ∧
      parsed.method = request.method ∧ parsed.version = request.version ∧
      parsed.path = (if request.path = bytes "/" then bytes "/index.html" else request.path) ∧
      parsed.headers.Perm (request.fields.map fun field =>
        (field.name.map tolower, field.value)) := by
  refine ⟨request.wire.request, ?_, rfl, rfl, rfl, ?_⟩
  · rw [HttpRequest.parseBuffer, request.print_eq, parse_print]
  · have hentries : request.wire.fields.map WireField.entry =
        request.fields.map PlainField.entry := by
      rw [PlainRequest.wire, List.map_map]
      exact List.map_congr_left fun field _ => field.entry_wire
    rw [WireHead.request, hentries]
    refine insertAll_perm ?_
    rw [List.map_map]
    exact request.distinct

/-- A header with an empty value. -/
def emptyValue : PlainField where
  name := bytes "X"
  value := []
  name_ne_nil := by decide
  name_plain := by decide +kernel
  name_bare := by
    rintro b (hb | hb) <;> cases hb <;> rfl
  value_plain := by simp
  value_bare := by
    rintro b (hb | hb) <;> cases hb

example : ∃ request : PlainRequest,
    request.print = bytes "GET / HTTP/1.1\r\nX: \r\n\r\n" :=
  ⟨⟨bytes "GET", bytes "/", bytes "HTTP/1.1", [emptyValue], by decide +kernel, by decide +kernel,
    by decide +kernel, by decide⟩, by decide⟩

end TinyWebServer
