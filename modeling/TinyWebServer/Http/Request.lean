import TinyWebServer.Library.Bytes

/-!
# HTTP/1.x requests

The parser object of a connection. `parse` reads the head of a request off the front of the input
buffer, which it leaves as it is; the fields it has set before it refuses a line stay set.
-/

namespace TinyWebServer

structure HttpRequest where
  path : Bytes
  method : Bytes
  version : Bytes
  /-- The header map: names in lower case, each at most once. -/
  headers : List (Bytes × Bytes)
  isFinished : Bool
  deriving DecidableEq

/-- `headers[key] = value`. -/
def insertHeader (headers : List (Bytes × Bytes)) (key value : Bytes) : List (Bytes × Bytes) :=
  (key, value) :: headers.filter (·.1 ≠ key)

/-- The end of a request head. -/
def headEnd : Bytes := Bytes.crlf ++ Bytes.crlf

namespace HttpRequest

def reset : HttpRequest :=
  { path := [], method := [], version := [], headers := [], isFinished := false }

/-- Each extraction of `iss >> method >> path >> version` that succeeds assigns its word. -/
def parseRequestLine (r : HttpRequest) (line : Bytes) : Bool × HttpRequest :=
  match Bytes.extract line with
  | none => (false, r)
  | some (method, line) =>
    let r := { r with method := method }
    match Bytes.extract line with
    | none => (false, r)
    | some (path, line) =>
      let r := { r with path := path }
      match Bytes.extract line with
      | none => (false, r)
      | some (version, _) =>
        let path := if path = [] ∨ path = bytes "/" then bytes "/index.html" else path
        (true, { r with version := version, path := path })

def parseHeaderLine (r : HttpRequest) (line : Bytes) : Bool × HttpRequest :=
  match Bytes.findByte 58 line with
  | none => (false, r)
  | some colonPos =>
    let key := (Bytes.trim (line.take colonPos)).map Bytes.tolower
    let value := Bytes.trim (line.drop (colonPos + 1))
    (true, { r with headers := insertHeader r.headers key value })

/-- The header lines up to an empty one. -/
def parseHeaderLines (r : HttpRequest) : List Bytes → Bool × HttpRequest
  | [] => (true, r)
  | line :: lines =>
    let line := Bytes.popCr line
    if line = [] then (true, r)
    else
      let result := r.parseHeaderLine line
      if result.1 then parseHeaderLines result.2 lines else (false, result.2)

/-- The lines in front of the end of the head. -/
def parseLines (r : HttpRequest) : List Bytes → Bool × HttpRequest
  | [] => (false, r)
  | line :: lines =>
    let result := r.parseRequestLine (Bytes.popCr line)
    if ¬ result.1 then (false, result.2)
    else
      let result := parseHeaderLines result.2 lines
      if result.1 then (true, { result.2 with isFinished := true }) else (false, result.2)

def parse (r : HttpRequest) (buffer : Bytes) : Bool × HttpRequest :=
  match Bytes.find headEnd buffer with
  | none => (false, r)
  | some headerEnd => r.parseLines (Bytes.getlines Bytes.lf (buffer.take headerEnd))

/-- An absent header reads as the empty string. -/
def getHeader (r : HttpRequest) (key : Bytes) : Bytes := (r.headers.lookup key).getD []

/-- `-1` stands for an absent header and for a value that is no number. -/
def getContentLength (r : HttpRequest) : ℤ :=
  match r.headers.lookup (bytes "content-length") with
  | none => -1
  | some value => (Bytes.stoll value).getD (-1)

def isKeepAlive (r : HttpRequest) : Bool :=
  let connection := r.getHeader (bytes "connection")
  if r.version = bytes "HTTP/1.1" then
    connection = [] ∨ (connection ≠ bytes "close" ∧ connection ≠ bytes "Close")
  else if r.version = bytes "HTTP/1.0" then
    connection = bytes "keep-alive" ∨ connection = bytes "Keep-Alive"
  else false

example : (reset.parse (bytes "GET / HTTP/1.1\r\nHost : a\r\n\r\n")).2 =
    ⟨bytes "/index.html", bytes "GET", bytes "HTTP/1.1", [(bytes "host", bytes "a")], true⟩ := by
  decide

/-! ### What a successful parse reads -/

/-- The header map with a list of fields put into it, the last one last. -/
def insertAll (headers fields : List (Bytes × Bytes)) : List (Bytes × Bytes) :=
  fields.foldl (fun headers field => insertHeader headers field.1 field.2) headers

/-- The fields that are put in lie above those that they do not replace. -/
lemma insertAll_eq (headers fields : List (Bytes × Bytes)) :
    insertAll headers fields =
      insertAll [] fields ++ headers.filter fun header => header.1 ∉ fields.map Prod.fst := by
  induction fields using List.reverseRecOn with
  | nil => simp [insertAll]
  | append_singleton fields field ih =>
    have hsnoc : ∀ headers, insertAll headers (fields ++ [field]) =
        insertHeader (insertAll headers fields) field.1 field.2 := by
      intro headers
      simp [insertAll]
    rw [hsnoc, hsnoc, ih, insertHeader, insertHeader, List.filter_append, List.filter_filter,
      List.cons_append]
    congr 2
    refine List.filter_congr fun header _ => ?_
    rw [List.map_append, List.map_singleton]
    simp only [List.mem_append, List.mem_singleton, not_or, Bool.decide_and]
    exact Bool.and_comm _ _

lemma fst_mem_of_mem_insertAll {fields : List (Bytes × Bytes)} {header : Bytes × Bytes}
    (h : header ∈ insertAll [] fields) : header.1 ∈ fields.map Prod.fst := by
  induction fields using List.reverseRecOn with
  | nil => simp [insertAll] at h
  | append_singleton fields field ih =>
    have hsnoc : insertAll [] (fields ++ [field]) =
        insertHeader (insertAll [] fields) field.1 field.2 := by simp [insertAll]
    rw [hsnoc, insertHeader] at h
    rcases List.mem_cons.mp h with rfl | h
    · simp
    · have := ih (List.mem_of_mem_filter h)
      simp only [List.map_append, List.mem_append]
      exact Or.inl this

/-- The same fields once more change nothing. -/
lemma insertAll_insertAll (fields : List (Bytes × Bytes)) :
    insertAll (insertAll [] fields) fields = insertAll [] fields := by
  have hnone : (insertAll [] fields).filter
      (fun header => header.1 ∉ fields.map Prod.fst) = [] := by
    refine List.filter_eq_nil_iff.mpr fun header hmem => ?_
    simpa using fst_mem_of_mem_insertAll hmem
  rw [insertAll_eq, hnone, List.append_nil]

/-- The request line does not look at the parser. -/
lemma parseRequestLine_of_true {r r' : HttpRequest} {line : Bytes}
    (h : r.parseRequestLine line = (true, r')) :
    ∃ method path version, ∀ q : HttpRequest, q.parseRequestLine line =
      (true, { q with method := method, path := path, version := version }) := by
  simp only [parseRequestLine] at h ⊢
  cases hmethod : Bytes.extract line with
  | none => simp [hmethod] at h
  | some first =>
    simp only [hmethod] at h
    cases hpath : Bytes.extract first.2 with
    | none => simp [hpath] at h
    | some second =>
      simp only [hpath] at h
      cases hversion : Bytes.extract second.2 with
      | none => simp [hversion] at h
      | some third =>
        refine ⟨first.1,
          if second.1 = [] ∨ second.1 = bytes "/" then bytes "/index.html" else second.1,
          third.1, fun q => ?_⟩
        simp only [hpath, hversion]

lemma parseHeaderLine_of_true {r r' : HttpRequest} {line : Bytes}
    (h : r.parseHeaderLine line = (true, r')) :
    ∃ field : Bytes × Bytes, ∀ q : HttpRequest, q.parseHeaderLine line =
      (true, { q with headers := insertHeader q.headers field.1 field.2 }) := by
  simp only [parseHeaderLine] at h ⊢
  cases hcolon : Bytes.findByte 58 line with
  | none => simp [hcolon] at h
  | some colonPos => exact ⟨(_, _), fun q => rfl⟩

lemma parseHeaderLines_of_true {r r' : HttpRequest} {lines : List Bytes}
    (h : r.parseHeaderLines lines = (true, r')) :
    ∃ fields, ∀ q : HttpRequest, q.parseHeaderLines lines =
      (true, { q with headers := insertAll q.headers fields }) := by
  induction lines generalizing r with
  | nil => exact ⟨[], fun q => rfl⟩
  | cons line lines ih =>
    simp only [parseHeaderLines] at h ⊢
    by_cases hempty : Bytes.popCr line = []
    · exact ⟨[], fun q => by rw [if_pos hempty]; rfl⟩
    rw [if_neg hempty] at h
    cases hline : r.parseHeaderLine (Bytes.popCr line) with
    | mk parsed next =>
      cases parsed with
      | false => simp [hline] at h
      | true =>
        simp only [hline, if_true] at h
        obtain ⟨field, hfield⟩ := parseHeaderLine_of_true hline
        obtain ⟨fields, hfields⟩ := ih h
        refine ⟨field :: fields, fun q => ?_⟩
        rw [if_neg hempty, hfield q]
        simp only [if_true, hfields]
        rfl

/-- A head that parses gives the same request line and the same fields to every parser. -/
lemma parse_of_true {r r' : HttpRequest} {buffer : Bytes} (h : r.parse buffer = (true, r')) :
    ∃ method path version fields, ∀ q : HttpRequest, q.parse buffer =
      (true, ⟨path, method, version, insertAll q.headers fields, true⟩) := by
  simp only [parse] at h ⊢
  cases hfind : Bytes.find headEnd buffer with
  | none => simp [hfind] at h
  | some headerEnd =>
    simp only [hfind] at h
    cases hlines : Bytes.getlines Bytes.lf (buffer.take headerEnd) with
    | nil => simp [hlines, parseLines] at h
    | cons line lines =>
      rw [hlines] at h
      simp only [parseLines] at h ⊢
      cases hline : r.parseRequestLine (Bytes.popCr line) with
      | mk parsed next =>
        cases parsed with
        | false => simp [hline] at h
        | true =>
          obtain ⟨method, path, version, hrequest⟩ := parseRequestLine_of_true hline
          simp only [hline, not_true, if_false] at h
          cases hheaders : next.parseHeaderLines lines with
          | mk parsed last =>
            cases parsed with
            | false => simp [hheaders] at h
            | true =>
              obtain ⟨fields, hfields⟩ := parseHeaderLines_of_true hheaders
              refine ⟨method, path, version, fields, fun q => ?_⟩
              simp only [hlines, hrequest q, hfields, not_true, if_false, if_true]

/-- A parser that has read a head and is given the same head again stays as it is. -/
lemma parse_parse {buffer : Bytes} {request : HttpRequest}
    (h : reset.parse buffer = (true, request)) : request.parse buffer = (true, request) := by
  obtain ⟨method, path, version, fields, hparse⟩ := parse_of_true h
  have hrequest := (Prod.mk.inj ((hparse reset).symm.trans h)).2
  rw [hparse request, ← hrequest]
  simp only [reset, insertAll_insertAll]

/-- Whether a head can be parsed does not depend on what follows it. -/
lemma parse_append {r : HttpRequest} {buffer : Bytes} {headerEnd : ℕ} (more : Bytes)
    (h : Bytes.find headEnd buffer = some headerEnd) :
    r.parse (buffer ++ more) = r.parse buffer := by
  have hle : headerEnd ≤ buffer.length := by
    have := Bytes.find_add_length_le h
    omega
  simp only [parse, Bytes.find_append more h, h, List.take_append_of_le_length hle]

end HttpRequest

end TinyWebServer
