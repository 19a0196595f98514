import TinyWebServer.Http.FsmParser
import TinyWebServer.Http.RequestPrinting

/-!
# Two parsers of one head

The incremental parser takes lines as they come, the parser of a connection looks for the end of
the head first. Where the lines of the head end in CRLF the two accept the same heads and read the
same in them, up to the blanks and the case that only the second one removes.
-/

namespace Bytes

/-- The pattern stands where it has been found. -/
lemma eq_append_of_find {pat s : Bytes} {i : ℕ} (h : find pat s = some i) :
    s = s.take i ++ (pat ++ s.drop (i + pat.length)) := by
  induction s generalizing i with
  | nil =>
    rw [find] at h
    split_ifs at h with hpat
    simp [hpat]
  | cons b s ih =>
    rw [find] at h
    split_ifs at h with hprefix
    · cases h
      obtain ⟨v, hv⟩ := List.isPrefixOf_iff_prefix.mp hprefix
      rw [← hv]
      simp
    · obtain ⟨j, hj, rfl⟩ := Option.map_eq_some_iff.mp h
      rw [List.take_succ_cons, Nat.add_right_comm, List.drop_succ_cons, List.cons_append, ← ih hj]

/-- What has been found is the first occurrence. -/
lemma find_le {pat u v : Bytes} {i : ℕ} (h : find pat (u ++ (pat ++ v)) = some i) :
    i ≤ u.length := by
  induction u generalizing i with
  | nil =>
    rw [List.nil_append, find_of_prefix (List.prefix_append pat v), Option.some_inj] at h
    exact h.ge
  | cons b u ih =>
    rw [List.cons_append, find] at h
    split_ifs at h with hprefix
    · cases h
      exact Nat.zero_le _
    · obtain ⟨j, hj, rfl⟩ := Option.map_eq_some_iff.mp h
      exact Nat.succ_le_succ (ih hj)

lemma isSome_find_append {pat t : Bytes} (s : Bytes) (h : (find pat t).isSome) :
    (find pat (s ++ t)).isSome := by
  obtain ⟨u, v, rfl⟩ := exists_append_of_find h
  rw [← List.append_assoc, Option.isSome_iff_ne_none]
  exact find_append_self_ne_none pat (s ++ u) v

end Bytes

namespace TinyWebServer

open Bytes ParseLoop

/-- Carriage returns and line feeds stand in pairs, between the lines of the text. -/
def CrlfText (text : Bytes) : Prop :=
  ∃ lines, text = List.intercalate crlf lines ∧ ∀ line ∈ lines, cr ∉ line ∧ lf ∉ line

/-! ### Words and fields -/

/-- The three words of a request line. -/
def requestWords (line : Bytes) : Option (Bytes × Bytes × Bytes) :=
  (extract line).bind fun method =>
    (extract method.2).bind fun url =>
      (extract url.2).map fun version => (method.1, url.1, version.1)

/-- The name and the value on a header line, as they stand there. -/
def headerField (line : Bytes) : Option (Bytes × Bytes) :=
  (findByte 58 line).map fun pos => (line.take pos, line.drop (pos + 1))

/-- A field without the blanks around its name and value, under the lower-cased name. -/
def normaliseField (field : Bytes × Bytes) : Bytes × Bytes :=
  ((trim field.1).map tolower, trim field.2)

/-- What a head says: the words of the request line and the fields of the header lines. -/
def readHead (line : Bytes) (lines : List Bytes) :
    Option ((Bytes × Bytes × Bytes) × List (Bytes × Bytes)) :=
  (requestWords line).bind fun words => (lines.mapM headerField).map fun fields => (words, fields)

lemma extract_ne_nil {line word rest : Bytes} (h : extract line = some (word, rest)) :
    word ≠ [] := by
  rw [extract] at h
  split at h
  · cases h
  · next b t hdrop =>
    have hb : isspace b = false := by
      have hhead := List.head?_dropWhile_not isspace line
      rw [hdrop] at hhead
      simpa using hhead
    cases h
    simp [hb]

namespace ParsedHead

lemma parseRequestLine_eq (head : ParsedHead) (line : Bytes) :
    match requestWords line with
    | some (method, url, version) => head.parseRequestLine line = (true, { head with
        method := method
        url := url
        version := version
        state := .kHeaders })
    | none => (head.parseRequestLine line).1 = false := by
  simp only [requestWords, parseRequestLine]
  rcases extract line with _ | ⟨method, line⟩
  · rfl
  · rcases hurl : extract line with _ | ⟨url, line⟩
    · simp [hurl]
    · rcases hversion : extract line with _ | ⟨version, line⟩ <;> simp [hurl, hversion]

lemma parseHeaderLine_eq (head : ParsedHead) (line : Bytes) :
    head.parseHeaderLine line =
      match headerField line with
      | some field => (true, { head with headers := insertHeader head.headers field.1 field.2 })
      | none => (false, head) := by
  rw [parseHeaderLine, headerField]
  rcases findByte 58 line with _ | pos <;> rfl

end ParsedHead

namespace HttpRequest

lemma parseRequestLine_eq (r : HttpRequest) (line : Bytes) :
    match requestWords line with
    | some (method, url, version) => r.parseRequestLine line = (true, { r with
        method := method
        path := if url = bytes "/" then bytes "/index.html" else url
        version := version })
    | none => (r.parseRequestLine line).1 = false := by
  simp only [requestWords, parseRequestLine]
  rcases extract line with _ | ⟨method, line⟩
  · rfl
  · rcases hurl : extract line with _ | ⟨url, line⟩
    · simp [hurl]
    · have hne := extract_ne_nil hurl
      rcases hversion : extract line with _ | ⟨version, line⟩ <;> simp [hurl, hversion, hne]

lemma parseHeaderLine_eq (r : HttpRequest) (line : Bytes) :
    r.parseHeaderLine line =
      match headerField line with
      | some field => (true, { r with
          headers := insertHeader r.headers (normaliseField field).1 (normaliseField field).2 })
      | none => (false, r) := by
  rw [parseHeaderLine, headerField]
  rcases findByte 58 line with _ | pos <;> rfl

/-- What the parser of a connection reads on header lines, with the carriage return that `getline`
leaves on them. -/
lemma parseHeaderLines_eq {lines ended : List Bytes} (h : ended.map popCr = lines)
    (hne : ∀ line ∈ lines, line ≠ []) (r : HttpRequest) :
    match lines.mapM headerField with
    | some fields => r.parseHeaderLines ended =
        (true, { r with headers := insertAll r.headers (fields.map normaliseField) })
    | none => (r.parseHeaderLines ended).1 = false := by
  subst h
  induction ended generalizing r with
  | nil => rfl
  | cons line ended ih =>
    simp only [List.map_cons, List.forall_mem_cons] at hne
    rw [List.map_cons, List.mapM_cons, parseHeaderLines]
    simp only [if_neg hne.1, parseHeaderLine_eq]
    rcases headerField (popCr line) with _ | field
    · rfl
    · have hrest := ih { r with
        headers := insertHeader r.headers (normaliseField field).1 (normaliseField field).2 } hne.2
      cases hfields : (ended.map popCr).mapM headerField with
      | none =>
        rw [hfields] at hrest
        exact hrest
      | some fields =>
        rw [hfields] at hrest
        exact hrest

lemma parseLines_eq {line : Bytes} {lines ended : List Bytes} (h : ended.map popCr = line :: lines)
    (hne : ∀ line ∈ lines, line ≠ []) :
    match readHead line lines with
    | some ((method, url, version), fields) => reset.parseLines ended = (true,
        { path := if url = bytes "/" then bytes "/index.html" else url
          method := method
          version := version
          headers := insertAll [] (fields.map normaliseField)
          isFinished := true })
    | none => (reset.parseLines ended).1 = false := by
  cases ended with
  | nil => cases h
  | cons first ended =>
    obtain ⟨hfirst, hended⟩ := List.cons.inj h
    have hline := reset.parseRequestLine_eq line
    rw [parseLines, hfirst, readHead]
    rcases hwords : requestWords line with _ | ⟨method, url, version⟩
    · rw [hwords] at hline
      simp [hline]
    · rw [hwords] at hline
      dsimp only at hline
      simp only [hline, Option.bind_some, not_true_eq_false, if_false]
      have hlines := parseHeaderLines_eq hended hne { reset with
        method := method
        path := if url = bytes "/" then bytes "/index.html" else url
        version := version }
      cases hfields : lines.mapM headerField with
      | none =>
        rw [hfields] at hlines
        simp [hlines]
      | some fields =>
        rw [hfields] at hlines
        dsimp only at hlines
        simp only [Option.map_some, hlines, if_true]
        rfl

end HttpRequest

/-! ### The incremental parser on a head -/

namespace HttpParser

lemma parseLoop_of_stopped {head : ParsedHead} (h : head.Stopped) (buffer : Bytes) :
    parseLoop ⟨head, buffer⟩ = ⟨head, buffer⟩ := by
  rw [parseLoop, if_pos h]

lemma parseLoop_line {head : ParsedHead} (h : ¬ head.Stopped) (line : Bytes) (hline : cr ∉ line)
    (rest : Bytes) :
    parseLoop ⟨head, line ++ (crlf ++ rest)⟩ = parseLoop ⟨head.takeLine line, rest⟩ := by
  have hfind : find crlf (line ++ (crlf ++ rest)) = some line.length := by
    rw [crlf, find_append_of_notMem _ hline, find_of_prefix (List.prefix_append _ rest)]
    simp
  have hget : getLine (line ++ (crlf ++ rest)) = some (line, rest) := by
    rw [getLine, hfind]
    simp [crlf]
  conv_lhs => rw [parseLoop, if_neg h]
  split <;> simp_all

/-- Header lines up to the empty one: the fields go into the map, or a line without a colon stops
the parser. -/
lemma parseLoop_headers {head : ParsedHead} (hstate : head.state = .kHeaders) {lines : List Bytes}
    (hlines : ∀ line ∈ lines, IsLine line) (rest : Bytes) :
    match lines.mapM headerField with
    | some fields =>
      parseLoop ⟨head, (lines.flatMap fun line => line ++ crlf) ++ (crlf ++ rest)⟩ =
        ⟨{ head with
          state := .kDone
          headers := HttpRequest.insertAll head.headers fields }, rest⟩
    | none =>
      (parseLoop ⟨head, (lines.flatMap fun line => line ++ crlf) ++ (crlf ++ rest)⟩).head.state =
        .kError := by
  have hgoes : ¬ head.Stopped := by simp [ParsedHead.Stopped, hstate]
  induction lines generalizing head with
  | nil =>
    have hline := parseLoop_line hgoes [] List.not_mem_nil rest
    rw [List.nil_append] at hline
    simp only [List.mapM_nil, List.flatMap_nil, List.nil_append, hline]
    rw [ParsedHead.takeLine, hstate]
    exact parseLoop_of_stopped (.inl rfl) rest
  | cons line lines ih =>
    rw [List.forall_mem_cons] at hlines
    rw [List.mapM_cons, List.flatMap_cons, List.append_assoc, List.append_assoc,
      parseLoop_line hgoes line hlines.1.no_cr, ParsedHead.takeLine, hstate]
    simp only [if_neg hlines.1.ne_nil, ParsedHead.parseHeaderLine_eq]
    rcases headerField line with _ | field
    · have hstopped : (ParsedHead.accept (false, head)).Stopped := .inr rfl
      exact congrArg (·.head.state) (parseLoop_of_stopped hstopped _)
    · rw [ParsedHead.accept, if_pos rfl]
      have hstate' : ({ head with
        headers := insertHeader head.headers field.1 field.2 } : ParsedHead).state = .kHeaders :=
        hstate
      have hrest := ih hstate' hlines.2 (by simp [ParsedHead.Stopped, hstate])
      cases hfields : lines.mapM headerField with
      | none =>
        rw [hfields] at hrest
        exact hrest
      | some fields =>
        rw [hfields] at hrest
        exact hrest

/-- The states a line leads to. -/
lemma takeLine_state {head : ParsedHead} (h : ¬ head.Stopped) (line : Bytes) :
    (head.takeLine line).state = .kHeaders ∨ (head.takeLine line).state = .kError ∨
      head.state = .kHeaders ∧ line = [] := by
  have haccept : ∀ result : Bool × ParsedHead, (result.1 = true → result.2.state = .kHeaders) →
      (ParsedHead.accept result).state = .kHeaders ∨ (ParsedHead.accept result).state = .kError := by
    intro result hresult
    rw [ParsedHead.accept]
    split_ifs with hok
    · exact .inl (hresult hok)
    · exact .inr rfl
  rw [ParsedHead.takeLine]
  split
  · have hline := head.parseRequestLine_eq line
    rcases haccept (head.parseRequestLine line) (by
      cases hwords : requestWords line with
      | none =>
        rw [hwords] at hline
        simp [hline]
      | some words =>
        rw [hwords] at hline
        simp [hline]) with hstate | hstate
    · exact .inl hstate
    · exact .inr (.inl hstate)
  · next hstate =>
    split_ifs with hnil
    · exact .inr (.inr ⟨hstate, hnil⟩)
    · rcases haccept (head.parseHeaderLine line) (by
        rw [ParsedHead.parseHeaderLine_eq]
        rcases headerField line with _ | field
        · simp
        · simp [hstate]) with hstate | hstate
      · exact .inl hstate
      · exact .inr (.inl hstate)
  · next hline hheaders =>
    exfalso
    apply h
    cases hstate : head.state with
    | kRequestLine => exact absurd hstate hline
    | kHeaders => exact absurd hstate hheaders
    | kDone => exact .inl hstate
    | kError => exact .inr hstate

/-- The parser is done only behind an empty line. -/
lemma headEnd_of_done {head : ParsedHead} {buffer : Bytes}
    (h : (parseLoop ⟨head, buffer⟩).head.state = .kDone) : head.state = .kDone ∨
      (head.state = .kHeaders ∧ crlf <+: buffer) ∨ (find headEnd buffer).isSome := by
  rw [parseLoop_eq] at h
  induction head, buffer using machine.drain_induction with
  | wait head buffer hturn =>
    rw [machine.drain_of_wait hturn] at h
    exact .inl h
  | fail head buffer e hturn => exact e.elim
  | consume head buffer n head' hturn ih =>
    obtain ⟨hgoes, pos, hfind, rfl, -, rfl⟩ := turn_consume hturn
    rw [machine.drain_of_consume hturn] at h
    have hbuffer := eq_append_of_find hfind
    rw [show pos + crlf.length = pos + 2 from rfl] at hbuffer
    rcases ih h with hdone | ⟨-, hcrlf⟩ | hfound
    · rcases takeLine_state hgoes (buffer.take pos) with hstate | hstate | ⟨hstate, hnil⟩
      · rw [hstate] at hdone
        cases hdone
      · rw [hstate] at hdone
        cases hdone
      · rw [hnil, List.nil_append] at hbuffer
        exact .inr (.inl ⟨hstate, _, hbuffer.symm⟩)
    · obtain ⟨rest, hrest⟩ := hcrlf
      rw [← hrest, ← List.append_assoc crlf] at hbuffer
      rw [hbuffer]
      exact .inr (.inr (isSome_find_append _ (by simp [headEnd, find_of_prefix])))
    · rw [hbuffer, ← List.append_assoc]
      exact .inr (.inr (isSome_find_append _ hfound))

lemma parseLoop_head {line : Bytes} (hline : cr ∉ line) {lines : List Bytes}
    (hlines : ∀ line ∈ lines, IsLine line) (rest : Bytes) :
    match readHead line lines with
    | some ((method, url, version), fields) =>
      parseLoop ⟨new.head, List.intercalate crlf (line :: lines) ++ (headEnd ++ rest)⟩ =
        ⟨⟨.kDone, method, url, version, HttpRequest.insertAll [] fields⟩, rest⟩
    | none =>
      (parseLoop ⟨new.head, List.intercalate crlf (line :: lines) ++ (headEnd ++ rest)⟩).head.state =
        .kError := by
  have hgoes : ¬ new.head.Stopped := by decide
  have hsplit : List.intercalate crlf (line :: lines) ++ (headEnd ++ rest) =
      line ++ (crlf ++ ((lines.flatMap fun line => line ++ crlf) ++ (crlf ++ rest))) := by
    rw [headEnd, List.append_assoc, ← List.append_assoc, intercalate_append_crlf]
    simp only [List.append_assoc]
  have hwordsLine := new.head.parseRequestLine_eq line
  have htake : new.head.takeLine line = ParsedHead.accept (new.head.parseRequestLine line) := rfl
  rw [hsplit, parseLoop_line hgoes line hline, htake, readHead]
  rcases hwords : requestWords line with _ | ⟨method, url, version⟩
  · rw [hwords] at hwordsLine
    have hstopped : (ParsedHead.accept (new.head.parseRequestLine line)).state = .kError := by
      simp [ParsedHead.accept, hwordsLine]
    rw [parseLoop_of_stopped (.inr hstopped)]
    exact hstopped
  · rw [hwords] at hwordsLine
    dsimp only at hwordsLine
    rw [hwordsLine, ParsedHead.accept, if_pos rfl]
    have hstate : ({ new.head with
      method := method
      url := url
      version := version
      state := .kHeaders } : ParsedHead).state = .kHeaders := rfl
    have hrest := parseLoop_headers hstate hlines rest
    cases hfields : lines.mapM headerField with
    | none =>
      rw [hfields] at hrest
      exact hrest
    | some fields =>
      rw [hfields] at hrest
      exact hrest

lemma parseAll_eq_parseLoop (pieces : List Bytes) :
    (new.parseAll pieces).2 = parseLoop ⟨new.head, pieces.flatten⟩ := by
  have hnew : new = ofOutcome ⟨new.head, [], none⟩ := rfl
  cases pieces with
  | nil =>
    rw [parseLoop_eq, machine.drain_of_wait (by rfl)]
    rfl
  | cons piece pieces =>
    rw [hnew, parseAll_ofOutcome, machine.foldl_feed _ (List.cons_ne_nil piece pieces),
      parseLoop_eq]
    rfl

end HttpParser

/-! ### Agreement -/

/-- Behind the first line of a head that has been found there is no empty line. -/
lemma isLine_of_find {line : Bytes} {lines : List Bytes} {rest : Bytes}
    (hplain : ∀ l ∈ line :: lines, cr ∉ l ∧ lf ∉ l)
    (hfind : find headEnd (List.intercalate crlf (line :: lines) ++ (headEnd ++ rest)) =
      some (List.intercalate crlf (line :: lines)).length) : ∀ l ∈ lines, IsLine l := by
  intro l hl
  refine ⟨?_, (hplain l (List.mem_cons_of_mem _ hl)).1, (hplain l (List.mem_cons_of_mem _ hl)).2⟩
  rintro rfl
  obtain ⟨front, back, rfl⟩ := List.append_of_mem hl
  -- an empty line would end the head further in front
  have hearlier : List.intercalate crlf (line :: (front ++ [] :: back)) ++ crlf =
      List.intercalate crlf (line :: front) ++
        (headEnd ++ back.flatMap fun line => line ++ crlf) := by
    have hfront := intercalate_append_crlf line front
    rw [headEnd, List.append_assoc crlf, ← List.append_assoc _ crlf, hfront,
      intercalate_append_crlf]
    simp
  have hbuffer : List.intercalate crlf (line :: (front ++ [] :: back)) ++ (headEnd ++ rest) =
      List.intercalate crlf (line :: front) ++
        (headEnd ++ ((back.flatMap fun line => line ++ crlf) ++ (crlf ++ rest))) := by
    rw [headEnd, List.append_assoc crlf, ← List.append_assoc _ crlf (crlf ++ rest), hearlier,
      headEnd]
    simp only [List.append_assoc]
  rw [hbuffer] at hfind
  have hle := find_le hfind
  have hlength := congrArg List.length hearlier
  have htwo : crlf.length = 2 := rfl
  simp only [List.length_append, headEnd] at hlength
  omega

/-- The pieces of a head that `getline` returns are its lines. -/
lemma map_popCr_getlines_head {line : Bytes} {lines : List Bytes} (hline : cr ∉ line ∧ lf ∉ line)
    (hlines : ∀ l ∈ lines, IsLine l) (hne : line ≠ [] ∨ lines ≠ []) :
    (getlines lf (List.intercalate crlf (line :: lines))).map popCr = line :: lines := by
  by_cases hnil : lines = []
  · subst hnil
    apply map_popCr_getlines
    rw [List.forall_mem_singleton]
    exact ⟨hne.resolve_right (by simp), hline.1, hline.2⟩
  · have hsplit : List.intercalate crlf (line :: lines) =
        (line ++ [cr]) ++ lf :: List.intercalate crlf lines := by
      simp [List.intercalate_cons_of_ne_nil hnil, crlf]
    have hlf : lf ∉ line ++ [cr] := by simpa [cr, lf] using hline.2
    rw [hsplit, getlines_append_cons _ hlf, List.map_cons, popCr_append_cr,
      map_popCr_getlines hlines]

/-- The parser of a connection reads the head whose end it has found. -/
lemma parse_head {line : Bytes} {lines : List Bytes} {buffer : Bytes} {n : ℕ}
    (hfind : find headEnd buffer = some n)
    (htext : buffer.take n = List.intercalate crlf (line :: lines)) (hline : cr ∉ line ∧ lf ∉ line)
    (hlines : ∀ l ∈ lines, IsLine l) :
    match readHead line lines with
    | some ((method, url, version), fields) => HttpRequest.reset.parse buffer = (true,
        { path := if url = bytes "/" then bytes "/index.html" else url
          method := method
          version := version
          headers := HttpRequest.insertAll [] (fields.map normaliseField)
          isFinished := true })
    | none => (HttpRequest.reset.parse buffer).1 = false := by
  have hparse : HttpRequest.reset.parse buffer =
      HttpRequest.reset.parseLines (getlines lf (List.intercalate crlf (line :: lines))) := by
    rw [HttpRequest.parse, hfind]
    exact congrArg (fun text => HttpRequest.reset.parseLines (getlines lf text)) htext
  rw [hparse]
  by_cases hne : line ≠ [] ∨ lines ≠ []
  · exact HttpRequest.parseLines_eq (map_popCr_getlines_head hline hlines hne)
      fun l hl => (hlines l hl).ne_nil
  · simp only [not_or, not_not] at hne
    obtain ⟨rfl, rfl⟩ := hne
    rfl

/-- What the two parsers have in common once they have read a head. -/
structure SameReading (parser : HttpParser) (request : HttpRequest) : Prop where
  method : request.method = parser.head.method
  version : request.version = parser.head.version
  path : request.path =
    if parser.head.url = bytes "/" then bytes "/index.html" else parser.head.url
  /-- One list of fields went into both maps. -/
  headers : ∃ fields, parser.head.headers = HttpRequest.insertAll [] fields ∧
    request.headers = HttpRequest.insertAll [] (fields.map normaliseField)

/-- However the bytes of a connection are cut, the incremental parser comes to the end of a head if
and only if the parser of the connection accepts the head that stands in front of the whole text.
Then both have read the same, and the incremental one keeps what comes behind the head. -/
theorem parsers_agree {buffer : Bytes} {pieces : List Bytes} (hpieces : pieces.flatten = buffer)
    (hlines : ∀ n, find headEnd buffer = some n → CrlfText (buffer.take n)) :
    let parser := (HttpParser.new.parseAll pieces).2
    let result := HttpRequest.reset.parse buffer
    (parser.head.state = .kDone ↔ result.1 = true) ∧ (result.1 = true →
      SameReading parser result.2 ∧
        ∃ n, find headEnd buffer = some n ∧ parser.buffer = buffer.drop (n + 4)) := by
  dsimp only
  rw [HttpParser.parseAll_eq_parseLoop, hpieces]
  cases hfind : find headEnd buffer with
  | none =>
    have hrefused : (HttpRequest.reset.parse buffer).1 = false := by
      rw [HttpRequest.parse, hfind]
    have hwaits : (HttpParser.parseLoop ⟨HttpParser.new.head, buffer⟩).head.state ≠ .kDone := by
      intro hdone
      rcases HttpParser.headEnd_of_done hdone with hstate | ⟨hstate, -⟩ | hfound
      · cases hstate
      · cases hstate
      · simp [hfind] at hfound
    simp [hrefused, hwaits]
  | some n =>
    obtain ⟨line, lines, htext, hplain⟩ : ∃ line lines,
        buffer.take n = List.intercalate crlf (line :: lines) ∧
          ∀ l ∈ line :: lines, cr ∉ l ∧ lf ∉ l := by
      obtain ⟨lines, htext, hplain⟩ := hlines n hfind
      cases lines with
      | nil => exact ⟨[], [], htext, by simp⟩
      | cons line lines => exact ⟨line, lines, htext, hplain⟩
    have hbuffer := eq_append_of_find hfind
    have hlength : (buffer.take n).length = n := by
      have hle := find_add_length_le hfind
      rw [List.length_take]
      omega
    rw [htext] at hbuffer hlength
    have hheaders : ∀ l ∈ lines, IsLine l := by
      apply isLine_of_find hplain
      rw [hlength, ← hbuffer, hfind]
    have hparser := HttpParser.parseLoop_head (hplain line (List.mem_cons_self ..)).1 hheaders
      (buffer.drop (n + headEnd.length))
    rw [← hbuffer] at hparser
    have hresult := parse_head hfind htext (hplain line (List.mem_cons_self ..)) hheaders
    cases hread : readHead line lines with
    | none =>
      rw [hread] at hparser hresult
      simp [hparser, hresult]
    | some head =>
      obtain ⟨⟨method, url, version⟩, fields⟩ := head
      rw [hread] at hparser hresult
      dsimp only at hparser hresult
      rw [hparser, hresult]
      exact ⟨by simp, fun _ => ⟨⟨rfl, rfl, rfl, fields, rfl, rfl⟩, n, rfl, rfl⟩⟩

/-- The head of a request, cut inside the first line, and a byte behind it. -/
theorem parsers_agree_twoPieces :
    let parser := (HttpParser.new.parseAll
      [bytes "GET / HT", bytes "TP/1.1\r\nHost : a\r\n\r\nx"]).2
    let result := HttpRequest.reset.parse (bytes "GET / HTTP/1.1\r\nHost : a\r\n\r\nx")
    parser.head.state = .kDone ∧ SameReading parser result.2 ∧ parser.buffer = bytes "x" := by
  have hfind : find headEnd (bytes "GET / HTTP/1.1\r\nHost : a\r\n\r\nx") = some 24 := by
    decide +kernel
  have hlines : ∀ n, find headEnd (bytes "GET / HTTP/1.1\r\nHost : a\r\n\r\nx") = some n →
      CrlfText ((bytes "GET / HTTP/1.1\r\nHost : a\r\n\r\nx").take n) := by
    intro n hn
    cases hfind.symm.trans hn
    exact ⟨[bytes "GET / HTTP/1.1", bytes "Host : a"], by decide +kernel, by decide +kernel⟩
  have haccepted : (HttpRequest.reset.parse
      (bytes "GET / HTTP/1.1\r\nHost : a\r\n\r\nx")).1 = true := by decide +kernel
  have hpieces : [bytes "GET / HT", bytes "TP/1.1\r\nHost : a\r\n\r\nx"].flatten =
      bytes "GET / HTTP/1.1\r\nHost : a\r\n\r\nx" := by decide +kernel
  obtain ⟨hdone, hread⟩ := parsers_agree hpieces hlines
  obtain ⟨hsame, n, hn, hrest⟩ := hread haccepted
  cases hfind.symm.trans hn
  exact ⟨hdone.mpr haccepted, hsame, hrest.trans (by decide +kernel)⟩

/-- A bare line feed ends a line for one of the parsers only. -/
example : (HttpRequest.reset.parse (bytes "GET / HTTP/1.1\nHost: a\r\n\r\n")).2.headers =
      [(bytes "host", bytes "a")] ∧
    (HttpParser.new.parse (bytes "GET / HTTP/1.1\nHost: a\r\n\r\n")).2.head =
      ⟨.kDone, bytes "GET", bytes "/", bytes "HTTP/1.1", []⟩ := by
  decide +kernel

end TinyWebServer
