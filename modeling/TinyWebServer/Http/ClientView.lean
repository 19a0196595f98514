import TinyWebServer.Http.EntityTags
import TinyWebServer.Http.Precedence
import TinyWebServer.Http.RequestPrinting
import TinyWebServer.Http.ResponseStream
import TinyWebServer.Library.Messages

/-!
# The responses as the client reads them

A client takes the status line and the header fields up to the empty line, and then as many bytes
as `Content-Length` says; a response to `HEAD` and one that cannot have a body end with the header.
It reads the stream that a connection has queued as the responses that the server made, unless a
request with `HEAD` was answered with a body.
-/

namespace TinyWebServer

open Bytes ParseLoop ParseLoop.Machine

/-! ### The client -/

structure ReceivedResponse where
  status : ℕ
  fields : List (Bytes × Bytes)
  body : Bytes
  deriving DecidableEq

/-- A client and what it is waiting for. -/
structure Client where
  /-- For every request without a response, whether it is a `HEAD`. -/
  awaited : List Bool
  received : List ReceivedResponse
  deriving DecidableEq

namespace Client

def readField (line : Bytes) : Option (Bytes × Bytes) :=
  (findByte 58 line).map fun colonPos => (trim (line.take colonPos), trim (line.drop (colonPos + 1)))

/-- The status and the header fields; the version and the reason are of no interest. -/
def readHead (text : Bytes) : Option (ℕ × List (Bytes × Bytes)) :=
  match (getlines lf text).map popCr with
  | [] => none
  | statusLine :: lines =>
    (extract statusLine).bind fun (_, rest) =>
      (extract rest).bind fun (status, _) =>
        (lines.mapM readField).map fun fields => (digitsVal status, fields)

/-- The length of the body behind a header, if the header tells. -/
def bodyLength (isHead : Bool) (status : ℕ) (fields : List (Bytes × Bytes)) : Option ℕ :=
  if isHead ∨ status < 200 ∨ status = 204 ∨ status = 304 then some 0
  else
    (fields.find? fun field => field.1.map tolower = bytes "content-length").map
      fun field => digitsVal field.2

/-- Bytes that nobody asked for are an error, and so is a header that does not make sense. -/
def turn (client : Client) (buffer : Bytes) : Turn Client Unit :=
  match client.awaited with
  | [] => if buffer = [] then .wait else .fail ()
  | isHead :: awaited =>
    match find headEnd buffer with
    | none => .wait
    | some headerEnd =>
      match readHead (buffer.take headerEnd) with
      | none => .fail ()
      | some (status, fields) =>
        match bodyLength isHead status fields with
        | none => .fail ()
        | some length =>
          if buffer.length < headerEnd + 4 + length then .wait
          else
            .consume (headerEnd + 4 + length) { client with
              awaited := awaited
              received := client.received ++
                [⟨status, fields, (buffer.drop (headerEnd + 4)).take length⟩] }

/-- What a client does with a header that has arrived. -/
lemma turn_of_find {client : Client} {isHead : Bool} {awaited : List Bool}
    (hawaited : client.awaited = isHead :: awaited) {buffer : Bytes} {headerEnd : ℕ}
    (hfind : find headEnd buffer = some headerEnd) {status : ℕ} {fields : List (Bytes × Bytes)}
    (hread : readHead (buffer.take headerEnd) = some (status, fields)) {length : ℕ}
    (hlength : bodyLength isHead status fields = some length) :
    client.turn buffer =
      if buffer.length < headerEnd + 4 + length then .wait
      else
        .consume (headerEnd + 4 + length) { client with
          awaited := awaited
          received := client.received ++
            [⟨status, fields, (buffer.drop (headerEnd + 4)).take length⟩] } := by
  simp only [turn, hawaited, hfind, hread, hlength]

/-- A header that is complete does not change when more bytes arrive. -/
lemma turn_append {client : Client} {buffer : Bytes} (more : Bytes)
    (h : client.turn buffer ≠ .wait) : client.turn (buffer ++ more) = client.turn buffer := by
  cases hawaited : client.awaited with
  | nil =>
    have hne : buffer ≠ [] := by
      rintro rfl
      simp [turn, hawaited] at h
    simp [turn, hawaited, hne]
  | cons isHead awaited =>
    cases hfind : find headEnd buffer with
    | none => simp [turn, hawaited, hfind] at h
    | some headerEnd =>
      have hle : headerEnd + 4 ≤ buffer.length := find_add_length_le hfind
      have htake : (buffer ++ more).take headerEnd = buffer.take headerEnd :=
        List.take_append_of_le_length (Nat.le_of_add_right_le hle)
      have hfind' := find_append more hfind
      cases hread : readHead (buffer.take headerEnd) with
      | none => simp only [turn, hawaited, hfind, hfind', htake, hread]
      | some head =>
        obtain ⟨status, fields⟩ := head
        cases hlength : bodyLength isHead status fields with
        | none => simp only [turn, hawaited, hfind, hfind', htake, hread, hlength]
        | some length =>
          have hread' : readHead ((buffer ++ more).take headerEnd) = some (status, fields) := by
            rw [htake, hread]
          rw [turn_of_find hawaited hfind hread hlength] at h ⊢
          rw [turn_of_find hawaited hfind' hread' hlength]
          have hbody : headerEnd + 4 + length ≤ buffer.length := by
            by_contra hshort
            exact h (if_pos (not_le.mp hshort))
          have hdrop : ((buffer ++ more).drop (headerEnd + 4)).take length =
              (buffer.drop (headerEnd + 4)).take length := by
            rw [List.drop_append_of_le_length hle]
            apply List.take_append_of_le_length
            rw [List.length_drop]
            exact Nat.le_sub_of_add_le' hbody
          rw [if_neg (not_lt.mpr hbody), hdrop, if_neg]
          rw [List.length_append]
          exact not_lt.mpr (hbody.trans (Nat.le_add_right ..))

lemma turn_consume {client client' : Client} {buffer : Bytes} {n : ℕ}
    (h : client.turn buffer = .consume n client') : 0 < n ∧ n ≤ buffer.length := by
  simp only [turn] at h
  split at h
  · split_ifs at h
  · split at h
    · cases h
    · split at h
      · cases h
      · split at h
        · cases h
        · split_ifs at h with hshort
          cases h
          exact ⟨by simp, not_lt.mp hshort⟩

def machine : Machine Client UInt8 Unit where
  turn := turn
  consume_pos := turn_consume
  consume_append more h := by rw [turn_append more (by rw [h]; simp), h]
  fail_append more h := by rw [turn_append more (by rw [h]; simp), h]

/-- A client that has sent its requests. -/
def start (awaited : List Bool) : Client := ⟨awaited, []⟩

end Client

/-! ### The header of a response -/

/-- A value that fits on the line of a header field, without blanks around it. -/
structure PlainValue (value : Bytes) : Prop where
  plain : ∀ b ∈ value, b ≠ cr ∧ b ≠ lf
  bare : Bare value

def printField (field : Bytes × Bytes) : Bytes := field.1 ++ bytes ": " ++ field.2

/-- The field can be printed and read again. -/
structure PlainEntry (field : Bytes × Bytes) : Prop where
  name_ne_nil : field.1 ≠ []
  name_plain : ∀ b ∈ field.1, b ≠ 58 ∧ b ≠ cr ∧ b ≠ lf
  name_bare : Bare field.1
  value : PlainValue field.2

lemma printField_eq (field : Bytes × Bytes) : printField field = field.1 ++ 58 :: (32 :: field.2) := by
  rw [printField, List.append_assoc]
  rfl

lemma PlainEntry.isLine {field : Bytes × Bytes} (h : PlainEntry field) :
    IsLine (printField field) := by
  have hmem : ∀ b, b ∈ printField field → b ≠ cr ∧ b ≠ lf := by
    intro b hb
    simp only [printField_eq, List.mem_append, List.mem_cons] at hb
    rcases hb with hb | rfl | rfl | hb
    · exact (h.name_plain b hb).2
    · decide
    · decide
    · exact h.value.plain b hb
  exact ⟨by simp [printField, h.name_ne_nil], fun hcr => (hmem _ hcr).1 rfl,
    fun hlf => (hmem _ hlf).2 rfl⟩

lemma PlainEntry.readField {field : Bytes × Bytes} (h : PlainEntry field) :
    Client.readField (printField field) = some field := by
  have hcolon : findByte 58 (printField field) = some field.1.length := by
    rw [printField_eq]
    exact findByte_append_cons _ fun hmem => (h.name_plain _ hmem).1 rfl
  have hdrop : (printField field).drop (field.1.length + 1) = 32 :: field.2 := by
    rw [printField_eq]
    simp
  have htake : (printField field).take field.1.length = field.1 := by
    rw [printField_eq, List.take_left]
  rw [Client.readField, hcolon, Option.map_some, hdrop, htake, h.name_bare.trim_eq,
    trim_cons_blank rfl, h.value.bare.trim_eq]

lemma mapM_readField {fields : List (Bytes × Bytes)} (h : ∀ field ∈ fields, PlainEntry field) :
    (fields.map printField).mapM Client.readField = some fields := by
  induction fields with
  | nil => rfl
  | cons field fields ih =>
    rw [List.forall_mem_cons] at h
    rw [List.map_cons, List.mapM_cons, h.1.readField, ih h.2]
    rfl

namespace HttpResponse

/-- The codes that the server answers with. -/
def statusCodes : List ℤ := [200, 304, 400, 403, 404, 405, 413]

/-- The status line without its end. -/
def statusWords (code : ℤ) : Bytes :=
  bytes "HTTP/1.1 " ++ Bytes.ofInt code ++ bytes " " ++ statusText code

lemma isLine_statusWords {code : ℤ} (h : code ∈ statusCodes) : IsLine (statusWords code) := by
  have hall : ∀ code ∈ statusCodes, statusWords code ≠ [] ∧ cr ∉ statusWords code ∧
      lf ∉ statusWords code := by decide +kernel
  obtain ⟨hne, hcr, hlf⟩ := hall code h
  exact ⟨hne, hcr, hlf⟩

/-- The code is the second word of the line. -/
lemma extract_statusWords {code : ℤ} (h : 0 ≤ code) :
    ((extract (statusWords code)).bind fun first =>
      (extract first.2).map fun second => digitsVal second.1) = some code.toNat := by
  obtain ⟨n, rfl⟩ := Int.eq_ofNat_of_zero_le h
  have hline : statusWords (n : ℤ) =
      bytes "HTTP/1.1" ++ 32 :: (Bytes.ofNat n ++ 32 :: statusText n) := by
    rw [statusWords, List.append_assoc, List.append_assoc]
    rfl
  have hversion : IsWord (bytes "HTTP/1.1") := by decide +kernel
  have hdigits : ∀ b ∈ Bytes.ofNat n, isspace b = false :=
    fun b hb => not_isspace_of_isdigit (isdigit_of_mem_ofNat hb)
  rw [hline, extract_append hversion.1 hversion.2 (by simp [isspace]), Option.bind_some,
    extract_cons_of_isspace rfl,
    extract_append (ofNat_ne_nil n) hdigits (by simp [isspace]), Option.map_some,
    digitsVal_ofNat, Int.toNat_natCast]

variable (host : Host)

/-- The header fields of a response; one with code 304 announces no content. -/
def fields (r : HttpResponse) : List (Bytes × Bytes) :=
  let connection :=
    (bytes "Connection", if r.isKeepAlive then bytes "keep-alive" else bytes "close")
  if r.code = 304 then
    (bytes "Date", ConditionalRequestHandler.formatHttpDate host.ctime host.clock.systemNow) ::
      ((r.headers.lookup (bytes "ETag")).toList.map (bytes "ETag", ·) ++ [connection])
  else
    [(bytes "Content-Type", r.getFileType), (bytes "Content-Length", Bytes.ofNat r.getBodyLen),
      connection]

/-- The response as a client that reads it whole has it. -/
def view (r : HttpResponse) : ReceivedResponse := ⟨r.code.toNat, r.fields host, r.body⟩

/-- The header without the empty line that ends it. -/
def head (r : HttpResponse) : Bytes :=
  List.intercalate crlf (statusWords r.code :: (r.fields host).map printField)

lemma printField_connection (r : HttpResponse) :
    printField (bytes "Connection", if r.isKeepAlive then bytes "keep-alive" else bytes "close") ++
      crlf = r.connectionHeader := by
  rw [connectionHeader]
  cases r.isKeepAlive <;> rfl

lemma headerString_finish (u : HttpResponse) :
    (u.finish host).headerString = u.head host ++ headEnd := by
  have hconnection := printField_connection u
  have hstate : u.addStateLine.statusLine = statusWords u.code ++ crlf := by
    rw [addStateLine, statusWords]
  rw [finish, addContent, addHeader, head, fields]
  by_cases hcode : u.code = 304
  · have hopen : u.addStateLine.code = 304 := hcode
    rw [if_pos hopen, if_pos hcode, hstate]
    change _ ++ _ ++ u.connectionHeader ++ crlf = _
    have htag : u.addStateLine.headers = u.headers := rfl
    rw [htag]
    cases u.headers.lookup (bytes "ETag") with
    | none =>
      simp only [Option.toList_none, List.map_nil, List.nil_append, List.map_cons, headEnd,
        List.intercalate_cons_of_ne_nil (List.cons_ne_nil _ _), List.intercalate_singleton,
        ← hconnection]
      simp [printField, bytes]
    | some etag =>
      simp only [Option.toList_some, List.map_cons, List.map_nil, List.cons_append,
        List.nil_append, headEnd, List.intercalate_cons_of_ne_nil (List.cons_ne_nil _ _),
        List.intercalate_singleton, ← hconnection]
      simp [printField, bytes]
  · have hopen : u.addStateLine.code ≠ 304 := hcode
    rw [if_neg hopen, if_neg hcode, hstate]
    change _ ++ _ ++ u.connectionHeader ++ crlf = _
    simp only [List.map_cons, List.map_nil, headEnd,
      List.intercalate_cons_of_ne_nil (List.cons_ne_nil _ _), List.intercalate_singleton,
      ← hconnection]
    simp [printField, bytes]
    rfl

/-! ### What is known of a response -/

/-- What a response says comes from the server's own stock: its codes, its types and its tags. -/
structure Sound (r : HttpResponse) : Prop where
  code : r.code ∈ statusCodes
  etag : ∀ etag ∈ r.headers.lookup (bytes "ETag"),
    ∃ fileStat, etag = ConditionalRequestHandler.generateWeakETag fileStat

/-- No byte is a blank or a control character. -/
def Dark (s : Bytes) : Prop := ∀ b ∈ s, 32 < b

instance (s : Bytes) : Decidable (Dark s) := inferInstanceAs (Decidable (∀ _ ∈ _, _))

lemma Dark.plain {s : Bytes} (h : Dark s) {b : UInt8} (hb : b ∈ s) :
    b ≠ cr ∧ b ≠ lf ∧ isblank b = false := by
  have hlt := h b hb
  refine ⟨?_, ?_, ?_⟩
  · rintro rfl
    revert hlt
    decide
  · rintro rfl
    revert hlt
    decide
  · by_contra hblank
    rw [Bool.not_eq_false, isblank, Bool.or_eq_true, decide_eq_true_eq,
      decide_eq_true_eq] at hblank
    rcases hblank with rfl | rfl <;> revert hlt <;> decide

lemma Dark.bare {s : Bytes} (h : Dark s) : Bare s := by
  rintro b (hb | hb)
  · exact (h.plain (List.mem_of_mem_head? hb)).2.2
  · exact (h.plain (List.mem_of_getLast? hb)).2.2

lemma Dark.plainValue {s : Bytes} (h : Dark s) : PlainValue s :=
  ⟨fun _ hb => ⟨(h.plain hb).1, (h.plain hb).2.1⟩, h.bare⟩

lemma dark_append {s t : Bytes} : Dark (s ++ t) ↔ Dark s ∧ Dark t := List.forall_mem_append

lemma lt_of_isdigit {b : UInt8} (h : isdigit b = true) : 32 < b := by
  rw [isdigit, Bool.and_eq_true, decide_eq_true_eq] at h
  exact UInt8.lt_of_lt_of_le (by decide) h.1

lemma dark_ofNat (n : ℕ) : Dark (Bytes.ofNat n) := fun _ hb =>
  lt_of_isdigit (isdigit_of_mem_ofNat hb)

lemma dark_etag (fileStat : FileStat) :
    Dark (ConditionalRequestHandler.generateWeakETag fileStat) := by
  have hseconds : Dark (Bytes.ofInt (ConditionalRequestHandler.toSeconds
      fileStat.lastModified)) := by
    intro b hb
    rcases digit_or_minus_of_mem_ofInt hb with hdigit | rfl
    · exact lt_of_isdigit hdigit
    · decide
  rw [ConditionalRequestHandler.generateWeakETag]
  simp only [dark_append]
  exact ⟨⟨⟨⟨by decide +kernel, dark_ofNat _⟩, by decide +kernel⟩, hseconds⟩, by decide +kernel⟩

lemma dark_getFileType (r : HttpResponse) : Dark r.getFileType := by
  have htable : ∀ type ∈ bytes "text/plain" :: suffixType.map Prod.snd, Dark type := by
    simp [suffixType, Dark, bytes]
  apply htable
  rw [getFileType]
  cases suffix r.path with
  | none => exact List.mem_cons_self ..
  | some suffix =>
    dsimp only
    cases hlookup : suffixType.lookup suffix with
    | none => exact List.mem_cons_self ..
    | some type =>
      obtain ⟨before, after, heq, -⟩ := List.lookup_eq_some_iff.mp hlookup
      rw [heq]
      simp

/-- Every field of a sound response can be printed and read again, if the date can. -/
lemma Sound.plainEntry {r : HttpResponse} (h : r.Sound)
    (hdate : PlainValue (ConditionalRequestHandler.formatHttpDate host.ctime host.clock.systemNow)) :
    ∀ field ∈ r.fields host, PlainEntry field := by
  have hnames : ∀ name ∈ [bytes "Connection", bytes "Date", bytes "ETag", bytes "Content-Type",
      bytes "Content-Length"], name ≠ [] ∧ 58 ∉ name ∧ Dark name := by
    simp [Dark, bytes]
  have hentry : ∀ name ∈ [bytes "Connection", bytes "Date", bytes "ETag", bytes "Content-Type",
      bytes "Content-Length"], ∀ value, PlainValue value → PlainEntry (name, value) := by
    intro name hmem value hvalue
    obtain ⟨hne, hcolon, hdark⟩ := hnames name hmem
    refine ⟨hne, fun b hb => ⟨?_, hdark.plainValue.plain b hb⟩, hdark.bare, hvalue⟩
    rintro rfl
    exact hcolon hb
  have hconnection : Dark (if r.isKeepAlive then bytes "keep-alive" else bytes "close") := by
    cases r.isKeepAlive <;> decide +kernel
  intro field hmem
  rw [fields] at hmem
  by_cases hcode : r.code = 304
  · rw [if_pos hcode] at hmem
    simp only [List.mem_cons, List.mem_append, List.mem_map, Option.mem_toList,
      List.not_mem_nil, or_false] at hmem
    rcases hmem with rfl | ⟨etag, hetag, rfl⟩ | rfl
    · exact hentry _ (by simp) _ hdate
    · obtain ⟨fileStat, rfl⟩ := h.etag etag hetag
      exact hentry _ (by simp) _ (dark_etag fileStat).plainValue
    · exact hentry _ (by simp) _ hconnection.plainValue
  · rw [if_neg hcode] at hmem
    simp only [List.mem_cons, List.not_mem_nil, or_false] at hmem
    rcases hmem with rfl | rfl | rfl
    · exact hentry _ (by simp) _ (dark_getFileType r).plainValue
    · exact hentry _ (by simp) _ (dark_ofNat _).plainValue
    · exact hentry _ (by simp) _ hconnection.plainValue

lemma lookup_etag_finish (u : HttpResponse) :
    (u.finish host).headers.lookup (bytes "ETag") = u.headers.lookup (bytes "ETag") := by
  have hheaders : ((u.addStateLine).addHeader host).headers = u.headers := by
    rw [addHeader]
    split_ifs <;> rfl
  have hne : bytes "ETag" ≠ bytes "Content-length" := by decide +kernel
  rw [finish, addContent, insertHeader, List.lookup_cons, beq_false_of_ne hne, hheaders]
  exact DiffersIn.lookup_filter_ne hne _

lemma sound_finish_iff (u : HttpResponse) : (u.finish host).Sound ↔ u.Sound := by
  have hcode : (u.finish host).code = u.code := by rw [finish_eq]
  have hetag := lookup_etag_finish host u
  constructor
  · rintro ⟨h, htag⟩
    rw [hcode] at h
    rw [hetag] at htag
    exact ⟨h, htag⟩
  · rintro ⟨h, htag⟩
    rw [← hcode] at h
    rw [← hetag] at htag
    exact ⟨h, htag⟩

lemma fields_finish (u : HttpResponse) : (u.finish host).fields host = u.fields host := by
  rw [fields, fields, lookup_etag_finish, finish_eq]
  rfl

lemma body_finish (u : HttpResponse) : (u.finish host).body = u.body := by
  rw [body, body, finish_eq]

/-- `Init` decides for 304 with the tag of the file, or leaves the code that it was given. -/
lemma sound_init (r : HttpResponse) (srcDir path : Bytes) (isKeepAlive : Bool) (code : ℤ)
    (request : HttpRequest) :
    let r := (r.init host srcDir path isKeepAlive code (some request)).1
    (r.code = code ∨ r.code = 304) ∧ ∀ etag ∈ r.headers.lookup (bytes "ETag"),
      ∃ fileStat, etag = ConditionalRequestHandler.generateWeakETag fileStat := by
  have htag : ∀ etag accessed, ConditionalRequestHandler.shouldReturn304 host.ctime host.disk
      host.clock request (srcDir ++ path) = ((true, etag), accessed) →
      ∃ fileStat, etag = ConditionalRequestHandler.generateWeakETag fileStat := by
    intro etag accessed h
    rw [ConditionalRequestHandler.shouldReturn304,
      ConditionalRequestHandler.getFileStat] at h
    split at h
    · cases h
    · rename_i fileStat _ hstat
      simp only [Prod.mk.injEq] at h
      rw [← h.1.2]
      split at hstat
      · cases hstat
        exact ⟨_, rfl⟩
      · cases hstat
  simp only [init]
  split_ifs
  · split
    · exact ⟨.inl rfl, by simp⟩
    · rename_i etag accessed heq
      refine ⟨.inr rfl, ?_⟩
      split_ifs
      · simp
      · intro tag hmem
        rw [insertHeader, List.lookup_cons, beq_self_eq_true, Option.mem_some_iff] at hmem
        exact hmem ▸ htag etag accessed heq
  · exact ⟨.inl rfl, by simp⟩

lemma sound_makeResponse {resources resources' : StaticResourceManager} {r response : HttpResponse}
    (hcode : r.code = -1 ∨ r.code ∈ statusCodes)
    (htag : ∀ etag ∈ r.headers.lookup (bytes "ETag"),
      ∃ fileStat, etag = ConditionalRequestHandler.generateWeakETag fileStat)
    (h : (r.makeResponse host resources).1 = some (response, resources')) : response.Sound := by
  have herror : ∀ u : HttpResponse, u.errorHtml.code = u.code ∧ u.errorHtml.headers = u.headers := by
    intro u
    rw [errorHtml]
    split_ifs <;> exact ⟨rfl, rfl⟩
  have hmissing : (404 : ℤ) ∈ statusCodes := by decide
  have hload : ∀ (u : HttpResponse) (path : Bytes), u.Sound →
      (u.loadBody host resources path).1.1.Sound := by
    intro u path hu
    rw [loadBody]
    split_ifs with hok hmodified
    · split
      · exact ⟨hu.code, hu.etag⟩
      · refine ⟨?_, ?_⟩
        · rw [(herror _).1]
          exact hmissing
        · rw [(herror _).2]
          exact hu.etag
    · refine ⟨?_, ?_⟩
      · rw [(herror _).1]
        exact hu.code
      · rw [(herror _).2]
        exact hu.etag
    · exact hu
  have hdecide : ∀ code accessed, r.decideCode host (r.srcDir ++ r.path) = (some code, accessed) →
      code ∈ statusCodes := by
    intro code accessed hcases
    rw [decideCode] at hcases
    split_ifs at hcases with hopen
    · split at hcases <;> cases hcases <;> decide
    · cases hcases
      exact hcode.resolve_left hopen
  rw [makeResponse] at h
  cases hcases : r.decideCode host (r.srcDir ++ r.path) with
  | mk code accessed =>
    cases code with
    | none => simp [hcases] at h
    | some code =>
      simp only [hcases, Option.some.injEq, Prod.mk.injEq] at h
      obtain ⟨rfl, -⟩ := h
      exact (sound_finish_iff host _).mpr
        (hload { r with code := code, path := _ } _ ⟨hdecide code accessed hcases, htag⟩)

end HttpResponse

namespace ServerEnv

variable (env : ServerEnv)

lemma errorCode_mem (error : Error) : errorCode error ∈ HttpResponse.statusCodes := by
  rw [errorCode]
  split_ifs <;> decide

lemma sound_of_answer {resources resources' : StaticResourceManager} {request : HttpRequest}
    {response : HttpResponse} {accessed : List Bytes}
    (h : env.answer resources request = (some (response, resources'), accessed)) :
    response.Sound := by
  have hinit : ((env.initResponse request).1.code = -1 ∨
      (env.initResponse request).1.code ∈ HttpResponse.statusCodes) ∧
      ∀ etag ∈ (env.initResponse request).1.headers.lookup (bytes "ETag"),
        ∃ fileStat, etag = ConditionalRequestHandler.generateWeakETag fileStat := by
    have hmodified : (304 : ℤ) ∈ HttpResponse.statusCodes := by decide
    simp only [initResponse]
    split_ifs
    · obtain ⟨hcode, htag⟩ := HttpResponse.sound_init env.host HttpResponse.new env.staticRoot
        (resourcePath ((RequestValidator.new env.staticRoot).validateRequest
          request).normalizedPath) request.isKeepAlive (-1) request
      refine ⟨hcode.imp_right fun h => ?_, htag⟩
      rw [h]
      exact hmodified
    · obtain ⟨hcode, htag⟩ := HttpResponse.sound_init env.host HttpResponse.new env.staticRoot []
        request.isKeepAlive (errorCode ((RequestValidator.new env.staticRoot).validateRequest
          request).error) request
      refine ⟨.inr ?_, htag⟩
      rcases hcode with hcode | hcode
      · rw [hcode]
        exact errorCode_mem _
      · rw [hcode]
        exact hmodified
  rw [answer] at h
  exact HttpResponse.sound_makeResponse env.host hinit.1 hinit.2 (congrArg Prod.fst h)

end ServerEnv

/-! ### One response -/

namespace Client

open HttpResponse

variable {host : Host} {u : HttpResponse}

lemma isLine_head (hsound : u.Sound) (hentries : ∀ field ∈ u.fields host, PlainEntry field) :
    ∀ line ∈ statusWords u.code :: (u.fields host).map printField, IsLine line := by
  rw [List.forall_mem_cons, List.forall_mem_map]
  exact ⟨isLine_statusWords hsound.code, fun field hmem => (hentries field hmem).isLine⟩

lemma readHead_head (hsound : u.Sound) (hentries : ∀ field ∈ u.fields host, PlainEntry field) :
    readHead (u.head host) = some (u.code.toNat, u.fields host) := by
  have hpositive : ∀ code ∈ statusCodes, 0 ≤ code := by decide
  have hstatus := extract_statusWords (hpositive u.code hsound.code)
  obtain ⟨first, hfirst, hrest⟩ := Option.bind_eq_some_iff.mp hstatus
  obtain ⟨second, hsecond, hcode⟩ := Option.map_eq_some_iff.mp hrest
  rw [readHead, head, map_popCr_getlines (isLine_head hsound hentries)]
  simp only [hfirst, hsecond, Option.bind_some, mapM_readField hentries, Option.map_some, hcode]

lemma find_headerString (hsound : u.Sound) (hentries : ∀ field ∈ u.fields host, PlainEntry field)
    (more : Bytes) : find headEnd (u.head host ++ headEnd ++ more) = some (u.head host).length := by
  rw [List.append_assoc]
  exact find_intercalate_crlf (List.cons_ne_nil _ _) (isLine_head hsound hentries) more

/-- The header tells the length of the body. -/
lemma bodyLength_fields (hsound : u.Sound) (isHead : Bool) :
    bodyLength isHead u.code.toNat (u.fields host) =
      some (if isHead then 0 else u.announced) := by
  have hcodes : ∀ code ∈ statusCodes, code ≠ 304 →
      ¬ (code.toNat < 200 ∨ code.toNat = 204 ∨ code.toNat = 304) := by decide
  have htype : (bytes "Content-Type").map tolower ≠ bytes "content-length" := by decide +kernel
  have hlength : (bytes "Content-Length").map tolower = bytes "content-length" := by
    decide +kernel
  rw [bodyLength, announced, fields]
  cases isHead with
  | true => simp
  | false =>
    by_cases hcode : u.code = 304
    · simp [hcode]
    · have hbody := hcodes u.code hsound.code hcode
      simp only [Bool.false_eq_true, false_or, if_false, if_neg hbody, if_neg hcode,
        List.find?_cons, decide_eq_false htype, hlength, decide_true, Option.map_some,
        digitsVal_ofNat]

/-- What a client makes of a header and the bytes behind it. -/
lemma turn_headerString (hsound : u.Sound) (hentries : ∀ field ∈ u.fields host, PlainEntry field)
    (isHead : Bool) (awaited : List Bool) (received : List ReceivedResponse) (more : Bytes) :
    let length := if isHead then 0 else u.announced
    (Client.mk (isHead :: awaited) received).turn (u.head host ++ headEnd ++ more) =
      if more.length < length then .wait
      else .consume ((u.head host ++ headEnd).length + length)
        ⟨awaited, received ++ [⟨u.code.toNat, u.fields host, more.take length⟩]⟩ := by
  have hfind := find_headerString hsound hentries more
  have htake : (u.head host ++ headEnd ++ more).take (u.head host).length = u.head host := by
    rw [List.append_assoc, List.take_left]
  have hend : (u.head host).length + 4 = (u.head host ++ headEnd).length := by
    rw [List.length_append]
    rfl
  have hread : readHead ((u.head host ++ headEnd ++ more).take (u.head host).length) =
      some (u.code.toNat, u.fields host) := by
    rw [htake, readHead_head hsound hentries]
  have hawaited : (Client.mk (isHead :: awaited) received).awaited = isHead :: awaited := rfl
  have hturn := turn_of_find hawaited hfind hread (bodyLength_fields hsound isHead)
  rw [hend, List.drop_left] at hturn
  rw [hturn, List.length_append]
  simp only [Nat.add_lt_add_iff_left]

/-- A client waits for the end of the header. -/
lemma turn_of_short (hsound : u.Sound) (hentries : ∀ field ∈ u.fields host, PlainEntry field)
    (isHead : Bool) (awaited : List Bool) (received : List ReceivedResponse) {part : Bytes}
    (hpart : part <+: u.head host ++ headEnd) (hne : part ≠ u.head host ++ headEnd) :
    (Client.mk (isHead :: awaited) received).turn part = .wait := by
  have hnone : find headEnd part = none := by
    rw [Option.eq_none_iff_forall_ne_some]
    intro i hfind
    obtain ⟨more, hmore⟩ := hpart
    have hlater := find_append more hfind
    have hwhole := find_headerString hsound hentries []
    rw [hmore] at hlater
    rw [List.append_nil, hlater, Option.some_inj] at hwhole
    have hle : i + 4 ≤ part.length := find_add_length_le hfind
    have hlength := congrArg List.length hmore
    rw [List.length_append, List.length_append, hwhole.symm] at hlength
    have hmore' : more = [] := by
      apply List.eq_nil_of_length_eq_zero
      have hfour : headEnd.length = 4 := rfl
      omega
    rw [hmore', List.append_nil] at hmore
    exact hne hmore
  simp only [turn, hnone]

end Client

/-! ### The responses of a connection -/

namespace Exchange

/-- The client has sent a `HEAD`, to which no response has a body. -/
def isHead (e : Exchange) : Bool := e.request.method = bytes "HEAD"

/-- The part of a response that its client takes for it. -/
def taken (e : Exchange) : Bytes :=
  if e.isHead then e.response.headerString else e.response.print

/-- The response as its client reads it. -/
def read (host : Host) (e : Exchange) : ReceivedResponse :=
  ⟨e.response.code.toNat, e.response.fields host, if e.isHead then [] else e.response.body⟩

/-- A response to `HEAD` has no body. -/
def Regular (e : Exchange) : Prop := e.isHead = true → e.response.body = []

instance (e : Exchange) : Decidable e.Regular := inferInstanceAs (Decidable (_ → _))

lemma taken_of_regular {e : Exchange} (h : e.Regular) : e.taken = e.response.print := by
  rw [taken, HttpResponse.print]
  split_ifs with hhead
  · rw [h hhead, List.append_nil]
  · rfl

lemma read_of_regular {e : Exchange} (h : e.Regular) (host : Host) :
    e.read host = e.response.view host := by
  rw [read, HttpResponse.view]
  split_ifs with hhead
  · rw [h hhead]
  · rfl

end Exchange

/-- The surroundings that answered, and their date fits into a header. -/
structure Answered (e : ServerEnv × Exchange) : Prop where
  answer : ∃ resources resources' accessed,
    e.1.answer resources e.2.request = (some (e.2.response, resources'), accessed)
  date : PlainValue
    (ConditionalRequestHandler.formatHttpDate e.1.host.ctime e.1.host.clock.systemNow)

/-- Behind a response the client waits for the next one. -/
lemma Answered.reads {e : ServerEnv × Exchange} (h : Answered e) (awaited : List Bool)
    (received : List ReceivedResponse) :
    Client.machine.Reads ⟨e.2.isHead :: awaited, received⟩ e.2.taken
      ⟨awaited, received ++ [e.2.read e.1.host]⟩ := by
  obtain ⟨⟨resources, resources', accessed, hanswer⟩, hdate⟩ := h
  have hlength := e.1.announced_eq_length hanswer
  have hsound := e.1.sound_of_answer hanswer
  obtain ⟨u, -, heq⟩ := e.1.made_of_answer hanswer
  have hu : u.Sound := (HttpResponse.sound_finish_iff e.1.host u).mp (heq ▸ hsound)
  have hentries := hu.plainEntry e.1.host hdate
  have hheader : e.2.response.headerString = u.head e.1.host ++ headEnd := by
    rw [heq, HttpResponse.headerString_finish]
  have hannounced : u.announced = e.2.response.body.length := by
    rw [← hlength, heq, HttpResponse.finish_eq]
    rfl
  have hread : e.2.read e.1.host = ⟨u.code.toNat, u.fields e.1.host,
      if e.2.isHead then [] else e.2.response.body⟩ := by
    rw [Exchange.read, heq, HttpResponse.fields_finish, HttpResponse.body_finish,
      HttpResponse.finish_eq]
  have hturn := Client.turn_headerString hu hentries e.2.isHead awaited received
  have hshort := @Client.turn_of_short e.1.host u hu hentries e.2.isHead awaited received
  rw [← hheader] at hturn hshort
  have htaken : e.2.taken = e.2.response.headerString ++
      if e.2.isHead then [] else e.2.response.body := by
    rw [Exchange.taken, HttpResponse.print]
    split_ifs
    · rw [List.append_nil]
    · rfl
  have hbody : (if e.2.isHead then 0 else u.announced) =
      (if e.2.isHead then [] else e.2.response.body).length := by
    split_ifs
    · rfl
    · exact hannounced
  rw [htaken, hread]
  generalize (if e.2.isHead then [] else e.2.response.body) = body at hbody ⊢
  simp only [hbody] at hturn
  constructor
  · have hwhole := hturn body
    rw [if_neg (Nat.lt_irrefl _), List.take_length, ← List.length_append] at hwhole
    exact hwhole
  · intro part hpart hne
    rcases prefix_append_cases hpart with ⟨hwithin, hne'⟩ | ⟨more, rfl, hmore⟩
    · exact hshort hwithin hne'
    · refine (hturn more).trans (if_pos (lt_of_le_of_ne hmore.length_le fun hlen => hne ?_))
      rw [hmore.eq_of_length hlen]

/-- Whatever the cut, the client has read the responses that are complete in what it got. -/
lemma run_client {exchanges front : List (ServerEnv × Exchange)} (hfront : front <+: exchanges)
    (h : ∀ e ∈ front, Answered e) {chunks : List Bytes}
    (hchunks : chunks.flatten <+: (front.map (·.2.taken)).flatten) :
    ∃ k, Machine.Complete (front.map (·.2.taken)) chunks.flatten k ∧
      (Client.machine.run (.start (exchanges.map (·.2.isHead))) chunks).state.received =
        (front.take k).map fun e => e.2.read e.1.host := by
  let state : ℕ → Client := fun i => ⟨(exchanges.map (·.2.isHead)).drop i,
    (front.take i).map fun e => e.2.read e.1.host⟩
  have hend : ∀ i, Client.machine.turn (state i) [] = .wait := by
    intro i
    change (state i).turn [] = .wait
    rw [Client.turn]
    cases (state i).awaited <;> rfl
  have hreads : ∀ i (hi : i < (front.map (·.2.taken)).length),
      Client.machine.Reads (state i) (front.map (·.2.taken))[i] (state (i + 1)) := by
    intro i hi
    rw [List.length_map] at hi
    have hmem := List.getElem_mem hi
    have hawaited : (exchanges.map (·.2.isHead)).drop i =
        front[i].2.isHead :: (exchanges.map (·.2.isHead)).drop (i + 1) := by
      have hlen : i < (exchanges.map (·.2.isHead)).length := by
        rw [List.length_map]
        exact hi.trans_le hfront.length_le
      rw [List.drop_eq_getElem_cons hlen, List.getElem_map, hfront.getElem hi]
    have hreceived : (front.take (i + 1)).map (fun e => e.2.read e.1.host) =
        (front.take i).map (fun e => e.2.read e.1.host) ++ [front[i].2.read front[i].1.host] := by
      rw [List.take_succ_eq_append_getElem hi, List.map_append, List.map_singleton]
    rw [List.getElem_map]
    change Client.machine.Reads ⟨(exchanges.map (·.2.isHead)).drop i, _⟩ _ ⟨_, _⟩
    rw [hawaited, hreceived]
    exact (h _ hmem).reads _ _
  obtain ⟨k, hcomplete, hstate, -⟩ := Machine.run_messages hreads (hend _) hchunks
  exact ⟨k, hcomplete, congrArg Client.received hstate⟩

namespace Session

/-- Whatever part of the queued bytes reaches the client, and in whatever pieces, the client has read
the responses that are complete in it as the server made them. -/
def InStep (t : Session) (exchanges : List (ServerEnv × Exchange)) : Prop :=
  ∀ chunks : List Bytes, chunks.flatten <+: t.queued →
    ∃ k, Machine.Complete (exchanges.map (·.2.response.print)) chunks.flatten k ∧
      (Client.machine.run (.start (exchanges.map (·.2.isHead))) chunks).state.received =
        (exchanges.take k).map fun e => e.2.response.view e.1.host

/-- The exchanges of which something is queued come first. Each of their headers is queued behind the
responses in front of it. -/
lemma Posts.front {s t : Session} {exchanges : List (ServerEnv × Exchange)}
    (h : Posts s exchanges t) (hstart : s.queued = []) :
    ∃ front rest, exchanges = front ++ rest ∧ (∀ e ∈ front, e.2.queued = true) ∧
      (∀ e ∈ rest, e.2.queued = false) ∧ t.queued <+: printAll front ∧
      ∀ before e after, front = before ++ e :: after →
        printAll before ++ e.2.response.headerString <+: t.queued := by
  have hheader : ∀ (e : ServerEnv × Exchange) (after : List (ServerEnv × Exchange)) (tail : Bytes),
      e.2.response.headerString <+: printAll (e :: after) ++ tail := by
    intro e after tail
    rw [printAll, List.flatMap_cons, HttpResponse.print]
    simp only [List.append_assoc]
    apply List.prefix_append
  obtain ⟨sent, lost, tail, rfl, hsent, hqueued, hunsent⟩ := h.posted
  rw [hstart, List.nil_append] at hqueued
  have hwithin : ∀ before e after, sent = before ++ e :: after →
      printAll before ++ e.2.response.headerString <+: t.queued := by
    rintro before e after rfl
    rw [hqueued, printAll_append, List.append_assoc, List.prefix_append_right_inj]
    exact hheader e after tail
  cases hunsent with
  | none =>
    rw [List.append_nil] at hqueued
    exact ⟨sent, [], rfl, hsent, by simp, hqueued ▸ List.prefix_rfl, hwithin⟩
  | refused hstopped hlost =>
    rw [List.append_nil] at hqueued
    exact ⟨sent, lost, rfl, hsent, hlost, hqueued ▸ List.prefix_rfl, hwithin⟩
  | @cut e lost hstopped htrue hbody hlost =>
    refine ⟨sent ++ [e], lost, by simp, ?_, hlost, ?_, ?_⟩
    · rw [List.forall_mem_append, List.forall_mem_singleton]
      exact ⟨hsent, htrue⟩
    · rw [hqueued, printAll_append, List.prefix_append_right_inj, printAll, List.flatMap_singleton,
        HttpResponse.print]
      apply List.prefix_append
    · intro before e' after hsplit
      rcases List.eq_nil_or_concat' after with rfl | ⟨after, last, rfl⟩
      · obtain ⟨rfl, hlast⟩ := List.append_inj' hsplit rfl
        cases hlast
        rw [hqueued]
      · rw [← List.cons_append, ← List.append_assoc] at hsplit
        exact hwithin before e' after (List.append_inj' hsplit rfl).1

lemma printAll_eq (exchanges : List (ServerEnv × Exchange)) :
    printAll exchanges = (exchanges.map (·.2.response.print)).flatten := List.flatMap_def

lemma map_taken {front : List (ServerEnv × Exchange)} (h : ∀ e ∈ front, e.2.Regular) :
    front.map (·.2.taken) = front.map (·.2.response.print) :=
  List.map_congr_left fun e hmem => e.2.taken_of_regular (h e hmem)

/-- The client is in step exactly if no `HEAD` of which anything was queued was answered with a
body. -/
lemma Posts.inStep_iff {s t : Session} {exchanges : List (ServerEnv × Exchange)}
    (h : Posts s exchanges t) (hstart : s.queued = []) (hanswered : ∀ e ∈ exchanges, Answered e) :
    t.InStep exchanges ↔ ∀ e ∈ exchanges, e.2.queued = true → e.2.Regular := by
  obtain ⟨front, rest, rfl, hfront, hrest, hqueued, hheaders⟩ := h.front hstart
  have hpresent : ∀ e ∈ front, Answered e := fun e hmem =>
    hanswered e (List.mem_append_left _ hmem)
  have hiff : (∀ e ∈ front ++ rest, e.2.queued = true → e.2.Regular) ↔
      ∀ e ∈ front, e.2.Regular := by
    rw [List.forall_mem_append]
    refine ⟨fun hall e hmem => hall.1 e hmem (hfront e hmem), fun hall => ⟨fun e hmem _ => hall e hmem,
      fun e hmem htrue => ?_⟩⟩
    rw [hrest e hmem] at htrue
    cases htrue
  rw [hiff]
  constructor
  · intro hstep
    apply forall_mem_of_front
    rintro before e after rfl hbefore hhead
    -- the client takes the header for the whole response
    have hpart := hheaders before e after rfl
    have htaken : ((before ++ [e]).map (·.2.taken)).flatten =
        printAll before ++ e.2.response.headerString := by
      rw [List.map_append, List.flatten_append, map_taken hbefore, ← printAll_eq,
        List.map_singleton, List.flatten_singleton, Exchange.taken, if_pos hhead]
    have hchunks : ([printAll before ++ e.2.response.headerString] : List Bytes).flatten =
        printAll before ++ e.2.response.headerString := List.flatten_singleton
    obtain ⟨k, hcomplete, hreceived⟩ := hstep [_] (hchunks.symm ▸ hpart)
    have hprefix : before ++ [e] <+: before ++ e :: after ++ rest := by
      rw [List.append_assoc, List.prefix_append_right_inj, List.cons_append]
      exact List.prefix_append [e] (after ++ rest)
    have hpresent' : ∀ e' ∈ before ++ [e], Answered e' := fun e' hmem =>
      hanswered e' (List.IsPrefix.subset hprefix hmem)
    have hlast : ([printAll before ++ e.2.response.headerString] : List Bytes).flatten <+:
        ((before ++ [e]).map (·.2.taken)).flatten := by rw [hchunks, htaken]
    obtain ⟨k', hcomplete', hreceived'⟩ := run_client hprefix hpresent' hlast
    rw [hchunks, ← htaken] at hcomplete'
    have hall := hcomplete'.eq_length
    rw [List.length_map] at hall
    have hk : k = before.length + 1 := by
      have hlen := congrArg List.length (hreceived.symm.trans hreceived')
      have hle := hcomplete.le_length
      rw [List.length_map] at hle
      rw [List.length_map, List.length_map, hall, List.take_length,
        List.length_take_of_le hle, List.length_append, List.length_singleton] at hlen
      exact hlen
    have hwhole := hcomplete.isPrefix
    have hsplit : (before ++ e :: after ++ rest).take (before.length + 1) = before ++ [e] := by
      rw [List.append_assoc, List.take_length_add_append, List.cons_append, List.take_succ_cons,
        List.take_zero]
    rw [hk, ← List.map_take, hsplit, List.map_append, List.flatten_append, ← printAll_eq, hchunks,
      List.prefix_append_right_inj, List.map_singleton, List.flatten_singleton,
      HttpResponse.print] at hwhole
    have hlen := hwhole.length_le
    rw [List.length_append] at hlen
    exact List.eq_nil_of_length_eq_zero (by omega)
  · intro hregular chunks hchunks
    have hpart := hchunks.trans hqueued
    rw [printAll_eq, ← map_taken hregular] at hpart
    obtain ⟨k, hcomplete, hreceived⟩ := run_client (List.prefix_append front rest) hpresent hpart
    rw [map_taken hregular] at hcomplete hpart
    have hmore : ∀ message ∈ rest.map (·.2.response.print), message ≠ [] := by
      rw [List.forall_mem_map]
      intro e hmem
      obtain ⟨_, _, _, hanswer⟩ := (hanswered e (List.mem_append_right _ hmem)).answer
      simp [HttpResponse.print, e.1.headerString_ne_nil hanswer]
    have hle := hcomplete.le_length
    rw [List.length_map] at hle
    refine ⟨k, ?_, ?_⟩
    · rw [List.map_append]
      exact hcomplete.append hpart hmore
    · rw [hreceived, List.take_append_of_le_length hle]
      exact List.map_congr_left fun e hmem =>
        e.2.read_of_regular (hregular e (List.mem_of_mem_take hmem)) _

/-! ### A connection and its client -/

lemma answer_of_mem_exchanges (env : ServerEnv) (s : Session) :
    ∀ e ∈ s.exchanges env, ∃ resources resources' accessed,
      env.answer resources e.request = (some (e.response, resources'), accessed) := by
  have hone : ∀ s : Session, ∀ e ∈ (s.exchange env).toList, ∃ resources resources' accessed,
      env.answer resources e.request = (some (e.response, resources'), accessed) := by
    intro s e hmem
    obtain ⟨_, resources', accessed, -, -, hanswer, -⟩ :=
      exchange_eq_some env (Option.mem_toList.mp hmem)
    exact ⟨s.resources, resources', accessed, hanswer⟩
  apply exchanges_induction env (P := fun _ exchanges _ => ∀ e ∈ exchanges,
    ∃ resources resources' accessed,
      env.answer resources e.request = (some (e.response, resources'), accessed))
  · exact fun s _ => hone s
  · exact fun s _ _ _ ih => List.forall_mem_append.mpr ⟨hone s, ih⟩

/-- The date that the server would put into a header fits on its line. -/
def PlainDate (env : ServerEnv) : Prop :=
  PlainValue (ConditionalRequestHandler.formatHttpDate env.host.ctime env.host.clock.systemNow)

lemma answered_exchangesOver (s : Session) {moments : List Moment}
    (h : ∀ moment ∈ moments, PlainDate moment.1) : ∀ e ∈ s.exchangesOver moments, Answered e := by
  induction moments generalizing s with
  | nil => simp [exchangesOver]
  | cons moment moments ih =>
    obtain ⟨env, event⟩ := moment
    rw [List.forall_mem_cons] at h
    rw [exchangesOver, List.forall_mem_append, List.forall_mem_map]
    refine ⟨fun e hmem => ⟨?_, h.1⟩, ih _ h.2⟩
    cases event with
    | read reads =>
      rw [eventExchanges] at hmem
      split_ifs at hmem
      · cases hmem
      · exact answer_of_mem_exchanges env _ e hmem
    | _ => cases hmem

/-- In the life of a connection whose only sender is the message callback, the client reads the
stream as the responses that the server made, if and only if no `HEAD` of which anything was queued
was answered with a body. -/
theorem client_reads_iff {id : ℕ} {fd : ℤ} {config : Option LimitsOptions}
    {hasKeepAliveManager : Bool} {kernel : ℕ → WriteOutcome} {moments : List Moment}
    (hown : ∀ moment ∈ moments, moment.Own) (hdate : ∀ moment ∈ moments, PlainDate moment.1) :
    let s := established id fd config hasKeepAliveManager kernel
    (s.after moments).InStep (s.exchangesOver moments) ↔
      ∀ e ∈ s.exchangesOver moments, e.2.queued = true → e.2.Regular := by
  have hstart := keepsOutput_established id fd config hasKeepAliveManager kernel
  have hposts := posts_after (established id fd config hasKeepAliveManager kernel) hown
  exact hposts.inStep_iff hstart.queued (answered_exchangesOver _ hdate)

/-- The server answers a `HEAD` for its page with the page. -/
theorem client_reads_iff_page :
    let s := established 0 5 none false fun _ => .accepted 9
    let get := [(onePageSite, .read [.data (bytes "GET / HTTP/1.1\r\n\r\nGET /a HTT")]),
      (onePageSite, .read [.data (bytes "P/1.1\r\n\r\n")]), (onePageSite, .write)]
    let head := [(onePageSite, .read [.data (bytes "HEAD / HTTP/1.1\r\n\r\n")])]
    (s.after get).InStep (s.exchangesOver get) ∧ ¬ (s.after head).InStep (s.exchangesOver head) := by
  have hdate : PlainDate onePageSite := ⟨by simp [onePageSite,
    ConditionalRequestHandler.formatHttpDate], by simp [Bare, onePageSite,
    ConditionalRequestHandler.formatHttpDate]⟩
  constructor
  · exact (client_reads_iff (by simp [Moment.Own]) (by simp [hdate])).mpr (by decide +kernel)
  · intro hstep
    have hregular := (client_reads_iff (by simp [Moment.Own]) (by simp [hdate])).mp hstep
    revert hregular
    decide +kernel

end Session

end TinyWebServer
