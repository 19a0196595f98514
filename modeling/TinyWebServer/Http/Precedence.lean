import TinyWebServer.Http.PosixTime

/-!
# Which condition decides

A request may carry an entity tag and a date. Two requests that differ in the date only get the
same answer where the tag matches, and elsewhere only if no date can be late enough.
-/

namespace TinyWebServer

open Bytes

/-- The requests differ in the presence or the value of one header at most. -/
structure DiffersIn (key : Bytes) (request other : HttpRequest) : Prop where
  method : other.method = request.method
  path : other.path = request.path
  version : other.version = request.version
  isFinished : other.isFinished = request.isFinished
  headers : ∀ key', key' ≠ key → other.headers.lookup key' = request.headers.lookup key'

namespace HttpRequest

lemma getHeader_insertHeader (request : HttpRequest) (key value : Bytes) :
    getHeader { request with headers := insertHeader request.headers key value } key = value := by
  simp [getHeader, insertHeader]

lemma getHeader_filter (request : HttpRequest) (key : Bytes) :
    getHeader { request with headers := request.headers.filter (·.1 ≠ key) } key = [] := by
  have hnone : (request.headers.filter (·.1 ≠ key)).lookup key = none := by
    rw [List.lookup_eq_none_iff]
    intro header hheader
    have hne : header.1 ≠ key := by simpa using (List.mem_filter.mp hheader).2
    exact bne_iff_ne.mpr hne.symm
  rw [getHeader, hnone]
  rfl

end HttpRequest

namespace DiffersIn

variable {key : Bytes} {request : HttpRequest}

lemma getHeader_eq {other : HttpRequest} (h : DiffersIn key request other) {key' : Bytes}
    (hne : key' ≠ key) : other.getHeader key' = request.getHeader key' := by
  rw [HttpRequest.getHeader, HttpRequest.getHeader, h.headers key' hne]

lemma lookup_filter_ne {key' : Bytes} (hne : key' ≠ key) (headers : List (Bytes × Bytes)) :
    (headers.filter (·.1 ≠ key)).lookup key' = headers.lookup key' := by
  induction headers with
  | nil => rfl
  | cons header headers ih =>
    by_cases hkey : header.1 = key
    · rw [List.filter_cons_of_neg (by simp [hkey]), ih, List.lookup_cons,
        beq_false_of_ne (hkey ▸ hne)]
    · rw [List.filter_cons_of_pos (by simp [hkey]), List.lookup_cons, List.lookup_cons, ih]

/-- The request without the header. -/
lemma erase (key : Bytes) (request : HttpRequest) :
    DiffersIn key request { request with headers := request.headers.filter (·.1 ≠ key) } :=
  ⟨rfl, rfl, rfl, rfl, fun _ hne => lookup_filter_ne hne _⟩

/-- The request with another value of the header. -/
lemma insert (key value : Bytes) (request : HttpRequest) :
    DiffersIn key request { request with headers := insertHeader request.headers key value } := by
  refine ⟨rfl, rfl, rfl, rfl, fun key' hne => ?_⟩
  rw [insertHeader, List.lookup_cons, beq_false_of_ne hne]
  exact lookup_filter_ne hne _

end DiffersIn

namespace ConditionalRequestHandler

variable (ctime : CTime) {request : HttpRequest} (fileStat : FileStat)

/-- The header value is a date, and the file has not been modified after it. -/
def NotModifiedSince (date : Bytes) : Prop :=
  date ≠ [] ∧ ∃ sinceTime, parseHttpDate ctime date = some sinceTime ∧
    toSeconds fileStat.lastModified ≤ toSeconds sinceTime

lemma checkIfModifiedSince_eq_true_iff :
    checkIfModifiedSince ctime request fileStat = true ↔
      NotModifiedSince ctime fileStat (request.getHeader (bytes "if-modified-since")) := by
  simp only [checkIfModifiedSince, NotModifiedSince]
  by_cases hempty : request.getHeader (bytes "if-modified-since") = []
  · simp [hempty]
  · rw [if_neg hempty]
    cases parseHttpDate ctime (request.getHeader (bytes "if-modified-since")) with
    | none => simp
    | some sinceTime => simp [hempty]

lemma checkIfNoneMatch_eq {other : HttpRequest}
    (h : DiffersIn (bytes "if-modified-since") request other) :
    checkIfNoneMatch other fileStat = checkIfNoneMatch request fileStat := by
  rw [checkIfNoneMatch, checkIfNoneMatch, h.getHeader_eq (by decide)]

/-- For the methods with conditions the two checks decide. -/
lemma shouldReturn304OfStat_eq
    (hmethod : request.method = bytes "GET" ∨ request.method = bytes "HEAD") :
    shouldReturn304OfStat ctime request fileStat =
      (checkIfNoneMatch request fileStat || checkIfModifiedSince ctime request fileStat) := by
  rw [shouldReturn304OfStat, if_neg]
  tauto

lemma shouldReturn304OfStat_of_differs {other : HttpRequest}
    (hmethod : request.method = bytes "GET" ∨ request.method = bytes "HEAD")
    (h : DiffersIn (bytes "if-modified-since") request other) :
    shouldReturn304OfStat ctime other fileStat =
      (checkIfNoneMatch request fileStat || checkIfModifiedSince ctime other fileStat) := by
  rw [shouldReturn304OfStat_eq ctime fileStat (by rwa [h.method]), checkIfNoneMatch_eq fileStat h]

/-- A GET or HEAD request gets the same answer whatever date comes with it if and only if its
entity tag matches or no date at all is late enough for the file. -/
theorem precedence_iff (hmethod : request.method = bytes "GET" ∨ request.method = bytes "HEAD") :
    (∀ other, DiffersIn (bytes "if-modified-since") request other →
        shouldReturn304OfStat ctime other fileStat =
          shouldReturn304OfStat ctime request fileStat) ↔
      checkIfNoneMatch request fileStat = true ∨
        ∀ date, ¬ NotModifiedSince ctime fileStat date := by
  constructor
  · intro hall
    by_contra hnot
    rw [not_or, not_forall_not] at hnot
    obtain ⟨hmatch, date, hdate⟩ := hnot
    rw [Bool.not_eq_true] at hmatch
    -- Without a date the answer is no, with this one it is yes.
    have herase := DiffersIn.erase (bytes "if-modified-since") request
    have hinsert := DiffersIn.insert (bytes "if-modified-since") date request
    have hsame := (hall _ herase).trans (hall _ hinsert).symm
    rw [shouldReturn304OfStat_of_differs ctime fileStat hmethod herase,
      shouldReturn304OfStat_of_differs ctime fileStat hmethod hinsert, hmatch, Bool.false_or,
      Bool.false_or] at hsame
    have hyes : checkIfModifiedSince ctime { request with
        headers := insertHeader request.headers (bytes "if-modified-since") date } fileStat =
          true := by
      rw [checkIfModifiedSince_eq_true_iff, HttpRequest.getHeader_insertHeader]
      exact hdate
    rw [hyes, checkIfModifiedSince_eq_true_iff, HttpRequest.getHeader_filter] at hsame
    exact hsame.1 rfl
  · rintro (hmatch | hdates) other hother
    · rw [shouldReturn304OfStat_of_differs ctime fileStat hmethod hother,
        shouldReturn304OfStat_eq ctime fileStat hmethod, hmatch, Bool.true_or, Bool.true_or]
    · have hnone : ∀ r : HttpRequest, checkIfModifiedSince ctime r fileStat = false := by
        intro r
        rw [← Bool.not_eq_true, checkIfModifiedSince_eq_true_iff]
        exact hdates _
      rw [shouldReturn304OfStat_of_differs ctime fileStat hmethod hother,
        shouldReturn304OfStat_eq ctime fileStat hmethod, hnone, hnone]

/-! ### A date that decides against the tag -/

/-- A file that has been changed before the date. -/
def changedFile : FileStat := ⟨784111000000000000, 5, bytes "W/\"5-784111000\""⟩

/-- A request with the tag of an earlier version of the file. -/
def staleTag : HttpRequest :=
  { path := bytes "/index.html", method := bytes "GET", version := bytes "HTTP/1.1"
    headers := [(bytes "if-none-match", bytes "W/\"4-784110000\"")], isFinished := true }

/-- The same request with the date. -/
def staleTagDated : HttpRequest :=
  { staleTag with
    headers := insertHeader staleTag.headers (bytes "if-modified-since")
      (bytes "Sun, 06 Nov 1994 08:49:37 GMT") }

/-- The tag is not that of the file, and with the date the answer is that nothing has changed, in a
process that runs on UTC. -/
theorem date_decides_staleTag :
    staleTag.method = bytes "GET" ∧ staleTag.getHeader (bytes "if-none-match") ≠ [] ∧
      DiffersIn (bytes "if-modified-since") staleTag staleTagDated ∧
      shouldReturn304OfStat (.posix 0) staleTag changedFile = false ∧
      shouldReturn304OfStat (.posix 0) staleTagDated changedFile = true :=
  ⟨rfl, by decide, DiffersIn.insert _ _ _, by decide +kernel, by decide +kernel⟩

theorem precedence_staleTag :
    (∀ other, DiffersIn (bytes "if-modified-since") staleTag other →
        shouldReturn304OfStat (.posix 0) other changedFile =
          shouldReturn304OfStat (.posix 0) staleTag changedFile) ↔
      checkIfNoneMatch staleTag changedFile = true ∨
        ∀ date, ¬ NotModifiedSince (.posix 0) changedFile date :=
  precedence_iff (.posix 0) changedFile (Or.inl rfl)

end ConditionalRequestHandler

end TinyWebServer
