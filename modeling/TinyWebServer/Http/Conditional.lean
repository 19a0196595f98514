import TinyWebServer.Http.FileSystem
import TinyWebServer.Http.Request

/-!
# Conditional requests

Entity tags and modification dates. The calendar functions of the C library are a parameter.
-/

namespace TinyWebServer

/-- `std::tm`. -/
structure Tm where
  sec : ℤ
  min : ℤ
  hour : ℤ
  mday : ℤ
  mon : ℤ
  year : ℤ
  wday : ℤ
  yday : ℤ
  isdst : ℤ
  deriving DecidableEq

def Tm.zero : Tm := ⟨0, 0, 0, 0, 0, 0, 0, 0, 0⟩

/-- The calendar functions of the C and C++ libraries in the process's locale and time zone. -/
structure CTime where
  /-- `iss >> std::get_time(&tm, format)` on a stream that holds the string. -/
  getTime : Bytes → Tm → Bytes → Option Tm
  /-- The time, and the structure with its fields brought into range. -/
  mktime : Tm → ℤ × Tm
  gmtime : ℤ → Tm
  strftime : Bytes → Tm → Bytes

/-- The readings of the clocks, in nanoseconds since their epochs. -/
structure Clock where
  fileNow : ℤ
  systemNow : ℤ

structure FileStat where
  /-- Nanoseconds on the system clock. -/
  lastModified : ℤ
  fileSize : ℕ
  etag : Bytes
  deriving DecidableEq

namespace ConditionalRequestHandler

/-- A cast to whole seconds truncates. -/
def toSeconds (timePoint : ℤ) : ℤ := timePoint.tdiv 1000000000

def generateWeakETag (fileStat : FileStat) : Bytes :=
  bytes "W/\"" ++ Bytes.ofNat fileStat.fileSize ++ bytes "-" ++
    Bytes.ofInt (toSeconds fileStat.lastModified) ++ bytes "\""

def parseHttpDate (ctime : CTime) (date : Bytes) : Option ℤ :=
  match ctime.getTime (bytes "%a, %d %b %Y %H:%M:%S GMT") .zero date with
  | some tm =>
    let tt := (ctime.mktime tm).1
    if tt = -1 then none else some (tt * 1000000000)
  | none =>
    match ctime.getTime (bytes "%A, %d-%b-%y %H:%M:%S GMT") .zero date with
    | some tm =>
      let (tt, tm) := ctime.mktime tm
      if tt = -1 then none
      -- a two-digit year below 70 is taken to lie in the next century
      else if tm.year < 70 then some ((ctime.mktime { tm with year := tm.year + 100 }).1 * 1000000000)
      else some (tt * 1000000000)
    | none =>
      match ctime.getTime (bytes "%a %b %d %H:%M:%S %Y") .zero date with
      | some tm =>
        let tt := (ctime.mktime tm).1
        if tt = -1 then none else some (tt * 1000000000)
      | none => none

def formatHttpDate (ctime : CTime) (timePoint : ℤ) : Bytes :=
  ctime.strftime (bytes "%a, %d %b %Y %H:%M:%S GMT") (ctime.gmtime (toSeconds timePoint))

def checkIfModifiedSince (ctime : CTime) (request : HttpRequest) (fileStat : FileStat) : Bool :=
  let ifModifiedSince := request.getHeader (bytes "if-modified-since")
  if ifModifiedSince = [] then false
  else
    match parseHttpDate ctime ifModifiedSince with
    | none => false
    | some sinceTime => toSeconds fileStat.lastModified ≤ toSeconds sinceTime

/-- Only tests whether the tag occurs in the header, with or without its weakness prefix. -/
def checkIfNoneMatch (request : HttpRequest) (fileStat : FileStat) : Bool :=
  let ifNoneMatch := request.getHeader (bytes "if-none-match")
  if ifNoneMatch = [] then false
  else
    let currentEtag := if fileStat.etag = [] then generateWeakETag fileStat else fileStat.etag
    if ifNoneMatch = bytes "*" then true
    else if (Bytes.find currentEtag ifNoneMatch).isSome then true
    else if 3 < currentEtag.length ∧ currentEtag.take 2 = bytes "W/" then
      (Bytes.find (currentEtag.drop 2) ifNoneMatch).isSome
    else false

def shouldReturn304OfStat (ctime : CTime) (request : HttpRequest) (fileStat : FileStat) : Bool :=
  if request.method ≠ bytes "GET" ∧ request.method ≠ bytes "HEAD" then false
  else checkIfNoneMatch request fileStat || checkIfModifiedSince ctime request fileStat

/-- The file time moves to the system clock by way of one reading of each. Errors of the file
system are caught. -/
def getFileStat (disk : Disk) (clock : Clock) (path : Bytes) : Option FileStat × List Bytes :=
  match disk.existingFile path with
  | (some (some file), accessed) =>
    let lastModified := file.lastWriteTime - clock.fileNow + clock.systemNow
    let fileSize := file.content.length
    let etag := generateWeakETag ⟨lastModified, fileSize, []⟩
    (some ⟨lastModified, fileSize, etag⟩, accessed ++ [Bytes.cstr path, Bytes.cstr path])
  | (_, accessed) => (none, accessed)

def shouldReturn304 (ctime : CTime) (disk : Disk) (clock : Clock) (request : HttpRequest)
    (path : Bytes) : (Bool × Bytes) × List Bytes :=
  match getFileStat disk clock path with
  | (none, accessed) => ((false, []), accessed)
  | (some fileStat, accessed) => ((shouldReturn304OfStat ctime request fileStat, fileStat.etag), accessed)

lemma getFileStat_accessed (disk : Disk) (clock : Clock) (path p : Bytes) :
    p ∈ (getFileStat disk clock path).2 ↔ p = Bytes.cstr path := by
  have hfile := disk.existingFile_accessed path p
  simp only [getFileStat]
  split
  · rename_i heq
    rw [heq] at hfile
    simp [hfile]
  · rename_i heq
    rwa [heq] at hfile

lemma shouldReturn304_accessed (ctime : CTime) (disk : Disk) (clock : Clock)
    (request : HttpRequest) (path p : Bytes) :
    p ∈ (shouldReturn304 ctime disk clock request path).2 ↔ p = Bytes.cstr path := by
  have hstat := getFileStat_accessed disk clock path p
  rw [shouldReturn304]
  split
  · rename_i heq
    rwa [heq] at hstat
  · rename_i heq
    rwa [heq] at hstat

end ConditionalRequestHandler

end TinyWebServer
