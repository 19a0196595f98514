import TinyWebServer.Http.Conditional
import TinyWebServer.Library.Calendar

/-!
# Calendar functions

`gmtime`, `strftime`, `std::get_time` and `mktime` in the C locale, in a zone at a fixed distance
from UTC.
-/

namespace TinyWebServer

namespace Posix

/-- The names in the C locale. The abbreviated names are their first three letters. -/
def weekdayNames : List Bytes :=
  [bytes "Sunday", bytes "Monday", bytes "Tuesday", bytes "Wednesday", bytes "Thursday",
    bytes "Friday", bytes "Saturday"]

def monthNames : List Bytes :=
  [bytes "January", bytes "February", bytes "March", bytes "April", bytes "May", bytes "June",
    bytes "July", bytes "August", bytes "September", bytes "October", bytes "November",
    bytes "December"]

/-- The conversion specifiers of the formats in use, by their letters. -/
inductive Conversion
  | A
  | a
  | b
  | d
  | H
  | M
  | S
  | Y
  | y
  deriving DecidableEq

/-- What a format consists of. -/
inductive Directive
  | conversion (c : Conversion)
  | blank (b : UInt8)
  | literal (b : UInt8)
  /-- A specification that is not complete or not known. -/
  | invalid
  deriving DecidableEq

def specifier (b : UInt8) : Directive :=
  match b with
  | 65 => .conversion .A
  | 97 => .conversion .a
  | 98 => .conversion .b
  | 100 => .conversion .d
  | 72 => .conversion .H
  | 77 => .conversion .M
  | 83 => .conversion .S
  | 89 => .conversion .Y
  | 121 => .conversion .y
  | _ => .invalid

def directives : Bytes → List Directive
  | [] => []
  | [37] => [.invalid]
  | 37 :: b :: format => specifier b :: directives format
  | b :: format => (if Bytes.isspace b then .blank b else .literal b) :: directives format

/-! ### Printing -/

/-- A number that names nothing prints a question mark. -/
def nameOf (names : List Bytes) (i : ℤ) : Bytes :=
  if 0 ≤ i then names.getD i.toNat (bytes "?") else bytes "?"

/-- At least two digits. -/
def padded (n : ℤ) : Bytes :=
  List.replicate (2 - (Bytes.ofInt n).length) 48 ++ Bytes.ofInt n

def Conversion.print (tm : Tm) : Conversion → Bytes
  | A => nameOf weekdayNames tm.wday
  | a => (nameOf weekdayNames tm.wday).take 3
  | b => (nameOf monthNames tm.mon).take 3
  | d => padded tm.mday
  | H => padded tm.hour
  | M => padded tm.min
  | S => padded tm.sec
  | Y => Bytes.ofInt (tm.year + 1900)
  | y => padded ((tm.year + 1900) % 100)

def Directive.print (tm : Tm) : Directive → Bytes
  | conversion c => c.print tm
  | blank b => [b]
  | literal b => [b]
  | invalid => []

def strftime (format : Bytes) (tm : Tm) : Bytes := (directives format).flatMap (·.print tm)

/-! ### Reading -/

def sameLetters (s t : Bytes) : Bool := s.map Bytes.tolower = t.map Bytes.tolower

/-- The full or the abbreviated name, whatever the case. -/
def readName (names : List Bytes) (s : Bytes) : Option (ℤ × Bytes) :=
  let i := names.findIdx fun name => sameLetters (name.take 3) (s.take 3)
  match names[i]? with
  | none => none
  | some name => some (i, s.drop (if sameLetters name (s.take name.length) then name.length else 3))

/-- As many digits as there are, `width` at most. Leading zeros are not required. -/
def readNumber (width lo hi : ℕ) (s : Bytes) : Option (ℤ × Bytes) :=
  let digits := (s.take width).takeWhile Bytes.isdigit
  let value := Bytes.digitsVal digits
  if digits = [] ∨ value < lo ∨ hi < value then none else some (value, s.drop digits.length)

def Conversion.read (tm : Tm) (s : Bytes) : Conversion → Option (Tm × Bytes)
  | A | a => (readName weekdayNames s).map fun (n, rest) => ({ tm with wday := n }, rest)
  | b => (readName monthNames s).map fun (n, rest) => ({ tm with mon := n }, rest)
  | d => (readNumber 2 1 31 s).map fun (n, rest) => ({ tm with mday := n }, rest)
  | H => (readNumber 2 0 23 s).map fun (n, rest) => ({ tm with hour := n }, rest)
  | M => (readNumber 2 0 59 s).map fun (n, rest) => ({ tm with min := n }, rest)
  | S => (readNumber 2 0 60 s).map fun (n, rest) => ({ tm with sec := n }, rest)
  | Y => (readNumber 4 0 9999 s).map fun (n, rest) => ({ tm with year := n - 1900 }, rest)
  -- 69 to 99 are years of the twentieth century
  | y => (readNumber 2 0 99 s).map fun (n, rest) =>
    ({ tm with year := if n < 69 then n + 100 else n }, rest)

/-- The loop of `time_get::get`. It stops without an error when a conversion reaches the end of the
stream, and with one when it finds itself at the end. -/
def readAll : List Directive → Tm → Bytes → Option Tm
  | [], tm, _ => some tm
  | _ :: _, _, [] => none
  | .conversion c :: ds, tm, s =>
    match c.read tm s with
    | none => none
    | some (tm, rest) => if rest = [] then some tm else readAll ds tm rest
  | .blank _ :: ds, tm, s =>
    match ds with
    -- the last of several blanks skips those of the stream
    | .blank _ :: _ => readAll ds tm s
    | _ => readAll ds tm (s.dropWhile Bytes.isspace)
  | .literal b :: ds, tm, c :: s =>
    if Bytes.tolower b = Bytes.tolower c then readAll ds tm s else none
  | .invalid :: _, _, _ => none

/-- The stream skips blanks first, and fails if nothing is left. -/
def getTime (format : Bytes) (tm : Tm) (s : Bytes) : Option Tm :=
  let s := s.dropWhile Bytes.isspace
  if s = [] then none else readAll (directives format) tm s

/-! ### Times -/

def gmtime (t : ℤ) : Tm :=
  let day := t / 86400
  let date := Calendar.dateOf day
  { sec := t % 60
    min := t / 60 % 60
    hour := t / 3600 % 24
    mday := date.day
    mon := date.month
    year := date.year - 1900
    -- the first of January 1970 was a Thursday
    wday := (day + 4) % 7
    yday := Calendar.yearDay day
    isdst := 0 }

/-- The time at which clocks of UTC show the fields. They need not be in range. -/
def timegm (tm : Tm) : ℤ :=
  let year := tm.year + 1900 + tm.mon / 12
  let month := (tm.mon % 12).toNat
  let day := Calendar.newYear year + Calendar.newMonth (Calendar.isLeap year) month + tm.mday - 1
  day * 86400 + tm.hour * 3600 + tm.min * 60 + tm.sec

/-- The time at which clocks that are ahead of UTC by the offset show the fields. -/
def mktime (offset : ℤ) (tm : Tm) : ℤ × Tm := (timegm tm - offset, gmtime (timegm tm))

end Posix

/-- A process whose local time is ahead of UTC by a fixed number of seconds. -/
def CTime.posix (offset : ℤ) : CTime where
  getTime := Posix.getTime
  mktime := Posix.mktime offset
  gmtime := Posix.gmtime
  strftime := Posix.strftime

end TinyWebServer
