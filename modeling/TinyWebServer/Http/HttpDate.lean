import TinyWebServer.Http.PosixTime
import TinyWebServer.Library.Decimal

/-!
# Dates of HTTP

`FormatHttpDate` prints the fields of UTC. `std::get_time` reads them back, but `ParseHttpDate`
hands them to `mktime`, which takes them for local time.
-/

namespace TinyWebServer

namespace Posix

/-! ### Fields -/

def isalpha (b : UInt8) : Bool := 97 ≤ Bytes.tolower b && Bytes.tolower b ≤ 122

/-- The abbreviated names tell the names apart, and the names consist of letters. -/
structure IsNameTable (names : List Bytes) : Prop where
  findIdx : ∀ i < names.length, (names.findIdx fun name =>
    sameLetters (name.take 3) ((names.getD i []).take 3)) = i
  three_le : ∀ name ∈ names, 3 ≤ name.length
  all_isalpha : ∀ name ∈ names, name.all isalpha = true

lemma isNameTable_weekdayNames : IsNameTable weekdayNames where
  findIdx := by decide
  three_le := by decide
  all_isalpha := by decide

lemma isNameTable_monthNames : IsNameTable monthNames where
  findIdx := by decide
  three_le := by decide
  all_isalpha := by decide

lemma sameLetters_self (s : Bytes) : sameLetters s s = true := decide_eq_true rfl

/-- An abbreviated name does not become the full one by what follows it. -/
lemma not_sameLetters {name rest : Bytes} (hlong : 3 < name.length)
    (hname : name.all isalpha = true) (hrest : ∀ b ∈ rest.head?, isalpha b = false) :
    sameLetters name ((name.take 3 ++ rest).take name.length) = false := by
  rw [sameLetters, decide_eq_false_iff_not]
  intro hsame
  have hlength : (name.take 3).length = 3 := List.length_take_of_le hlong.le
  have hfourth := congrArg (·[3]?) hsame
  simp only [List.getElem?_map, List.getElem?_take_of_lt hlong] at hfourth
  rw [List.getElem?_append_right hlength.le, hlength, Nat.sub_self, ← List.head?_eq_getElem?,
    List.getElem?_eq_getElem hlong] at hfourth
  obtain ⟨b, hb, hlower⟩ := Option.map_eq_some_iff.mp hfourth.symm
  have hletter := List.all_eq_true.mp hname _ (List.getElem_mem hlong)
  have hother := hrest b hb
  rw [isalpha, ← hlower] at hletter
  rw [isalpha, hletter] at hother
  contradiction

lemma readName_append {names : List Bytes} (h : IsNameTable names) {i : ℕ} {name : Bytes}
    (hname : names[i]? = some name) {printed rest : Bytes}
    (hprinted : printed = name ∨ printed = name.take 3)
    (hrest : ∀ b ∈ rest.head?, isalpha b = false) :
    readName names (printed ++ rest) = some ((i : ℤ), rest) := by
  have hmem := List.mem_of_getElem? hname
  have hthree := h.three_le name hmem
  obtain ⟨hi, hget⟩ := List.getElem?_eq_some_iff.mp hname
  have hbegins : (printed ++ rest).take 3 = name.take 3 := by
    rcases hprinted with rfl | rfl
    · exact List.take_append_of_le_length hthree
    · exact List.take_left' (List.length_take_of_le hthree)
  have hfound := h.findIdx i hi
  rw [List.getD_eq_getElem _ _ hi, hget] at hfound
  simp only [readName, hbegins, hfound, hname]
  congr 2
  rcases hprinted with rfl | rfl
  · rw [List.take_left, if_pos (sameLetters_self _), List.drop_left]
  · have hlength : (name.take 3).length = 3 := List.length_take_of_le hthree
    rcases hthree.lt_or_eq with hlong | hshort
    · rw [not_sameLetters hlong (h.all_isalpha name hmem) hrest, if_neg Bool.false_ne_true]
      exact List.drop_left' hlength
    · rw [← hshort, ite_self]
      exact List.drop_left' hlength

lemma readNumber_append {width lo hi : ℕ} {digits : Bytes} (rest : Bytes)
    (hdigits : ∀ b ∈ digits, Bytes.isdigit b = true) (hlength : digits.length = width)
    (hwidth : 0 < width) (hlo : lo ≤ Bytes.digitsVal digits) (hhi : Bytes.digitsVal digits ≤ hi) :
    readNumber width lo hi (digits ++ rest) = some ((Bytes.digitsVal digits : ℤ), rest) := by
  have htaken : ((digits ++ rest).take width).takeWhile Bytes.isdigit = digits := by
    rw [List.take_left' hlength]
    exact List.takeWhile_eq_self_iff.mpr hdigits
  have hne : digits ≠ [] := List.ne_nil_of_length_pos (hlength ▸ hwidth)
  simp only [readNumber, htaken, hne, false_or]
  rw [if_neg (by omega), List.drop_left]

/-- What is printed with two digits is read as it was. -/
lemma readNumber_padded {n : ℤ} {lo hi : ℕ} (rest : Bytes) (hlo : lo ≤ n) (hhi : n ≤ hi)
    (hlt : hi < 100) : readNumber 2 lo hi (padded n ++ rest) = some (n, rest) := by
  obtain ⟨n, rfl⟩ := Int.eq_ofNat_of_zero_le (Int.natCast_nonneg lo |>.trans hlo)
  have hlength : (Bytes.ofNat n).length ≤ 2 :=
    (Bytes.length_ofNat_le_iff (by decide)).mpr (by omega)
  have hval : Bytes.digitsVal (padded n) = n :=
    (Bytes.digitsVal_replicate_append _ _).trans (Bytes.digitsVal_ofNat n)
  have hdigits : ∀ b ∈ padded n, Bytes.isdigit b = true := by
    intro b hb
    rcases List.mem_append.mp hb with hb | hb
    · rw [List.eq_of_mem_replicate hb]
      rfl
    · exact Bytes.isdigit_of_mem_ofNat hb
  have htwo : (padded n).length = 2 := by
    rw [padded, List.length_append, List.length_replicate]
    exact Nat.sub_add_cancel hlength
  rw [readNumber_append rest hdigits htwo (by decide) (by omega) (by omega), hval]

lemma readNumber_ofInt {n : ℤ} (rest : Bytes) (hlo : 1000 ≤ n) (hhi : n ≤ 9999) :
    readNumber 4 0 9999 (Bytes.ofInt n ++ rest) = some (n, rest) := by
  obtain ⟨n, rfl⟩ := Int.eq_ofNat_of_zero_le (by omega : 0 ≤ n)
  have hle : (Bytes.ofNat n).length ≤ 4 :=
    (Bytes.length_ofNat_le_iff (by decide)).mpr (by omega)
  have hlong : ¬ (Bytes.ofNat n).length ≤ 3 := by
    rw [Bytes.length_ofNat_le_iff (by decide)]
    omega
  have hval : Bytes.digitsVal (Bytes.ofInt n) = n := Bytes.digitsVal_ofNat n
  have hfour : (Bytes.ofInt n).length = 4 := by
    change (Bytes.ofNat n).length = 4
    omega
  have hdigits : ∀ b ∈ Bytes.ofInt n, Bytes.isdigit b = true :=
    fun b (hb : b ∈ Bytes.ofNat n) => Bytes.isdigit_of_mem_ofNat hb
  rw [readNumber_append rest hdigits hfour (by decide) (by omega) (by omega), hval]

/-- The fields that a conversion prints are in range. -/
def Conversion.Fits (tm : Tm) : Conversion → Prop
  | A | a => 0 ≤ tm.wday ∧ tm.wday < 7
  | b => 0 ≤ tm.mon ∧ tm.mon < 12
  | d => 1 ≤ tm.mday ∧ tm.mday ≤ 31
  | H => 0 ≤ tm.hour ∧ tm.hour ≤ 23
  | M => 0 ≤ tm.min ∧ tm.min ≤ 59
  | S => 0 ≤ tm.sec ∧ tm.sec ≤ 60
  | Y => 1000 ≤ tm.year + 1900 ∧ tm.year + 1900 ≤ 9999
  | y => 69 ≤ tm.year ∧ tm.year ≤ 168

/-- The field that a conversion is about, in another structure. -/
def Conversion.copy (tm tm' : Tm) : Conversion → Tm
  | A | a => { tm' with wday := tm.wday }
  | b => { tm' with mon := tm.mon }
  | d => { tm' with mday := tm.mday }
  | H => { tm' with hour := tm.hour }
  | M => { tm' with min := tm.min }
  | S => { tm' with sec := tm.sec }
  | Y | y => { tm' with year := tm.year }

lemma exists_nameOf {names : List Bytes} {n : ℤ} (h : 0 ≤ n) (hlt : n < names.length) :
    ∃ (i : ℕ) (name : Bytes), n = i ∧ names[i]? = some name ∧ nameOf names n = name := by
  obtain ⟨i, rfl⟩ := Int.eq_ofNat_of_zero_le h
  have hi : i < names.length := Int.ofNat_lt.mp hlt
  refine ⟨i, names[i], rfl, List.getElem?_eq_getElem hi, ?_⟩
  rw [nameOf, if_pos h, Int.toNat_natCast, List.getD_eq_getElem _ _ hi]

lemma readName_nameOf {names : List Bytes} (h : IsNameTable names) {n : ℤ} (hn : 0 ≤ n)
    (hlt : n < names.length) {printed rest : Bytes}
    (hprinted : printed = nameOf names n ∨ printed = (nameOf names n).take 3)
    (hrest : ∀ b ∈ rest.head?, isalpha b = false) :
    readName names (printed ++ rest) = some (n, rest) := by
  obtain ⟨i, name, rfl, hname, heq⟩ := exists_nameOf hn hlt
  rw [heq] at hprinted
  exact readName_append h hname hprinted hrest

/-- A conversion reads what it printed, unless letters follow. -/
lemma Conversion.read_print {c : Conversion} {tm : Tm} (hfits : c.Fits tm) (tm' : Tm)
    {rest : Bytes} (hrest : ∀ b ∈ rest.head?, isalpha b = false) :
    c.read tm' (c.print tm ++ rest) = some (c.copy tm tm', rest) := by
  cases c with
  | A =>
    rw [read, print, readName_nameOf isNameTable_weekdayNames hfits.1 hfits.2 (Or.inl rfl) hrest]
    rfl
  | a =>
    rw [read, print, readName_nameOf isNameTable_weekdayNames hfits.1 hfits.2 (Or.inr rfl) hrest]
    rfl
  | b =>
    rw [read, print, readName_nameOf isNameTable_monthNames hfits.1 hfits.2 (Or.inr rfl) hrest]
    rfl
  | d | H | M | S =>
    rw [read, print, readNumber_padded rest hfits.1 hfits.2 (by decide)]
    rfl
  | Y =>
    rw [read, print, readNumber_ofInt rest hfits.1 hfits.2, Option.map_some]
    dsimp only
    rw [add_sub_cancel_right]
    rfl
  | y =>
    obtain ⟨hlo, hhi⟩ := hfits
    rw [read, print, readNumber_padded rest (by omega) (by omega) (by decide), Option.map_some]
    have hyear : (if (tm.year + 1900) % 100 < 69 then (tm.year + 1900) % 100 + 100
        else (tm.year + 1900) % 100) = tm.year := by
      split_ifs <;> omega
    dsimp only
    rw [hyear]
    rfl

lemma not_isspace_of_isalpha {b : UInt8} (h : isalpha b = true) : Bytes.isspace b = false := by
  rw [isalpha, Bytes.tolower, Bool.and_eq_true, decide_eq_true_eq, decide_eq_true_eq] at h
  apply Bytes.not_isspace_of_lt
  split_ifs at h with hupper
  · exact UInt8.lt_of_lt_of_le (by decide) hupper.1
  · exact UInt8.lt_of_lt_of_le (by decide) h.1

lemma isWord_nameOf {names : List Bytes} (h : IsNameTable names) {n : ℤ} (hn : 0 ≤ n)
    (hlt : n < names.length) :
    Bytes.IsWord (nameOf names n) ∧ Bytes.IsWord ((nameOf names n).take 3) := by
  obtain ⟨i, name, rfl, hname, heq⟩ := exists_nameOf hn hlt
  have hmem := List.mem_of_getElem? hname
  have hthree := h.three_le name hmem
  have hspace : ∀ b ∈ name, Bytes.isspace b = false := fun b hb =>
    not_isspace_of_isalpha (List.all_eq_true.mp (h.all_isalpha name hmem) b hb)
  rw [heq]
  refine ⟨⟨List.ne_nil_of_length_pos (by omega), hspace⟩, ⟨List.ne_nil_of_length_pos ?_, ?_⟩⟩
  · rw [List.length_take_of_le hthree]
    decide
  · exact fun b hb => hspace b (List.mem_of_mem_take hb)

lemma isWord_ofInt {n : ℤ} (hn : 0 ≤ n) : Bytes.IsWord (Bytes.ofInt n) := by
  obtain ⟨n, rfl⟩ := Int.eq_ofNat_of_zero_le hn
  exact ⟨Bytes.ofNat_ne_nil n, fun b hb =>
    Bytes.not_isspace_of_isdigit (Bytes.isdigit_of_mem_ofNat hb)⟩

lemma isWord_padded {n : ℤ} (hn : 0 ≤ n) : Bytes.IsWord (padded n) := by
  obtain ⟨hne, hspace⟩ := isWord_ofInt hn
  refine ⟨List.append_ne_nil_of_right_ne_nil _ hne, fun b hb => ?_⟩
  rcases List.mem_append.mp hb with hb | hb
  · rw [List.eq_of_mem_replicate hb]
    rfl
  · exact hspace b hb

lemma Conversion.isWord_print {c : Conversion} {tm : Tm} (hfits : c.Fits tm) :
    Bytes.IsWord (c.print tm) := by
  cases c with
  | A => exact (isWord_nameOf isNameTable_weekdayNames hfits.1 hfits.2).1
  | a => exact (isWord_nameOf isNameTable_weekdayNames hfits.1 hfits.2).2
  | b => exact (isWord_nameOf isNameTable_monthNames hfits.1 hfits.2).2
  | d | H | M | S => exact isWord_padded (by linarith [hfits.1])
  | Y => exact isWord_ofInt (by linarith [hfits.1])
  | y => exact isWord_padded (Int.emod_nonneg _ (by decide))

/-! ### Whole formats -/

/-- Nothing that begins so is taken for a part of a name. -/
def endsName : List Directive → Bool
  | [] => true
  | .blank b :: _ => !isalpha b
  | .literal b :: _ => !isalpha b
  | _ => false

def endsBlanks : List Directive → Bool
  | .conversion _ :: _ => true
  | .literal b :: _ => !Bytes.isspace b
  | _ => false

/-- No two parts of the format run into one another. -/
def Separated : List Directive → Bool
  | [] => true
  | .conversion _ :: ds => endsName ds && Separated ds
  | .blank b :: ds => Bytes.isspace b && endsBlanks ds && Separated ds
  | .literal _ :: ds => Separated ds
  | .invalid :: _ => false

/-- The fields that the conversions of a format are about, in another structure. -/
def copyAll (tm : Tm) (ds : List Directive) (tm' : Tm) : Tm :=
  ds.foldl (fun tm' d => match d with
    | .conversion c => c.copy tm tm'
    | _ => tm') tm'

lemma head?_print {ds : List Directive} (tm : Tm) (hends : endsName ds = true) :
    (ds = [] ∨ ds.flatMap (·.print tm) ≠ []) ∧
      ∀ b ∈ (ds.flatMap (·.print tm)).head?, isalpha b = false := by
  cases ds with
  | nil => exact ⟨Or.inl rfl, fun b hb => absurd hb (by simp)⟩
  | cons d ds =>
    cases d with
    | blank b | literal b =>
      refine ⟨Or.inr (List.cons_ne_nil b _), ?_⟩
      rintro b ⟨rfl⟩
      exact (Bool.not_eq_true' _).mp hends
    | conversion c => contradiction
    | invalid => contradiction

lemma print_eq_cons {ds : List Directive} {tm : Tm} (hends : endsBlanks ds = true)
    (hfits : ∀ c, .conversion c ∈ ds → c.Fits tm) :
    ∃ b s, ds.flatMap (·.print tm) = b :: s ∧ Bytes.isspace b = false := by
  cases ds with
  | nil => contradiction
  | cons d ds =>
    rw [List.flatMap_cons]
    cases d with
    | conversion c =>
      obtain ⟨hne, hspace⟩ := Conversion.isWord_print (hfits c (List.mem_cons_self ..))
      obtain ⟨b, s, hprint⟩ := List.exists_cons_of_ne_nil hne
      rw [hprint] at hspace
      refine ⟨b, s ++ ds.flatMap (·.print tm), ?_, hspace b (List.mem_cons_self ..)⟩
      rw [Directive.print, hprint, List.cons_append]
    | literal b => exact ⟨b, _, rfl, (Bool.not_eq_true' _).mp hends⟩
    | blank b => contradiction
    | invalid => contradiction

lemma readAll_conversion {c : Conversion} {ds : List Directive} {tm : Tm} {s : Bytes}
    (hs : s ≠ []) : readAll (.conversion c :: ds) tm s =
      match c.read tm s with
      | none => none
      | some (tm, rest) => if rest = [] then some tm else readAll ds tm rest := by
  obtain ⟨b, s, rfl⟩ := List.exists_cons_of_ne_nil hs
  rfl

/-- A blank skips itself, and nothing of what follows. -/
lemma readAll_blank {b : UInt8} {ds : List Directive} {tm : Tm} (hblank : Bytes.isspace b = true)
    (hends : endsBlanks ds = true) (hfits : ∀ c, .conversion c ∈ ds → c.Fits tm) (tm' : Tm) :
    readAll (.blank b :: ds) tm' (b :: ds.flatMap (·.print tm)) =
      readAll ds tm' (ds.flatMap (·.print tm)) := by
  obtain ⟨b', s, hprint, hspace⟩ := print_eq_cons hends hfits
  have hskip : (b :: b' :: s).dropWhile Bytes.isspace = b' :: s := by
    rw [List.dropWhile_cons_of_pos hblank, List.dropWhile_cons_of_neg (by simp [hspace])]
  rw [hprint]
  cases ds with
  | nil => contradiction
  | cons d ds =>
    cases d with
    | conversion c | literal b'' =>
      change readAll _ tm' ((b :: b' :: s).dropWhile Bytes.isspace) = _
      rw [hskip]
    | blank b'' => contradiction
    | invalid => contradiction

/-- What was printed in a format is read back in the format. -/
theorem readAll_print {tm : Tm} {ds : List Directive} (hsep : Separated ds = true)
    (hfits : ∀ c, .conversion c ∈ ds → c.Fits tm) (tm' : Tm) :
    readAll ds tm' (ds.flatMap (·.print tm)) = some (copyAll tm ds tm') := by
  induction ds generalizing tm' with
  | nil => rfl
  | cons d ds ih =>
    have hrest : ∀ c, .conversion c ∈ ds → c.Fits tm :=
      fun c hc => hfits c (List.mem_cons_of_mem _ hc)
    rw [List.flatMap_cons]
    cases d with
    | conversion c =>
      rw [Separated, Bool.and_eq_true] at hsep
      obtain ⟨hend, hletter⟩ := head?_print tm hsep.1
      have hword := Conversion.isWord_print (hfits c (List.mem_cons_self ..))
      have hread := Conversion.read_print (hfits c (List.mem_cons_self ..)) tm' hletter
      rw [Directive.print, readAll_conversion (List.append_ne_nil_of_left_ne_nil hword.1 _), hread]
      dsimp only
      rcases hend with rfl | hne
      · rfl
      · rw [if_neg hne]
        exact ih hsep.2 hrest _
    | blank b =>
      rw [Separated, Bool.and_eq_true, Bool.and_eq_true] at hsep
      rw [Directive.print, List.singleton_append, readAll_blank hsep.1.1 hsep.1.2 hrest]
      exact ih hsep.2 hrest tm'
    | literal b =>
      rw [Separated] at hsep
      change (if Bytes.tolower b = Bytes.tolower b then readAll ds tm' _ else none) = _
      rw [if_pos rfl]
      exact ih hsep hrest tm'
    | invalid => contradiction

/-- `std::get_time` undoes `strftime` if the format does not begin with a blank. -/
theorem getTime_strftime {format : Bytes} {tm : Tm}
    (hbegins : endsBlanks (directives format) = true) (hsep : Separated (directives format) = true)
    (hfits : ∀ c, .conversion c ∈ directives format → c.Fits tm) (tm' : Tm) :
    getTime format tm' (strftime format tm) = some (copyAll tm (directives format) tm') := by
  obtain ⟨b, s, hprint, hspace⟩ := print_eq_cons hbegins hfits
  have hread := readAll_print hsep hfits tm'
  rw [hprint] at hread
  have hskip : (b :: s).dropWhile Bytes.isspace = b :: s :=
    List.dropWhile_cons_of_neg (by simp [hspace])
  rw [getTime, strftime, hprint, hskip, if_neg (List.cons_ne_nil b s)]
  exact hread

/-! ### Times -/

/-- The fields of a time tell the time, without the day of the year. -/
lemma timegm_gmtime (t yday isdst : ℤ) :
    timegm { gmtime t with yday := yday, isdst := isdst } = t := by
  have hday := Calendar.toDay_dateOf (t / 86400)
  have hmonth := (Calendar.dateOf (t / 86400)).month_lt
  have hyears : ((Calendar.dateOf (t / 86400)).month : ℤ) / 12 = 0 :=
    Int.ediv_eq_zero_of_lt (Int.natCast_nonneg _) (by omega)
  have hmonths : (((Calendar.dateOf (t / 86400)).month : ℤ) % 12).toNat =
      (Calendar.dateOf (t / 86400)).month := by
    omega
  simp only [timegm, gmtime, hyears, hmonths, sub_add_cancel, add_zero]
  rw [Calendar.Date.toDay] at hday
  rw [hday]
  omega

/-- From 1970 to 9999 all fields are in range. -/
lemma fits_gmtime {t : ℤ} (hlo : 0 ≤ t) (hhi : t < 253402300800) {c : Conversion} (hc : c ≠ .y) :
    c.Fits (gmtime t) := by
  have hday := (Calendar.dateOf (t / 86400)).day_le_of
  have hpos := (Calendar.dateOf (t / 86400)).day_pos
  have hmonth := (Calendar.dateOf (t / 86400)).month_lt
  have hfirst : Calendar.newYear 1970 = 0 := by decide
  have hlast : Calendar.newYear 10000 = 2932897 := by decide
  have hyear : 1970 ≤ (Calendar.dateOf (t / 86400)).year :=
    Calendar.le_year_dateOf (by omega)
  have hyear' : (Calendar.dateOf (t / 86400)).year < 10000 :=
    Calendar.year_dateOf_lt (by omega)
  cases c with
  | y => contradiction
  | _ =>
    simp only [Conversion.Fits, gmtime]
    omega

end Posix

namespace ConditionalRequestHandler

open Posix

lemma directives_imfFixdate : directives (bytes "%a, %d %b %Y %H:%M:%S GMT") =
    [.conversion .a, .literal 44, .blank 32, .conversion .d, .blank 32, .conversion .b, .blank 32,
      .conversion .Y, .blank 32, .conversion .H, .literal 58, .conversion .M, .literal 58,
      .conversion .S, .blank 32, .literal 71, .literal 77, .literal 84] := by
  rfl

lemma getTime_imfFixdate {t : ℤ} (hlo : 0 ≤ t) (hhi : t < 253402300800) :
    getTime (bytes "%a, %d %b %Y %H:%M:%S GMT") .zero
        (strftime (bytes "%a, %d %b %Y %H:%M:%S GMT") (gmtime t)) =
      some { gmtime t with yday := 0, isdst := 0 } := by
  rw [getTime_strftime, directives_imfFixdate]
  · rfl
  · rw [directives_imfFixdate]
    rfl
  · rw [directives_imfFixdate]
    rfl
  · intro c hc
    apply fits_gmtime hlo hhi
    rintro rfl
    rw [directives_imfFixdate] at hc
    exact absurd hc (by decide)

/-- The time that is read is off by as much as local time is. -/
lemma parseHttpDate_formatHttpDate (offset : ℤ) {t : ℤ} (hlo : 0 ≤ t) (hhi : t < 253402300800) :
    parseHttpDate (.posix offset) (formatHttpDate (.posix offset) (t * 1000000000)) =
      if t - offset = -1 then none else some ((t - offset) * 1000000000) := by
  have hseconds : toSeconds (t * 1000000000) = t := Int.mul_tdiv_cancel t (by decide)
  have hread := getTime_imfFixdate hlo hhi
  simp only [parseHttpDate, formatHttpDate, CTime.posix, hseconds, hread, mktime, timegm_gmtime]

/-- Dates from 1970 to 9999 survive printing and parsing in processes that run on UTC, and in no
others. -/
theorem parse_format_iff (offset : ℤ) {t : ℤ} (hlo : 0 ≤ t) (hhi : t < 253402300800) :
    parseHttpDate (.posix offset) (formatHttpDate (.posix offset) (t * 1000000000)) =
        some (t * 1000000000) ↔
      offset = 0 := by
  rw [parseHttpDate_formatHttpDate offset hlo hhi]
  constructor
  · intro hsame
    split_ifs at hsame with herror
    have hseconds := Option.some.inj hsame
    omega
  · rintro rfl
    rw [sub_zero, if_neg (by omega)]

theorem parse_format_november :
    parseHttpDate (.posix 0) (formatHttpDate (.posix 0) (784111777 * 1000000000)) =
      some (784111777 * 1000000000) :=
  (parse_format_iff 0 (by decide) (by decide)).mpr rfl

/-- Eight hours east of Greenwich the date is read as eight hours earlier. -/
theorem parse_format_ahead :
    formatHttpDate (.posix 28800) (784111777 * 1000000000) =
        bytes "Sun, 06 Nov 1994 08:49:37 GMT" ∧
      parseHttpDate (.posix 28800) (formatHttpDate (.posix 28800) (784111777 * 1000000000)) ≠
        some (784111777 * 1000000000) := by
  constructor
  · decide +kernel
  · rw [parseHttpDate_formatHttpDate 28800 (by decide) (by decide)]
    decide

end ConditionalRequestHandler

end TinyWebServer
