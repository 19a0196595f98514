import Mathlib

/-!
# The Gregorian calendar

Days are counted from the first of January 1970, months from 0 and the days of a month from 1. The
day a date falls on and the date of a day are found by way of the day the year and the month begin
on.
-/

namespace Calendar

/-! ### Places -/

/-- The last place up to `n` that begins no later than `x`. -/
def place (f : ℕ → ℤ) (n : ℕ) (x : ℤ) : ℕ := Nat.findGreatest (fun k => f k ≤ x) n

variable {f : ℕ → ℤ} {n : ℕ} {x : ℤ}

lemma place_le : place f n x ≤ n := Nat.findGreatest_le n

lemma start_place_le (h : f 0 ≤ x) : f (place f n x) ≤ x :=
  Nat.findGreatest_spec (P := fun k => f k ≤ x) (Nat.zero_le n) h

/-- The place ends behind `x`. -/
lemma lt_start_place_succ (h : x < f (n + 1)) : x < f (place f n x + 1) := by
  by_contra hge
  rcases (place_le (f := f) (n := n) (x := x)).lt_or_eq with hlt | heq
  · exact Nat.findGreatest_is_greatest (Nat.lt_succ_self _) hlt (not_lt.mp hge)
  · rw [heq] at hge
    exact hge h

/-! ### Years and months -/

def isLeap (year : ℤ) : Bool := year % 4 = 0 && (year % 100 ≠ 0 || year % 400 = 0)

/-- The day on which a year begins. -/
def newYear (year : ℤ) : ℤ :=
  365 * (year - 1970) + (year - 1) / 4 - (year - 1) / 100 + (year - 1) / 400 - 477

lemma newYear_succ (year : ℤ) :
    newYear (year + 1) = newYear year + if isLeap year then 366 else 365 := by
  simp only [newYear, isLeap, Bool.and_eq_true, Bool.or_eq_true, decide_eq_true_eq, ne_eq]
  split_ifs <;> omega

/-- The calendar repeats itself after 400 years. -/
lemma newYear_add_cycles (year cycles : ℤ) :
    newYear (year + 400 * cycles) = newYear year + 146097 * cycles := by
  simp only [newYear]
  omega

lemma strictMono_newYear : StrictMono newYear := by
  apply strictMono_int_of_lt_succ
  intro year
  rw [newYear_succ]
  split_ifs <;> omega

def monthLengths (leap : Bool) : List ℕ :=
  [31, if leap then 29 else 28, 31, 30, 31, 30, 31, 31, 30, 31, 30, 31]

/-- The day of the year on which a month begins. -/
def newMonth (leap : Bool) (month : ℕ) : ℕ := ((monthLengths leap).take month).sum

lemma newMonth_twelve (leap : Bool) : newMonth leap 12 = if leap then 366 else 365 := by
  cases leap <;> rfl

lemma newMonth_succ_le (leap : Bool) (month : ℕ) :
    newMonth leap (month + 1) ≤ newMonth leap month + 31 := by
  have hlengths : ∀ length ∈ monthLengths leap, length ≤ 31 := by
    cases leap <;> decide
  rw [newMonth, newMonth, List.take_add_one, List.sum_append]
  cases hlength : (monthLengths leap)[month]? with
  | none => simp
  | some length =>
    simpa using hlengths length (List.mem_of_getElem? hlength)

/-! ### Dates -/

structure Date where
  year : ℤ
  month : ℕ
  day : ℕ
  month_lt : month < 12
  day_pos : 0 < day
  /-- The month is not over. -/
  day_le : newMonth (isLeap year) month + day ≤ newMonth (isLeap year) (month + 1)

namespace Date

lemma day_le_of (date : Date) : date.day ≤ 31 := by
  have hle := date.day_le
  have hmonth := newMonth_succ_le (isLeap date.year) date.month
  omega

/-- The day of the date. -/
def toDay (date : Date) : ℤ :=
  newYear date.year + newMonth (isLeap date.year) date.month + date.day - 1

end Date

def yearOf (day : ℤ) : ℤ :=
  1970 + 400 * (day / 146097) + place (fun k => newYear (1970 + k)) 399 (day % 146097)

lemma newYear_yearOf_le (day : ℤ) : newYear (yearOf day) ≤ day := by
  have hplace := start_place_le (f := fun k => newYear (1970 + k)) (n := 399)
    (x := day % 146097) (Int.emod_nonneg day (by decide))
  rw [yearOf, add_right_comm, newYear_add_cycles]
  omega

lemma lt_newYear_yearOf_succ (day : ℤ) : day < newYear (yearOf day + 1) := by
  have hcycle : newYear (1970 + (399 + 1 : ℕ)) = 146097 := by decide
  have hplace := lt_start_place_succ (f := fun k => newYear (1970 + k)) (n := 399)
    (x := day % 146097) (hcycle ▸ Int.emod_lt_of_pos day (by decide))
  rw [yearOf, add_right_comm 1970, add_right_comm, newYear_add_cycles, add_assoc 1970]
  push_cast at hplace
  omega

/-- How far into its year a day is. -/
def yearDay (day : ℤ) : ℕ := (day - newYear (yearOf day)).toNat

lemma coe_yearDay (day : ℤ) : (yearDay day : ℤ) = day - newYear (yearOf day) :=
  Int.toNat_of_nonneg (Int.sub_nonneg.mpr (newYear_yearOf_le day))

def monthOf (day : ℤ) : ℕ :=
  place (fun month => newMonth (isLeap (yearOf day)) month) 11 (yearDay day)

lemma newMonth_monthOf_le (day : ℤ) :
    newMonth (isLeap (yearOf day)) (monthOf day) ≤ yearDay day :=
  Int.ofNat_le.mp (start_place_le
    (f := fun month => newMonth (isLeap (yearOf day)) month) (Int.natCast_nonneg _))

lemma lt_newMonth_monthOf_succ (day : ℤ) :
    yearDay day < newMonth (isLeap (yearOf day)) (monthOf day + 1) := by
  have hend : yearDay day < newMonth (isLeap (yearOf day)) 12 := by
    have hnext := lt_newYear_yearOf_succ day
    rw [newYear_succ] at hnext
    have hday := coe_yearDay day
    rw [newMonth_twelve]
    split_ifs at hnext ⊢ <;> omega
  exact Int.ofNat_lt.mp (lt_start_place_succ
    (f := fun month => newMonth (isLeap (yearOf day)) month) (Int.ofNat_lt.mpr hend))

def dateOf (day : ℤ) : Date where
  year := yearOf day
  month := monthOf day
  day := yearDay day - newMonth (isLeap (yearOf day)) (monthOf day) + 1
  month_lt := Nat.lt_succ_of_le place_le
  day_pos := Nat.succ_pos _
  day_le := by
    have hbegin := newMonth_monthOf_le day
    have hend := lt_newMonth_monthOf_succ day
    omega

/-- The date of a day falls on the day. -/
theorem toDay_dateOf (day : ℤ) : (dateOf day).toDay = day := by
  have hbegin := newMonth_monthOf_le day
  have hday := coe_yearDay day
  simp only [Date.toDay, dateOf]
  omega

lemma le_year_dateOf {year day : ℤ} (h : newYear year ≤ day) : year ≤ (dateOf day).year :=
  Int.lt_add_one_iff.mp
    (strictMono_newYear.lt_iff_lt.mp (h.trans_lt (lt_newYear_yearOf_succ day)))

lemma year_dateOf_lt {year day : ℤ} (h : day < newYear year) : (dateOf day).year < year :=
  strictMono_newYear.lt_iff_lt.mp ((newYear_yearOf_le day).trans_lt h)

end Calendar
