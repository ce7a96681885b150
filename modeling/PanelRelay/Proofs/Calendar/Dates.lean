import Mathlib.Tactic.IntervalCases
import PanelRelay.Proofs.Calendar.Counting

/-!
Dates of days. The date of a day is on the calendar and has the number of the day, so dates and days
from year zero on correspond to each other. Years are counted from March here: a century, four years
and a year are then all followed by a part that may be a day longer, and so are five months and two.
-/

namespace PanelRelay.Calendar

/-- The place of a day of a cycle: its century, four years in it, year of these, and day of the year. -/
structure IsPlaced (dayOfCycle : Int) (century fours year day : Nat) : Prop where
  sum : dayOfCycle = 36524 * century + 1461 * fours + 365 * year + day
  century_le : century ≤ 3
  fours_le : fours ≤ 24
  year_le : year ≤ 3
  day_le : day ≤ 365
  leap : day = 365 → year = 3 ∧ (fours = 24 → century = 3)

theorem exists_isPlaced {dayOfCycle : Int} (hlow : 0 ≤ dayOfCycle)
    (hhigh : dayOfCycle < daysPerCycle) :
    ∃ century fours year day, IsPlaced dayOfCycle century fours year day := by
  obtain ⟨total, rfl⟩ := Int.eq_ofNat_of_zero_le hlow
  have htotal : total < 146097 := by
    rw [daysPerCycle] at hhigh
    omega
  obtain ⟨century, dayOfCentury, hcentury⟩ : ∃ century day, total = 36524 * century + day ∧
      century ≤ 3 ∧ day ≤ 36524 ∧ (day = 36524 → century = 3) :=
    ⟨min (total / 36524) 3, total - 36524 * min (total / 36524) 3, by omega⟩
  obtain ⟨fours, dayOfFours, hfours⟩ : ∃ fours day, dayOfCentury = 1461 * fours + day ∧
      fours ≤ 24 ∧ day ≤ 1460 ∧ (day = 1460 → fours = 24 → dayOfCentury = 36524) :=
    ⟨dayOfCentury / 1461, dayOfCentury % 1461, by omega⟩
  obtain ⟨year, day, hyear⟩ : ∃ year day, dayOfFours = 365 * year + day ∧
      year ≤ 3 ∧ day ≤ 365 ∧ (day = 365 → year = 3) :=
    ⟨min (dayOfFours / 365) 3, dayOfFours - 365 * min (dayOfFours / 365) 3, by omega⟩
  refine ⟨century, fours, year, day, ?_⟩
  constructor <;> omega

def yearOfCycle (dayOfCycle : Int) : Int :=
  (dayOfCycle - dayOfCycle / 1460 + dayOfCycle / 36524 - dayOfCycle / 146096) / 365

def daysBeforeYearOfCycle (year : Int) : Int :=
  365 * year + year / 4 - year / 100

section Placed

variable {dayOfCycle : Int} {century fours year day : Nat}
  (h : IsPlaced dayOfCycle century fours year day)

include h

theorem IsPlaced.yearOfCycle_eq :
    yearOfCycle dayOfCycle = 100 * century + 4 * fours + year := by
  obtain ⟨hsum, hcentury, hfours, hyear, hday, hleap⟩ := h
  obtain ⟨dayOfCentury, hdayOfCentury⟩ :
      ∃ dayOfCentury, dayOfCentury = 1461 * fours + 365 * year + day := ⟨_, rfl⟩
  -- The last day of the cycle is the only one whose century is counted too far.
  have hlast : dayOfCycle / 36524 = century + dayOfCycle / 146096 := by
    have hlong : dayOfCentury ≤ 36524 ∧ (dayOfCentury = 36524 → century = 3) := by omega
    have hsum : dayOfCycle = 36524 * century + dayOfCentury := by omega
    clear hleap hdayOfCentury
    omega
  have hend : dayOfCycle / 146096 = 0 ∨ dayOfCycle / 146096 = 1 ∧ day = 365 := by omega
  have hfours : dayOfCycle / 1460 = 25 * century + fours ∧ day < 365 ∨
      dayOfCycle / 1460 = 25 * century + fours + 1 ∧ 1 ≤ day := by omega
  rw [yearOfCycle, hlast]
  generalize dayOfCycle / 146096 = last at hend
  generalize dayOfCycle / 1460 = groups at hfours
  omega

theorem IsPlaced.daysBefore_eq :
    dayOfCycle - daysBeforeYearOfCycle (yearOfCycle dayOfCycle) = day := by
  obtain ⟨hsum, hcentury, hfours, hyear, -, -⟩ := id h
  rw [h.yearOfCycle_eq, daysBeforeYearOfCycle]
  omega

end Placed

/-- The date of a day of a year that starts in March. -/
def dateOfMarchYear (year dayOfYear : Int) : Date :=
  let monthFromMarch := (5 * dayOfYear + 2) / 153
  let month := if monthFromMarch < 10 then monthFromMarch + 3 else monthFromMarch - 9
  { year := year + (if month ≤ 2 then 1 else 0)
    month := month.toNat
    day := (dayOfYear - (153 * monthFromMarch + 2) / 5 + 1).toNat }

theorem dateOfDays_eq (days : Int) :
    dateOfDays days =
      let shifted := days + 719468
      let year := yearOfCycle (shifted % daysPerCycle)
      dateOfMarchYear (year + shifted / daysPerCycle * 400)
        (shifted % daysPerCycle - daysBeforeYearOfCycle year) :=
  rfl

/-- From March on, five months have 153 days, and so have the next five. -/
theorem daysOfMonths_add_two (year : Nat) {months : Nat} (h : months ≤ 10) :
    daysOfMonths year (months + 2) = daysOfMonths year 2 + (153 * months + 2) / 5 := by
  interval_cases months <;> simp [daysOfMonths, daysInMonth]

theorem daysBeforeYear_succ (year : Nat) :
    daysBeforeYear (year + 1) = daysBeforeYear year + daysOfMonths year 2 + 306 := by
  rw [daysBeforeYear, ← daysOfMonths_twelve, daysOfMonths_add_two year (Nat.le_refl 10)]
  omega

/-- Up to December the year is the one in which March was. -/
theorem dateOfMarchYear_of_lt (year : Nat) {day months : Nat} (hday : day < 306)
    (hmonths : months = (5 * day + 2) / 153) :
    dateOfMarchYear year day =
      { year, month := months + 3, day := day - (153 * months + 2) / 5 + 1 } := by
  have hmonth : (5 * (day : Int) + 2) / 153 = months := by omega
  simp only [dateOfMarchYear, hmonth, Date.mk.injEq]
  refine ⟨?_, ?_, ?_⟩
  · split <;> split <;> omega
  · split <;> omega
  · omega

theorem dateOfMarchYear_january (next : Nat) {day : Nat} (hlow : 306 ≤ day) (hhigh : day < 337) :
    dateOfMarchYear (next - 1) day = { year := next, month := 1, day := day - 306 + 1 } := by
  have hmonth : (5 * (day : Int) + 2) / 153 = 10 := by omega
  simp only [dateOfMarchYear, hmonth, Date.mk.injEq]
  refine ⟨Int.sub_add_cancel _ _, rfl, ?_⟩
  omega

theorem dateOfMarchYear_february (next : Nat) {day : Nat} (hlow : 337 ≤ day) (hhigh : day ≤ 365) :
    dateOfMarchYear (next - 1) day = { year := next, month := 2, day := day - 337 + 1 } := by
  have hmonth : (5 * (day : Int) + 2) / 153 = 11 := by omega
  simp only [dateOfMarchYear, hmonth, Date.mk.injEq]
  refine ⟨Int.sub_add_cancel _ _, rfl, ?_⟩
  omega

/-- A date with this number stands on the calendar. -/
def Date.IsNumbered (date : Date) (number : Int) : Prop :=
  date.IsValid ∧ (date.number : Int) = number

theorem isNumbered_of_fields {year month day : Nat} {number : Int}
    (hmonth : 1 ≤ month ∧ month ≤ 12) (hday : 1 ≤ day ∧ day ≤ daysInMonth year month)
    (hnumber : ((daysBeforeYear year + daysOfMonths year (month - 1) + (day - 1) : Nat) : Int) =
      number) : (Date.mk year month day).IsNumbered number :=
  ⟨⟨Int.natCast_nonneg year, hmonth, hday⟩, hnumber⟩

theorem isNumbered_of_lt (year : Nat) {day : Nat} (hday : day < 306) :
    (dateOfMarchYear year day).IsNumbered (daysBeforeYear (year + 1) - 306 + day) := by
  obtain ⟨months, hmonths⟩ : ∃ months, months = (5 * day + 2) / 153 := ⟨_, rfl⟩
  have hbefore := daysOfMonths_add_two year (show months ≤ 10 by omega)
  have hthrough : daysOfMonths year (months + 2) + daysInMonth year (months + 3) =
      daysOfMonths year 2 + (153 * (months + 1) + 2) / 5 :=
    daysOfMonths_add_two year (show months + 1 ≤ 10 by omega)
  rw [hbefore] at hthrough
  rw [dateOfMarchYear_of_lt year hday hmonths]
  apply isNumbered_of_fields
  · omega
  · omega
  · rw [daysBeforeYear_succ, show months + 3 - 1 = months + 2 from rfl, hbefore]
    omega

/-- The year that starts in March ends with the first two months of the next one. -/
theorem isNumbered_of_le (next : Nat) {day : Nat} (hlow : 306 ≤ day) (hhigh : day ≤ 365)
    (hleap : day = 365 → isLeapYear next = true) :
    (dateOfMarchYear (next - 1) day).IsNumbered (daysBeforeYear next - 306 + day) := by
  have hjanuary : daysInMonth next 1 = 31 := rfl
  have hfebruary : daysInMonth next 2 = if isLeapYear next then 29 else 28 := rfl
  by_cases hearly : day < 337
  · rw [dateOfMarchYear_january next hlow hearly]
    apply isNumbered_of_fields (by decide)
    · omega
    · rw [Nat.sub_self, daysOfMonths]
      omega
  · rw [dateOfMarchYear_february next (Nat.not_lt.mp hearly) hhigh]
    apply isNumbered_of_fields (by decide)
    · rw [hfebruary]
      split
      next => omega
      next hcommon =>
        have hday : day ≠ 365 := mt hleap hcommon
        omega
    · rw [Nat.add_one_sub_one, daysOfMonths, daysOfMonths, hjanuary]
      omega

section Place

variable {shifted cycle : Int} {century fours year day : Nat}
  (h : IsPlaced (shifted - 146097 * cycle) century fours year day)

include h

/-- The first two months of year zero belong to the last year of the cycle before. -/
theorem IsPlaced.nonneg_or (hlow : -60 ≤ shifted) :
    0 ≤ (100 * century + 4 * fours + year + cycle * 400 : Int) ∨
      (100 * century + 4 * fours + year + cycle * 400 : Int) = -1 ∧ 306 ≤ day := by
  obtain ⟨hsum, hcentury, hfours, hyear, hday, -⟩ := h
  by_cases hzero : 0 ≤ cycle
  · left
    omega
  · right
    obtain rfl : cycle = -1 := by omega
    omega

variable {next : Nat} (hnext : 100 * century + 4 * fours + year + cycle * 400 = (next : Int) - 1)

include hnext

theorem IsPlaced.number_eq : (daysBeforeYear next : Int) - 306 + day = shifted + 60 := by
  obtain ⟨hsum, hcentury, hfours, hyear, -, -⟩ := h
  have hbefore := daysBeforeYear_eq next
  have hcenturies : ((next + 99) / 100 : Nat) = century + 4 * cycle + 1 := by omega
  have hfourYears : ((next + 3) / 4 : Nat) = 25 * century + fours + 100 * cycle + 1 := by omega
  have hcycles : ((next + 399) / 400 : Nat) = cycle + 1 := by omega
  omega

theorem IsPlaced.isLeapYear_of_day (hday : day = 365) : isLeapYear next = true := by
  obtain ⟨-, hcentury, hfours, -, -, hleap⟩ := h
  obtain ⟨rfl, hlast⟩ := hleap hday
  rw [isLeapYear_iff]
  omega

end Place

/-- The date of a day from year zero on stands on the calendar and has the number of the day. -/
theorem isNumbered_dateOfDays {days : Int} (h : 0 ≤ days + 719528) :
    (dateOfDays days).IsNumbered (days + 719528) := by
  obtain ⟨shifted, hshifted⟩ : ∃ shifted, shifted = days + 719468 := ⟨_, rfl⟩
  have hlow := Int.emod_nonneg shifted (by decide : daysPerCycle ≠ 0)
  have hhigh := Int.emod_lt_of_pos shifted (by decide : 0 < daysPerCycle)
  obtain ⟨century, fours, year, day, hplaced⟩ := exists_isPlaced hlow hhigh
  rw [dateOfDays_eq, ← hshifted]
  simp only [hplaced.daysBefore_eq]
  rw [hplaced.yearOfCycle_eq]
  have hrest : shifted % daysPerCycle = shifted - 146097 * (shifted / daysPerCycle) :=
    Int.emod_def shifted daysPerCycle
  rw [hrest] at hplaced
  have hyear := hplaced.nonneg_or (by omega)
  obtain ⟨next, hnext⟩ : ∃ next : Nat,
      100 * century + 4 * fours + year + shifted / daysPerCycle * 400 = (next : Int) - 1 :=
    ⟨(100 * century + 4 * fours + year + shifted / daysPerCycle * 400 + 1 : Int).toNat, by omega⟩
  have hnumber : (daysBeforeYear next : Int) - 306 + day = days + 719528 := by
    rw [hplaced.number_eq hnext, hshifted]
    omega
  rw [hnext] at hyear
  rw [hnext, ← hnumber]
  by_cases hearly : day < 306
  · obtain ⟨before, rfl⟩ : ∃ before, next = before + 1 := Nat.exists_eq_add_one.mpr (by omega)
    rw [Nat.cast_add_one, Int.add_sub_cancel]
    exact isNumbered_of_lt before hearly
  · exact isNumbered_of_le next (Nat.not_lt.mp hearly) hplaced.day_le
      (hplaced.isLeapYear_of_day hnext)

end PanelRelay.Calendar
