import Mathlib.Order.Monotone.Basic
import PanelRelay.Calendar

/-!
Counting days. A date is numbered by the lengths of the years and months that are over before it, from
the first day of year zero; later dates have greater numbers.
-/

namespace PanelRelay.Calendar

def daysInYear (year : Nat) : Nat :=
  if isLeapYear year then 366 else 365

/-- The days of all years before, from year zero. -/
def daysBeforeYear : Nat → Nat
  | 0 => 0
  | year + 1 => daysBeforeYear year + daysInYear year

/-- The days of the first months of a year. -/
def daysOfMonths (year : Nat) : Nat → Nat
  | 0 => 0
  | months + 1 => daysOfMonths year months + daysInMonth year (months + 1)

namespace Date

/-- The date is on the calendar, in year zero or later. -/
structure IsValid (date : Date) : Prop where
  year : 0 ≤ date.year
  month : 1 ≤ date.month ∧ date.month ≤ 12
  day : 1 ≤ date.day ∧ date.day ≤ daysInMonth date.year.toNat date.month

/-- How many days are over since year zero began. -/
def number (date : Date) : Nat :=
  daysBeforeYear date.year.toNat + daysOfMonths date.year.toNat (date.month - 1) + (date.day - 1)

/-- Years count before months, and these before days. -/
def Before (date other : Date) : Prop :=
  date.year < other.year ∨ date.year = other.year ∧
    (date.month < other.month ∨ date.month = other.month ∧ date.day < other.day)

end Date

theorem isLeapYear_iff (year : Nat) :
    isLeapYear year = true ↔ year % 4 = 0 ∧ (year % 100 = 0 → year % 400 = 0) := by
  simp only [isLeapYear, ne_eq, decide_not, Bool.and_eq_true, decide_eq_true_eq, Bool.or_eq_true,
    Bool.not_eq_true', decide_eq_false_iff_not]
  omega

/-- Every fourth year has one day more, but of the full centuries only every fourth. -/
theorem daysBeforeYear_eq (year : Nat) :
    daysBeforeYear year + (year + 99) / 100 = 365 * year + (year + 3) / 4 + (year + 399) / 400 := by
  induction year with
  | zero => rfl
  | succ year ih =>
      have hfours : (year + 1 + 3) / 4 = (year + 3) / 4 + if year % 4 = 0 then 1 else 0 := by
        split <;> omega
      have hcenturies :
          (year + 1 + 99) / 100 = (year + 99) / 100 + if year % 100 = 0 then 1 else 0 := by
        split <;> omega
      have hcycles :
          (year + 1 + 399) / 400 = (year + 399) / 400 + if year % 400 = 0 then 1 else 0 := by
        split <;> omega
      have hleap := isLeapYear_iff year
      rw [daysBeforeYear, daysInYear, hfours, hcenturies, hcycles]
      generalize (year + 3) / 4 = fours at ih
      generalize (year + 99) / 100 = centuries at ih
      generalize (year + 399) / 400 = cycles at ih
      split
      next h =>
        rw [hleap] at h
        grind
      next h =>
        rw [hleap] at h
        grind

theorem daysOfMonths_twelve (year : Nat) : daysOfMonths year 12 = daysInYear year := by
  cases hleap : isLeapYear year with
  | true => simp [daysOfMonths, daysInMonth, daysInYear, hleap]
  | false => simp [daysOfMonths, daysInMonth, daysInYear, hleap]

theorem daysBeforeYear_mono : Monotone daysBeforeYear :=
  monotone_nat_of_le_succ fun _ => Nat.le_add_right _ _

theorem daysOfMonths_mono (year : Nat) : Monotone (daysOfMonths year) :=
  monotone_nat_of_le_succ fun _ => Nat.le_add_right _ _

namespace Date

/-- A year is over after the last day of December. -/
theorem number_lastDay (year : Nat) :
    ({ year, month := 12, day := 31 } : Date).number + 1 = daysBeforeYear (year + 1) := by
  rw [daysBeforeYear, ← daysOfMonths_twelve]
  rfl

theorem before_trichotomy (date other : Date) :
    date.Before other ∨ date = other ∨ other.Before date := by
  cases date
  cases other
  simp only [Before, mk.injEq]
  omega

section Order

variable {date other : Date} (h : date.IsValid) (hother : other.IsValid)

include h

/-- A month is over at its end. -/
theorem IsValid.number_lt_month : date.number <
    daysBeforeYear date.year.toNat + daysOfMonths date.year.toNat date.month := by
  obtain ⟨months, hmonths⟩ := Nat.exists_eq_add_of_le' h.month.1
  have hday := h.day
  rw [number]
  rw [hmonths] at hday ⊢
  rw [Nat.add_sub_cancel, daysOfMonths]
  omega

theorem IsValid.number_lt_year : date.number < daysBeforeYear (date.year.toNat + 1) := by
  have hmonth := h.number_lt_month
  have hyear := daysOfMonths_mono date.year.toNat h.month.2
  rw [daysOfMonths_twelve] at hyear
  rw [daysBeforeYear]
  omega

theorem Before.number_lt (hbefore : date.Before other) : date.number < other.number := by
  rcases hbefore with hyear | ⟨hyear, hmonth | ⟨hmonth, hday⟩⟩
  · have hyears : date.year.toNat + 1 ≤ other.year.toNat := by
      have := h.year
      omega
    calc
      date.number < daysBeforeYear (date.year.toNat + 1) := h.number_lt_year
      _ ≤ daysBeforeYear other.year.toNat := daysBeforeYear_mono hyears
      _ ≤ other.number := by rw [number, Nat.add_assoc]; exact Nat.le_add_right _ _
  · calc
      date.number < daysBeforeYear date.year.toNat + daysOfMonths date.year.toNat date.month :=
        h.number_lt_month
      _ ≤ daysBeforeYear date.year.toNat + daysOfMonths date.year.toNat (other.month - 1) :=
        Nat.add_le_add_left (daysOfMonths_mono _ (by omega)) _
      _ ≤ other.number := by rw [number, hyear]; exact Nat.le_add_right _ _
  · have hfirst := h.day.1
    rw [number, number, hyear, hmonth]
    omega

include hother

/-- Dates are ordered by their numbers, and told apart by them. -/
theorem number_lt_iff : date.number < other.number ↔ date.Before other := by
  refine ⟨?_, Before.number_lt h⟩
  intro hlt
  rcases before_trichotomy date other with hbefore | rfl | hafter
  · exact hbefore
  · exact absurd hlt (Nat.lt_irrefl _)
  · exact absurd (Before.number_lt hother hafter) (Nat.lt_asymm hlt)

theorem number_inj : date.number = other.number ↔ date = other := by
  refine ⟨?_, congrArg number⟩
  intro heq
  rcases before_trichotomy date other with hbefore | hsame | hafter
  · exact absurd heq (Nat.ne_of_lt (Before.number_lt h hbefore))
  · exact hsame
  · exact absurd heq (Nat.ne_of_gt (Before.number_lt hother hafter))

end Order

end Date

end PanelRelay.Calendar
