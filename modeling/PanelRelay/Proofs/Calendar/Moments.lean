import PanelRelay.Proofs.Calendar.Dates
import PanelRelay.Proofs.Text.Padding

/-!
Moments: dates with a time of day, and how they are written. A text is written for one moment at most,
and later moments have greater texts, as long as four digits suffice for the year.
-/

namespace PanelRelay.Calendar

open Decimal (IsNumeral isNumeral_padded padded padded_append_lt padded_mark_lt)

/-- A date and a time of day, to the second. -/
structure Moment where
  date : Date
  hour : Nat
  minute : Nat
  second : Nat

namespace Moment

structure IsValid (moment : Moment) : Prop where
  date : moment.date.IsValid
  hour : moment.hour < 24
  minute : moment.minute < 60
  second : moment.second < 60

def epoch : Date where
  year := 1970
  month := 1
  day := 1

/-- Seconds since the start of 1970, by the days that are over and the time of day. -/
def seconds (moment : Moment) : Int :=
  ((moment.date.number : Int) - epoch.number) * 86400 +
    (moment.hour * 3600 + moment.minute * 60 + moment.second : Nat)

/-- The digits of the parts with the marks between them: `YYYY-MM-DDTHH:MM:SSZ`. -/
def marked (year month day hour minute second : List Char) : List Char :=
  year ++ '-' :: (month ++ '-' :: (day ++ 'T' :: (hour ++ ':' :: (minute ++ ':' :: (second ++ ['Z'])))))

def IsWrittenAs (moment : Moment) (text : String) : Prop :=
  ∃ year month day hour minute second : List Char,
    text.toList = marked year month day hour minute second ∧
    IsNumeral 4 moment.date.year.toNat year ∧ IsNumeral 2 moment.date.month month ∧
    IsNumeral 2 moment.date.day day ∧ IsNumeral 2 moment.hour hour ∧
    IsNumeral 2 moment.minute minute ∧ IsNumeral 2 moment.second second

/-- The start of year zero. -/
def first : Moment where
  date := { year := 0, month := 1, day := 1 }
  hour := 0
  minute := 0
  second := 0

/-- The last second of year 9999. -/
def last : Moment where
  date := { year := 9999, month := 12, day := 31 }
  hour := 23
  minute := 59
  second := 59

theorem number_epoch : epoch.number = 719528 := by
  have hyears := daysBeforeYear_eq 1970
  rw [Date.number, show epoch.year.toNat = 1970 from rfl]
  simp only [epoch, Nat.sub_self, daysOfMonths]
  omega

theorem length_marked {year month day hour minute second : List Char} :
    (marked year month day hour minute second).length =
      year.length + month.length + day.length + hour.length + minute.length + second.length + 6 := by
  simp only [marked, List.length_append, List.length_cons, List.length_nil]
  omega

theorem IsWrittenAs.length_eq {moment : Moment} {text : String} (h : moment.IsWrittenAs text) :
    text.length = 20 := by
  obtain ⟨year, month, day, hour, minute, second, htext, hyear, hmonth, hday, hhour, hminute,
    hsecond⟩ := h
  rw [← String.length_toList, htext, length_marked, hyear.length_eq, hmonth.length_eq,
    hday.length_eq, hhour.length_eq, hminute.length_eq, hsecond.length_eq]

theorem append_mark_inj {mark : Char} {front back front' back' : List Char}
    (h : front ++ mark :: back = front' ++ mark :: back') (hlength : front.length = front'.length) :
    front = front' ∧ back = back' := by
  obtain ⟨hfront, hback⟩ := List.append_inj h hlength
  exact ⟨hfront, (List.cons.inj hback).2⟩

/-- The marks stand at the same places in any two texts. -/
theorem marked_inj {year month day hour minute second year' month' day' hour' minute' second' :
    List Char} (h : marked year month day hour minute second =
      marked year' month' day' hour' minute' second')
    (hyear : year.length = year'.length) (hmonth : month.length = month'.length)
    (hday : day.length = day'.length) (hhour : hour.length = hour'.length)
    (hminute : minute.length = minute'.length) :
    year = year' ∧ month = month' ∧ day = day' ∧ hour = hour' ∧ minute = minute' ∧
      second = second' := by
  rw [marked, marked] at h
  obtain ⟨rfl, hmonths⟩ := append_mark_inj h hyear
  obtain ⟨rfl, hdays⟩ := append_mark_inj hmonths hmonth
  obtain ⟨rfl, hhours⟩ := append_mark_inj hdays hday
  obtain ⟨rfl, hminutes⟩ := append_mark_inj hhours hhour
  obtain ⟨rfl, hseconds⟩ := append_mark_inj hminutes hminute
  exact ⟨rfl, rfl, rfl, rfl, rfl, List.append_cancel_right hseconds⟩

/-- A text is written for one moment at most. -/
theorem IsWrittenAs.unique {moment other : Moment} {text : String} (h : moment.IsWrittenAs text)
    (hother : other.IsWrittenAs text) (hyear : 0 ≤ moment.date.year)
    (hotherYear : 0 ≤ other.date.year) : moment = other := by
  obtain ⟨_, _, _, _, _, _, htext, hyears, hmonths, hdays, hhours, hminutes, hseconds⟩ := h
  obtain ⟨_, _, _, _, _, _, htext', hyears', hmonths', hdays', hhours', hminutes', hseconds'⟩ := hother
  obtain ⟨rfl, rfl, rfl, rfl, rfl, rfl⟩ := marked_inj (htext.symm.trans htext')
    (hyears.length_eq.trans hyears'.length_eq.symm)
    (hmonths.length_eq.trans hmonths'.length_eq.symm)
    (hdays.length_eq.trans hdays'.length_eq.symm) (hhours.length_eq.trans hhours'.length_eq.symm)
    (hminutes.length_eq.trans hminutes'.length_eq.symm)
  obtain ⟨⟨year, month, day⟩, hour, minute, second⟩ := moment
  obtain ⟨⟨year', month', day'⟩, hour', minute', second'⟩ := other
  have hyears := hyears.unique hyears'
  simp only [mk.injEq, Date.mk.injEq] at hyear hotherYear hyears ⊢
  exact ⟨⟨by omega, hmonths.unique hmonths', hdays.unique hdays'⟩, hhours.unique hhours',
    hminutes.unique hminutes', hseconds.unique hseconds'⟩

/-- The text of a moment whose year has four digits at most. -/
def digits (moment : Moment) : List Char :=
  marked (padded 4 moment.date.year.toNat) (padded 2 moment.date.month) (padded 2 moment.date.day)
    (padded 2 moment.hour) (padded 2 moment.minute) (padded 2 moment.second)

theorem daysInMonth_le (year month : Nat) : daysInMonth year month ≤ 31 := by
  rw [daysInMonth]
  split
  · split <;> decide
  · split <;> decide

section Valid

variable {moment other : Moment} (h : moment.IsValid)

include h

theorem IsValid.isWrittenAs (hyear : moment.date.year ≤ 9999) {text : String}
    (htext : text.toList = moment.digits) : moment.IsWrittenAs text := by
  have hmonth := h.date.month.2
  have hday := h.date.day.2.trans (daysInMonth_le _ _)
  have hhour := h.hour
  have hminute := h.minute
  have hsecond := h.second
  have htwo : ∀ {n : Nat}, n < 100 → IsNumeral 2 n (padded 2 n) := isNumeral_padded Nat.two_pos
  have hyears : IsNumeral 4 moment.date.year.toNat (padded 4 moment.date.year.toNat) :=
    isNumeral_padded (by decide) (show moment.date.year.toNat < 10000 by omega)
  exact ⟨_, _, _, _, _, _, htext, hyears, htwo (by omega), htwo (by omega), htwo (by omega),
    htwo (by omega), htwo (by omega)⟩

variable (hother : other.IsValid)

include hother

/-- Moments are ordered by their parts, the greatest first. -/
theorem IsValid.before_of_seconds_lt (hlt : moment.seconds < other.seconds) :
    moment.date.year.toNat < other.date.year.toNat ∨
    moment.date.year.toNat = other.date.year.toNat ∧ (moment.date.month < other.date.month ∨
    moment.date.month = other.date.month ∧ (moment.date.day < other.date.day ∨
    moment.date.day = other.date.day ∧ (moment.hour < other.hour ∨
    moment.hour = other.hour ∧ (moment.minute < other.minute ∨
    moment.minute = other.minute ∧ moment.second < other.second)))) := by
  have hdays : moment.date.Before other.date ∨ moment.date = other.date ∧
      (moment.hour < other.hour ∨ moment.hour = other.hour ∧
        (moment.minute < other.minute ∨ moment.minute = other.minute ∧
          moment.second < other.second)) := by
    obtain ⟨hdate, hhour, hminute, hsecond⟩ := h
    obtain ⟨hdate', hhour', hminute', hsecond'⟩ := hother
    rw [← Date.number_lt_iff hdate hdate', ← Date.number_inj hdate hdate']
    rw [seconds, seconds] at hlt
    omega
  rcases hdays with hdate | ⟨hdate, htime⟩
  · have hyear := h.date.year
    rw [Date.Before] at hdate
    omega
  · rw [hdate]
    omega

/-- Of two moments the earlier one has the smaller text. -/
theorem IsValid.digits_lt (hyear : other.date.year ≤ 9999) (hlt : moment.seconds < other.seconds) :
    moment.digits < other.digits := by
  have hbefore := h.before_of_seconds_lt hother hlt
  obtain ⟨⟨hfirst, ⟨-, hmonth⟩, -, hday⟩, hhour, hminute, hsecond⟩ := hother
  have hdays := daysInMonth_le other.date.year.toNat other.date.month
  have hbound : ∀ {n m : Nat}, m < 100 → ∀ {mark : Char} {text rest : List Char},
      n < m ∨ n = m ∧ text < rest → padded 2 n ++ mark :: text < padded 2 m ++ mark :: rest :=
    padded_mark_lt Nat.two_pos
  rw [digits, digits, marked, marked]
  apply padded_mark_lt (by decide) (show other.date.year.toNat < 10000 by omega)
  apply hbefore.imp_right
  refine And.imp_right fun hmonths => hbound (by omega) (hmonths.imp_right ?_)
  refine And.imp_right fun hdays => hbound (by omega) (hdays.imp_right ?_)
  refine And.imp_right fun hhours => hbound (by omega) (hhours.imp_right ?_)
  refine And.imp_right fun hminutes => hbound (by omega) (hminutes.imp_right ?_)
  have hlast : other.second < Nat.pow 10 2 := hsecond.trans (by decide)
  exact And.imp_right fun hseconds => padded_append_lt Nat.two_pos hseconds hlast _ _

end Valid

end Moment

end PanelRelay.Calendar
