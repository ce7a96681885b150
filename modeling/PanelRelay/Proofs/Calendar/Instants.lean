import PanelRelay.Proofs.Calendar.Moments

/-!
Instants as moments. From year zero to year 9999 an instant lies in the second of one moment, which is
the one that its text is written for.
-/

namespace PanelRelay.Calendar

open Moment (first last)

namespace Instant

def nanoseconds (instant : Instant) : Int :=
  instant.seconds * 1000000000 + instant.nanos

/-- Rounded down, also before 1970. -/
def wholeSeconds (instant : Instant) : Int :=
  instant.nanoseconds / 1000000000

/-- No leap second, and its year has four digits. -/
structure IsPlain (instant : Instant) : Prop where
  nanos : instant.nanos < 1000000000
  first_le : first.seconds ≤ instant.seconds
  le_last : instant.seconds ≤ last.seconds

def moment (instant : Instant) : Moment where
  date := dateOfDays (instant.seconds / 86400)
  hour := (instant.seconds % 86400).toNat / 3600
  minute := (instant.seconds % 86400).toNat / 60 % 60
  second := (instant.seconds % 86400).toNat % 60

end Instant

theorem Moment.isValid_last : last.IsValid where
  date := ⟨by decide, by decide, by decide⟩
  hour := by decide
  minute := by decide
  second := by decide

theorem Moment.seconds_first : first.seconds = -62167219200 := by
  have hnumber : first.date.number = 0 := rfl
  rw [seconds, hnumber, number_epoch]
  decide

theorem Moment.seconds_last : last.seconds = 253402300799 := by
  have hnumber := Date.number_lastDay 9999
  have hyears := daysBeforeYear_eq (9999 + 1)
  have hdate : last.date = { year := (9999 : Nat), month := 12, day := 31 } := rfl
  rw [seconds, number_epoch, hdate]
  generalize Date.number _ = number at hnumber ⊢
  generalize daysBeforeYear _ = days at hnumber hyears
  simp only [last]
  omega

namespace Instant.IsPlain

variable {instant : Instant} (h : instant.IsPlain)

include h

theorem wholeSeconds_eq : instant.wholeSeconds = instant.seconds := by
  have hnanos := h.nanos
  rw [wholeSeconds, nanoseconds]
  omega

theorem isNumbered_date : instant.moment.date.IsNumbered (instant.seconds / 86400 + 719528) := by
  have hfirst := h.first_le
  rw [Moment.seconds_first] at hfirst
  exact isNumbered_dateOfDays (by omega)

theorem isValid_moment : instant.moment.IsValid where
  date := h.isNumbered_date.1
  hour := by
    simp only [moment]
    omega
  minute := Nat.mod_lt _ (by decide)
  second := Nat.mod_lt _ (by decide)

theorem seconds_moment : instant.moment.seconds = instant.seconds := by
  rw [Moment.seconds, Moment.number_epoch, h.isNumbered_date.2]
  simp only [moment]
  omega

theorem year_le : instant.moment.date.year ≤ 9999 := by
  by_contra hyear
  have hlater : last.date.Before instant.moment.date := .inl (Int.not_le.mp hyear)
  have hdays := Date.Before.number_lt Moment.isValid_last.date hlater
  have hlast := h.le_last
  rw [← h.seconds_moment, Moment.seconds, Moment.seconds] at hlast
  simp only [last] at hdays hlast
  omega

theorem toList_text : instant.text.toList = instant.moment.digits := by
  have hlow := h.isValid_moment.date.year
  have hhigh := h.year_le
  have htext : yearText instant.moment.date.year =
      Decimal.padded 4 instant.moment.date.year.toNat := by
    have hnatAbs : instant.moment.date.year.natAbs = instant.moment.date.year.toNat := by omega
    rw [yearText, if_neg (Int.not_lt.mpr hlow), if_neg (Int.not_lt.mpr hhigh), hnatAbs]
  rw [moment] at htext
  simp only [text, String.toList_ofList, if_neg (Nat.not_le.mpr h.nanos), Nat.add_zero, htext,
    Moment.digits, Moment.marked, moment, List.append_assoc, List.cons_append]

theorem isWrittenAs_text : instant.moment.IsWrittenAs instant.text :=
  h.isValid_moment.isWrittenAs h.year_le h.toList_text

section Order

variable {later : Instant} (hlater : later.IsPlain)

include hlater

theorem text_lt (hlt : instant.seconds < later.seconds) : instant.text < later.text := by
  rw [← h.seconds_moment, ← hlater.seconds_moment] at hlt
  rw [String.lt_iff, h.toList_text, hlater.toList_text]
  exact h.isValid_moment.digits_lt hlater.isValid_moment hlater.year_le hlt

/-- A fraction of a second is not shown. -/
theorem text_eq (heq : instant.seconds = later.seconds) : instant.text = later.text := by
  have hmoment : instant.moment = later.moment := by rw [moment, moment, heq]
  rw [← String.toList_inj, h.toList_text, hlater.toList_text, hmoment]

/-- Texts are ordered as the seconds are, and agree in one second only. -/
theorem text_lt_iff : instant.text < later.text ↔ instant.seconds < later.seconds := by
  refine ⟨?_, h.text_lt hlater⟩
  intro hlt
  rcases Int.lt_trichotomy instant.seconds later.seconds with hless | heq | hgreater
  · exact hless
  · rw [h.text_eq hlater heq] at hlt
    exact absurd hlt (String.lt_irrefl _)
  · exact absurd (hlater.text_lt h hgreater) (String.lt_asymm hlt)

theorem text_eq_iff : instant.text = later.text ↔ instant.seconds = later.seconds := by
  refine ⟨?_, h.text_eq hlater⟩
  intro heq
  rcases Int.lt_trichotomy instant.seconds later.seconds with hless | hsame | hgreater
  · exact absurd heq (String.ne_of_lt (h.text_lt hlater hless))
  · exact hsame
  · exact absurd heq.symm (String.ne_of_lt (hlater.text_lt h hgreater))

end Order

end Instant.IsPlain

/-- Half a second before 1970 belongs to the second before. -/
example : ({ seconds := -1, nanos := 500000000 } : Instant).text = "1969-12-31T23:59:59Z" := by
  decide +kernel

end PanelRelay.Calendar
