import PanelRelay.Text.Decimal

/-!
Instants as dates of the proleptic Gregorian calendar. Years are counted from March, so that the
leap day ends a year, and grouped in cycles of 400.
-/

namespace PanelRelay.Calendar

structure Date where
  year : Int
  month : Nat
  day : Nat
  deriving DecidableEq, Repr

def daysPerCycle : Int := 146097

def dateOfDays (days : Int) : Date :=
  let shifted := days + 719468
  let cycle := shifted / daysPerCycle
  let dayOfCycle := shifted % daysPerCycle
  let yearOfCycle :=
    (dayOfCycle - dayOfCycle / 1460 + dayOfCycle / 36524 - dayOfCycle / 146096) / 365
  let dayOfYear := dayOfCycle - (365 * yearOfCycle + yearOfCycle / 4 - yearOfCycle / 100)
  let monthFromMarch := (5 * dayOfYear + 2) / 153
  let day := dayOfYear - (153 * monthFromMarch + 2) / 5 + 1
  let month := if monthFromMarch < 10 then monthFromMarch + 3 else monthFromMarch - 9
  let year := yearOfCycle + cycle * 400 + (if month ≤ 2 then 1 else 0)
  { year, month := month.toNat, day := day.toNat }

def isLeapYear (year : Nat) : Bool :=
  year % 4 = 0 && (year % 100 ≠ 0 || year % 400 = 0)

def daysInMonth (year month : Nat) : Nat :=
  if month = 2 then if isLeapYear year then 29 else 28
  else if month ∈ [4, 6, 9, 11] then 30
  else 31

structure Instant where
  /-- Seconds since the start of 1970, without leap seconds. -/
  seconds : Int
  /-- A billion or more stands for the leap second after this one. -/
  nanos : Nat := 0

/-- Four digits, and a sign as soon as they do not suffice or the year is before year zero. -/
def yearText (year : Int) : List Char :=
  if year < 0 then '-' :: Decimal.padded 4 year.natAbs
  else if 9999 < year then '+' :: Decimal.padded 4 year.natAbs
  else Decimal.padded 4 year.natAbs

def Instant.text (instant : Instant) : String :=
  let date := dateOfDays (instant.seconds / 86400)
  let second := (instant.seconds % 86400).toNat
  let leap := if 1000000000 ≤ instant.nanos then 1 else 0
  let two := Decimal.padded 2
  String.ofList (yearText date.year ++ '-' :: two date.month ++ '-' :: two date.day ++
    'T' :: two (second / 3600) ++ ':' :: two (second / 60 % 60) ++
    ':' :: two (second % 60 + leap) ++ ['Z'])

end PanelRelay.Calendar
