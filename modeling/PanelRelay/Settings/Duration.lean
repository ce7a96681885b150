import PanelRelay.Text.Blank
import PanelRelay.Text.Decimal
import PanelRelay.Text.Split

/-!
Durations as people write them: numbers with units, added up. A number may have decimals as long as
they come to whole nanoseconds, or to whole seconds for units of an hour and more. White space may
stand around the digits, but it ends a unit.
-/

namespace PanelRelay.Settings

structure Duration where
  seconds : Nat
  nanos : Nat
  deriving DecidableEq, Repr

namespace Duration

def zero : Duration where
  seconds := 0
  nanos := 0

def nanosPerSecond : Nat := 1000000000

/-- No count may reach this. -/
def limit : Nat := UInt64.size

def limited? (n : Nat) : Option Nat :=
  if n < limit then some n else none

inductive Scale where
  | nanos (factor : Nat)
  | seconds (factor : Nat)

structure Measure where
  names : List String
  whole : Scale
  decimals : Option Scale

def measures : List Measure :=
  [⟨["nanos", "nsec", "ns"], .nanos 1, none⟩,
    ⟨["usec", "us", "µs"], .nanos 1000, some (.nanos 1000)⟩,
    ⟨["millis", "msec", "ms"], .nanos 1000000, some (.nanos 1000000)⟩,
    ⟨["seconds", "second", "secs", "sec", "s"], .seconds 1, some (.nanos nanosPerSecond)⟩,
    ⟨["minutes", "minute", "min", "mins", "m"], .seconds 60, some (.nanos (60 * nanosPerSecond))⟩,
    ⟨["hours", "hour", "hrs", "hr", "h"], .seconds 3600, some (.seconds 3600)⟩,
    ⟨["days", "day", "d"], .seconds 86400, some (.seconds 86400)⟩,
    ⟨["weeks", "week", "wks", "wk", "w"], .seconds 604800, some (.seconds 604800)⟩,
    ⟨["months", "month", "M"], .seconds 2630016, some (.seconds 2630016)⟩,
    ⟨["years", "year", "yrs", "yr", "y"], .seconds 31557600, some (.seconds 31557600)⟩]

def measure? (name : String) : Option Measure :=
  measures.find? fun measure => name ∈ measure.names

/-- Adds a multiple of a scale, divided by `parts`, which has to come out even. -/
def add? (duration : Duration) (scale : Scale) (n parts : Nat) : Option Duration := do
  let (factor, inSeconds) := match scale with
    | .nanos factor => (factor, false)
    | .seconds factor => (factor, true)
  let product ← limited? (n * factor)
  if product % parts = 0 then
    let amount := product / parts
    let nanos ← limited? (duration.nanos + if inSeconds then 0 else amount)
    let seconds ← limited?
      (duration.seconds + (if inSeconds then amount else 0) + nanos / nanosPerSecond)
    return { seconds, nanos := nanos % nanosPerSecond }
  else none

structure Term where
  whole : Nat
  decimals : Option (List Char)
  unit : String

def Term.addTo? (duration : Duration) (term : Term) : Option Duration := do
  let measure ← measure? term.unit
  let duration ← duration.add? measure.whole term.whole 1
  match term.decimals with
  | none => return duration
  | some digits =>
      let scale ← measure.decimals
      let parts ← limited? (Nat.pow 10 digits.length)
      duration.add? scale (← Decimal.natural? digits) parts

def isUnitChar (c : Char) : Bool :=
  c.isAlpha || c = 'µ'

def isSpaced (c : Char) : Bool :=
  c.isDigit || isWhiteSpace c

def takeSpaced (text : List Char) : List Char × List Char :=
  ((text.takeWhile isSpaced).filter Char.isDigit, text.dropWhile isSpaced)

def takeUnit (text : List Char) : String × List Char :=
  (String.ofList (text.takeWhile isUnitChar), text.dropWhile isUnitChar)

def takeTerm? (first : Char) (text : List Char) : Option (Term × List Char) := do
  let (digits, text) := takeSpaced text
  let whole ← limited? (← Decimal.natural? (first :: digits))
  match text with
  | '.' :: text =>
      let (decimals, text) := takeSpaced text
      let (unit, text) := takeUnit text
      return ({ whole, decimals := some decimals, unit }, text)
  | text =>
      let (unit, text) := takeUnit text
      return ({ whole, decimals := none, unit }, text)

theorem length_takeTerm? {first : Char} {text rest : List Char} {term : Term}
    (h : takeTerm? first text = some (term, rest)) : rest.length ≤ text.length := by
  have hspaced (chars : List Char) : (takeSpaced chars).2.length ≤ chars.length :=
    (List.dropWhile_suffix (l := chars) isSpaced).length_le
  have hunit (chars : List Char) : (takeUnit chars).2.length ≤ chars.length :=
    (List.dropWhile_suffix (l := chars) isUnitChar).length_le
  have hfirst := hspaced text
  simp only [takeTerm?, Option.bind_eq_bind, Option.bind_eq_some_iff] at h
  obtain ⟨_, _, _, _, h⟩ := h
  split at h
  · next decimals heq =>
      cases h
      have hsecond := hspaced decimals
      have hthird := hunit (takeSpaced decimals).2
      simp only [heq, List.length_cons] at hfirst
      omega
  · cases h
    have hsecond := hunit (takeSpaced text).2
    omega

def terms? (text : List Char) : Option (List Term) :=
  match htext : text.dropWhile isWhiteSpace with
  | [] => some []
  | c :: rest =>
      if c.isDigit then
        match hterm : takeTerm? c rest with
        | none => none
        | some (term, rest') =>
            have := length_of_dropWhile htext
            have := length_takeTerm? hterm
            (terms? rest').map (term :: ·)
      else none
termination_by text.length
decreasing_by simp only [List.length_cons] at *; omega

/-- A bare zero needs no unit. -/
def parse? (text : String) : Option Duration :=
  if text = "0" then some zero
  else
    match terms? text.toList with
    | none => none
    | some [] => none
    | some terms => terms.foldlM Term.addTo? zero

end Duration

end PanelRelay.Settings
