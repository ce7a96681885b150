import PanelRelay.Text.Escape
import PanelRelay.Text.FloatText

/-! Values of settings before it is known what they are for. -/

namespace PanelRelay.Settings

inductive Value where
  | nil
  | bool (value : Bool)
  | integer (value : Int)
  | float (value : Float)
  | text (value : String)
  | array (elements : List Value)
  | table (members : List (String × Value))

abbrev Members := List (String × Value)

namespace Value

def asText? : Value → Option String
  | .bool value => some (toString value)
  | .integer value => some (String.ofList (Decimal.ofInt value))
  | .float value => some (FloatText.text value)
  | .text value => some value
  | _ => none

def truths : List String := ["1", "true", "on", "yes"]
def falsehoods : List String := ["0", "false", "off", "no"]

/-- The decision that a single value can stand for; case does not count in words. -/
def asBool? : Value → Option Bool
  | .bool value => some value
  | .integer value => some (value ≠ 0)
  | .float value => some (value != 0)
  | .text value =>
      let word := String.ofList (value.toList.map Char.toLower)
      if word ∈ truths then some true
      else if word ∈ falsehoods then some false
      else none
  | _ => none

def description : Value → String
  | .nil => "unit value"
  | .bool value => s!"boolean \x60{value}\x60"
  | .integer value => s!"integer \x60{value}\x60"
  | .float value =>
      let text := FloatText.text value
      let point := if value.isNaN || value.isInf || '.' ∈ text.toList then "" else ".0"
      s!"floating point \x60{text}{point}\x60"
  | .text value => s!"string {quote value}"
  | .array _ => "sequence"
  | .table _ => "map"

end Value

end PanelRelay.Settings
