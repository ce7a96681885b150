/-! Values that a panel property can hold, and the status under which a panel reports them. -/

namespace PanelRelay.Property

inductive Status where
  | ok
  | notAvailable
  | failed
  deriving DecidableEq, Repr

def Status.label : Status → String
  | .ok => "Ok"
  | .notAvailable => "NotAvailable"
  | .failed => "Failed"

def Status.ofLabel? (label : String) : Option Status :=
  [Status.ok, .notAvailable, .failed].find? fun status => status.label = label

inductive Kind where
  | text
  | integer
  | bytes
  deriving DecidableEq, Repr

def Kind.label : Kind → String
  | .text => "Text"
  | .integer => "Integer"
  | .bytes => "Bytes"

abbrev Kind.Content : Kind → Type
  | .text => String
  | .integer => Int32
  | .bytes => List UInt8

inductive Value where
  | text (content : String)
  | integer (content : Int32)
  | bytes (content : List UInt8)
  deriving DecidableEq

namespace Value

def kind : Value → Kind
  | .text _ => .text
  | .integer _ => .integer
  | .bytes _ => .bytes

def ofContent : (kind : Kind) → kind.Content → Value
  | .text => .text
  | .integer => .integer
  | .bytes => .bytes

def content? : (kind : Kind) → Value → Option kind.Content
  | .text, .text content => some content
  | .integer, .integer content => some content
  | .bytes, .bytes content => some content
  | _, _ => none

@[simp] theorem content?_ofContent (kind : Kind) (content : kind.Content) :
    (ofContent kind content).content? kind = some content := by
  cases kind <;> rfl

theorem content?_eq_some_iff {kind : Kind} {value : Value} {content : kind.Content} :
    value.content? kind = some content ↔ value = ofContent kind content := by
  cases kind <;> cases value <;> simp [content?, ofContent]

theorem content?_eq_none_iff {kind : Kind} {value : Value} :
    value.content? kind = none ↔ value.kind ≠ kind := by
  cases kind <;> cases value <;> simp [content?, Value.kind]

end Value

@[simp] theorem Status.ofLabel?_label (status : Status) :
    Status.ofLabel? status.label = some status := by
  cases status <;> decide

end PanelRelay.Property
