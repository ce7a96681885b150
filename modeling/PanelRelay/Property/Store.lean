import PanelRelay.Journal
import PanelRelay.Property.Value

/-!
Looking up properties. A store answers for every address; a read yields a content only where the
store reports the address as available and the value is of the kind asked for, and otherwise leaves
exactly one event that says why.
-/

namespace PanelRelay.Property

structure Address where
  name : String
  index : UInt32
  deriving DecidableEq, Repr

structure Store where
  status : Address → Status
  /-- Only meaningful where the status is `ok`. -/
  value : Address → Kind → Option Value

namespace Store

/-- A store that yields a value only if it is of the kind asked for. -/
def strict (store : Store) : Store where
  status := store.status
  value address kind := (store.value address kind).filter fun value => value.kind = kind

end Store

namespace Address

def fields (address : Address) : Journal.Fields :=
  [("property", .quoted address.name), ("index", .number address.index.toNat)]

def notAvailable (address : Address) (status : Status) : Journal.Event where
  origin := .property
  level := .trace
  message := "Property is not available"
  fields := address.fields ++ [("status", .plain status.label)]

def withoutValue (address : Address) : Journal.Event where
  origin := .property
  level := .warn
  message := s!"⚠️ Property '{address.name}' reported Ok without a value"
  fields := address.fields

def otherKind (address : Address) (expected found : Kind) : Journal.Event where
  origin := .property
  level := .warn
  message := s!"⚠️ Expected a {expected.label} value for property " ++
    s!"'{address.name}', found {found.label}"
  fields := address.fields

end Address

def Store.read (store : Store) (kind : Kind) (address : Address) : Noted (Option kind.Content) :=
  match store.status address with
  | .ok =>
      match store.value address kind with
      | none => ⟨none, [address.withoutValue]⟩
      | some value =>
          match value.content? kind with
          | none => ⟨none, [address.otherKind kind value.kind]⟩
          | some content => ⟨some content, []⟩
  | status => ⟨none, [address.notAvailable status]⟩

end PanelRelay.Property
