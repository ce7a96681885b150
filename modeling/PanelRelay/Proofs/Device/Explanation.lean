import Mathlib.Data.List.Basic
import PanelRelay.Proofs.Device.Identity

/-!
What is noted while an identity is read. Every field that is not delivered leaves exactly one event,
which tells the cause, and a field that is delivered leaves none.
-/

namespace PanelRelay

open Journal (Event)

/-- Either something was delivered, or one event stands for the only cause why not. -/
inductive IsAccounted (Cause : Event → Prop) : Bool → List Event → Prop
  | delivered : (∀ event, ¬ Cause event) → IsAccounted Cause true []
  | missed {event : Event} : (∀ other, Cause other ↔ other = event) →
      IsAccounted Cause false [event]

namespace IsAccounted

variable {Cause Other : Event → Prop} {isDelivered : Bool} {events : List Event}

theorem mono (h : IsAccounted Cause isDelivered events) (hsame : ∀ event, Other event ↔ Cause event) :
    IsAccounted Other isDelivered events := by
  cases h with
  | delivered hnone => exact .delivered fun event hother => hnone event ((hsame event).mp hother)
  | missed hcause => exact .missed fun other => (hsame other).trans (hcause other)

theorem head?_eq_some_iff (h : IsAccounted Cause isDelivered events) (event : Event) :
    events.head? = some event ↔ Cause event := by
  cases h with
  | delivered hnone => simp [hnone event]
  | missed hcause => rw [hcause event, List.head?_cons, Option.some.injEq, eq_comm]

end IsAccounted

namespace Property.Store

end Property.Store

namespace Device

open Property (Address Kind Store Value)

inductive Field where
  | name
  | model
  | version
  | serialNumber
  | mac
  | encryptionMode

namespace Field

/-- All fields, in the order in which they are read. -/
def all : List Field :=
  [.name, .model, .version, .serialNumber, .mac, .encryptionMode]

def property : Field → String
  | .name => nameProperty
  | .model => modelProperty
  | .version => versionProperty
  | .serialNumber => serialNumberProperty
  | .mac => macProperty
  | .encryptionMode => encryptionModeProperty

def address (field : Field) : Address :=
  ⟨field.property, 0⟩

def kind : Field → Kind
  | .name => .text
  | .model => .text
  | .version => .text
  | .serialNumber => .text
  | .mac => .bytes
  | .encryptionMode => .integer

/-- A code is delivered if it was read; the zero in place of one that was not is none. -/
def isDelivered (store : Store) (identity : Identity) : Field → Bool
  | .name => identity.name.isSome
  | .model => identity.model.isSome
  | .version => identity.version.isSome
  | .serialNumber => identity.serialNumber.isSome
  | .mac => identity.mac.isSome
  | .encryptionMode => (store.read .integer ⟨encryptionModeProperty, 0⟩).result.isSome

/-- What is noted while one field is read. -/
def events (description : Description) : Field → List Event
  | .name => description.name.events
  | .model => description.model.events
  | .version => description.version.events
  | .serialNumber => description.serialNumber.events
  | .mac => description.mac.events
  | .encryptionMode => description.encryptionMode.events

end Field

section Fields

variable (store : Store)

end Fields

namespace Description

end Description

end Device

end PanelRelay
