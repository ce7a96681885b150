import PanelRelay.Device.Identity
import PanelRelay.Property.Store
import PanelRelay.Text.Blank

/-!
Typed access to a panel's description of itself. Every accessor reads the store when it is used, and
each field is optional on its own, since panels with different firmware fill in different subsets.
-/

namespace PanelRelay.Device

open Property (Address Store)

def descriptionKind : String := "device.Description"

def nameProperty : String := "device.name"
def modelProperty : String := "device.FWID_ProductName"
def versionProperty : String := "device.FWID_FirmwareVersion"
def serialNumberProperty : String := "device.FWID_SerialNumber"
def macProperty : String := "device.FWID_MAC"
def encryptionModeProperty : String := "device.FWID_EncMode"

/-- The store of a message that is known to describe a device. -/
structure Description where
  store : Store

inductive DescriptionError where
  | unrecognizedMessage
  | unexpectedKind (kind : String)
  deriving DecidableEq

def DescriptionError.message : DescriptionError → String
  | .unrecognizedMessage => "unrecognized message, the message has no kind"
  | .unexpectedKind kind => s!"expected a '{descriptionKind}' message, found '{kind}'"

namespace Description

def ofMessage (kind : Option String) (store : Store) : Except DescriptionError Description :=
  match kind with
  | none => .error .unrecognizedMessage
  | some kind =>
      if kind = "" then .error .unrecognizedMessage
      else if kind = descriptionKind then .ok ⟨store⟩
      else .error (.unexpectedKind kind)

/-- Panels fill a text of fixed width with NUL characters; those at the end are no part of it. -/
def withoutPadding (text : String) : String :=
  String.ofList (dropEndWhile (· = '\x00') text.toList)

def textProperty (description : Description) (name : String) : Noted (Option String) :=
  (description.store.read .text ⟨name, 0⟩).map (Option.map withoutPadding)

def name (description : Description) : Noted (Option String) :=
  description.textProperty nameProperty

def model (description : Description) : Noted (Option String) :=
  description.textProperty modelProperty

def version (description : Description) : Noted (Option String) :=
  description.textProperty versionProperty

def serialNumber (description : Description) : Noted (Option String) :=
  description.textProperty serialNumberProperty

def noMac : Journal.Event where
  origin := .description
  level := .debug
  message := "Device reports no MAC address"

def ignoredMac (error : MacError) : Journal.Event where
  origin := .description
  level := .warn
  message := s!"⚠️ Ignoring MAC address: {error.message}"
  fields := [("property", .quoted macProperty)]

/-- All octets zero is the placeholder for no address, of any length. -/
def macOfOctets (octets : List UInt8) : Noted (Option Mac) :=
  if octets.all (· = 0) then ⟨none, [noMac]⟩
  else
    match Mac.ofOctets octets with
    | .ok mac => ⟨some mac, []⟩
    | .error error => ⟨none, [ignoredMac error]⟩

def mac (description : Description) : Noted (Option Mac) := do
  match ← description.store.read .bytes ⟨macProperty, 0⟩ with
  | none => return none
  | some octets => macOfOctets octets

def encryptionMode (description : Description) : Noted Int32 :=
  (description.store.read .integer ⟨encryptionModeProperty, 0⟩).map fun mode => mode.getD 0

def identity (description : Description) : Noted Identity := do
  let name ← description.name
  let model ← description.model
  let version ← description.version
  let serialNumber ← description.serialNumber
  let mac ← description.mac
  let encryptionMode ← description.encryptionMode
  return { name, model, version, serialNumber, mac, encryptionMode }

end Description

end PanelRelay.Device
