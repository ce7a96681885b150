import PanelRelay.Proofs.Capture.Loading
import PanelRelay.Proofs.Device.Query
import PanelRelay.Proofs.Event.Report

/-!
What a capture discloses. The identity of a panel, the notes about reading it and the report that
goes out depend on six properties, and on the values of these only where they are available: a value
that came along with another status is kept, but it shows nowhere.
-/

namespace PanelRelay.Event

open Capture (Document Entry Message)
open Device (Description)
open Property (Store)

/-- The properties that the identity of a panel is made of. -/
def identityProperties : List String :=
  textProperties ++ [Device.macProperty, Device.encryptionModeProperty]

theorem identity_congr {store other : Store}
    (h : ∀ name ∈ identityProperties, store.AgreeAt other ⟨name, 0⟩) :
    (⟨store⟩ : Description).identity = (⟨other⟩ : Description).identity := by
  apply Description.identity_congr
  have hnames : Device.Query.identity.addresses = identityProperties.map (⟨·, 0⟩) := rfl
  rw [hnames]
  exact List.forall_mem_map.mpr h

/--
Two captured descriptions that agree on the six properties of an identity, on the value only where a
property is available, cannot be told apart by anything that is made of them.
-/
theorem identity_hides_unavailable_values (explain : String → String)
    (order : Envelope.DeclarationOrder) (text other : String) :
    ∀ message message', Message.parse explain text = .ok message →
      Message.parse explain other = .ok message' →
      message.kind = some Device.descriptionKind → message'.kind = some Device.descriptionKind →
      (∀ name ∈ identityProperties,
        message.properties.store.AgreeAt message'.properties.store ⟨name, 0⟩) →
      ∃ description description',
        Description.ofMessage message.kind message.properties.store = .ok description ∧
          Description.ofMessage message'.kind message'.properties.store = .ok description' ∧
          description.identity.result = description'.identity.result ∧
          description.identity.result.json.compact = description'.identity.result.json.compact ∧
          description.identity.events = description'.identity.events ∧
          deviceDiscovered description.identity.result =
            deviceDiscovered description'.identity.result ∧
          Envelope.encode order (deviceDiscovered description.identity.result) =
            Envelope.encode order (deviceDiscovered description'.identity.result) := by
  intro message message' _ _ hkind hkind' hagree
  have hidentity := identity_congr hagree
  refine ⟨⟨message.properties.store⟩, ⟨message'.properties.store⟩, ?_, ?_, ?_⟩
  · rw [hkind, Description.ofMessage_descriptionKind]
  · rw [hkind', Description.ofMessage_descriptionKind]
  · rw [hidentity]
    exact ⟨rfl, rfl, rfl, rfl, rfl⟩

/-- The address came along with a status that says not to trust it. -/
def talkativeCapture : String :=
  "\x7b\"kind\": \"device.Description\", \"properties\": [" ++
    "\x7b\"name\": \"device.FWID_MAC\", \"status\": \"Failed\", " ++
    "\"value\": \x7b\"bytes\": [1, 2, 3, 4, 5, 6]\x7d\x7d, " ++
    "\x7b\"name\": \"device.name\", \"value\": \x7b\"text\": \"Panel\"\x7d\x7d]\x7d"

/-- The same panel, without the address and with a second name. -/
def discreetCapture : String :=
  "[\"device.Description\", [[\"device.name\", 0, \"Ok\", \x7b\"text\": \"Panel\"\x7d], " ++
    "[\"device.name\", 1, \"Ok\", \x7b\"text\": \"Other\"\x7d], " ++
    "[\"device.FWID_MAC\", 0, \"Failed\", null]]]"

def talkativeDocument : Document where
  kind := some "device.Description"
  entries := [
    { name := "device.FWID_MAC", status := .failed, value := some (.bytes [1, 2, 3, 4, 5, 6]) },
    { name := "device.name", value := some (.text "Panel") }]

def discreetDocument : Document where
  kind := some "device.Description"
  entries := [
    { name := "device.name", value := some (.text "Panel") },
    { name := "device.name", index := 1, value := some (.text "Other") },
    { name := "device.FWID_MAC", status := .failed, value := none }]

theorem identity_hides_failed_mac :
    ∃ message message', Message.parse Capture.explainBriefly talkativeCapture = .ok message ∧
      Message.parse Capture.explainBriefly discreetCapture = .ok message' ∧
      message.properties.value ⟨Device.macProperty, 0⟩ = some (.bytes [1, 2, 3, 4, 5, 6]) ∧
      message'.properties.value ⟨Device.macProperty, 0⟩ = none ∧
      ∃ description description',
        Description.ofMessage message.kind message.properties.store = .ok description ∧
          Description.ofMessage message'.kind message'.properties.store = .ok description' ∧
          description.identity.result = description'.identity.result ∧
          description.identity.events = description'.identity.events := by
  have hread : Document.parse? talkativeCapture = some talkativeDocument := by decide +kernel
  have hread' : Document.parse? discreetCapture = some discreetDocument := by decide +kernel
  obtain ⟨message, hparse, hkind, hslots⟩ := Capture.exists_parse_of_document hread (by decide)
    (by simp [talkativeDocument, Entry.IsComplete])
  obtain ⟨message', hparse', hkind', hslots'⟩ := Capture.exists_parse_of_document hread'
    (by decide) (by simp [discreetDocument, Entry.IsComplete])
  have hstatus : ∀ name ∈ identityProperties,
      message.properties.status ⟨name, 0⟩ = message'.properties.status ⟨name, 0⟩ := by
    simp only [Property.Bag.status, Property.Bag.slot?, hslots, hslots']
    decide
  have hvalue : ∀ name ∈ identityProperties, message.properties.status ⟨name, 0⟩ = .ok →
      message.properties.value ⟨name, 0⟩ = message'.properties.value ⟨name, 0⟩ := by
    simp only [Property.Bag.status, Property.Bag.value, Property.Bag.slot?, hslots, hslots']
    decide
  obtain ⟨description, description', hleft, hright, hidentity, -, hevents, -⟩ :=
    identity_hides_unavailable_values Capture.explainBriefly .alphabetical talkativeCapture
      discreetCapture message message' hparse hparse' hkind hkind' fun name hname =>
        ⟨hstatus name hname, fun hok => funext fun _ => hvalue name hname hok⟩
  have hmac : message.properties.value ⟨Device.macProperty, 0⟩ =
      some (.bytes [1, 2, 3, 4, 5, 6]) := by
    rw [Property.Bag.value, Property.Bag.slot?, hslots]
    rfl
  have hmac' : message'.properties.value ⟨Device.macProperty, 0⟩ = none := by
    rw [Property.Bag.value, Property.Bag.slot?, hslots']
    rfl
  exact ⟨message, message', hparse, hparse', hmac, hmac', description, description', hleft, hright,
    hidentity, hevents⟩

end PanelRelay.Event
