import PanelRelay.Event.Report
import PanelRelay.Proofs.Device.Identity
import PanelRelay.Proofs.Device.Mac
import PanelRelay.Proofs.Envelope.Distinctness
import PanelRelay.Property.Bag

/-!
A report tells which panel it is about. The properties of the report tell the fields, whether they are
there included, and the request tells the properties.
-/

namespace PanelRelay.Event

open Device (Identity)

theorem map_text_inj {text other : Option String}
    (h : text.map Property.Value.text = other.map .text) : text = other :=
  Option.map_injective (fun _ _ => Property.Value.text.inj) h

theorem map_macText_inj {mac other : Option Device.Mac}
    (h : (mac.map fun mac => Property.Value.text mac.text) =
      other.map fun mac => .text mac.text) : mac = other :=
  Option.map_injective (fun _ _ heq => Device.Mac.text_inj (Property.Value.text.inj heq)) h

/-- A field that is absent is reported without a value, which no present field is. -/
theorem deviceDiscovered_inj {identity other : Identity}
    (h : deviceDiscovered identity = deviceDiscovered other) : identity = other := by
  obtain ⟨name, model, version, serialNumber, mac, encryptionMode⟩ := identity
  obtain ⟨otherName, otherModel, otherVersion, otherSerial, otherMac, otherMode⟩ := other
  have hdetails := congrArg (fun message => message.details.getD []) h
  simp only [deviceDiscovered, Message.named, Message.add, Option.getD_some, List.nil_append,
    List.cons_append, List.cons.injEq, Detail.mk.injEq, Option.some.injEq,
    Property.Value.integer.injEq, true_and, and_true] at hdetails
  obtain ⟨hname, hmodel, hversion, hserial, hmac, rfl⟩ := hdetails
  rw [map_text_inj hname, map_text_inj hmodel, map_text_inj hversion, map_text_inj hserial,
    map_macText_inj hmac]

/-- One request reports one panel, whatever the panel says about itself. -/
theorem encode_deviceDiscovered_inj {order order' : Envelope.DeclarationOrder}
    {identity other : Identity} {text : String}
    (hidentity : Envelope.encode order (deviceDiscovered identity) = .ok text)
    (hother : Envelope.encode order' (deviceDiscovered other) = .ok text) : identity = other := by
  obtain ⟨hregular, htext⟩ := Envelope.regular_requestTree hidentity
  obtain ⟨hregularOther, htextOther⟩ := Envelope.regular_requestTree hother
  have htree := Envelope.document_inj hregular hregularOther (htext.trans htextOther.symm)
  exact deviceDiscovered_inj (Envelope.envelopeAround_inj htree)

/-- A panel whose name imitates markup, with an empty, a blank and an absent text. -/
def puzzlingIdentity : Identity where
  name := some "</value><value xsi:nil=\"true\" />"
  model := some ""
  version := none
  serialNumber := some " "
  mac := some ⟨#v[0x00, 0x1b, 0x44, 0x11, 0x3a, 0xb7]⟩
  encryptionMode := -1

/-- The same panel, as it describes itself in texts of fixed width. -/
def puzzlingDescription : Device.Description where
  store := (Property.Bag.empty
    |>.set ⟨Device.nameProperty, 0⟩ (.text "</value><value xsi:nil=\"true\" />\x00")
    |>.set ⟨Device.modelProperty, 0⟩ (.text "\x00\x00")
    |>.set ⟨Device.serialNumberProperty, 0⟩ (.text " ")
    |>.set ⟨Device.macProperty, 0⟩ (.bytes [0x00, 0x1b, 0x44, 0x11, 0x3a, 0xb7])
    |>.set ⟨Device.encryptionModeProperty, 0⟩ (.integer (-1))).store

theorem encode_deviceDiscovered_inj_puzzlingIdentity :
    ∃ text, Envelope.encode .alphabetical (deviceDiscovered puzzlingIdentity) = .ok text ∧
      Envelope.encode .alphabetical (deviceDiscovered puzzlingDescription.identity.result) =
        .ok text ∧
      puzzlingIdentity = puzzlingDescription.identity.result := by
  have hidentity : Envelope.encode .alphabetical (deviceDiscovered puzzlingIdentity) =
      .ok (Envelope.requestTree .alphabetical (deviceDiscovered puzzlingIdentity)).document :=
    (Envelope.encode_eq_ok_iff_isCarried _ _ _).mpr ⟨by decide, rfl⟩
  have hdescription :
      Envelope.encode .alphabetical (deviceDiscovered puzzlingDescription.identity.result) =
        .ok (Envelope.requestTree .alphabetical (deviceDiscovered puzzlingIdentity)).document :=
    (Envelope.encode_eq_ok_iff_isCarried _ _ _).mpr ⟨by decide, rfl⟩
  exact ⟨_, hidentity, hdescription, encode_deviceDiscovered_inj hidentity hdescription⟩

end PanelRelay.Event
