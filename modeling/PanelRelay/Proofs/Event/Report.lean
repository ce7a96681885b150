import PanelRelay.Event.Report
import PanelRelay.Proofs.Device.Identity
import PanelRelay.Proofs.Envelope.Acceptance

/-!
When the report about a panel can be sent. Of all that the report says, only the four texts that the
panel reports about itself can hold a character that no document carries; padding never does, since
it has been taken off.
-/

namespace PanelRelay.Device.Mac

theorem isGraphic_upperDigit : ∀ n < 16, isGraphic (upperDigit n) = true := by
  decide

theorem isGraphic_of_mem_group {octet : UInt8} {c : Char} (hc : c ∈ group octet) :
    isGraphic c = true := by
  have hoctet := octet.toNat_lt
  simp only [group, List.mem_cons, List.not_mem_nil, or_false] at hc
  rcases hc with rfl | rfl
  · exact isGraphic_upperDigit _ (by omega)
  · exact isGraphic_upperDigit _ (by omega)

theorem isGraphic_of_mem_groups {octets : List UInt8} {c : Char}
    (hc : c ∈ [':'].intercalate (octets.map group)) : isGraphic c = true := by
  rw [List.intercalate, List.mem_flatten] at hc
  obtain ⟨part, hpart, hc⟩ := hc
  induction octets with
  | nil => cases hpart
  | cons octet octets ih =>
      cases octets with
      | nil =>
          obtain rfl := List.mem_singleton.mp hpart
          exact isGraphic_of_mem_group hc
      | cons next octets =>
          simp only [List.map_cons, List.intersperse_cons_cons, List.mem_cons] at hpart ih
          rcases hpart with rfl | rfl | hpart
          · exact isGraphic_of_mem_group hc
          · obtain rfl := List.mem_singleton.mp hc
            decide
          · exact ih hpart

end PanelRelay.Device.Mac

namespace PanelRelay.Event

open Device (Description Identity IsReported ReportsText)
open Envelope (Sendable isCarried messageTexts offence? optionalTexts)

/-- The properties whose texts are reported as they are, in the order of the report. -/
def textProperties : List String :=
  [Device.nameProperty, Device.modelProperty, Device.versionProperty, Device.serialNumberProperty]

theorem isCarried_macText (mac : Device.Mac) : isCarried mac.text = true :=
  Envelope.isCarried_of_isGraphic fun _ => Device.Mac.isGraphic_of_mem_groups

theorem offence?_of_isCarried (element : String) {text : String} (h : isCarried text = true) :
    offence? [(element, text)] = none := by
  simp [offence?, h]

theorem offence?_detail {id : String} (value : Option Property.Value)
    (hid : isCarried id = true) :
    offence? (Envelope.detailTexts { id := some id, index := 0, value }) =
      offence? (Envelope.valueTexts value) := by
  have hnone := offence?_of_isCarried "id" hid
  rw [Envelope.detailTexts, Envelope.offence?_append]
  simp only [optionalTexts, Option.toList_some, List.map_cons, List.map_nil, hnone, Option.or_none]

theorem valueTexts_text (text : Option String) :
    Envelope.valueTexts (text.map .text) = optionalTexts "value" text := by
  cases text <;> rfl

theorem offence?_macValue (mac : Option Device.Mac) :
    offence? (Envelope.valueTexts (mac.map fun mac => .text mac.text)) = none := by
  cases mac with
  | none => rfl
  | some mac => exact offence?_of_isCarried _ (isCarried_macText mac)

/-- The ids, the address, the code and the name of a report are never at fault. -/
theorem offence?_deviceDiscovered (identity : Identity) :
    offence? (messageTexts (deviceDiscovered identity)) =
      offence? ([identity.name, identity.model, identity.version, identity.serialNumber].flatMap
        (optionalTexts "value")) := by
  have hids : ∀ id ∈ [Device.macProperty, Device.encryptionModeProperty] ++ textProperties,
      isCarried id = true := by decide
  have hname : offence? (optionalTexts "name" (some deviceDiscoveredName)) = none := by decide
  have hmode : Envelope.valueTexts (some (.integer identity.encryptionMode)) = [] := rfl
  simp only [textProperties, List.cons_append, List.nil_append, List.forall_mem_cons] at hids
  obtain ⟨hmac, henc, hdevice, hmodel, hversion, hserial, -⟩ := hids
  simp only [messageTexts, deviceDiscovered, Message.named, Message.add, Option.getD_some,
    List.nil_append, List.cons_append, List.flatMap_cons, List.flatMap_nil, List.append_nil,
    Envelope.offence?_append, offence?_detail _ hmac, offence?_detail _ henc,
    offence?_detail _ hdevice, offence?_detail _ hmodel, offence?_detail _ hversion,
    offence?_detail _ hserial, valueTexts_text, offence?_macValue, hmode, hname,
    Envelope.offence?_nil, Option.or_none]

theorem offence?_optionalTexts_of_sendable (element : String) {found : Option String}
    (h : ∀ text, found = some text → Sendable text) :
    offence? (optionalTexts element found) = none := by
  rw [Envelope.offence?_eq_none_iff]
  intro item hitem
  obtain ⟨text, htext, rfl⟩ := List.mem_map.mp hitem
  exact h text (Option.mem_toList.mp htext)

theorem offence?_optionalTexts_of_refused (element : String) {text : String}
    (h : ¬ Sendable text) :
    offence? (optionalTexts element (some text)) = some (.invalidValue element (escape text)) := by
  rw [Envelope.offence?_eq_some_iff]
  exact ⟨[], element, text, [], rfl, by simp, h, Envelope.Error.blames_iff.mpr rfl⟩

/-- Of the texts that some names have, the first that cannot be carried is at fault. -/
theorem offence?_texts_eq_some_iff (element : String) (text? : String → Option String)
    (names : List String) (error : Envelope.Error) :
    offence? (names.flatMap fun name => optionalTexts element (text? name)) = some error ↔
      ∃ before name after text,
        names = before ++ name :: after ∧
          (∀ earlier ∈ before, ∀ text, text? earlier = some text → Sendable text) ∧
          text? name = some text ∧ ¬ Sendable text ∧ error.Blames element text := by
  simp only [Envelope.Error.blames_iff]
  induction names with
  | nil => simp
  | cons first names ih =>
      -- Either the first name is passed, and the split lies behind it, or it is where the split is.
      rw [List.flatMap_cons, Envelope.offence?_append]
      by_cases hfirst : ∀ text, text? first = some text → Sendable text
      · rw [offence?_optionalTexts_of_sendable element hfirst, Option.none_or, ih]
        constructor
        · rintro ⟨before, name, after, text, rfl, hbefore, hname⟩
          exact ⟨first :: before, name, after, text, rfl,
            List.forall_mem_cons.mpr ⟨hfirst, hbefore⟩, hname⟩
        · rintro ⟨before, name, after, text, heq, hbefore, hname, hrefused, herror⟩
          cases before with
          | nil =>
              obtain ⟨rfl, rfl⟩ := List.cons.inj heq
              exact absurd (hfirst text hname) hrefused
          | cons skipped before =>
              obtain ⟨rfl, rfl⟩ := List.cons.inj heq
              exact ⟨before, name, after, text, rfl, (List.forall_mem_cons.mp hbefore).2, hname,
                hrefused, herror⟩
      · obtain ⟨text, hfound, hrefused⟩ : ∃ text, text? first = some text ∧ ¬ Sendable text := by
          simpa using hfirst
        rw [hfound, offence?_optionalTexts_of_refused element hrefused, Option.some_or,
          Option.some.injEq]
        constructor
        · rintro rfl
          exact ⟨[], first, names, text, rfl, by simp, hfound, hrefused, rfl⟩
        · rintro ⟨before, name, after, other, heq, hbefore, hname, -, rfl⟩
          cases before with
          | nil =>
              obtain ⟨rfl, rfl⟩ := List.cons.inj heq
              obtain rfl := Option.some.inj (hfound.symm.trans hname)
              rfl
          | cons skipped before =>
              obtain ⟨rfl, rfl⟩ := List.cons.inj heq
              exact absurd ((List.forall_mem_cons.mp hbefore).1 text hfound) hrefused

section Order

variable (order : Envelope.DeclarationOrder)

theorem encode_deviceDiscovered_eq_error_iff (store : Property.Store) (error : Envelope.Error) :
    Envelope.encode order (deviceDiscovered (⟨store⟩ : Description).identity.result) =
        .error error ↔
      ∃ before name after text,
        textProperties = before ++ name :: after ∧
          (∀ earlier ∈ before, ∀ text, ReportsText store earlier text → Sendable text) ∧
          ReportsText store name text ∧ ¬ Sendable text ∧ error.Blames "value" text := by
  have hfields := offence?_texts_eq_some_iff "value"
    (fun name => ((⟨store⟩ : Description).textProperty name).result) textProperties error
  simp only [Description.textProperty_eq_some_iff] at hfields
  rw [Envelope.encode_eq, Envelope.judged_eq_error_iff, offence?_deviceDiscovered]
  exact hfields

theorem exists_encode_deviceDiscovered_eq_error (store : Property.Store) {name text : String}
    (hname : name ∈ textProperties) (hreports : ReportsText store name text)
    (hrefused : ¬ Sendable text) :
    ∃ error, Envelope.encode order (deviceDiscovered (⟨store⟩ : Description).identity.result) =
      .error error := by
  have hmem : ("value", text) ∈ textProperties.flatMap fun name =>
      optionalTexts "value" ((⟨store⟩ : Description).textProperty name).result := by
    rw [List.mem_flatMap]
    refine ⟨name, hname, ?_⟩
    rw [(Description.textProperty_eq_some_iff store name text).mpr hreports]
    exact List.mem_singleton_self _
  simp only [Envelope.encode_eq, Envelope.judged_eq_error_iff, offence?_deviceDiscovered]
  apply Option.ne_none_iff_exists'.mp
  intro hnone
  exact hrefused ((Envelope.offence?_eq_none_iff _).mp hnone _ hmem)

/--
A report about a panel is refused exactly if one of its four texts, stripped of its padding, holds a
character that no document carries. The first such text is blamed, always as a value.
-/
theorem encode_deviceDiscovered_blames_first_text (store : Property.Store) :
    ∃ description, Description.ofMessage (some Device.descriptionKind) store = .ok description ∧
      ((∃ error,
          Envelope.encode order (deviceDiscovered description.identity.result) = .error error) ↔
        ∃ name ∈ textProperties, ∃ text, ReportsText store name text ∧ ¬ Sendable text) ∧
      ∀ error, Envelope.encode order (deviceDiscovered description.identity.result) = .error error ↔
        ∃ before name after text,
          textProperties = before ++ name :: after ∧
            (∀ earlier ∈ before, ∀ text, ReportsText store earlier text → Sendable text) ∧
            ReportsText store name text ∧ ¬ Sendable text ∧ error.Blames "value" text := by
  refine ⟨⟨store⟩, Description.ofMessage_descriptionKind store, ?_,
    encode_deviceDiscovered_eq_error_iff order store⟩
  constructor
  · rintro ⟨error, herror⟩
    obtain ⟨before, name, after, text, hnames, -, hreports, hrefused, -⟩ :=
      (encode_deviceDiscovered_eq_error_iff order store error).mp herror
    exact ⟨name, by simp [hnames], text, hreports, hrefused⟩
  · rintro ⟨name, hname, text, hreports, hrefused⟩
    exact exists_encode_deviceDiscovered_eq_error order store hname hreports hrefused

end Order

end PanelRelay.Event
