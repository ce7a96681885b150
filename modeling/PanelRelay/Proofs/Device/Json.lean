import PanelRelay.Device.Identity
import PanelRelay.Proofs.Device.Mac
import PanelRelay.Proofs.Property.Json

/-!
Identities as JSON. The text of an identity is read as an object that shows each of its fields, absent
ones included, and nothing else; so a text belongs to one identity only.
-/

namespace PanelRelay.Device

/-- The value is null for want of a text, and a string with the text otherwise. -/
structure ShowsText (field : Option String) (value : Json.Value) : Prop where
  null : value = .null ↔ field = none
  text : ∀ text, Property.string? value = some text ↔ field = some text

/-- The value is null for want of an address, and a string with the groups of the address otherwise. -/
structure ShowsMac (field : Option Mac) (value : Json.Value) : Prop where
  null : value = .null ↔ field = none
  text : ∀ mac ∈ field, ∃ text, Property.string? value = some text ∧ text.length = 17 ∧
    AreGroups mac.octets.toList text.toList

/-- An object with the six members of an identity and no others, in their order. -/
def Identity.IsShownBy (identity : Identity) (value : Json.Value) : Prop :=
  ∃ name model version serialNumber mac mode : Json.Value,
    value = .ofMembers
      [("name", name), ("model", model), ("version", version), ("serial_number", serialNumber),
        ("mac", mac), ("encryption_mode", mode)] ∧
    ShowsText identity.name name ∧ ShowsText identity.model model ∧
    ShowsText identity.version version ∧ ShowsText identity.serialNumber serialNumber ∧
    ShowsMac identity.mac mac ∧
    (Property.integer? mode).bind int32? = some identity.encryptionMode

theorem ShowsText.unique {field other : Option String} {value : Json.Value}
    (h : ShowsText field value) (hother : ShowsText other value) : field = other :=
  Option.ext fun text => (h.text text).symm.trans (hother.text text)

theorem ShowsMac.unique {field other : Option Mac} {value : Json.Value} (h : ShowsMac field value)
    (hother : ShowsMac other value) : field = other := by
  cases field with
  | none => exact (hother.null.mp (h.null.mpr rfl)).symm
  | some mac =>
      cases other with
      | none => exact h.null.mp (hother.null.mpr rfl)
      | some mac' =>
          obtain ⟨text, htext, -, hgroups⟩ := h.text mac rfl
          obtain ⟨text', htext', -, hgroups'⟩ := hother.text mac' rfl
          obtain rfl := Option.some.inj (htext.symm.trans htext')
          rw [Mac.eq_of_areGroups hgroups hgroups']

theorem showsText_ofOption (field : Option String) :
    ShowsText field (.ofOption .ofText field) := by
  cases field with
  | none => exact ⟨by simp [Json.Value.ofOption], by simp [Json.Value.ofOption, Property.string?]⟩
  | some text =>
      refine ⟨by simp [Json.Value.ofOption, Json.Value.ofText], ?_⟩
      intro other
      rw [Json.Value.ofOption, Property.string?_ofText]

theorem showsMac_ofOption (field : Option Mac) : ShowsMac field (.ofOption Mac.json field) := by
  cases field with
  | none => exact ⟨by simp [Json.Value.ofOption], by simp⟩
  | some mac =>
      refine ⟨by simp [Json.Value.ofOption, Mac.json, Json.Value.ofText], ?_⟩
      intro shown hshown
      obtain rfl := Option.mem_some.mp hshown
      exact ⟨mac.text, Property.string?_ofText mac.text, mac.length_text, mac.areGroups_text⟩

namespace Identity

theorem isPrintable_json (identity : Identity) : identity.json.IsPrintable := by
  have htext := @Json.Value.isPrintable_ofOption String _ Json.Value.isPrintable_ofText
  have hmac := @Json.Value.isPrintable_ofOption Mac Mac.json fun mac =>
    Json.Value.isPrintable_ofText mac.text
  apply Json.Value.isPrintable_ofMembers
  simp only [List.forall_mem_cons]
  exact ⟨htext _, htext _, htext _, htext _, hmac _, Json.Value.isPrintable_ofInt _,
    List.forall_mem_nil _⟩

theorem isShownBy_json (identity : Identity) : identity.IsShownBy identity.json := by
  refine ⟨_, _, _, _, _, _, rfl, showsText_ofOption _, showsText_ofOption _, showsText_ofOption _,
    showsText_ofOption _, showsMac_ofOption _, ?_⟩
  rw [Property.integer?_ofInt, Option.bind_some, int32?_toInt]

/-- An object shows one identity only. -/
theorem IsShownBy.unique {identity other : Identity} {value : Json.Value}
    (h : identity.IsShownBy value) (hother : other.IsShownBy value) : identity = other := by
  obtain ⟨_, _, _, _, _, _, rfl, hname, hmodel, hversion, hserial, hmac, hmode⟩ := h
  obtain ⟨_, _, _, _, _, _, hmembers, hname', hmodel', hversion', hserial', hmac', hmode'⟩ := hother
  simp only [Json.Value.ofMembers, Json.Value.object.injEq, List.map_cons, List.cons.injEq,
    Prod.mk.injEq, true_and, List.map_nil, and_true] at hmembers
  obtain ⟨rfl, rfl, rfl, rfl, rfl, rfl⟩ := hmembers
  cases identity
  cases other
  rw [mk.injEq]
  exact ⟨hname.unique hname', hmodel.unique hmodel', hversion.unique hversion',
    hserial.unique hserial', hmac.unique hmac', Option.some.inj (hmode.symm.trans hmode')⟩

theorem parse?_compact (identity : Identity) :
    Json.Value.parse? identity.json.compact = some identity.json :=
  identity.isPrintable_json.parse?_compact

/--
The compact text of an identity is read as an object with its six members, which show the fields one
by one: null for what is absent, and else the very text, address or mode. No other identity has the
same text.
-/
theorem json_shows_one_identity (identity : Identity) :
    (∃ value, Json.Value.parse? identity.json.compact = some value ∧ identity.IsShownBy value) ∧
      ∀ other : Identity, other.json.compact = identity.json.compact ↔ other = identity := by
  refine ⟨⟨_, identity.parse?_compact, identity.isShownBy_json⟩, ?_⟩
  intro other
  constructor
  · intro htext
    have hread := other.parse?_compact
    rw [htext, identity.parse?_compact] at hread
    have hshown := other.isShownBy_json
    rw [← Option.some.inj hread] at hshown
    exact hshown.unique identity.isShownBy_json
  · rintro rfl
    rfl

example : (json
    { name := some "\x00\"\\\n", model := some "", version := none, serialNumber := some "null"
      mac := some ⟨#v[0, 27, 68, 17, 58, 183]⟩, encryptionMode := -2147483648 }).compact =
    "\x7b\"name\":\"\\u0000\\\"\\\\\\n\",\"model\":\"\",\"version\":null," ++
      "\"serial_number\":\"null\",\"mac\":\"00:1B:44:11:3A:B7\"," ++
      "\"encryption_mode\":-2147483648\x7d" := by
  decide +kernel

end Identity

end PanelRelay.Device
