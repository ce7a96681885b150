import Mathlib.Logic.ExistsUnique
import PanelRelay.Device.Description
import PanelRelay.Proofs.Property.Reading

/-!
What the identity of a panel holds. Each field is told from the property behind it alone: a text
without its padding, six octets that are not all zero, a code that is zero unless it is reported.
-/

namespace PanelRelay.Device

open Property (Store)

/-- The text is what is left when the NUL characters at the end of another are taken off. -/
structure IsUnpadded (raw text : String) : Prop where
  padded : ∃ count, raw.toList = text.toList ++ List.replicate count '\x00'
  bare : text.toList.getLast? ≠ some '\x00'

theorem isUnpadded_withoutPadding (raw : String) :
    IsUnpadded raw (Description.withoutPadding raw) := by
  let isPadding : Char → Bool := fun c => c = '\x00'
  let padding := raw.toList.reverse.takeWhile isPadding
  let kept := raw.toList.reverse.dropWhile isPadding
  have hkept : (Description.withoutPadding raw).toList = kept.reverse := String.toList_ofList
  have hpadding : ∀ c ∈ padding.reverse, c = '\x00' := by
    intro c hc
    exact of_decide_eq_true (List.all_eq_true.mp List.all_takeWhile c (List.mem_reverse.mp hc))
  constructor
  · refine ⟨padding.reverse.length, ?_⟩
    rw [hkept, ← List.eq_replicate_of_mem hpadding, ← List.reverse_append,
      List.takeWhile_append_dropWhile, List.reverse_reverse]
  · rw [hkept, List.getLast?_reverse]
    intro hhead
    have hnot := List.head?_dropWhile_not isPadding raw.toList.reverse
    rw [hhead] at hnot
    exact absurd hnot (by decide)

theorem IsUnpadded.withoutPadding_eq {raw text : String} (h : IsUnpadded raw text) :
    Description.withoutPadding raw = text := by
  obtain ⟨⟨count, hraw⟩, hbare⟩ := h
  have hall : (List.replicate count '\x00').all (· = '\x00') = true := by simp
  apply String.toList_inj.mp
  rw [Description.withoutPadding, String.toList_ofList, hraw, dropEndWhile_append_of_all _ _ hall]
  rcases List.eq_nil_or_concat text.toList with hnil | ⟨front, last, hconcat⟩
  · rw [hnil]
    rfl
  · rw [List.concat_eq_append] at hconcat
    rw [hconcat, List.getLast?_concat] at hbare
    rw [hconcat]
    exact dropEndWhile_eq_self front last (by simpa using hbare)

theorem withoutPadding_eq_iff {raw text : String} :
    Description.withoutPadding raw = text ↔ IsUnpadded raw text := by
  constructor
  · rintro rfl
    exact isUnpadded_withoutPadding raw
  · exact IsUnpadded.withoutPadding_eq

theorem Mac.ofOctets_eq_ok_iff (octets : List UInt8) (mac : Mac) :
    Mac.ofOctets octets = .ok mac ↔ mac.octets.toList = octets := by
  constructor
  · intro hread
    rw [ofOctets] at hread
    split at hread
    next hlength =>
      cases hread
      rfl
    next => cases hread
  · rintro rfl
    exact dif_pos mac.octets.length_toList

/-- The store offers a text under a name, padded or not. -/
def ReportsText (store : Store) (name text : String) : Prop :=
  store.status ⟨name, 0⟩ = .ok ∧
    ∃ raw, store.value ⟨name, 0⟩ .text = some (.text raw) ∧ IsUnpadded raw text

def ReportsMac (store : Store) (mac : Mac) : Prop :=
  store.status ⟨macProperty, 0⟩ = .ok ∧
    ∃ octets, store.value ⟨macProperty, 0⟩ .bytes = some (.bytes octets) ∧
      octets.length = 6 ∧ (∃ octet ∈ octets, octet ≠ 0) ∧ mac.octets.toList = octets

def ReportsMode (store : Store) (mode : Int32) : Prop :=
  store.status ⟨encryptionModeProperty, 0⟩ = .ok ∧
    store.value ⟨encryptionModeProperty, 0⟩ .integer = some (.integer mode)

/-- The identity holds what the store reports, field by field, and nothing else. -/
structure IsReported (store : Store) (identity : Identity) : Prop where
  name : ∀ text, identity.name = some text ↔ ReportsText store nameProperty text
  model : ∀ text, identity.model = some text ↔ ReportsText store modelProperty text
  version : ∀ text, identity.version = some text ↔ ReportsText store versionProperty text
  serialNumber : ∀ text,
    identity.serialNumber = some text ↔ ReportsText store serialNumberProperty text
  mac : ∀ mac, identity.mac = some mac ↔ ReportsMac store mac
  mode : ∀ mode, ReportsMode store mode → identity.encryptionMode = mode
  noMode : (¬ ∃ mode, ReportsMode store mode) → identity.encryptionMode = 0

/-- No two identities hold what one store reports. -/
theorem IsReported.unique {store : Store} {identity other : Identity}
    (h : IsReported store identity) (hother : IsReported store other) : identity = other := by
  have hname : identity.name = other.name :=
    Option.ext fun text => (h.name text).trans (hother.name text).symm
  have hmodel : identity.model = other.model :=
    Option.ext fun text => (h.model text).trans (hother.model text).symm
  have hversion : identity.version = other.version :=
    Option.ext fun text => (h.version text).trans (hother.version text).symm
  have hserial : identity.serialNumber = other.serialNumber :=
    Option.ext fun text => (h.serialNumber text).trans (hother.serialNumber text).symm
  have hmac : identity.mac = other.mac :=
    Option.ext fun mac => (h.mac mac).trans (hother.mac mac).symm
  have hmode : identity.encryptionMode = other.encryptionMode := by
    by_cases hreports : ∃ mode, ReportsMode store mode
    · obtain ⟨mode, hreports⟩ := hreports
      rw [h.mode mode hreports, hother.mode mode hreports]
    · rw [h.noMode hreports, hother.noMode hreports]
  cases identity
  cases other
  simp_all

namespace Description

theorem textProperty_eq_some_iff (store : Store) (name text : String) :
    ((⟨store⟩ : Description).textProperty name).result = some text ↔
      ReportsText store name text := by
  have hread (raw : String) := Store.result_read_eq_some_iff store .text ⟨name, 0⟩ raw
  simp only [textProperty, Noted.map, Option.map_eq_some_iff, hread, withoutPadding_eq_iff,
    ReportsText]
  constructor
  · rintro ⟨raw, ⟨hstatus, hvalue⟩, hunpadded⟩
    exact ⟨hstatus, raw, hvalue, hunpadded⟩
  · rintro ⟨hstatus, raw, hvalue, hunpadded⟩
    exact ⟨raw, ⟨hstatus, hvalue⟩, hunpadded⟩

theorem macOfOctets_eq_some_iff (octets : List UInt8) (mac : Mac) :
    (macOfOctets octets).result = some mac ↔
      octets.length = 6 ∧ (∃ octet ∈ octets, octet ≠ 0) ∧ mac.octets.toList = octets := by
  have hlength : mac.octets.toList = octets → octets.length = 6 := by
    rintro rfl
    exact mac.octets.length_toList
  rw [macOfOctets]
  split
  next hzero =>
    have hall : ∀ octet ∈ octets, octet = 0 := by simpa using hzero
    simp only [reduceCtorEq, false_iff]
    rintro ⟨-, ⟨octet, hmem, hne⟩, -⟩
    exact hne (hall octet hmem)
  next hzero =>
    have hsome : ∃ octet ∈ octets, octet ≠ 0 := by simpa using hzero
    have hmac := Mac.ofOctets_eq_ok_iff octets mac
    cases hread : Mac.ofOctets octets with
    | ok found =>
        rw [hread, Except.ok.injEq] at hmac
        rw [Option.some.injEq, hmac]
        exact ⟨fun heq => ⟨hlength heq, hsome, heq⟩, fun h => h.2.2⟩
    | error error =>
        rw [hread] at hmac
        simp only [reduceCtorEq, false_iff] at hmac ⊢
        rintro ⟨-, -, heq⟩
        exact hmac heq

theorem mac_eq_some_iff (store : Store) (mac : Mac) :
    (⟨store⟩ : Description).mac.result = some mac ↔ ReportsMac store mac := by
  have hread (octets : List UInt8) :=
    Store.result_read_eq_some_iff store .bytes ⟨macProperty, 0⟩ octets
  rw [Description.mac, Noted.result_bind, ReportsMac]
  cases hresult : (store.read .bytes ⟨macProperty, 0⟩).result with
  | none =>
      simp only [hresult, reduceCtorEq, false_iff, not_and] at hread
      simp only [Noted.result_pure, reduceCtorEq, false_iff, not_and]
      rintro hstatus ⟨octets, hvalue, -⟩
      exact hread octets hstatus hvalue
  | some octets =>
      obtain ⟨hstatus, hvalue⟩ := (hread octets).mp hresult
      rw [macOfOctets_eq_some_iff]
      constructor
      · intro hoctets
        exact ⟨hstatus, octets, hvalue, hoctets⟩
      · rintro ⟨-, found, hfound, hoctets⟩
        have heq := Option.some.inj (hvalue.symm.trans hfound)
        rwa [Property.Value.bytes.inj heq]

theorem encryptionMode_eq_of_reports {store : Store} {mode : Int32} (h : ReportsMode store mode) :
    (⟨store⟩ : Description).encryptionMode.result = mode := by
  have hread : (store.read .integer ⟨encryptionModeProperty, 0⟩).result = some mode :=
    (Store.result_read_eq_some_iff store .integer _ mode).mpr h
  simp [encryptionMode, Noted.map, hread]

theorem encryptionMode_eq_zero {store : Store} (h : ¬ ∃ mode, ReportsMode store mode) :
    (⟨store⟩ : Description).encryptionMode.result = 0 := by
  have hread : (store.read .integer ⟨encryptionModeProperty, 0⟩).result = none := by
    rw [Option.eq_none_iff_forall_ne_some]
    intro mode hmode
    exact h ⟨mode, (Store.result_read_eq_some_iff store .integer _ mode).mp hmode⟩
  simp [encryptionMode, Noted.map, hread]

theorem isReported_identity (store : Store) :
    IsReported store (⟨store⟩ : Description).identity.result where
  name := textProperty_eq_some_iff store nameProperty
  model := textProperty_eq_some_iff store modelProperty
  version := textProperty_eq_some_iff store versionProperty
  serialNumber := textProperty_eq_some_iff store serialNumberProperty
  mac := mac_eq_some_iff store
  mode _ := encryptionMode_eq_of_reports
  noMode := encryptionMode_eq_zero

theorem ofMessage_descriptionKind (store : Store) :
    ofMessage (some descriptionKind) store = .ok ⟨store⟩ := rfl

/--
A message that describes a device has exactly the identity that its store reports, whatever the
store answers. A text is stripped in one way only.
-/
theorem identity_eq_iff_isReported (store : Store) :
    (∃ description, ofMessage (some descriptionKind) store = .ok description ∧
      ∀ identity, description.identity.result = identity ↔ IsReported store identity) ∧
      ∀ raw, ∃! text, IsUnpadded raw text := by
  refine ⟨⟨⟨store⟩, ofMessage_descriptionKind store, ?_⟩, ?_⟩
  · intro identity
    constructor
    · rintro rfl
      exact isReported_identity store
    · exact (isReported_identity store).unique
  · intro raw
    exact ⟨withoutPadding raw, isUnpadded_withoutPadding raw,
      fun text htext => htext.withoutPadding_eq.symm⟩

end Description

end PanelRelay.Device
