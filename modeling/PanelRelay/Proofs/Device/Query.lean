import PanelRelay.Device.Description
import PanelRelay.Proofs.Property.Reading

/-!
What can be asked of a description. Every answer, and every event that comes with it, depends on the
few properties that the query reads, and on nothing else in the store.
-/

namespace PanelRelay.Device

open Journal (Event)
open Property (Address Kind Store)

/-- The fields of a description, all of them at once, and any property in its store. -/
inductive Query where
  | name
  | model
  | version
  | serialNumber
  | mac
  | encryptionMode
  | identity
  | property (kind : Kind) (address : Address)

namespace Query

abbrev Answer : Query → Type
  | .name => Option String
  | .model => Option String
  | .version => Option String
  | .serialNumber => Option String
  | .mac => Option Mac
  | .encryptionMode => Int32
  | .identity => Identity
  | .property kind _ => Option kind.Content

/-- The addresses that a query reads, in order. -/
def addresses : Query → List Address
  | .name => [⟨nameProperty, 0⟩]
  | .model => [⟨modelProperty, 0⟩]
  | .version => [⟨versionProperty, 0⟩]
  | .serialNumber => [⟨serialNumberProperty, 0⟩]
  | .mac => [⟨macProperty, 0⟩]
  | .encryptionMode => [⟨encryptionModeProperty, 0⟩]
  | .identity =>
      [⟨nameProperty, 0⟩, ⟨modelProperty, 0⟩, ⟨versionProperty, 0⟩, ⟨serialNumberProperty, 0⟩,
        ⟨macProperty, 0⟩, ⟨encryptionModeProperty, 0⟩]
  | .property _ address => [address]

end Query

namespace Description

def ask (description : Description) : (query : Query) → Noted query.Answer
  | .name => description.name
  | .model => description.model
  | .version => description.version
  | .serialNumber => description.serialNumber
  | .mac => description.mac
  | .encryptionMode => description.encryptionMode
  | .identity => description.identity
  | .property kind address => description.store.read kind address

/-- A description looks at the store that it was made for. -/
theorem eq_of_ofMessage {kind : Option String} {store : Store} {description : Description}
    (h : ofMessage kind store = .ok description) : description = ⟨store⟩ := by
  cases kind with
  | none => cases h
  | some kind =>
      rw [ofMessage] at h
      split at h
      next => cases h
      next =>
        split at h
        next => exact (Except.ok.inj h).symm
        next => cases h

section Agreement

variable {store other : Store}

theorem textProperty_congr {name : String} (h : store.AgreeAt other ⟨name, 0⟩) :
    (⟨store⟩ : Description).textProperty name = (⟨other⟩ : Description).textProperty name := by
  rw [textProperty, textProperty, h.read_eq]

theorem mac_congr (h : store.AgreeAt other ⟨macProperty, 0⟩) :
    (⟨store⟩ : Description).mac = (⟨other⟩ : Description).mac := by
  rw [mac, mac, h.read_eq]

theorem encryptionMode_congr (h : store.AgreeAt other ⟨encryptionModeProperty, 0⟩) :
    (⟨store⟩ : Description).encryptionMode = (⟨other⟩ : Description).encryptionMode := by
  rw [encryptionMode, encryptionMode, h.read_eq]

theorem identity_congr (h : ∀ address ∈ Query.identity.addresses, store.AgreeAt other address) :
    (⟨store⟩ : Description).identity = (⟨other⟩ : Description).identity := by
  simp only [Query.addresses, List.forall_mem_cons] at h
  obtain ⟨hname, hmodel, hversion, hserial, hmac, hmode, -⟩ := h
  simp only [identity, name, model, version, serialNumber, textProperty_congr hname,
    textProperty_congr hmodel, textProperty_congr hversion, textProperty_congr hserial,
    mac_congr hmac, encryptionMode_congr hmode]

/-- Stores that agree where a query reads answer it alike, and note the same about it. -/
theorem ask_congr {query : Query} (h : ∀ address ∈ query.addresses, store.AgreeAt other address) :
    (⟨store⟩ : Description).ask query = (⟨other⟩ : Description).ask query := by
  cases query with
  | name => exact textProperty_congr (List.forall_mem_singleton.mp h)
  | model => exact textProperty_congr (List.forall_mem_singleton.mp h)
  | version => exact textProperty_congr (List.forall_mem_singleton.mp h)
  | serialNumber => exact textProperty_congr (List.forall_mem_singleton.mp h)
  | mac => exact mac_congr (List.forall_mem_singleton.mp h)
  | encryptionMode => exact encryptionMode_congr (List.forall_mem_singleton.mp h)
  | identity => exact identity_congr h
  | property kind address => exact (List.forall_mem_singleton.mp h).read_eq kind

end Agreement

section Events

variable {store : Store} {event : Event}

/-- The event was noted while the property at one of the addresses was read. -/
def IsNotedAt (store : Store) (addresses : List Address) (event : Event) : Prop :=
  ∃ kind, ∃ address ∈ addresses, event ∈ (store.read kind address).events

theorem IsNotedAt.among {address : Address} {addresses : List Address}
    (h : IsNotedAt store [address] event) (hmem : address ∈ addresses) :
    IsNotedAt store addresses event := by
  obtain ⟨kind, found, hfound, hevent⟩ := h
  obtain rfl := List.mem_singleton.mp hfound
  exact ⟨kind, found, hmem, hevent⟩

theorem isNotedAt_read (kind : Kind) (address : Address)
    (h : event ∈ (store.read kind address).events) : IsNotedAt store [address] event :=
  ⟨kind, address, List.mem_singleton_self address, h⟩

theorem origin_of_mem_macOfOctets {octets : List UInt8} (h : event ∈ (macOfOctets octets).events) :
    event.origin = .description := by
  rw [macOfOctets] at h
  split at h
  next =>
    obtain rfl := List.mem_singleton.mp h
    rfl
  next =>
    split at h
    next => cases h
    next =>
      obtain rfl := List.mem_singleton.mp h
      rfl

theorem isNotedAt_mac (h : event ∈ (⟨store⟩ : Description).mac.events) :
    IsNotedAt store [⟨macProperty, 0⟩] event ∨ event.origin = .description := by
  rw [mac, Noted.events_bind, List.mem_append] at h
  rcases h with hread | hjudged
  · exact .inl (isNotedAt_read .bytes _ hread)
  · cases hresult : (store.read .bytes ⟨macProperty, 0⟩).result with
    | none =>
        rw [hresult] at hjudged
        cases hjudged
    | some octets =>
        rw [hresult] at hjudged
        exact .inr (origin_of_mem_macOfOctets hjudged)

/-- Apart from what is said about an address, all events come from reading properties. -/
theorem isNotedAt_ask {query : Query} (h : event ∈ ((⟨store⟩ : Description).ask query).events) :
    IsNotedAt store query.addresses event ∨ event.origin = .description := by
  cases query with
  | name => exact .inl (isNotedAt_read .text _ h)
  | model => exact .inl (isNotedAt_read .text _ h)
  | version => exact .inl (isNotedAt_read .text _ h)
  | serialNumber => exact .inl (isNotedAt_read .text _ h)
  | mac => exact isNotedAt_mac h
  | encryptionMode => exact .inl (isNotedAt_read .integer _ h)
  | identity =>
      simp only [ask, identity, Noted.events_bind, Noted.events_pure, List.append_nil,
        List.mem_append] at h
      have hread {kind : Kind} {name : String}
          (hname : ⟨name, 0⟩ ∈ Query.identity.addresses)
          (hevent : event ∈ (store.read kind ⟨name, 0⟩).events) :
          IsNotedAt store Query.identity.addresses event :=
        (isNotedAt_read kind _ hevent).among hname
      rcases h with hname | hmodel | hversion | hserial | hmac | hmode
      · exact .inl (hread (by simp [Query.addresses]) hname)
      · exact .inl (hread (by simp [Query.addresses]) hmodel)
      · exact .inl (hread (by simp [Query.addresses]) hversion)
      · exact .inl (hread (by simp [Query.addresses]) hserial)
      · exact (isNotedAt_mac hmac).imp_left fun hnoted => hnoted.among (by simp [Query.addresses])
      · exact .inl (hread (by simp [Query.addresses]) hmode)
  | property kind address => exact .inl (isNotedAt_read kind _ h)

end Events

end Description

end PanelRelay.Device
