import PanelRelay.Proofs.Capture.Loading
import PanelRelay.Proofs.Device.Query

/-!
Reading a loaded message. A bag by itself may report a property as available and hold no value for
it; a capture that is accepted never leads to such a bag.
-/

namespace PanelRelay.Capture

open Device (Description)
open Property (Address Bag Store)

variable {explain : String → String}

theorem isBacked_of_listed {bag : Bag} {entries : List Entry}
    (hslots : bag.slots = (entries.map Entry.item).reverse)
    (hcomplete : ∀ entry ∈ entries, entry.IsComplete) : bag.store.IsBacked := by
  rw [bag.isBacked_store_iff, hslots]
  intro item hitem
  obtain ⟨entry, hentry, rfl⟩ := List.mem_map.mp (List.mem_reverse.mp hitem)
  exact hcomplete entry hentry

theorem isBacked_of_parse {text : String} {message : Message}
    (h : Message.parse explain text = .ok message) : message.properties.store.IsBacked := by
  cases hread : Document.parse? text with
  | none =>
      rw [Message.parse, hread] at h
      cases h
  | some document =>
      rw [Message.parse_of_document hread] at h
      obtain ⟨-, hcomplete, -, hslots⟩ := (document.message_eq_ok_iff message).mp h
      exact isBacked_of_listed hslots hcomplete

theorem withoutValue_not_mem_ask {store : Store} (h : store.IsBacked) (query : Device.Query)
    (place : Address) :
    place.withoutValue ∉ ((⟨store⟩ : Description).ask query).events := by
  intro hmem
  rcases Description.isNotedAt_ask hmem with ⟨kind, address, -, hread⟩ | horigin
  · exact h.withoutValue_not_mem kind address place hread
  · cases horigin

/--
A loaded message has a value wherever it reports one. So no read of it and no field of its description
is missed for want of a value, and a read that yields nothing says in one event whether the property
is not available or of another kind.
-/
theorem parse_backs_every_available_property {text : String} {message : Message}
    (h : Message.parse explain text = .ok message) :
    (∀ address kind, message.properties.store.status address = .ok →
        ∃ value, message.properties.store.value address kind = some value) ∧
      (∀ address kind (place : Address),
        place.withoutValue ∉ (message.properties.store.read kind address).events) ∧
      (∀ description,
        Description.ofMessage message.kind message.properties.store = .ok description →
          ∀ query (place : Address), place.withoutValue ∉ (description.ask query).events) ∧
      ∀ address kind, (message.properties.store.read kind address).result = none →
        (message.properties.store.status address ≠ .ok ∧
            (message.properties.store.read kind address).events =
              [address.notAvailable (message.properties.store.status address)]) ∨
          (message.properties.store.status address = .ok ∧
            ∃ value, message.properties.store.value address kind = some value ∧
              value.kind ≠ kind ∧
              (message.properties.store.read kind address).events =
                [address.otherKind kind value.kind]) := by
  have hbacked := isBacked_of_parse h
  refine ⟨?_, ?_, ?_, ?_⟩
  · intro address kind hstatus
    exact Option.ne_none_iff_exists'.mp (hbacked address kind hstatus)
  · intro address kind
    exact hbacked.withoutValue_not_mem kind address
  · intro description hdescription query place
    obtain rfl := Description.eq_of_ofMessage hdescription
    exact withoutValue_not_mem_ask hbacked query place
  · intro address kind hresult
    have hending := message.properties.store.readEnding_read kind address
    generalize message.properties.store.read kind address = noted at hending hresult
    cases hending with
    | unavailable hstatus => exact .inl ⟨hstatus, rfl⟩
    | withoutValue hstatus hvalue => exact absurd hvalue (hbacked address kind hstatus)
    | otherKind hstatus hvalue hkind => exact .inr ⟨hstatus, _, hvalue, hkind, rfl⟩
    | content _ _ => cases hresult

/-- A name that is no text, and an address that is not to be trusted. -/
def oddCapture : String :=
  "\x7b\"kind\": \"device.Description\", \"properties\": [" ++
    "\x7b\"name\": \"device.name\", \"value\": \x7b\"integer\": 7\x7d\x7d, " ++
    "\x7b\"name\": \"device.FWID_MAC\", \"status\": \"Failed\", " ++
    "\"value\": \x7b\"bytes\": [1]\x7d\x7d]\x7d"

def oddDocument : Document where
  kind := some "device.Description"
  entries := [
    { name := "device.name", value := some (.integer 7) },
    { name := "device.FWID_MAC", status := .failed, value := some (.bytes [1]) }]

theorem parse_backs_oddCapture :
    ∃ message, Message.parse explainBriefly oddCapture = .ok message ∧
      (∃ value, message.properties.store.value ⟨Device.nameProperty, 0⟩ .text = some value) ∧
      (message.properties.store.read .text ⟨Device.nameProperty, 0⟩).events =
        [(⟨Device.nameProperty, 0⟩ : Address).otherKind .text .integer] ∧
      (message.properties.store.read .bytes ⟨Device.macProperty, 0⟩).events =
        [(⟨Device.macProperty, 0⟩ : Address).notAvailable .failed] ∧
      ∃ description,
        Description.ofMessage message.kind message.properties.store = .ok description ∧
          ∀ place : Address, place.withoutValue ∉ (description.ask .identity).events := by
  have hread : Document.parse? oddCapture = some oddDocument := by decide +kernel
  obtain ⟨message, hparse, hkind, hslots⟩ := exists_parse_of_document hread (by decide)
    (by simp [oddDocument, Entry.IsComplete])
  obtain ⟨hbacked, -, hdescription, hnothing⟩ := parse_backs_every_available_property hparse
  have hname : message.properties.store.status ⟨Device.nameProperty, 0⟩ = .ok := by
    simp only [Bag.store, Bag.status, Bag.slot?, hslots]
    rfl
  have hmac : message.properties.store.status ⟨Device.macProperty, 0⟩ = .failed := by
    simp only [Bag.store, Bag.status, Bag.slot?, hslots]
    rfl
  have hvalue : message.properties.store.value ⟨Device.nameProperty, 0⟩ .text =
      some (.integer 7) := by
    simp only [Bag.store, Bag.value, Bag.slot?, hslots]
    rfl
  have hdescribed : Description.ofMessage message.kind message.properties.store =
      .ok ⟨message.properties.store⟩ := by
    rw [hkind]
    rfl
  refine ⟨message, hparse, hbacked _ _ hname, ?_, ?_, _, hdescribed,
    hdescription _ hdescribed .identity⟩
  · rcases hnothing ⟨Device.nameProperty, 0⟩ .text (by simp only [Store.read, hname, hvalue]; rfl)
      with ⟨hstatus, -⟩ | ⟨-, value, hfound, -, hevents⟩
    · exact absurd hname hstatus
    · obtain rfl := Option.some.inj (hvalue.symm.trans hfound)
      exact hevents
  · rcases hnothing ⟨Device.macProperty, 0⟩ .bytes (by simp only [Store.read, hmac])
      with ⟨-, hevents⟩ | ⟨hstatus, -⟩
    · rwa [hmac] at hevents
    · rw [hmac] at hstatus
      cases hstatus

end PanelRelay.Capture
