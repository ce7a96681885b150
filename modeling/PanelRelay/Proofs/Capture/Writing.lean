import PanelRelay.Proofs.Capture.Availability
import PanelRelay.Proofs.Capture.Presentation
import PanelRelay.Proofs.Property.Json

/-!
Captures of messages. A message that holds a value wherever it reports one can be written down, its
properties in any order, and is loaded back.
-/

namespace PanelRelay.Capture

open Json (Piece pieces)
open Property (Address Bag Slot)

variable {explain : String → String}

/-- A property with all its members, and null for no value. -/
def Entry.json (entry : Entry) : Json.Value :=
  .ofMembers
    [("name", .ofText entry.name),
      ("index", .ofInt entry.index.toNat),
      ("status", entry.status.json),
      ("value", .ofOption Property.Value.json entry.value)]

def Document.json (document : Document) : Json.Value :=
  .ofMembers
    [("kind", .ofOption .ofText document.kind),
      ("properties", .array (document.entries.map Entry.json))]

theorem namesAreTexts_ofMembers (members : List (String × Json.Value)) :
    namesAreTexts (members.map fun member => (pieces member.1, member.2)) = true := by
  simp [namesAreTexts]

theorem nullable?_ofOption {α : Type} {f : α → Json.Value} {read? : Json.Value → Option α}
    (hread : ∀ a, read? (f a) = some a) (hnull : ∀ a, f a ≠ .null) :
    (a : Option α) → nullable? read? (.ofOption f a) = some a
  | none => rfl
  | some a => by
      rw [Json.Value.ofOption, nullable?, hread]
      · rfl
      · exact hnull a

theorem index?_ofInt (index : UInt32) : index? (.ofInt index.toNat) = some index := by
  rw [index?, Property.integer?_ofInt, Option.bind_some, uint32?_toNat]

namespace Entry

theorem isPrintable_json (entry : Entry) : entry.json.IsPrintable := by
  apply Json.Value.isPrintable_ofMembers
  simp only [List.forall_mem_cons]
  exact ⟨Json.Value.isPrintable_ofText _, Json.Value.isPrintable_ofInt _,
    Property.Status.isPrintable_json _,
    Json.Value.isPrintable_ofOption Property.Value.isPrintable_json _, List.forall_mem_nil _⟩

theorem ofJson?_json (entry : Entry) : ofJson? entry.json = some entry := by
  have hvalue := nullable?_ofOption Property.Value.ofJson?_json (by rintro (_ | _ | _) ⟨⟩) entry.value
  rw [json, Json.Value.ofMembers, ofJson?, if_pos (namesAreTexts_ofMembers _)]
  simp [member?, Json.Value.find, ofFields?, defaulted?, Property.string?_ofText, index?_ofInt,
    Property.Status.ofJson?_json, hvalue]

end Entry

namespace Document

theorem isPrintable_json (document : Document) : document.json.IsPrintable := by
  apply Json.Value.isPrintable_ofMembers
  simp only [List.forall_mem_cons]
  refine ⟨Json.Value.isPrintable_ofOption Json.Value.isPrintable_ofText _, ?_, List.forall_mem_nil _⟩
  exact Json.Value.isPrintable_array (List.forall_mem_map.mpr fun entry _ => entry.isPrintable_json)

theorem entries?_json (entries : List Entry) :
    entries? (.array (entries.map Entry.json)) = some entries := by
  rw [entries?]
  induction entries with
  | nil => rfl
  | cons entry entries ih => simp [entry.ofJson?_json, ih]

theorem ofJson?_json (document : Document) : ofJson? document.json = some document := by
  have hkind := nullable?_ofOption Property.string?_ofText (by rintro _ ⟨⟩) document.kind
  rw [json, Json.Value.ofMembers, ofJson?, if_pos (namesAreTexts_ofMembers _)]
  simp [member?, Json.Value.find, ofFields?, defaulted?, hkind, entries?_json]

end Document

/-- The property that says what a slot holds. -/
def Entry.ofItem (item : Address × Slot) : Entry where
  name := item.1.name
  index := item.1.index
  status := item.2.status
  value := item.2.value

@[simp] theorem Entry.item_ofItem (item : Address × Slot) : (ofItem item).item = item := rfl

/-- The capture that lists some slots, in their order. -/
def Document.ofSlots (kind : Option String) (slots : List (Address × Slot)) : Document where
  kind := kind
  entries := slots.map Entry.ofItem

theorem Document.map_item_ofSlots (kind : Option String) (slots : List (Address × Slot)) :
    (ofSlots kind slots).entries.map Entry.item = slots := by
  simp [ofSlots, Function.comp_def]

theorem Document.map_address_ofSlots (kind : Option String) (slots : List (Address × Slot)) :
    (ofSlots kind slots).entries.map Entry.address = slots.map Prod.fst := by
  rw [← congrArg (List.map Prod.fst) (map_item_ofSlots kind slots), List.map_map]
  rfl

/-- Messages are the same if their kinds are, and their bags. -/
def Message.Same (message other : Message) : Prop :=
  message.kind = other.kind ∧ (message.properties == other.properties) = true

section Listing

variable {message : Message} (hbacked : message.properties.store.IsBacked)
  {listing : List (Address × Slot)} (hlisting : listing.Perm message.properties.slots)

include hbacked hlisting

theorem isComplete_of_mem_ofSlots (kind : Option String) :
    ∀ entry ∈ (Document.ofSlots kind listing).entries, entry.IsComplete := by
  intro entry hentry
  obtain ⟨item, hitem, rfl⟩ := List.mem_map.mp hentry
  exact (message.properties.isBacked_store_iff.mp hbacked) item (hlisting.mem_iff.mp hitem)

theorem exists_parse_of_listing {text : String}
    (hread : Document.parse? text = some (Document.ofSlots message.kind listing)) :
    ∃ loaded, Message.parse explain text = .ok loaded ∧ loaded.Same message := by
  have hnodup : ((Document.ofSlots message.kind listing).entries.map Entry.address).Nodup := by
    rw [Document.map_address_ofSlots]
    exact (hlisting.map Prod.fst).symm.nodup message.properties.nodup
  obtain ⟨loaded, hparse, hkind, hslots⟩ := exists_parse_of_document hread hnodup
    (isComplete_of_mem_ofSlots hbacked hlisting message.kind)
  rw [Document.map_item_ofSlots] at hslots
  refine ⟨loaded, hparse, hkind, (Bag.beq_iff_perm _ _).mpr ?_⟩
  rw [hslots]
  exact (List.reverse_perm listing).trans hlisting

end Listing

theorem Document.parse?_compact (document : Document) :
    parse? document.json.compact = some document := by
  rw [parse?, document.isPrintable_json.parse?_compact, Option.bind_some, ofJson?_json]

/--
A message that holds a value wherever it reports one is loaded back from the capture that lists its
properties in any order, however this is written.
-/
theorem parse_restores_listed_message (explain : String → String) {message : Message}
    (hbacked : message.properties.store.IsBacked) {listing : List (Address × Slot)}
    (hlisting : listing.Perm message.properties.slots) :
    (∃ loaded,
        Message.parse explain (Document.ofSlots message.kind listing).json.compact = .ok loaded ∧
          loaded.Same message) ∧
      ∀ text, Rewritten IsText (Document.ofSlots message.kind listing).json.compact text →
        ∃ loaded, Message.parse explain text = .ok loaded ∧ loaded.Same message := by
  have hread := (Document.ofSlots message.kind listing).parse?_compact
  refine ⟨exists_parse_of_listing hbacked hlisting hread, ?_⟩
  intro text hrewritten
  exact exists_parse_of_listing hbacked hlisting (hrewritten.parse?_eq.trans hread)

/-- One name at two indices, extreme numbers, characters to be escaped, and a value not to be read. -/
def recordedMessage : Message where
  kind := none
  properties :=
    { slots := [
        (⟨"a\"", 0⟩, ⟨.ok, some (.text "\x00\n\u2028😀")⟩),
        (⟨"a\"", 4294967295⟩, ⟨.failed, some (.bytes [0, 255])⟩),
        (⟨"", 0⟩, ⟨.ok, some (.integer (-2147483648))⟩),
        (⟨"b", 7⟩, ⟨.notAvailable, none⟩)]
      nodup := by decide }

def recordedText : String :=
  "\x7b\"kind\":null,\"properties\":[" ++
    "\x7b\"name\":\"b\",\"index\":7,\"status\":\"NotAvailable\",\"value\":null\x7d," ++
    "\x7b\"name\":\"\",\"index\":0,\"status\":\"Ok\"," ++
    "\"value\":\x7b\"integer\":-2147483648\x7d\x7d," ++
    "\x7b\"name\":\"a\\\"\",\"index\":4294967295,\"status\":\"Failed\"," ++
    "\"value\":\x7b\"bytes\":[0,255]\x7d\x7d," ++
    "\x7b\"name\":\"a\\\"\",\"index\":0,\"status\":\"Ok\"," ++
    "\"value\":\x7b\"text\":\"\\u0000\\n\u2028😀\"\x7d\x7d]\x7d"

theorem parse_restores_recordedMessage :
    (Document.ofSlots none recordedMessage.properties.slots.reverse).json.compact = recordedText ∧
      recordedMessage.properties.store.IsBacked ∧
      ∃ loaded, Message.parse explainBriefly recordedText = .ok loaded ∧
        loaded.Same recordedMessage := by
  have htext : (Document.ofSlots none recordedMessage.properties.slots.reverse).json.compact =
      recordedText := by decide +kernel
  have hbacked : recordedMessage.properties.store.IsBacked := by
    rw [Bag.isBacked_store_iff]
    decide
  obtain ⟨hloaded, -⟩ := parse_restores_listed_message explainBriefly hbacked
    (List.reverse_perm recordedMessage.properties.slots)
  exact ⟨htext, hbacked, htext ▸ hloaded⟩

end PanelRelay.Capture
