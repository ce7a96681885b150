import PanelRelay.Capture.Message
import PanelRelay.Proofs.Property.Bag

/-!
What a capture is loaded to. The bag that is being filled lists exactly the entries that were taken,
the last one first, so that each of its answers can be read off the capture.
-/

namespace PanelRelay.Capture

open Property (Address Bag Slot)

variable {explain : String → String}

namespace Entry

def slot (entry : Entry) : Slot where
  status := entry.status
  value := entry.value

def item (entry : Entry) : Address × Slot :=
  (entry.address, entry.slot)

def IsComplete (entry : Entry) : Prop :=
  entry.status = .ok → entry.value ≠ none

end Entry

theorem addEntry_of_contains {bag : Bag} {entry : Entry}
    (h : bag.contains entry.address = true) :
    addEntry bag entry = .error (.duplicateProperty entry.address) := by
  rw [addEntry, if_pos h]

theorem addEntry_of_missing {bag : Bag} {entry : Entry}
    (hfresh : ¬ bag.contains entry.address = true) (hmissing : ¬ entry.IsComplete) :
    addEntry bag entry = .error (.missingValue entry.address) := by
  obtain ⟨name, index, status, value⟩ := entry
  simp only [Entry.IsComplete, Classical.not_imp, ne_eq, Classical.not_not] at hmissing
  obtain ⟨rfl, rfl⟩ := hmissing
  rw [addEntry, if_neg hfresh]

/-- Status and value end up as they stand in the capture, on either path. -/
theorem addEntry_of_complete {bag : Bag} {entry : Entry}
    (hfresh : ¬ bag.contains entry.address = true) (hcomplete : entry.IsComplete) :
    addEntry bag entry = .ok (bag.put entry.address entry.slot) := by
  have hnone := Bag.slot?_eq_none_of_not_contains hfresh
  rw [addEntry, if_neg hfresh]
  obtain ⟨name, index, status, value⟩ := entry
  cases status with
  | ok =>
      cases value with
      | none => exact absurd rfl (hcomplete rfl)
      | some value => rfl
  | notAvailable =>
      cases value with
      | none => simp [Bag.setStatus, hnone, Entry.slot]
      | some value => simp [Bag.setStatus_set, Entry.slot]
  | failed =>
      cases value with
      | none => simp [Bag.setStatus, hnone, Entry.slot]
      | some value => simp [Bag.setStatus_set, Entry.slot]

theorem addEntry_eq_ok_iff (bag next : Bag) (entry : Entry) :
    addEntry bag entry = .ok next ↔
      ¬ bag.contains entry.address = true ∧ entry.IsComplete ∧
        next = bag.put entry.address entry.slot := by
  by_cases hcontains : bag.contains entry.address = true
  · simp [addEntry_of_contains hcontains, hcontains]
  · by_cases hcomplete : entry.IsComplete
    · simp [addEntry_of_complete hcontains hcomplete, hcontains, hcomplete, eq_comm]
    · simp [addEntry_of_missing hcontains hcomplete, hcomplete]

/--
Filling a bag succeeds exactly if every address is new and every entry complete, and then lists the
entries before whatever was there.
-/
theorem bagOf_eq_ok_iff (entries : List Entry) (bag next : Bag) :
    bagOf entries bag = .ok next ↔
      (entries.map Entry.address).Nodup ∧
        (∀ entry ∈ entries, ¬ bag.contains entry.address = true) ∧
        (∀ entry ∈ entries, entry.IsComplete) ∧
        next.slots = (entries.map Entry.item).reverse ++ bag.slots := by
  induction entries generalizing bag with
  | nil =>
      simp only [bagOf, Except.ok.injEq]
      constructor
      · rintro rfl
        simp
      · rintro ⟨-, -, -, hslots⟩
        exact Bag.eq_of_slots hslots.symm
  | cons entry entries ih =>
      have hput : ∀ later : Entry,
          (¬ (bag.put entry.address entry.slot).contains later.address = true) ↔
            later.address ≠ entry.address ∧ ¬ bag.contains later.address = true := by
        intro later
        by_cases heq : later.address = entry.address <;> simp [Bag.contains, heq]
      by_cases hadded : ¬ bag.contains entry.address = true ∧ entry.IsComplete
      · obtain ⟨hfresh, hcomplete⟩ := hadded
        simp only [bagOf, addEntry_of_complete hfresh hcomplete, ih, hput,
          Bag.slots_put_of_not_contains entry.slot hfresh]
        simp only [List.map_cons, List.nodup_cons, List.mem_map, List.forall_mem_cons,
          List.reverse_cons, List.append_assoc, List.singleton_append, Entry.item]
        grind
      · have hfails : ∀ next, addEntry bag entry ≠ .ok next := by
          intro next hadd
          have h := (addEntry_eq_ok_iff bag next entry).mp hadd
          exact hadded ⟨h.1, h.2.1⟩
        constructor
        · intro hbag
          simp only [bagOf] at hbag
          split at hbag
          next added hadd => exact absurd hadd (hfails added)
          next => cases hbag
        · rintro ⟨-, hfresh, hcomplete, -⟩
          exact absurd ⟨hfresh entry (by simp), hcomplete entry (by simp)⟩ hadded

theorem Document.message_eq_ok_iff (document : Document) (message : Message) :
    document.message = .ok message ↔
      (document.entries.map Entry.address).Nodup ∧
        (∀ entry ∈ document.entries, entry.IsComplete) ∧
        message.kind = document.kind ∧
        message.properties.slots = (document.entries.map Entry.item).reverse := by
  have hbag := bagOf_eq_ok_iff document.entries Bag.empty message.properties
  have hempty : ∀ entry ∈ document.entries, ¬ Bag.empty.contains entry.address = true := by
    intro entry _
    simp [Bag.contains]
  have hslots : Bag.empty.slots = [] := rfl
  simp only [hslots, List.append_nil] at hbag
  obtain ⟨kind, properties⟩ := message
  simp only [Document.message]
  cases hresult : bagOf document.entries Bag.empty with
  | error error =>
      simp only [hresult, Except.map] at hbag ⊢
      grind
  | ok bag =>
      simp only [hresult, Except.map, Except.ok.injEq, Message.mk.injEq] at hbag ⊢
      grind

theorem nodup_keys {entries : List Entry} (h : (entries.map Entry.address).Nodup) :
    ((entries.map Entry.item).reverse.map Prod.fst).Nodup := by
  rw [List.map_reverse, List.map_map]
  exact (List.reverse_perm _).symm.nodup h

theorem Document.message_isOk_iff (document : Document) :
    (∃ message, document.message = .ok message) ↔
      (document.entries.map Entry.address).Nodup ∧
        ∀ entry ∈ document.entries, entry.IsComplete := by
  constructor
  · rintro ⟨message, hmessage⟩
    have h := (document.message_eq_ok_iff message).mp hmessage
    exact ⟨h.1, h.2.1⟩
  · rintro ⟨hnodup, hcomplete⟩
    exact ⟨⟨document.kind, ⟨_, nodup_keys hnodup⟩⟩,
      (document.message_eq_ok_iff _).mpr ⟨hnodup, hcomplete, rfl, rfl⟩⟩

section Listed

variable {bag : Bag} {entries : List Entry}
  (hslots : bag.slots = (entries.map Entry.item).reverse)

include hslots

theorem size_of_listed : bag.size = entries.length := by
  simp [Bag.size, hslots]

theorem contains_of_listed (address : Address) :
    bag.contains address = true ↔ ∃ entry ∈ entries, entry.address = address := by
  simp [Bag.contains_iff_mem, hslots, Entry.item]

theorem slot?_of_listed {entry : Entry} (hentry : entry ∈ entries) :
    bag.slot? entry.address = some entry.slot := by
  apply Bag.slot?_eq_some_of_mem
  rw [hslots, List.mem_reverse]
  exact List.mem_map_of_mem hentry

theorem slot?_of_unlisted {address : Address}
    (hother : ∀ entry ∈ entries, entry.address ≠ address) : bag.slot? address = none := by
  apply Bag.slot?_eq_none_of_not_contains
  rw [contains_of_listed hslots]
  rintro ⟨entry, hentry, heq⟩
  exact hother entry hentry heq

theorem count_of_listed (name : String) :
    bag.count name = entries.countP fun entry => entry.name = name := by
  rw [Bag.count, hslots, List.countP_reverse, List.countP_map]
  rfl

end Listed

theorem Message.parse_of_document {text : String} {document : Document}
    (h : Document.parse? text = some document) : Message.parse explain text = document.message := by
  rw [Message.parse, h]

/-- One outcome, but for the words in which a text is refused for not being a capture. -/
inductive AgreeButForWords : Except Error Message → Except Error Message → Prop
  | same (result : Except Error Message) : AgreeButForWords result result
  | unread (words others : String) :
      AgreeButForWords (.error (.notACapture words)) (.error (.notACapture others))

theorem AgreeButForWords.eq {result other : Except Error Message}
    (h : AgreeButForWords result other) (hread : ∀ words, other ≠ .error (.notACapture words)) :
    result = other := by
  cases h with
  | same => rfl
  | unread words others => exact absurd rfl (hread others)

theorem Message.agree_of_parse?_eq {text other : String}
    (h : Document.parse? other = Document.parse? text) :
    AgreeButForWords (Message.parse explain other) (Message.parse explain text) := by
  rw [Message.parse, Message.parse, h]
  cases Document.parse? text with
  | none => exact .unread _ _
  | some document => exact .same _

/-- An acceptable capture is loaded to the message that lists its entries. -/
theorem exists_parse_of_document {text : String} {document : Document}
    (hread : Document.parse? text = some document)
    (hnodup : (document.entries.map Entry.address).Nodup)
    (hcomplete : ∀ entry ∈ document.entries, entry.IsComplete) :
    ∃ message, Message.parse explain text = .ok message ∧ message.kind = document.kind ∧
      message.properties.slots = (document.entries.map Entry.item).reverse := by
  obtain ⟨message, hmessage⟩ := document.message_isOk_iff.mpr ⟨hnodup, hcomplete⟩
  obtain ⟨-, -, hkind, hslots⟩ := (document.message_eq_ok_iff message).mp hmessage
  exact ⟨message, (Message.parse_of_document hread).trans hmessage, hkind, hslots⟩

/--
A capture is accepted exactly if its addresses differ and every available property has a value. Its
message has the kind and, at every address, what the capture says about it.
-/
theorem parse_builds_what_the_capture_says {text : String} {document : Document}
    (h : Document.parse? text = some document) :
    ((∃ message, Message.parse explain text = .ok message) ↔
        (document.entries.map Entry.address).Nodup ∧
          ∀ entry ∈ document.entries, entry.status = .ok → ∃ value, entry.value = some value) ∧
      ∀ message, Message.parse explain text = .ok message →
        message.kind = document.kind ∧
        message.properties.size = document.entries.length ∧
        (∀ address, message.properties.contains address = true ↔
          ∃ entry ∈ document.entries, entry.address = address) ∧
        (∀ entry ∈ document.entries,
          message.properties.status entry.address = entry.status ∧
            message.properties.value entry.address = entry.value) ∧
        (∀ address, (∀ entry ∈ document.entries, entry.address ≠ address) →
          message.properties.status address = .notAvailable ∧
            message.properties.value address = none) ∧
        ∀ name, message.properties.count name =
          document.entries.countP fun entry => entry.name = name := by
  rw [Message.parse_of_document h]
  refine ⟨?_, ?_⟩
  · simp only [document.message_isOk_iff, Entry.IsComplete, ne_eq, Option.ne_none_iff_exists']
  · intro message hmessage
    obtain ⟨-, -, hkind, hslots⟩ := (document.message_eq_ok_iff message).mp hmessage
    refine ⟨hkind, size_of_listed hslots, contains_of_listed hslots, ?_, ?_,
      count_of_listed hslots⟩
    · intro entry hentry
      simp [Bag.status, Bag.value, slot?_of_listed hslots hentry, Entry.slot]
    · intro address hother
      simp [Bag.status, Bag.value, slot?_of_unlisted hslots hother]

/-- One name at two indices, and a value under a status that is not `ok`. -/
def mixedCapture : String :=
  "\x7b\"kind\": \"k\", \"properties\": [" ++
    "\x7b\"name\": \"a\", \"value\": \x7b\"text\": \"x\"\x7d\x7d, " ++
    "\x7b\"name\": \"a\", \"index\": 1, \"status\": \"Failed\", " ++
    "\"value\": \x7b\"integer\": -5\x7d\x7d, " ++
    "\x7b\"name\": \"b\", \"status\": \"NotAvailable\"\x7d]\x7d"

def mixedDocument : Document where
  kind := some "k"
  entries := [
    { name := "a", value := some (.text "x") },
    { name := "a", index := 1, status := .failed, value := some (.integer (-5)) },
    { name := "b", status := .notAvailable, value := none }]

theorem parse_builds_what_mixedCapture_says :
    Document.parse? mixedCapture = some mixedDocument ∧
      ∃ message, Message.parse explainBriefly mixedCapture = .ok message ∧
        message.properties.size = 3 ∧
        message.properties.status ⟨"a", 1⟩ = .failed ∧
        message.properties.value ⟨"a", 1⟩ = some (.integer (-5)) ∧
        message.properties.status ⟨"b", 7⟩ = .notAvailable ∧
        message.properties.count "a" = 2 := by
  have hread : Document.parse? mixedCapture = some mixedDocument := by decide +kernel
  obtain ⟨haccepts, hbuilds⟩ := parse_builds_what_the_capture_says hread
  obtain ⟨message, hmessage⟩ := haccepts.mpr ⟨by decide, by
    intro entry hentry hok
    simp only [mixedDocument, List.mem_cons, List.not_mem_nil, or_false] at hentry
    rcases hentry with rfl | rfl | rfl
    · exact ⟨_, rfl⟩
    · cases hok
    · cases hok⟩
  obtain ⟨-, hsize, -, hlisted, hunlisted, hcount⟩ := hbuilds message hmessage
  have hfailed := hlisted ⟨"a", 1, .failed, some (.integer (-5))⟩ (by simp [mixedDocument])
  have hother := hunlisted ⟨"b", 7⟩ (by decide)
  exact ⟨hread, message, hmessage, hsize, hfailed.1, hfailed.2, hother.1,
    (hcount "a").trans (by decide)⟩

end PanelRelay.Capture
