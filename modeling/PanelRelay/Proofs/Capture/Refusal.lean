import Mathlib.Data.List.Induction
import Mathlib.Data.List.Nodup
import PanelRelay.Proofs.Capture.Loading

/-!
Why a capture is refused. A text that does not read as a capture is refused before any entry is
judged. Otherwise the first entry that cannot follow the ones before it is blamed, whatever stands
behind it.
-/

namespace PanelRelay.Capture

open Property (Bag)

variable {explain : String → String}

namespace Entry

/-- The entry cannot be taken: its address was there before, or it is available without a value. -/
def IsRefused (before : List Entry) (entry : Entry) : Prop :=
  entry.address ∈ before.map Entry.address ∨ ¬ entry.IsComplete

/-- A repeated address is blamed first, even if the value is missing as well. -/
def blame (before : List Entry) (entry : Entry) : Error :=
  if entry.address ∈ before.map Entry.address then .duplicateProperty entry.address
  else .missingValue entry.address

theorem blame_ne_notACapture (before : List Entry) (entry : Entry) (explanation : String) :
    entry.blame before ≠ .notACapture explanation := by
  rw [blame]
  split <;> simp

/-- No entry of the list is refused behind the ones before it. -/
def AllTaken (entries : List Entry) : Prop :=
  ∀ earlier next, earlier ++ [next] <+: entries → ¬ next.IsRefused earlier

structure IsFirstRefused (entries before : List Entry) (entry : Entry) : Prop where
  stands : before ++ [entry] <+: entries
  taken : AllTaken before
  refused : entry.IsRefused before

theorem IsFirstRefused.mono {entries longer before : List Entry} {entry : Entry}
    (h : IsFirstRefused entries before entry) (hstands : before ++ [entry] <+: longer) :
    IsFirstRefused longer before entry where
  stands := hstands
  taken := h.taken
  refused := h.refused

theorem allTaken_nil : AllTaken [] := by
  intro earlier next hprefix
  simp at hprefix

theorem allTaken_concat (entries : List Entry) (entry : Entry) :
    AllTaken (entries ++ [entry]) ↔ AllTaken entries ∧ ¬ entry.IsRefused entries := by
  simp only [AllTaken, List.prefix_concat_iff]
  constructor
  · intro h
    exact ⟨fun earlier next hprefix => h earlier next (.inr hprefix), h entries entry (.inl rfl)⟩
  · rintro ⟨htaken, hlast⟩ earlier next (heq | hprefix)
    · obtain ⟨rfl, hsame⟩ := List.append_inj' heq rfl
      obtain rfl := List.singleton_inj.mp hsame
      exact hlast
    · exact htaken earlier next hprefix

theorem AllTaken.nodup_and_complete {entries : List Entry} (h : AllTaken entries) :
    (entries.map Entry.address).Nodup ∧ ∀ entry ∈ entries, entry.IsComplete := by
  induction entries using List.reverseRecOn with
  | nil => simp
  | append_singleton front last ih =>
      obtain ⟨hfront, hlast⟩ := (allTaken_concat front last).mp h
      obtain ⟨hnodup, hcomplete⟩ := ih hfront
      simp only [IsRefused, not_or, Classical.not_not] at hlast
      refine ⟨?_, ?_⟩
      · rw [List.map_append, List.map_singleton, ← List.concat_eq_append]
        exact hnodup.concat hlast.1
      · intro entry hentry
        rcases List.mem_append.mp hentry with hfront | hback
        · exact hcomplete entry hfront
        · exact List.mem_singleton.mp hback ▸ hlast.2

/-- Of the entries that cannot be taken, one is the first. -/
theorem exists_isFirstRefused {entries : List Entry} (h : ¬ AllTaken entries) :
    ∃ before entry, IsFirstRefused entries before entry := by
  induction entries using List.reverseRecOn with
  | nil => exact absurd allTaken_nil h
  | append_singleton front last ih =>
      by_cases hfront : AllTaken front
      · have hlast : last.IsRefused front := by
          by_contra hlast
          exact h ((allTaken_concat front last).mpr ⟨hfront, hlast⟩)
        exact ⟨front, last, List.prefix_rfl, hfront, hlast⟩
      · obtain ⟨before, entry, hfirst⟩ := ih hfront
        exact ⟨before, entry, hfirst.mono (hfirst.stands.trans (List.prefix_append front [last]))⟩

end Entry

open Entry (AllTaken IsFirstRefused blame)

theorem bagOf_append {before : List Entry} {bag next : Bag} (h : bagOf before bag = .ok next)
    (after : List Entry) : bagOf (before ++ after) bag = bagOf after next := by
  induction before generalizing bag with
  | nil =>
      cases h
      rfl
  | cons entry before ih =>
      rw [List.cons_append, bagOf]
      rw [bagOf] at h
      cases hadded : addEntry bag entry with
      | error error =>
          rw [hadded] at h
          cases h
      | ok added =>
          rw [hadded] at h
          exact ih h

theorem exists_bagOf {entries : List Entry} (hnodup : (entries.map Entry.address).Nodup)
    (hcomplete : ∀ entry ∈ entries, entry.IsComplete) :
    ∃ bag, bagOf entries Bag.empty = .ok bag ∧
      bag.slots = (entries.map Entry.item).reverse := by
  refine ⟨⟨_, nodup_keys hnodup⟩, (bagOf_eq_ok_iff entries Bag.empty _).mpr ?_, rfl⟩
  refine ⟨hnodup, ?_, hcomplete, (List.append_nil _).symm⟩
  intro entry _
  simp [Bag.contains]

theorem addEntry_of_refused {bag : Bag} {before : List Entry} {entry : Entry}
    (hslots : bag.slots = (before.map Entry.item).reverse) (hrefused : entry.IsRefused before) :
    addEntry bag entry = .error (entry.blame before) := by
  have hcontains : bag.contains entry.address = true ↔
      entry.address ∈ before.map Entry.address := by
    rw [contains_of_listed hslots, List.mem_map]
  by_cases hrepeats : entry.address ∈ before.map Entry.address
  · rw [blame, if_pos hrepeats, addEntry_of_contains (hcontains.mpr hrepeats)]
  · have hmissing := hrefused.resolve_left hrepeats
    rw [blame, if_neg hrepeats, addEntry_of_missing (mt hcontains.mp hrepeats) hmissing]

/-- When the first entry that cannot be taken comes up, the bag lists exactly the ones before it. -/
theorem bagOf_of_isFirstRefused {entries before : List Entry} {entry : Entry}
    (h : IsFirstRefused entries before entry) :
    bagOf entries Bag.empty = .error (entry.blame before) := by
  obtain ⟨hnodup, hcomplete⟩ := h.taken.nodup_and_complete
  obtain ⟨bag, hbag, hslots⟩ := exists_bagOf hnodup hcomplete
  obtain ⟨after, rfl⟩ := h.stands
  rw [List.append_assoc, bagOf_append hbag, List.singleton_append, bagOf,
    addEntry_of_refused hslots h.refused]

theorem Document.message_eq_error_iff (document : Document) (error : Error) :
    document.message = .error error ↔
      ∃ before entry, IsFirstRefused document.entries before entry ∧
        error = entry.blame before := by
  have hblamed : ∀ before entry, IsFirstRefused document.entries before entry →
      document.message = .error (entry.blame before) := by
    intro before entry hfirst
    rw [Document.message, bagOf_of_isFirstRefused hfirst]
    rfl
  constructor
  · intro herror
    by_cases htaken : AllTaken document.entries
    · obtain ⟨message, hmessage⟩ := document.message_isOk_iff.mpr htaken.nodup_and_complete
      rw [herror] at hmessage
      cases hmessage
    · obtain ⟨before, entry, hfirst⟩ := Entry.exists_isFirstRefused htaken
      rw [hblamed before entry hfirst] at herror
      exact ⟨before, entry, hfirst, (Except.error.inj herror).symm⟩
  · rintro ⟨before, entry, hfirst, rfl⟩
    exact hblamed before entry hfirst

/-- A capture that is read is never refused for not being one. -/
theorem Message.parse_eq_notACapture_iff (text explanation : String) :
    Message.parse explain text = .error (.notACapture explanation) ↔
      Document.parse? text = none ∧ explain text = explanation := by
  cases hread : Document.parse? text with
  | none => simp [Message.parse, hread]
  | some document =>
      rw [Message.parse_of_document hread, Document.message_eq_error_iff]
      simp only [reduceCtorEq, false_and, iff_false]
      rintro ⟨before, entry, -, herror⟩
      exact Entry.blame_ne_notACapture before entry explanation herror.symm

/-- The elements of the list of properties, in either form of a capture. -/
inductive Lists : Json.Value → List Json.Value → Prop
  | object {members : List (List Json.Piece × Json.Value)} {elements : List Json.Value} :
      member? "properties" members = some (some (.array elements)) →
      Lists (.object members) elements
  | array {kind : Json.Value} {elements : List Json.Value} :
      Lists (.array [kind, .array elements]) elements

theorem entries?_eq_none {elements : List Json.Value} {element : Json.Value}
    (hmem : element ∈ elements) (hbad : Entry.ofJson? element = none) :
    entries? (.array elements) = none := by
  rw [entries?]
  induction elements with
  | nil => cases hmem
  | cons head elements ih =>
      rw [List.mapM_cons]
      rcases List.mem_cons.mp hmem with rfl | hmem
      · rw [hbad]
        rfl
      · rw [ih hmem]
        cases Entry.ofJson? head <;> rfl

theorem Document.ofFields?_eq_none {kind : Json.Value} {elements : List Json.Value}
    (hbad : entries? (.array elements) = none) :
    Document.ofFields? kind (some (.array elements)) = none := by
  rw [Document.ofFields?, defaulted?, hbad]
  cases nullable? Property.string? kind <;> rfl

/-- One element that is no property spoils the whole capture, wherever it stands in the list. -/
theorem Lists.ofJson?_eq_none {value : Json.Value} {elements : List Json.Value}
    (hlists : Lists value elements) {element : Json.Value} (hmem : element ∈ elements)
    (hbad : Entry.ofJson? element = none) : Document.ofJson? value = none := by
  have hentries := entries?_eq_none hmem hbad
  cases hlists with
  | @object members elements hmember =>
      rw [Document.ofJson?, hmember]
      split
      · cases member? "kind" members with
        | none => rfl
        | some kind => exact Document.ofFields?_eq_none hentries
      · rfl
  | array => exact Document.ofFields?_eq_none hentries

/--
A text that does not read as a capture is refused as such, with the reason why it does not read,
also for the sake of a single element of its list. Otherwise it is refused exactly if some entry
repeats an address or lacks its value; the first such entry is blamed, and what stands behind it does
not matter.
-/
theorem parse_blames_first_refused (explain : String → String) (text : String) :
    (∀ explanation, Message.parse explain text = .error (.notACapture explanation) ↔
        Document.parse? text = none ∧ explain text = explanation) ∧
      (∀ value elements, Json.Value.parse? text = some value → Lists value elements →
        (∃ element ∈ elements, Entry.ofJson? element = none) → Document.parse? text = none) ∧
      ∀ document, Document.parse? text = some document →
        ((∃ error, Message.parse explain text = .error error) ↔
          ∃ earlier next, earlier ++ [next] <+: document.entries ∧ next.IsRefused earlier) ∧
        (∀ error, Message.parse explain text = .error error ↔
          ∃ before entry, IsFirstRefused document.entries before entry ∧
            error = entry.blame before) ∧
        ∀ before entry, IsFirstRefused document.entries before entry →
          ∀ other document', Document.parse? other = some document' →
            before ++ [entry] <+: document'.entries →
              Message.parse explain other = .error (entry.blame before) := by
  refine ⟨Message.parse_eq_notACapture_iff text, ?_, ?_⟩
  · rintro value elements hvalue hlists ⟨element, hmem, hbad⟩
    rw [Document.parse?, hvalue, Option.bind_some, hlists.ofJson?_eq_none hmem hbad]
  · intro document hread
    rw [Message.parse_of_document hread]
    refine ⟨?_, document.message_eq_error_iff, ?_⟩
    · constructor
      · rintro ⟨error, herror⟩
        obtain ⟨before, entry, hfirst, -⟩ := (document.message_eq_error_iff error).mp herror
        exact ⟨before, entry, hfirst.stands, hfirst.refused⟩
      · rintro ⟨earlier, next, hstands, hrefused⟩
        obtain ⟨before, entry, hfirst⟩ :=
          Entry.exists_isFirstRefused fun htaken => htaken earlier next hstands hrefused
        exact ⟨_, (document.message_eq_error_iff _).mpr ⟨before, entry, hfirst, rfl⟩⟩
    · intro before entry hfirst other document' hother hstands
      rw [Message.parse_of_document hother, Document.message_eq_error_iff]
      exact ⟨before, entry, hfirst.mono hstands, rfl⟩

/-- The second property repeats an address and lacks a value; the third only lacks one. -/
def repeatingCapture : String :=
  "\x7b\"properties\": [\x7b\"name\": \"a\", \"index\": 2, \"status\": \"Failed\"\x7d, " ++
    "\x7b\"name\": \"a\", \"index\": 2\x7d, \x7b\"name\": \"b\"\x7d]\x7d"

def shorterCapture : String :=
  "[null, [[\"a\", 2, \"Failed\", null], [\"a\", 2, \"Ok\", null]]]"

/-- A property without its value, and behind it an element that is no property. -/
def spoiledCapture : String :=
  "[null, [[\"a\", 0, \"Ok\", null], 5]]"

def failedEntry : Entry where
  name := "a"
  index := 2
  status := .failed
  value := none

def bareEntry (name : String) (index : UInt32) : Entry where
  name := name
  index := index
  value := none

theorem isFirstRefused_bareEntry (after : List Entry) :
    IsFirstRefused (failedEntry :: bareEntry "a" 2 :: after) [failedEntry] (bareEntry "a" 2) where
  stands := ⟨after, rfl⟩
  taken := by
    rw [← List.nil_append [failedEntry], Entry.allTaken_concat]
    refine ⟨Entry.allTaken_nil, ?_⟩
    simp [Entry.IsRefused, Entry.IsComplete, failedEntry]
  refused := .inl (by decide)

theorem parse_blames_repeatedEntry :
    Document.parse? repeatingCapture =
        some { kind := none, entries := [failedEntry, bareEntry "a" 2, bareEntry "b" 0] } ∧
      Message.parse explainBriefly repeatingCapture = .error (.duplicateProperty ⟨"a", 2⟩) ∧
      Message.parse explainBriefly shorterCapture = .error (.duplicateProperty ⟨"a", 2⟩) ∧
      Document.parse? spoiledCapture = none ∧
      Message.parse explainBriefly spoiledCapture =
        .error (.notACapture (explainBriefly spoiledCapture)) := by
  have hread : Document.parse? repeatingCapture =
      some { kind := none, entries := [failedEntry, bareEntry "a" 2, bareEntry "b" 0] } := by
    decide +kernel
  have hshorter : Document.parse? shorterCapture =
      some { kind := none, entries := [failedEntry, bareEntry "a" 2] } := by decide +kernel
  have htokens : Json.tokens? spoiledCapture.toList = some
      [.beginArray, .null, .comma, .beginArray, .beginArray, .string (Json.pieces "a"), .comma,
        .number { negative := false, whole := ['0'] }, .comma, .string (Json.pieces "Ok"), .comma,
        .null, .endArray, .comma, .number { negative := false, whole := ['5'] }, .endArray,
        .endArray] := by decide +kernel
  have hspoiled : Json.Value.parse? spoiledCapture = some
      (.array [.null, .array
        [.array [.string (Json.pieces "a"), .number { negative := false, whole := ['0'] },
          .string (Json.pieces "Ok"), .null],
        .number { negative := false, whole := ['5'] }]]) := by
    rw [Json.Value.parse?, htokens]
    rfl
  obtain ⟨-, -, hblames⟩ := parse_blames_first_refused explainBriefly repeatingCapture
  obtain ⟨-, hexact, hothers⟩ := hblames _ hread
  have hfirst := isFirstRefused_bareEntry [bareEntry "b" 0]
  have hblame : (bareEntry "a" 2).blame [failedEntry] = .duplicateProperty ⟨"a", 2⟩ := by decide
  obtain ⟨hnotRead, hspoils, -⟩ := parse_blames_first_refused explainBriefly spoiledCapture
  have hnone := hspoils _ _ hspoiled .array
    ⟨_, List.mem_cons_of_mem _ (List.mem_singleton_self _), rfl⟩
  exact ⟨hread, (hexact _).mpr ⟨_, _, hfirst, hblame.symm⟩,
    (hothers _ _ hfirst _ _ hshorter List.prefix_rfl).trans (congrArg Except.error hblame),
    hnone, (hnotRead _).mpr ⟨hnone, rfl⟩⟩

end PanelRelay.Capture
