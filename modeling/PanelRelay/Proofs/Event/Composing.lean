import PanelRelay.Event.Message

/-!
Messages that are put together property by property. A property goes behind all that the message
lists already, and a search ends at the first one that answers; so what is found is not lost again.
-/

namespace PanelRelay.Event

/-- A property without an id answers to no id, not even to the empty one. -/
def Detail.AnswersTo (id : String) (index : Int32) (detail : Detail) : Prop :=
  detail.id = some id ∧ detail.index = index

/-- The first property of a list that answers to an id and an index. -/
structure IsFirstAnswer (id : String) (index : Int32) (details : List Detail) (detail : Detail) :
    Prop where
  answers : detail.AnswersTo id index
  first : ∃ before after, details = before ++ detail :: after ∧
    ∀ earlier ∈ before, ¬ earlier.AnswersTo id index

/-- A first answer stays the first, whatever is listed behind it. -/
theorem IsFirstAnswer.append {id : String} {index : Int32} {details : List Detail} {detail : Detail}
    (h : IsFirstAnswer id index details detail) (further : List Detail) :
    IsFirstAnswer id index (details ++ further) detail := by
  obtain ⟨hdetail, before, after, rfl, hbefore⟩ := h
  refine ⟨hdetail, before, after ++ further, ?_, hbefore⟩
  rw [List.append_assoc, List.cons_append]

/-- What one call adds. -/
structure Addition where
  id : String
  index : Int32
  value : Option Property.Value

def Addition.detail (addition : Addition) : Detail where
  id := some addition.id
  index := addition.index
  value := addition.value

namespace Message

/-- What the message lists; nothing if its list is absent. -/
def listed (message : Message) : List Detail :=
  message.details.getD []

def addOne (message : Message) (addition : Addition) : Message :=
  message.add addition.id addition.index addition.value

def addAll (message : Message) (additions : List Addition) : Message :=
  additions.foldl addOne message

@[simp] theorem name_addOne (message : Message) (addition : Addition) :
    (message.addOne addition).name = message.name := rfl

@[simp] theorem listed_addOne (message : Message) (addition : Addition) :
    (message.addOne addition).listed = message.listed ++ [addition.detail] := rfl

theorem details_addOne_ne_none (message : Message) (addition : Addition) :
    (message.addOne addition).details ≠ none :=
  Option.some_ne_none _

@[simp] theorem addAll_nil (message : Message) : message.addAll [] = message := rfl

@[simp] theorem addAll_cons (message : Message) (addition : Addition) (additions : List Addition) :
    message.addAll (addition :: additions) = (message.addOne addition).addAll additions := rfl

@[simp] theorem addAll_append (message : Message) (additions later : List Addition) :
    message.addAll (additions ++ later) = (message.addAll additions).addAll later :=
  List.foldl_append

theorem name_addAll (message : Message) (additions : List Addition) :
    (message.addAll additions).name = message.name := by
  induction additions generalizing message with
  | nil => rfl
  | cons addition additions ih => rw [addAll_cons, ih, name_addOne]

theorem listed_addAll (message : Message) (additions : List Addition) :
    (message.addAll additions).listed = message.listed ++ additions.map Addition.detail := by
  induction additions generalizing message with
  | nil => exact (List.append_nil _).symm
  | cons addition additions ih =>
      rw [addAll_cons, ih, listed_addOne, List.append_assoc, List.map_cons, List.singleton_append]

theorem details_addAll_eq_none_iff (message : Message) (additions : List Addition) :
    (message.addAll additions).details = none ↔ message.details = none ∧ additions = [] := by
  induction additions generalizing message with
  | nil => simp
  | cons addition additions ih => simp [ih, details_addOne_ne_none]

section Find

variable (message : Message) (id : String) (index : Int32)

theorem find?_eq_some_iff (detail : Detail) :
    message.find? id index = some detail ↔ IsFirstAnswer id index message.listed detail := by
  have hanswers : ∀ detail : Detail,
      (detail.id = some id && detail.index = index) = true ↔ detail.AnswersTo id index := by
    intro detail
    simp [Detail.AnswersTo]
  rw [find?, List.find?_eq_some_iff_append, hanswers]
  simp only [Bool.not_eq_true', ← Bool.not_eq_true, hanswers]
  constructor
  · rintro ⟨hdetail, before, after, hlisted, hbefore⟩
    exact ⟨hdetail, before, after, hlisted, hbefore⟩
  · rintro ⟨hdetail, before, after, hlisted, hbefore⟩
    exact ⟨hdetail, before, after, hlisted, hbefore⟩

theorem find?_eq_none_iff :
    message.find? id index = none ↔ ∀ detail ∈ message.listed, ¬ detail.AnswersTo id index := by
  simp [find?, listed, Detail.AnswersTo]

end Find

/--
Properties that are added one after the other stand behind those of the message, in the order of the
calls and as often as they were added, and change nothing else. A search by id and index finds the
first property that answers to them, or nothing if none does; what it finds has an id, and is found
whatever is added later.
-/
theorem addAll_lists_and_finds (message : Message) (additions : List Addition) :
    (message.addAll additions).name = message.name ∧
      (message.addAll additions).listed = message.listed ++ additions.map Addition.detail ∧
      ((message.addAll additions).details = none ↔ message.details = none ∧ additions = []) ∧
      ∀ id index,
        (∀ detail, (message.addAll additions).find? id index = some detail ↔
          IsFirstAnswer id index (message.listed ++ additions.map Addition.detail) detail) ∧
        ((message.addAll additions).find? id index = none ↔
          ∀ detail ∈ message.listed ++ additions.map Addition.detail,
            ¬ detail.AnswersTo id index) ∧
        ∀ detail, (message.addAll additions).find? id index = some detail →
          detail.id ≠ none ∧
            ∀ later, (message.addAll (additions ++ later)).find? id index = some detail := by
  have hlisted := listed_addAll message additions
  refine ⟨name_addAll message additions, hlisted, details_addAll_eq_none_iff message additions, ?_⟩
  intro id index
  rw [← hlisted]
  refine ⟨find?_eq_some_iff _ id index, find?_eq_none_iff _ id index, ?_⟩
  intro detail hfound
  have hfirst := (find?_eq_some_iff _ id index detail).mp hfound
  refine ⟨?_, ?_⟩
  · rw [hfirst.answers.1]
    exact Option.some_ne_none id
  · intro later
    rw [find?_eq_some_iff, addAll_append, listed_addAll]
    exact hfirst.append _

/-- A received message: a property without an id before two with the empty id. -/
def receivedMessage : Message where
  details := some [⟨none, 0, some (.text "a")⟩, ⟨some "", 0, none⟩, ⟨some "", 0, some (.text "b")⟩]

theorem addAll_lists_and_finds_receivedMessage :
    receivedMessage.find? "" 0 = some ⟨some "", 0, none⟩ ∧
      (receivedMessage.addAll [⟨"", 0, some (.integer 5)⟩]).find? "" 0 =
        some ⟨some "", 0, none⟩ ∧
      (empty.addAll [⟨"c", -1, none⟩]).details = some [⟨some "c", -1, none⟩] := by
  have hfound : receivedMessage.find? "" 0 = some ⟨some "", 0, none⟩ := by decide
  obtain ⟨-, -, -, hsearch⟩ := addAll_lists_and_finds receivedMessage []
  obtain ⟨-, -, hkept⟩ := hsearch "" 0
  obtain ⟨-, hlater⟩ := hkept _ hfound
  exact ⟨hfound, hlater _, rfl⟩

end Message

end PanelRelay.Event
