import PanelRelay.Proofs.Capture.Presentation
import PanelRelay.Proofs.Capture.Refusal

/-!
The two forms of a capture. A message or a property that has all its members is the same whether they
stand in an object or in an array, in any mixture of the two. Fewer members than a message or a
property needs, and more than it has, are refused in an array.
-/

namespace PanelRelay.Capture

open Json (Piece pieces)

variable {explain : String → String}

/--
An object with some fields, once each and in any order. There may be further members, under names
that are texts and none of the known ones.
-/
def IsRecord (known : List String) (fields : List (String × Json.Value))
    (members : List (List Piece × Json.Value)) : Prop :=
  ∃ further, members.Perm ((fields.map fun field => (pieces field.1, field.2)) ++ further) ∧
    ∀ member ∈ further, IsText member.1 ∧ ∀ name ∈ known, member.1 ≠ pieces name

/-- A property with all its members, in either form. -/
inductive IsPropertyOf (name index status content : Json.Value) : Json.Value → Prop
  | object {members : List (List Piece × Json.Value)} :
      IsRecord propertyFields
        [("name", name), ("index", index), ("status", status), ("value", content)] members →
      IsPropertyOf name index status content (.object members)
  | array : IsPropertyOf name index status content (.array [name, index, status, content])

/-- A message with all its members, in either form. -/
inductive IsMessageOf (kind properties : Json.Value) : Json.Value → Prop
  | object {members : List (List Piece × Json.Value)} :
      IsRecord messageFields [("kind", kind), ("properties", properties)] members →
      IsMessageOf kind properties (.object members)
  | array : IsMessageOf kind properties (.array [kind, properties])

/-- The same element of a list; if it is a property with all its members, perhaps in another form. -/
inductive SameElement : Json.Value → Json.Value → Prop
  | refl (element : Json.Value) : SameElement element element
  | form {name index status content element other : Json.Value} :
      IsPropertyOf name index status content element →
      IsPropertyOf name index status content other → SameElement element other

/-- The same list, any of its properties perhaps in another form; or the same value that is no list. -/
inductive SameList : Json.Value → Json.Value → Prop
  | refl (properties : Json.Value) : SameList properties properties
  | elements {elements others : List Json.Value} :
      List.Forall₂ SameElement elements others → SameList (.array elements) (.array others)

section Record

variable {known : List String} {fields : List (String × Json.Value)}
  {members : List (List Piece × Json.Value)} (h : IsRecord known fields members)

include h

theorem IsRecord.namesAreTexts_eq : namesAreTexts members = true := by
  obtain ⟨further, hperm, hfurther⟩ := h
  rw [namesAreTexts, hperm.all_eq, List.all_append, Bool.and_eq_true]
  refine ⟨by simp, List.all_eq_true.mpr ?_⟩
  intro member hmember
  exact (hfurther member hmember).1.isSome_text?

/-- A known name is looked up among the fields. -/
theorem IsRecord.member?_eq {name : String} (hname : name ∈ known) :
    member? name members =
      member? name (fields.map fun field => (pieces field.1, field.2)) := by
  obtain ⟨further, hperm, hfurther⟩ := h
  have hnone : further.filter (fun member => member.1 = pieces name) = [] := by
    rw [List.filter_eq_nil_iff]
    intro member hmember
    simpa using (hfurther member hmember).2 name hname
  have hfilter := hperm.filter fun member => decide (member.1 = pieces name)
  rw [List.filter_append, hnone, List.append_nil] at hfilter
  rw [member?, member?, Json.Value.find_eq_of_perm hfilter.symm]

end Record

theorem IsPropertyOf.ofJson?_eq {name index status content value : Json.Value}
    (h : IsPropertyOf name index status content value) :
    Entry.ofJson? value = Entry.ofFields? name (some index) (some status) content := by
  cases h with
  | object hrecord =>
      rw [Entry.ofJson?, if_pos hrecord.namesAreTexts_eq, hrecord.member?_eq (by decide),
        hrecord.member?_eq (by decide), hrecord.member?_eq (by decide),
        hrecord.member?_eq (by decide)]
      simp [member?, Json.Value.find]
  | array => rfl

theorem IsMessageOf.ofJson?_eq {kind properties value : Json.Value}
    (h : IsMessageOf kind properties value) :
    Document.ofJson? value = Document.ofFields? kind (some properties) := by
  cases h with
  | object hrecord =>
      rw [Document.ofJson?, if_pos hrecord.namesAreTexts_eq, hrecord.member?_eq (by decide),
        hrecord.member?_eq (by decide)]
      simp [member?, Json.Value.find]
  | array => rfl

theorem IsRecord.ofJson?_kind {kind : Json.Value} {members : List (List Piece × Json.Value)}
    (h : IsRecord messageFields [("kind", kind)] members) :
    Document.ofJson? (.object members) = Document.ofJson? (.array [kind]) := by
  rw [Document.ofJson?, if_pos h.namesAreTexts_eq, h.member?_eq (by decide),
    h.member?_eq (by decide)]
  simp [member?, Json.Value.find, Document.ofJson?]

theorem SameElement.ofJson?_eq {element other : Json.Value} (h : SameElement element other) :
    Entry.ofJson? other = Entry.ofJson? element := by
  cases h with
  | refl => rfl
  | form helement hother => rw [helement.ofJson?_eq, hother.ofJson?_eq]

theorem SameList.entries?_eq {properties others : Json.Value} (h : SameList properties others) :
    entries? others = entries? properties := by
  cases h with
  | refl => rfl
  | elements helements =>
      rw [entries?, entries?]
      induction helements with
      | nil => rfl
      | cons helement _ ih => rw [List.mapM_cons, List.mapM_cons, helement.ofJson?_eq, ih]

theorem Message.agree_of_ofJson?_eq {value other : Json.Value} {text otherText : String}
    (htext : value.IsWrittenAs text) (hother : other.IsWrittenAs otherText)
    (h : Document.ofJson? other = Document.ofJson? value) :
    AgreeButForWords (Message.parse explain otherText) (Message.parse explain text) := by
  apply Message.agree_of_parse?_eq
  rw [Document.parse?_of_isWrittenAs htext, Document.parse?_of_isWrittenAs hother, h]

theorem Message.parse_of_ofJson?_eq_none {value : Json.Value} {text : String}
    (htext : value.IsWrittenAs text) (h : Document.ofJson? value = none) :
    Message.parse explain text = .error (.notACapture (explain text)) := by
  rw [Message.parse, Document.parse?_of_isWrittenAs htext, h]

theorem Entry.ofJson?_of_length_ne {fields : List Json.Value} (h : fields.length ≠ 4) :
    Entry.ofJson? (.array fields) = none := by
  unfold Entry.ofJson?
  split
  next heq => cases heq
  next heq =>
    cases heq
    exact absurd rfl h
  next => rfl

theorem Document.ofJson?_of_length {fields : List Json.Value}
    (h : fields.length = 0 ∨ 2 < fields.length) : Document.ofJson? (.array fields) = none := by
  unfold Document.ofJson?
  split
  next heq => cases heq
  next heq =>
    cases heq
    simp at h
  next heq =>
    cases heq
    simp at h
  next => rfl

/--
A capture is loaded to the same message, or refused for the same reason, whether the message stands in
an object or in an array, and likewise for any of its properties that have all their members, whatever
the values of these are. An array with a kind alone is as good as the object with a kind alone; an
empty array, one with more elements than a message has, and a property array with fewer or more
elements than a property has are refused.
-/
theorem parse_in_either_form (explain : String → String) :
    (∀ {kind properties others message other : Json.Value} {text otherText : String},
        SameList properties others → IsMessageOf kind properties message →
        IsMessageOf kind others other → message.IsWrittenAs text → other.IsWrittenAs otherText →
          AgreeButForWords (Message.parse explain otherText) (Message.parse explain text)) ∧
      (∀ {kind : Json.Value} {members : List (List Piece × Json.Value)} {text otherText : String},
        IsRecord messageFields [("kind", kind)] members →
        (Json.Value.object members).IsWrittenAs text →
        (Json.Value.array [kind]).IsWrittenAs otherText →
          AgreeButForWords (Message.parse explain otherText) (Message.parse explain text)) ∧
      (∀ {fields : List Json.Value} {text : String}, fields.length = 0 ∨ 2 < fields.length →
        (Json.Value.array fields).IsWrittenAs text →
          Message.parse explain text = .error (.notACapture (explain text))) ∧
      ∀ {kind message : Json.Value} {elements fields : List Json.Value} {text : String},
        IsMessageOf kind (.array elements) message → .array fields ∈ elements →
        fields.length ≠ 4 → message.IsWrittenAs text →
          Message.parse explain text = .error (.notACapture (explain text)) := by
  refine ⟨?_, ?_, ?_, ?_⟩
  · intro kind properties others message other text otherText hlist hmessage hother htext hotherText
    apply Message.agree_of_ofJson?_eq htext hotherText
    rw [hmessage.ofJson?_eq, hother.ofJson?_eq]
    exact Document.ofFields?_congr hlist.entries?_eq kind
  · intro kind members text otherText hrecord htext hotherText
    exact Message.agree_of_ofJson?_eq htext hotherText hrecord.ofJson?_kind.symm
  · intro fields text hlength htext
    exact Message.parse_of_ofJson?_eq_none htext (Document.ofJson?_of_length hlength)
  · intro kind message elements fields text hmessage hmem hlength htext
    apply Message.parse_of_ofJson?_eq_none htext
    rw [hmessage.ofJson?_eq]
    exact Document.ofFields?_eq_none (entries?_eq_none hmem (Entry.ofJson?_of_length_ne hlength))

def failedMembers : List (List Piece × Json.Value) :=
  [(pieces "value", .null), (pieces "name", .ofText "a"), (pieces "index", .ofInt 2),
    (pieces "status", .ofText "Failed")]

def repeatedMembers : List (List Piece × Json.Value) :=
  [(pieces "name", .ofText "a"), (pieces "note", .array []), (pieces "index", .ofInt 2),
    (pieces "status", .ofText "Ok"), (pieces "value", .null)]

/-- A message in an object: its first property in an object as well, its second in an array. -/
def mixedForms : Json.Value :=
  .object [(pieces "properties", .array
      [.object failedMembers, .array [.ofText "a", .ofInt 2, .ofText "Ok", .null]]),
    (pieces "kind", .null)]

/-- The same with each of the three in the other form. -/
def exchangedForms : Json.Value :=
  .array [.null, .array
    [.array [.ofText "a", .ofInt 2, .ofText "Failed", .null], .object repeatedMembers]]

def mixedFormsText : String :=
  "\x7b\"properties\":[\x7b\"value\":null,\"name\":\"a\",\"index\":2,\"status\":\"Failed\"\x7d," ++
    "[\"a\",2,\"Ok\",null]],\"kind\":null\x7d"

def exchangedFormsText : String :=
  "[null,[[\"a\",2,\"Failed\",null],\x7b\"name\":\"a\",\"note\":[],\"index\":2," ++
    "\"status\":\"Ok\",\"value\":null\x7d]]"

theorem isPropertyOf_failedMembers :
    IsPropertyOf (.ofText "a") (.ofInt 2) (.ofText "Failed") .null (.object failedMembers) :=
  .object ⟨[], @List.perm_append_comm _ [_] _, List.forall_mem_nil _⟩

theorem isPropertyOf_repeatedMembers :
    IsPropertyOf (.ofText "a") (.ofInt 2) (.ofText "Ok") .null (.object repeatedMembers) := by
  have hnote : IsText (pieces "note") ∧ ∀ name ∈ propertyFields, pieces "note" ≠ pieces name :=
    ⟨⟨_, rfl⟩, by decide⟩
  exact .object ⟨[(pieces "note", .array [])], (@List.perm_append_comm _ [_] _).cons _,
    List.forall_mem_singleton.mpr hnote⟩

theorem sameList_mixedForms :
    SameList
      (.array [.object failedMembers, .array [.ofText "a", .ofInt 2, .ofText "Ok", .null]])
      (.array [.array [.ofText "a", .ofInt 2, .ofText "Failed", .null], .object repeatedMembers]) :=
  .elements (.cons (.form isPropertyOf_failedMembers .array)
    (.cons (.form .array isPropertyOf_repeatedMembers) .nil))

/-- Both texts are refused for the address that is repeated; the last two for their shape. -/
theorem parse_in_either_form_exchangedForms :
    Message.parse explainBriefly mixedFormsText = .error (.duplicateProperty ⟨"a", 2⟩) ∧
      Message.parse explainBriefly exchangedFormsText = .error (.duplicateProperty ⟨"a", 2⟩) ∧
      Message.parse explainBriefly "[\"k\"]" =
        .ok { kind := some "k", properties := Property.Bag.empty } ∧
      Message.parse explainBriefly "[]" = .error (.notACapture (explainBriefly "")) ∧
      Message.parse explainBriefly "[null,[[\"a\"]]]" =
        .error (.notACapture (explainBriefly "")) := by
  obtain ⟨hforms, hkind, hlength, hfields⟩ := parse_in_either_form explainBriefly
  have hmixed : Message.parse explainBriefly mixedFormsText =
      .error (.duplicateProperty ⟨"a", 2⟩) := by
    have hread : Document.parse? mixedFormsText =
        some { kind := none, entries := [failedEntry, bareEntry "a" 2] } := by decide +kernel
    rw [Message.parse_of_document hread, Document.message_eq_error_iff]
    exact ⟨_, _, isFirstRefused_bareEntry [], by decide⟩
  have hexchanged := hforms sameList_mixedForms
    (.object ⟨[], List.Perm.swap _ _ [], List.forall_mem_nil _⟩) .array
    (show mixedForms.IsWrittenAs mixedFormsText from
      Json.areSpelledBy_of_tokens? (by decide +kernel))
    (show exchangedForms.IsWrittenAs exchangedFormsText from
      Json.areSpelledBy_of_tokens? (by decide +kernel))
  have hbare : Message.parse explainBriefly "\x7b\"kind\":\"k\"\x7d" =
      .ok { kind := some "k", properties := Property.Bag.empty } := by
    have hread : Document.parse? "\x7b\"kind\":\"k\"\x7d" = some { kind := some "k" } := by
      decide +kernel
    rw [Message.parse, hread]
    rfl
  have hlisted := @hkind (.ofText "k") [(pieces "kind", .ofText "k")] "\x7b\"kind\":\"k\"\x7d"
    "[\"k\"]" ⟨[], .refl _, List.forall_mem_nil _⟩ (Json.areSpelledBy_of_tokens? (by decide +kernel))
    (Json.areSpelledBy_of_tokens? (by decide +kernel))
  have hempty : Message.parse explainBriefly "[]" = .error (.notACapture (explainBriefly "")) :=
    @hlength [] _ (.inl rfl) (Json.areSpelledBy_of_tokens? (by decide +kernel))
  have hshort : Message.parse explainBriefly "[null,[[\"a\"]]]" =
      .error (.notACapture (explainBriefly "")) :=
    @hfields .null _ [.array [.ofText "a"]] _ _ .array (List.mem_singleton_self _) (by decide)
      (Json.areSpelledBy_of_tokens? (by decide +kernel))
  rw [hmixed] at hexchanged
  rw [hbare] at hlisted
  exact ⟨hmixed, hexchanged.eq (by simp), hlisted.eq (by simp), hempty, hshort⟩

end PanelRelay.Capture
