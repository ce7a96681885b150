import PanelRelay.Proofs.Capture.Writing

/-!
A value in its place. What a property value is written as is read back as the value, by itself and
wherever a capture has a place for it.
-/

namespace PanelRelay.Capture

open Json (Piece pieces)

variable {explain : String → String}

/-- A property with a place for its value, in either form. -/
inductive PropertyFrame where
  | object (front back : List (List Piece × Json.Value))
  | array (name index status : Json.Value)

def PropertyFrame.fill (value : Json.Value) : PropertyFrame → Json.Value
  | .object front back => .object (front ++ (pieces "value", value) :: back)
  | .array name index status => .array [name, index, status, value]

/-- A message with a place for the list of its properties, in either form. -/
inductive MessageFrame where
  | object (front back : List (List Piece × Json.Value))
  | array (kind : Json.Value)

def MessageFrame.fill (properties : Json.Value) : MessageFrame → Json.Value
  | .object front back => .object (front ++ (pieces "properties", properties) :: back)
  | .array kind => .array [kind, properties]

/-- A capture with a place for the value of one of its properties. -/
structure Frame where
  message : MessageFrame
  before : List Json.Value
  property : PropertyFrame
  after : List Json.Value

def Frame.fill (frame : Frame) (value : Json.Value) : Json.Value :=
  frame.message.fill (.array (frame.before ++ frame.property.fill value :: frame.after))

/--
Apart from the value that is to be filled in, the capture is acceptable: it reads as a message with
these properties, no two at one address, and none of the others is available without a value.
-/
structure Frame.IsSound (frame : Frame) (kind : Option String) (earlier : List Entry)
    (entry : Entry) (later : List Entry) : Prop where
  ofJson?_message : Document.ofJson? (frame.message.fill (.array [])) = some { kind }
  mapM_before : frame.before.mapM Entry.ofJson? = some earlier
  ofJson?_property : Entry.ofJson? (frame.property.fill .null) = some entry
  mapM_after : frame.after.mapM Entry.ofJson? = some later
  nodup : ((earlier ++ entry :: later).map Entry.address).Nodup
  isComplete : ∀ other ∈ earlier ++ later, other.IsComplete

def Entry.withValue (entry : Entry) (value : Property.Value) : Entry :=
  { entry with value := some value }

/-- The value of a property is read apart from the other fields. -/
theorem Entry.ofFields?_refill {name value : Json.Value} {index status : Option Json.Value}
    {entry : Entry} (h : ofFields? name index status value = some entry) (other : Json.Value) :
    ofFields? name index status other =
      (nullable? Property.Value.ofJson? other).map fun value => { entry with value } := by
  simp only [ofFields?, Option.bind_eq_bind, Option.bind_eq_some_iff] at h
  obtain ⟨name, hname, index, hindex, status, hstatus, _, _, heq⟩ := h
  cases heq
  simp only [ofFields?, hname, hindex, hstatus]
  cases nullable? Property.Value.ofJson? other <;> rfl

/-- A member that is read has its name to itself, whatever its value is. -/
theorem member?_of_read {name : String} {value : Json.Value} {found : Option Json.Value}
    {front back : List (List Piece × Json.Value)}
    (h : member? name (front ++ (pieces name, value) :: back) = some found) :
    found = some value ∧
      ∀ other, member? name (front ++ (pieces name, other) :: back) = some (some other) := by
  simp only [member?_of_split] at h ⊢
  generalize Json.Value.find name (front ++ back) = elsewhere at h ⊢
  cases elsewhere with
  | absent => exact ⟨(Option.some.inj h).symm, fun _ => rfl⟩
  | once value => cases h
  | repeated => cases h

theorem PropertyFrame.ofJson?_refill {frame : PropertyFrame} {value : Json.Value} {entry : Entry}
    (h : Entry.ofJson? (frame.fill value) = some entry) (other : Json.Value) :
    Entry.ofJson? (frame.fill other) =
      (nullable? Property.Value.ofJson? other).map fun value => { entry with value } := by
  cases frame with
  | array name index status => exact Entry.ofFields?_refill h other
  | object front back =>
      simp only [fill, Entry.ofJson?, namesAreTexts_of_split _ other value,
        member?_of_other "name" "value" (by decide), member?_of_other "index" "value" (by decide),
        member?_of_other "status" "value" (by decide)] at h ⊢
      split at h
      next hnames =>
        simp only [Option.bind_eq_bind, Option.bind_eq_some_iff] at h
        obtain ⟨_, hname, name, rfl, index, hindex, status, hstatus, found, hvalue, hfields⟩ := h
        obtain ⟨rfl, hvalues⟩ := member?_of_read hvalue
        simp only [if_pos hnames, hname, hindex, hstatus, hvalues other]
        exact Entry.ofFields?_refill hfields other
      next => cases h

theorem PropertyFrame.ofJson?_fill {frame : PropertyFrame} {entry : Entry}
    (h : Entry.ofJson? (frame.fill .null) = some entry) (value : Property.Value) :
    Entry.ofJson? (frame.fill value.json) = some (entry.withValue value) := by
  have hvalue : nullable? Property.Value.ofJson? value.json = some (some value) :=
    nullable?_ofOption Property.Value.ofJson?_json (by rintro (_ | _ | _) ⟨⟩) (some value)
  rw [ofJson?_refill h, hvalue]
  rfl

theorem Document.ofFields?_refill {kind properties : Json.Value} {document : Document}
    (h : ofFields? kind (some properties) = some document) (other : Json.Value) :
    ofFields? kind (some other) =
      (entries? other).map fun entries => { document with entries } := by
  simp only [ofFields?, Option.bind_eq_bind, Option.bind_eq_some_iff] at h
  obtain ⟨kind, hkind, _, _, heq⟩ := h
  cases heq
  simp only [ofFields?, hkind, defaulted?]
  cases entries? other <;> rfl

theorem MessageFrame.ofJson?_refill {frame : MessageFrame} {properties : Json.Value}
    {document : Document} (h : Document.ofJson? (frame.fill properties) = some document)
    (other : Json.Value) :
    Document.ofJson? (frame.fill other) =
      (entries? other).map fun entries => { document with entries } := by
  cases frame with
  | array kind => exact Document.ofFields?_refill h other
  | object front back =>
      simp only [fill, Document.ofJson?, namesAreTexts_of_split _ other properties,
        member?_of_other "kind" "properties" (by decide)] at h ⊢
      split at h
      next hnames =>
        simp only [Option.bind_eq_bind, Option.bind_eq_some_iff] at h
        obtain ⟨kind, hkind, found, hproperties, hfields⟩ := h
        obtain ⟨rfl, hlists⟩ := member?_of_read hproperties
        simp only [if_pos hnames, hkind, hlists other]
        exact Document.ofFields?_refill hfields other
      next => cases h

namespace Frame

section Sound

variable {frame : Frame} {kind : Option String} {earlier later : List Entry} {entry : Entry}
  (h : frame.IsSound kind earlier entry later) (value : Property.Value)

include h

theorem IsSound.ofJson?_fill :
    Document.ofJson? (frame.fill value.json) =
      some { kind, entries := earlier ++ entry.withValue value :: later } := by
  have hentries : entries? (.array (frame.before ++ frame.property.fill value.json :: frame.after)) =
      some (earlier ++ entry.withValue value :: later) := by
    simp only [entries?, List.mapM_append, List.mapM_cons, h.mapM_before, h.mapM_after,
      PropertyFrame.ofJson?_fill h.ofJson?_property value]
    rfl
  rw [fill, MessageFrame.ofJson?_refill h.ofJson?_message, hentries]
  rfl

theorem IsSound.isComplete_withValue :
    ∀ other ∈ earlier ++ entry.withValue value :: later, other.IsComplete := by
  intro other hother
  have hcases : other = entry.withValue value ∨ other ∈ earlier ++ later := by grind
  rcases hcases with rfl | hother
  · exact fun _ => Option.some_ne_none value
  · exact h.isComplete other hother

/-- The value is stored at its property's address, beside the status that stands there. -/
theorem IsSound.exists_parse {text : String} (htext : (frame.fill value.json).IsWrittenAs text) :
    ∃ message, Message.parse explain text = .ok message ∧
      message.properties.slot? entry.address = some ⟨entry.status, some value⟩ := by
  have hread : Document.parse? text =
      some { kind, entries := earlier ++ entry.withValue value :: later } := by
    rw [Document.parse?_of_isWrittenAs htext, h.ofJson?_fill value]
  have hnodup : ((earlier ++ entry.withValue value :: later).map Entry.address).Nodup := by
    have heq : (entry.withValue value).address = entry.address := rfl
    simpa only [List.map_append, List.map_cons, heq] using h.nodup
  obtain ⟨message, hparse, -, hslots⟩ := exists_parse_of_document hread hnodup
    (h.isComplete_withValue value)
  have hmem : entry.withValue value ∈ earlier ++ entry.withValue value :: later :=
    List.mem_append_right _ List.mem_cons_self
  exact ⟨message, hparse, slot?_of_listed hslots hmem⟩

end Sound

end Frame

/--
What a value is written as is read back as the value, whatever it is. The same text in the place of
a property's value makes the capture store that value, whatever else stands in the capture.
-/
theorem parse_stores_written_value (explain : String → String) (value : Property.Value) :
    (Json.Value.parse? value.json.compact).bind Property.Value.ofJson? = some value ∧
      ∀ {frame : Frame} {kind : Option String} {earlier later : List Entry} {entry : Entry},
        frame.IsSound kind earlier entry later →
        ∀ {front back : String}, Json.Surround frame.fill front back →
          ∃ message, Message.parse explain (front ++ value.json.compact ++ back) = .ok message ∧
            message.properties.slot? entry.address = some ⟨entry.status, some value⟩ := by
  have hprintable := Property.Value.isPrintable_json value
  constructor
  · rw [hprintable.parse?_compact, Option.bind_some, Property.Value.ofJson?_json]
  · intro frame kind earlier later entry hsound front back hsurround
    exact hsound.exists_parse value (hsurround.isWrittenAs hprintable.isWrittenAs_compact)

/-- A failed property behind another one, its value between its own members. -/
def indexedFrame : Frame where
  message := .object [(pieces "kind", .null)] []
  before := [.array [.ofText "a", .ofInt 0, .ofText "Failed", .null]]
  property := .object [(pieces "index", .ofInt 1), (pieces "status", .ofText "Failed")]
    [(pieces "name", .ofText "a")]
  after := []

def indexedFront : String :=
  "\x7b\"kind\":null, \"properties\":[[\"a\",0,\"Failed\",null]," ++
    "\x7b\"index\":1,\"status\":\"Failed\",\"value\": "

def indexedBack : String :=
  ", \"name\":\"\\u0061\"\x7d]\x7d"

theorem indexedFrame_isSound :
    indexedFrame.IsSound none [{ name := "a", status := .failed, value := none }]
      { name := "a", index := 1, status := .failed, value := none } [] where
  ofJson?_message := by decide +kernel
  mapM_before := by decide +kernel
  ofJson?_property := by decide +kernel
  mapM_after := rfl
  nodup := by decide
  isComplete := by
    intro other hother hok
    obtain rfl := List.mem_singleton.mp hother
    cases hok

theorem indexedFrame_surround : Json.Surround indexedFrame.fill indexedFront indexedBack := by
  have hfront : Json.tokens? indexedFront.toList = some
      [.beginObject, .string (pieces "kind"), .colon, .null, .comma, .string (pieces "properties"),
        .colon, .beginArray, .beginArray, .string (pieces "a"), .comma, .number (.ofInt 0), .comma,
        .string (pieces "Failed"), .comma, .null, .endArray, .comma, .beginObject,
        .string (pieces "index"), .colon, .number (.ofInt 1), .comma, .string (pieces "status"),
        .colon, .string (pieces "Failed"), .comma, .string (pieces "value"), .colon] := by
    decide +kernel
  have hback : Json.tokens? indexedBack.toList = some
      [.comma, .string (pieces "name"), .colon, .string (pieces "a"), .endObject, .endArray,
        .endObject] := by
    decide +kernel
  refine ⟨_, _, Json.areSpelledBy_of_tokens? hfront, Json.areSpelledBy_of_tokens? hback, ?_⟩
  intro value
  simp [Frame.fill, MessageFrame.fill, PropertyFrame.fill, indexedFrame, Json.Value.tokens,
    Json.elementTokens, Json.memberTokens, Json.Value.ofText, Json.Value.ofInt]

theorem parse_stores_escaped_value :
    (Property.Value.text "\x00\"\\\u2028😀").json.compact =
        "\x7b\"text\":\"\\u0000\\\"\\\\\u2028😀\"\x7d" ∧
      ∃ message, Message.parse explainBriefly (indexedFront ++
          "\x7b\"text\":\"\\u0000\\\"\\\\\u2028😀\"\x7d" ++ indexedBack) = .ok message ∧
        message.properties.slot? ⟨"a", 1⟩ = some ⟨.failed, some (.text "\x00\"\\\u2028😀")⟩ := by
  have htext : (Property.Value.text "\x00\"\\\u2028😀").json.compact =
      "\x7b\"text\":\"\\u0000\\\"\\\\\u2028😀\"\x7d" := by decide +kernel
  obtain ⟨-, hplaced⟩ := parse_stores_written_value explainBriefly (.text "\x00\"\\\u2028😀")
  exact ⟨htext, htext ▸ hplaced indexedFrame_isSound indexedFrame_surround⟩

end PanelRelay.Capture
