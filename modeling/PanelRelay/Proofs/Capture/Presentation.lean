import Mathlib.Logic.Relation
import PanelRelay.Proofs.Capture.Loading
import PanelRelay.Proofs.Json.Documents
import PanelRelay.Proofs.Json.Members

/-!
A capture means the same however it is written. Blanks, the spelling of strings, the order of the
members and unknown members make no difference, whether the capture is accepted or not.
-/

namespace PanelRelay.Capture

open Json (MemberChange Piece pieces)

variable {explain : String → String}

def messageFields : List String :=
  ["kind", "properties"]

def propertyFields : List String :=
  ["name", "index", "status", "value"]

/-- One property of a list is an object, and the members of that object change. -/
inductive PropertyChange (admits : List Piece → Prop) : Json.Value → Json.Value → Prop
  | member {before after : List Json.Value} {members changed : List (List Piece × Json.Value)} :
      MemberChange admits propertyFields members changed →
      PropertyChange admits (.array (before ++ .object members :: after))
        (.array (before ++ .object changed :: after))

/-- One change to the members of a message, or of a property in either form of the message. -/
inductive Change (admits : List Piece → Prop) : Json.Value → Json.Value → Prop
  | message {members changed : List (List Piece × Json.Value)} :
      MemberChange admits messageFields members changed →
      Change admits (.object members) (.object changed)
  | property {front back : List (List Piece × Json.Value)} {properties changed : Json.Value} :
      PropertyChange admits properties changed →
      Change admits (.object (front ++ (pieces "properties", properties) :: back))
        (.object (front ++ (pieces "properties", changed) :: back))
  | listedProperty {kind properties changed : Json.Value} {further : List Json.Value} :
      PropertyChange admits properties changed →
      Change admits (.array (kind :: properties :: further)) (.array (kind :: changed :: further))

/-- Any number of changes, to and fro. -/
abbrev Rearranged (admits : List Piece → Prop) : Json.Value → Json.Value → Prop :=
  Relation.EqvGen (Change admits)

/--
The texts are written as two values of which one is the other rearranged; every text that can be read
is written as the value it is read as.
-/
def Rewritten (admits : List Piece → Prop) (text other : String) : Prop :=
  ∃ value changed, value.IsWrittenAs text ∧ Rearranged admits value changed ∧
    changed.IsWrittenAs other

/-- No surrogate is left alone. -/
def IsText (content : List Piece) : Prop :=
  ∃ text, content = pieces text

theorem IsText.isSome_text? {content : List Piece} (h : IsText content) :
    (Json.text? content).isSome = true := by
  obtain ⟨text, rfl⟩ := h
  rw [Json.text?_pieces]
  rfl

theorem namesAreTexts_eq_of_memberChange {known : List String}
    {members changed : List (List Piece × Json.Value)}
    (h : MemberChange IsText known members changed) :
    namesAreTexts changed = namesAreTexts members := by
  cases h with
  | reordered hperm => exact hperm.all_eq.symm
  | added _ hname => simp [namesAreTexts, hname.isSome_text?]

theorem member?_eq_of_memberChange {known : List String} {admits : List Piece → Prop}
    {members changed : List (List Piece × Json.Value)}
    (h : MemberChange admits known members changed) {name : String} (hname : name ∈ known) :
    member? name changed = member? name members := by
  rw [member?, member?, h.find_eq hname]

theorem Entry.ofJson?_eq_of_memberChange {members changed : List (List Piece × Json.Value)}
    (h : MemberChange IsText propertyFields members changed) :
    Entry.ofJson? (.object changed) = Entry.ofJson? (.object members) := by
  have hfield : ∀ name ∈ propertyFields, member? name changed = member? name members :=
    fun _ => member?_eq_of_memberChange h
  rw [Entry.ofJson?, Entry.ofJson?, namesAreTexts_eq_of_memberChange h,
    hfield "name" (by decide), hfield "index" (by decide), hfield "status" (by decide),
    hfield "value" (by decide)]

theorem entries?_eq_of_propertyChange {properties changed : Json.Value}
    (h : PropertyChange IsText properties changed) : entries? changed = entries? properties := by
  cases h with
  | member hmembers =>
      simp only [entries?, List.mapM_append, List.mapM_cons,
        Entry.ofJson?_eq_of_memberChange hmembers]

/-- A list of properties counts as what is read of it. -/
theorem Document.ofFields?_congr {properties changed : Json.Value}
    (h : entries? changed = entries? properties) (kind : Json.Value) :
    Document.ofFields? kind (some changed) = Document.ofFields? kind (some properties) := by
  rw [Document.ofFields?, Document.ofFields?, defaulted?, defaulted?, h]

theorem Document.ofJson?_eq_of_memberChange {members changed : List (List Piece × Json.Value)}
    (h : MemberChange IsText messageFields members changed) :
    Document.ofJson? (.object changed) = Document.ofJson? (.object members) := by
  have hfield : ∀ name ∈ messageFields, member? name changed = member? name members :=
    fun _ => member?_eq_of_memberChange h
  rw [Document.ofJson?, Document.ofJson?, namesAreTexts_eq_of_memberChange h,
    hfield "kind" (by decide), hfield "properties" (by decide)]

theorem member?_of_split (name : String) (value : Json.Value)
    (front back : List (List Piece × Json.Value)) :
    member? name (front ++ (pieces name, value) :: back) =
      match Json.Value.find name (front ++ back) with
      | .absent => some (some value)
      | _ => none := by
  rw [member?, Json.Value.find_of_split]
  cases Json.Value.find name (front ++ back) <;> rfl

theorem member?_of_other (name other : String) (h : other ≠ name) (value : Json.Value)
    (front back : List (List Piece × Json.Value)) :
    member? name (front ++ (pieces other, value) :: back) = member? name (front ++ back) := by
  rw [member?, member?, Json.Value.find_of_other (mt Json.pieces_inj.mp h)]

theorem namesAreTexts_of_split (name : List Piece) (value other : Json.Value)
    (front back : List (List Piece × Json.Value)) :
    namesAreTexts (front ++ (name, value) :: back) =
      namesAreTexts (front ++ (name, other) :: back) := by
  simp only [namesAreTexts, List.all_append, List.all_cons]

/-- The same holds inside an object, also where the list stands twice. -/
theorem Document.ofJson?_eq_of_propertyChange {properties changed : Json.Value}
    (h : PropertyChange IsText properties changed) (front back : List (List Piece × Json.Value)) :
    Document.ofJson? (.object (front ++ (pieces "properties", changed) :: back)) =
      Document.ofJson? (.object (front ++ (pieces "properties", properties) :: back)) := by
  simp only [Document.ofJson?, namesAreTexts_of_split _ changed properties,
    member?_of_other "kind" "properties" (by decide), member?_of_split]
  cases Json.Value.find "properties" (front ++ back) with
  | absent => simp [Document.ofFields?_congr (entries?_eq_of_propertyChange h)]
  | once value => rfl
  | repeated => rfl

theorem Document.ofJson?_eq_of_change {value changed : Json.Value}
    (h : Change IsText value changed) : Document.ofJson? changed = Document.ofJson? value := by
  cases h with
  | message hmembers => exact Document.ofJson?_eq_of_memberChange hmembers
  | property hproperty => exact Document.ofJson?_eq_of_propertyChange hproperty _ _
  | @listedProperty kind properties changed further hproperty =>
      cases further with
      | nil => exact Document.ofFields?_congr (entries?_eq_of_propertyChange hproperty) kind
      | cons _ _ => rfl

theorem Rearranged.ofJson?_eq {value changed : Json.Value} (h : Rearranged IsText value changed) :
    Document.ofJson? changed = Document.ofJson? value := by
  induction h with
  | rel value changed hchange => exact Document.ofJson?_eq_of_change hchange
  | refl value => rfl
  | symm value changed _ ih => exact ih.symm
  | trans value middle changed _ _ ihfirst ihsecond => exact ihsecond.trans ihfirst

theorem Document.parse?_of_isWrittenAs {value : Json.Value} {text : String}
    (h : value.IsWrittenAs text) : Document.parse? text = Document.ofJson? value := by
  rw [Document.parse?, (Json.Value.parse?_eq_some_iff text value).mpr h]
  rfl

theorem Rewritten.parse?_eq {text other : String} (h : Rewritten IsText text other) :
    Document.parse? other = Document.parse? text := by
  obtain ⟨value, changed, htext, hchanged, hother⟩ := h
  rw [Document.parse?_of_isWrittenAs htext, Document.parse?_of_isWrittenAs hother,
    hchanged.ofJson?_eq]

/--
A capture is loaded to the same message, or refused for the same reason, however it is written. The
names of unknown members may be any text, and their values any value.
-/
theorem parse_eq_of_rewritten {text other : String} (h : Rewritten IsText text other) :
    AgreeButForWords (Message.parse explain other) (Message.parse explain text) :=
  Message.agree_of_parse?_eq h.parse?_eq

/-- A capture with one property, between other members of the message. -/
def captureOf (front property back : List (List Piece × Json.Value)) : Json.Value :=
  .object (front ++ (pieces "properties", .array [.object property]) :: back)

theorem change_captureOf {admits : List Piece → Prop}
    {property changed : List (List Piece × Json.Value)}
    (front back : List (List Piece × Json.Value))
    (h : MemberChange admits propertyFields property changed) :
    Change admits (captureOf front property back) (captureOf front changed back) :=
  .property (@PropertyChange.member admits [] [] property changed h)

def kindMember : List Piece × Json.Value :=
  (pieces "kind", .ofText "k")

def nameMember : List Piece × Json.Value :=
  (pieces "name", .ofText "a")

def statusMember : List Piece × Json.Value :=
  (pieces "status", .ofText "Failed")

/-- A lone surrogate does no harm in a value that is passed over. -/
def noteMember : List Piece × Json.Value :=
  (pieces "note", .array [.object [], .string [.surrogate 0xD800]])

def emptyMember : List Piece × Json.Value :=
  (pieces "", .object [(pieces "kind", .array [])])

def plainCapture : String :=
  "\x7b\"kind\":\"k\",\"properties\":[\x7b\"name\":\"a\",\"status\":\"Failed\"\x7d]\x7d"

def dressedCapture : String :=
  "\x7b \"properties\" : [\x7b\"note\":[\x7b\x7d,\"\\ud800\"],\"status\":\"\\u0046ailed\"," ++
    "\"n\\u0061me\":\"\\u0061\"\x7d],\n\"\":\x7b\"kind\":[]\x7d,\"kind\":\"k\"\x7d "

theorem rearranged_captureOf :
    Rearranged IsText (captureOf [kindMember] [nameMember, statusMember] [])
      (captureOf [] [noteMember, statusMember, nameMember] [emptyMember, kindMember]) := by
  have hreordered : Change IsText (captureOf [kindMember] [nameMember, statusMember] [])
      (captureOf [kindMember] [statusMember, nameMember] []) :=
    change_captureOf _ _ (.reordered (.swap _ _ []))
  have hnote : Change IsText (captureOf [kindMember] [statusMember, nameMember] [])
      (captureOf [kindMember] [noteMember, statusMember, nameMember] []) :=
    change_captureOf _ _ (@MemberChange.added _ _ [] _ _ _ (by decide) ⟨_, rfl⟩)
  have hmoved : Change IsText (captureOf [kindMember] [noteMember, statusMember, nameMember] [])
      (captureOf [] [noteMember, statusMember, nameMember] [kindMember]) :=
    .message (.reordered (.swap _ _ []))
  have hempty : Change IsText (captureOf [] [noteMember, statusMember, nameMember] [kindMember])
      (captureOf [] [noteMember, statusMember, nameMember] [emptyMember, kindMember]) :=
    .message (@MemberChange.added _ _ [_] [_] _ _ (by decide) ⟨_, rfl⟩)
  exact .trans _ _ _ (.rel _ _ hreordered) (.trans _ _ _ (.rel _ _ hnote)
    (.trans _ _ _ (.rel _ _ hmoved) (.rel _ _ hempty)))

/-- Everything is changed at once: order, unknown members, blanks and escapes. -/
theorem parse_dressedCapture :
    Rewritten IsText plainCapture dressedCapture ∧
      ∃ message, Message.parse explainBriefly dressedCapture = .ok message ∧
        message.kind = some "k" ∧ message.properties.slots = [(⟨"a", 0⟩, ⟨.failed, none⟩)] := by
  have hplain : (captureOf [kindMember] [nameMember, statusMember] []).IsWrittenAs plainCapture :=
    Json.areSpelledBy_of_tokens? (by decide +kernel)
  have hdressed : (captureOf [] [noteMember, statusMember, nameMember]
      [emptyMember, kindMember]).IsWrittenAs dressedCapture :=
    Json.areSpelledBy_of_tokens? (by decide +kernel)
  have hrewritten : Rewritten IsText plainCapture dressedCapture :=
    ⟨_, _, hplain, rearranged_captureOf, hdressed⟩
  have hread : Document.parse? plainCapture =
      some { kind := some "k", entries := [{ name := "a", status := .failed, value := none }] } := by
    decide +kernel
  obtain ⟨message, hmessage, hkind, hslots⟩ :=
    exists_parse_of_document hread (by decide) (by
      intro entry hentry hok
      obtain rfl := List.mem_singleton.mp hentry
      cases hok)
  have hagree := @parse_eq_of_rewritten explainBriefly _ _ hrewritten
  rw [hmessage] at hagree
  exact ⟨hrewritten, message, hagree.eq (by simp), hkind, hslots⟩

def bareCapture : String :=
  "\x7b\"kind\":null\x7d"

def surrogateCapture : String :=
  "\x7b\"kind\":null,\"\\ud800\":0\x7d"

/-- An unknown member whose name is no text is not passed over. -/
theorem parse_surrogateCapture :
    Rewritten (fun _ => True) bareCapture surrogateCapture ∧
      Message.parse explainBriefly bareCapture =
        .ok { kind := none, properties := Property.Bag.empty } ∧
      Message.parse explainBriefly surrogateCapture =
        .error (.notACapture (explainBriefly surrogateCapture)) := by
  have hbare : (Json.Value.object [(pieces "kind", .null)]).IsWrittenAs bareCapture :=
    Json.areSpelledBy_of_tokens? (by decide +kernel)
  have hsurrogate : (Json.Value.object [(pieces "kind", .null),
      ([.surrogate 0xD800], .ofInt 0)]).IsWrittenAs surrogateCapture :=
    Json.areSpelledBy_of_tokens? (by decide +kernel)
  have hadded : Change (fun _ => True) (.object [(pieces "kind", .null)])
      (.object [(pieces "kind", .null), ([.surrogate 0xD800], .ofInt 0)]) :=
    .message (@MemberChange.added _ _ [_] [] _ _ (by decide) trivial)
  refine ⟨⟨_, _, hbare, .rel _ _ hadded, hsurrogate⟩, ?_, ?_⟩
  · have hread : Document.parse? bareCapture = some { kind := none } := by decide +kernel
    rw [Message.parse, hread]
    rfl
  · have hread : Document.parse? surrogateCapture = none := by decide +kernel
    rw [Message.parse, hread]

end PanelRelay.Capture
