import PanelRelay.Proofs.Envelope.Tree
import PanelRelay.Proofs.Xml.RoundTrip

/-!
The texts of a message, changed all in one way. In a tree without layout every text that is blank
has become the empty text, and nothing else has changed.
-/

namespace PanelRelay

namespace Property

def Value.mapText (f : String → String) : Value → Value
  | .text content => .text (f content)
  | .integer content => .integer content
  | .bytes content => .bytes content

end Property

namespace Event

variable (f : String → String)

def Detail.mapTexts (detail : Detail) : Detail where
  id := detail.id.map f
  index := detail.index
  value := detail.value.map (Property.Value.mapText f)

def Message.mapTexts (message : Message) : Message where
  name := message.name.map f
  details := message.details.map fun details => details.map (Detail.mapTexts f)

end Event

/-- The text, or the empty one if all of its characters are of one class. -/
def clearText (p : Char → Bool) (text : String) : String :=
  if text.toList.all p then "" else text

theorem clearText_eq_self_iff (p : Char → Bool) (text : String) :
    clearText p text = text ↔ (text ≠ "" → text.toList.all p = false) := by
  unfold clearText
  split
  next hall =>
    constructor
    · exact fun hempty hne => absurd hempty.symm hne
    · intro h
      exact Classical.byContradiction fun hne => by
        rw [h (Ne.symm hne)] at hall
        cases hall
  next hsome => exact ⟨fun _ _ => Bool.eq_false_iff.mpr hsome, fun _ => rfl⟩

theorem clearText_of_isGraphic {text : List Char} (h : ∀ c ∈ text, isGraphic c = true) :
    clearText isBlank (String.ofList text) = String.ofList text := by
  rw [clearText_eq_self_iff]
  intro hne
  rw [String.toList_ofList]
  cases text with
  | nil => exact absurd rfl hne
  | cons c text =>
      have hc : isBlank c = false := by
        rw [← Bool.not_eq_true]
        intro hblank
        have hgraphic := h c (by simp)
        rcases (isBlank_iff c).mp hblank with rfl | rfl | rfl | rfl <;> exact absurd hgraphic (by decide)
      simp [hc]

namespace Envelope

open Event (Detail Message)
open Xml (Node Tag)

variable {f g : String → String}

theorem optionalTexts_map (name : String) (text : Option String) :
    optionalTexts name (text.map f) =
      (optionalTexts name text).map fun item => (item.1, f item.2) := by
  cases text <;> rfl

theorem valueTexts_mapText (value : Option Property.Value) :
    valueTexts (value.map (Property.Value.mapText f)) =
      (valueTexts value).map fun item => (item.1, f item.2) := by
  cases value with
  | none => rfl
  | some value => cases value <;> rfl

theorem detailTexts_mapTexts (detail : Detail) :
    detailTexts (detail.mapTexts f) =
      (detailTexts detail).map fun item => (item.1, f item.2) := by
  simp only [detailTexts, Detail.mapTexts, valueTexts_mapText, optionalTexts_map, List.map_append]

theorem messageTexts_mapTexts (message : Message) :
    messageTexts (message.mapTexts f) =
      (messageTexts message).map fun item => (item.1, f item.2) := by
  obtain ⟨name, details⟩ := message
  cases details with
  | none => exact optionalTexts_map "name" name
  | some details =>
      simp only [messageTexts, Message.mapTexts, Option.map_some, Option.getD_some,
        List.flatMap_map, List.map_append, List.map_flatMap, optionalTexts_map,
        detailTexts_mapTexts]

theorem map_optional_congr {name : String} {text : Option String}
    (h : ∀ item ∈ optionalTexts name text, f item.2 = g item.2) : text.map f = text.map g := by
  cases text with
  | none => rfl
  | some text => exact congrArg some (h (name, text) (by simp [optionalTexts]))

theorem mapText_congr {value : Option Property.Value}
    (h : ∀ item ∈ valueTexts value, f item.2 = g item.2) :
    value.map (Property.Value.mapText f) = value.map (Property.Value.mapText g) := by
  cases value with
  | none => rfl
  | some value =>
      cases value with
      | text content =>
          have hcontent := h ("value", content) (by simp [valueTexts])
          simp only [Option.map_some, Property.Value.mapText, hcontent]
      | integer content => rfl
      | bytes content => rfl

theorem detail_mapTexts_congr {detail : Detail}
    (h : ∀ item ∈ detailTexts detail, f item.2 = g item.2) :
    detail.mapTexts f = detail.mapTexts g := by
  have hvalue := mapText_congr fun item hitem => h item (List.mem_append_left _ hitem)
  have hid := map_optional_congr fun item hitem => h item (List.mem_append_right _ hitem)
  rw [Detail.mapTexts, Detail.mapTexts, hvalue, hid]

/-- Two changes that agree on every text of a message agree on the message. -/
theorem message_mapTexts_congr {message : Message}
    (h : ∀ item ∈ messageTexts message, f item.2 = g item.2) :
    message.mapTexts f = message.mapTexts g := by
  obtain ⟨name, details⟩ := message
  have hname : name.map f = name.map g := map_optional_congr fun item hitem =>
    h item (List.mem_append_right _ hitem)
  cases details with
  | none => simp only [Message.mapTexts, hname, Option.map_none]
  | some details =>
      have hdetails : details.map (Detail.mapTexts f) = details.map (Detail.mapTexts g) :=
        List.map_congr_left fun detail hdetail => detail_mapTexts_congr fun item hitem =>
          h item (List.mem_append_left _ (List.mem_flatMap.mpr ⟨detail, hdetail, hitem⟩))
      simp only [Message.mapTexts, hname, Option.map_some, hdetails]

theorem mapTexts_id (message : Message) : message.mapTexts id = message := by
  have hdetail : Detail.mapTexts id = id := by
    funext detail
    obtain ⟨id, index, value⟩ := detail
    cases value with
    | none => simp [Detail.mapTexts]
    | some value => cases value <;> simp [Detail.mapTexts, Property.Value.mapText]
  simp [Message.mapTexts, hdetail]

theorem mapTexts_eq_self_iff (message : Message) :
    message.mapTexts f = message ↔ ∀ item ∈ messageTexts message, f item.2 = item.2 := by
  constructor
  · intro h item hitem
    have htexts := messageTexts_mapTexts (f := f) message
    rw [h] at htexts
    have hsame := List.map_inj_left.mp ((List.map_id _).trans htexts) item hitem
    exact (congrArg Prod.snd hsame).symm
  · intro h
    exact (message_mapTexts_congr h).trans (mapTexts_id message)

end Envelope

end PanelRelay
