import Mathlib.Data.List.Permutation
import PanelRelay.Proofs.Envelope.Tree
import PanelRelay.Proofs.Xml.Printing

/-!
The shape of a request. All of its tags come from a short list, and as far as its texts can be sent
its tree is a regular one.
-/

namespace PanelRelay.Envelope

open Event (Detail Message)
open Xml (Node Tag)

def partTags : List Tag :=
  [propertyTag, nilTag "id", nilTag "value", nilTag "Properties", nilTag "name", plainTag "id",
    plainTag "index", plainTag "Properties", plainTag "name", typedTag "value" "xsd:string",
    typedTag "value" "xsd:int", typedTag "value" "xsd:base64Binary"]

theorem isValid_of_mem_partTags : ∀ tag ∈ partTags, tag.IsValid := by
  decide

section Regular

variable {tags : Tag → Prop}

theorem regular_textNodes {tag : Tag} (htag : tags tag) {text : String}
    (htext : isCarried text = true) : (Node.element tag (textNodes text)).Regular tags := by
  unfold textNodes
  split
  · exact .branch htag (by simp)
  · exact .leaf htag htext

theorem regular_textTree {name : String} (hplain : tags (plainTag name)) (hnil : tags (nilTag name))
    {text : Option String} (htext : ∀ item ∈ optionalTexts name text, isCarried item.2 = true) :
    (textTree name text).Regular tags := by
  cases text with
  | none => exact .branch hnil (by simp)
  | some text => exact regular_textNodes hplain (htext (name, text) (by simp [optionalTexts]))

end Regular

theorem regular_valueTree {value : Option Property.Value}
    (htexts : ∀ item ∈ valueTexts value, isCarried item.2 = true) :
    (valueTree value).Regular (· ∈ partTags) := by
  cases value with
  | none => exact .branch (by decide) (by simp)
  | some value =>
      cases value with
      | text content =>
          exact regular_textNodes (by decide) (htexts ("value", content) (by simp [valueTexts]))
      | integer content => exact regular_textNodes (by decide) (isCarried_integerText content)
      | bytes content => exact regular_textNodes (by decide) (isCarried_octetsText content)

theorem regular_propertyTree {detail : Detail}
    (htexts : ∀ item ∈ detailTexts detail, isCarried item.2 = true) :
    (propertyTree detail).Regular (· ∈ partTags) := by
  apply Node.Regular.branch (by decide)
  intro child hchild
  simp only [List.mem_cons, List.not_mem_nil, or_false] at hchild
  rcases hchild with rfl | rfl | rfl
  · exact regular_textTree (by decide) (by decide) fun item hitem =>
      htexts item (List.mem_append_right _ hitem)
  · exact regular_textNodes (by decide) (isCarried_integerText detail.index)
  · exact regular_valueTree fun item hitem => htexts item (List.mem_append_left _ hitem)

theorem regular_propertiesTree {details : Option (List Detail)}
    (htexts : ∀ item ∈ (details.getD []).flatMap detailTexts, isCarried item.2 = true) :
    (propertiesTree details).Regular (· ∈ partTags) := by
  cases details with
  | none => exact .branch (by decide) (by simp)
  | some details =>
      apply Node.Regular.branch (by decide)
      intro child hchild
      obtain ⟨detail, hdetail, rfl⟩ := List.mem_map.mp hchild
      apply regular_propertyTree
      exact fun item hitem => htexts item (List.mem_flatMap.mpr ⟨detail, hdetail, hitem⟩)

theorem regular_messageParts {message : Message}
    (htexts : ∀ item ∈ messageTexts message, isCarried item.2 = true) :
    ∀ node ∈ messageParts message, node.Regular (· ∈ partTags) := by
  intro node hnode
  simp only [messageParts, List.mem_cons, List.not_mem_nil, or_false] at hnode
  rcases hnode with rfl | rfl
  · exact regular_propertiesTree fun item hitem => htexts item (List.mem_append_left _ hitem)
  · exact regular_textTree (by decide) (by decide) fun item hitem =>
      htexts item (List.mem_append_right _ hitem)

def envelopeAround (order : DeclarationOrder) (operation part : Tag) (message : Message) : Node :=
  envelopeNode order (.element operation [.element part (messageParts message)])

/-- There are as few orders as the declarations are few. -/
theorem DeclarationOrder.mem_permutations (order : DeclarationOrder) :
    order.attributes ∈ declarations.permutations' :=
  List.mem_permutations'.mpr order.perm

theorem isValid_envelopeTag (order : DeclarationOrder) : (envelopeTag order).IsValid := by
  have hvalid : ∀ attributes ∈ declarations.permutations',
      Tag.IsValid { name := .qualified "soap" "Envelope", attributes } := by
    decide
  exact hvalid _ order.mem_permutations

theorem isValid_bodyTag : bodyTag.IsValid := by
  decide

theorem regular_envelopeAround (order : DeclarationOrder) {operation part : Tag}
    (hoperation : operation.IsValid) (hpart : part.IsValid) {message : Message}
    (htexts : ∀ item ∈ messageTexts message, isCarried item.2 = true) :
    (envelopeAround order operation part message).Regular Tag.IsValid := by
  have hparts : ∀ node ∈ messageParts message, node.Regular Tag.IsValid := fun node hnode =>
    (regular_messageParts htexts node hnode).mono isValid_of_mem_partTags
  have hinner := Node.Regular.branch hpart hparts
  have houter := Node.Regular.branch hoperation (List.forall_mem_singleton.mpr hinner)
  have hbody := Node.Regular.branch isValid_bodyTag (List.forall_mem_singleton.mpr houter)
  exact .branch (isValid_envelopeTag order) (List.forall_mem_singleton.mpr hbody)

end PanelRelay.Envelope
