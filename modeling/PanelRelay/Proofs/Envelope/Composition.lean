import PanelRelay.Proofs.Envelope.Distinctness
import PanelRelay.Proofs.Envelope.Renaming

/-!
The text of a request, piece by piece. Between two fixed texts each property has a block of its own,
which the properties around it have no part in; only the name comes behind. What the text in front
of the properties leaves open is the order of the namespaces in it.
-/

namespace PanelRelay.Envelope

open Event (Detail Message)
open Xml (Attribute Node Tag escapeText newLine printLines)

/-- An element without child elements, as it stands in a line. -/
structure Leaf where
  name : String
  attributes : String := ""
  text : String := ""

namespace Leaf

def startTag (leaf : Leaf) : List Char :=
  '<' :: leaf.name.toList ++ leaf.attributes.toList ++ ['>']

def endTag (leaf : Leaf) : List Char :=
  '<' :: '/' :: leaf.name.toList ++ ['>']

def emptyTag (leaf : Leaf) : List Char :=
  '<' :: leaf.name.toList ++ leaf.attributes.toList ++ [' ', '/', '>']

/-- Without a text there is only one tag. -/
def print (leaf : Leaf) : List Char :=
  if leaf.text = "" then leaf.emptyTag
  else leaf.startTag ++ escapeText leaf.text ++ leaf.endTag

def null (name : String) : Leaf where
  name := name
  attributes := " xsi:nil=\"true\""

def optional (name : String) : Option String → Leaf
  | none => null name
  | some text => { name, text }

def value : Option Property.Value → Leaf
  | none => null "value"
  | some value =>
      { name := "value"
        attributes := " xsi:type=\"" ++ (spelled value).1 ++ "\""
        text := (spelled value).2 }

end Leaf

/-- The elements of a property, one to a line. -/
def leaves (detail : Detail) : List Leaf :=
  [.optional "id" detail.id, { name := "index", text := integerText detail.index },
    .value detail.value]

def blockStart : List Char :=
  ["\n          <Program.Property ",
    "xmlns=\"http://schemas.datacontract.org/2004/07/AtsAdvancedTest\">"].flatMap String.toList

def leafStart : List Char :=
  "\n            ".toList

def blockEnd : List Char :=
  "\n          </Program.Property>".toList

/-- What a property adds to a request. -/
def block (detail : Detail) : List Char :=
  blockStart ++ (leaves detail).flatMap (fun leaf => leafStart ++ leaf.print) ++ blockEnd

def declarationText (item : Attribute) : List Char :=
  ' ' :: item.name.chars ++ "=\"".toList ++ item.value.toList ++ ['"']

def envelopeStart : List Char :=
  "<?xml version=\"1.0\" encoding=\"UTF-8\"?>\n".toList ++ "<soap:Envelope".toList

def bodyStart : List Char :=
  [">", "\n  <soap:Body>", "\n    <logMessage xmlns=\"ATSAdvanced.DTO\">", "\n      <message>",
    "\n        <Properties>"].flatMap String.toList

def beforeProperties (order : DeclarationOrder) : List Char :=
  envelopeStart ++ order.attributes.flatMap declarationText ++ bodyStart

def afterProperties : List Char :=
  "\n        </Properties>".toList

def nameStart : List Char :=
  "\n        ".toList

def afterName : List Char :=
  ["\n      </message>", "\n    </logMessage>", "\n  </soap:Body>",
    "\n</soap:Envelope>"].flatMap String.toList

/-- How a request ends, from its name on. -/
def ending (name : Option String) : List Char :=
  nameStart ++ (Leaf.optional "name" name).print ++ afterName

/-- The part of a request that its properties make up. -/
def HasSection (order : DeclarationOrder) (name : Option String) (request : String)
    (properties : List Char) : Prop :=
  request.toList = beforeProperties order ++ properties ++ afterProperties ++ ending name

theorem HasSection.unique {order : DeclarationOrder} {name : Option String} {request : String}
    {properties others : List Char} (h : HasSection order name request properties)
    (hothers : HasSection order name request others) : properties = others := by
  have heq := h.symm.trans hothers
  simp only [List.append_assoc] at heq
  exact List.append_cancel_right (List.append_cancel_left heq)

section Printing

variable {tag : Tag} {leaf : Leaf}

theorem print_textNodes (htag : tag.name = .plain leaf.name)
    (hattributes : tag.attributes.flatMap Attribute.print = leaf.attributes.toList) (depth : Nat) :
    (Node.element tag (textNodes leaf.text)).print depth = leaf.print := by
  have hprint : tag.print = leaf.name.toList ++ leaf.attributes.toList := by
    rw [Tag.print, htag, hattributes]
    rfl
  have hname : tag.name.chars = leaf.name.toList := by
    rw [htag]
    rfl
  by_cases hempty : leaf.text = ""
  · rw [textNodes, if_pos hempty, Node.print_empty, Leaf.print, if_pos hempty, Tag.printEmpty,
      hprint]
    rfl
  · rw [textNodes, if_neg hempty, Node.print_leaf, Leaf.print, if_neg hempty, Tag.printOpen,
      Tag.printClose, hprint, hname]
    rfl

theorem attributes_nilTag (name : String) :
    (nilTag name).attributes.flatMap Attribute.print = (Leaf.null name).attributes.toList := by
  have hnil : (nilTag "").attributes.flatMap Attribute.print =
      (Leaf.null "").attributes.toList := by
    decide
  exact hnil

theorem attributes_typedTag (value : Property.Value) :
    (typedTag "value" (spelled value).1).attributes.flatMap Attribute.print =
      (Leaf.value (some value)).attributes.toList := by
  have htypes : ∀ type ∈ ["xsd:string", "xsd:int", "xsd:base64Binary"],
      (typedTag "value" type).attributes.flatMap Attribute.print =
        (" xsi:type=\"" ++ type ++ "\"").toList := by
    decide
  apply htypes
  cases value <;> simp [spelled]

theorem print_textTree (name : String) (text : Option String) (depth : Nat) :
    (textTree name text).print depth = (Leaf.optional name text).print := by
  cases text with
  | none => exact print_textNodes rfl (attributes_nilTag name) depth
  | some text => exact @print_textNodes _ (.optional name (some text)) rfl rfl depth

theorem print_valueTree (value : Option Property.Value) (depth : Nat) :
    (valueTree value).print depth = (Leaf.value value).print := by
  cases value with
  | none => exact print_textNodes rfl (attributes_nilTag "value") depth
  | some value =>
      rw [valueTree_some]
      exact print_textNodes rfl (attributes_typedTag value) depth

end Printing

/-- In front of every property the line is the same: a new one, at the same depth. -/
theorem print_propertyTree (detail : Detail) :
    newLine 5 ++ (propertyTree detail).print 5 = block detail := by
  have helements : [textTree "id" detail.id, textTree "index" (some (integerText detail.index)),
      valueTree detail.value].all Node.isElement = true := by
    simp [isElement_textTree, isElement_valueTree]
  have hstart : newLine 5 ++ propertyTag.printOpen = blockStart := by decide +kernel
  have hline : newLine 6 = leafStart := by decide
  have hend : newLine 5 ++ propertyTag.printClose = blockEnd := by decide +kernel
  rw [propertyTree, Node.print_elements helements, block, ← hstart, ← hend]
  simp only [Xml.printLines_cons, Xml.printLines_nil, hline, print_textTree, print_valueTree,
    leaves, Leaf.optional, List.flatMap_cons, List.flatMap_nil, List.append_assoc]

theorem printLines_propertyTrees (details : List Detail) :
    printLines 5 (details.map propertyTree) = details.flatMap block := by
  induction details with
  | nil => rfl
  | cons detail details ih =>
      rw [List.map_cons, Xml.printLines_cons, print_propertyTree, ih, List.flatMap_cons]

theorem print_propertiesTree {details : List Detail} (hdetails : details ≠ []) :
    (propertiesTree (some details)).print 4 =
      (plainTag "Properties").printOpen ++ details.flatMap block ++ afterProperties := by
  have helements : (details.map propertyTree).all Node.isElement = true := by
    simp [propertyTree, Node.isElement]
  have hafter : newLine 4 ++ (plainTag "Properties").printClose = afterProperties := by decide
  obtain ⟨detail, others, rfl⟩ := List.exists_cons_of_ne_nil hdetails
  rw [← printLines_propertyTrees, ← hafter]
  rw [List.map_cons] at helements
  rw [propertiesTree, List.map_cons, Node.print_elements helements]
  simp only [List.append_assoc]

theorem printOpen_envelopeTag (order : DeclarationOrder) :
    (envelopeTag order).printOpen =
      "<soap:Envelope".toList ++ (order.attributes.flatMap declarationText ++ ['>']) := by
  have hprint : ∀ item ∈ declarations, item.print = declarationText item := by decide +kernel
  have hattributes : order.attributes.flatMap Attribute.print =
      order.attributes.flatMap declarationText :=
    List.flatMap_congr fun item hitem => hprint item (order.perm.subset hitem)
  rw [Tag.printOpen, Tag.print, envelopeTag, hattributes]
  simp only [List.cons_append, List.append_assoc]
  rfl

theorem opening_eq_beforeProperties (order : DeclarationOrder) :
    opening order ++ (operationTag.printOpen ++ (newLine 3 ++ (partTag.printOpen ++
      (newLine 4 ++ (plainTag "Properties").printOpen)))) = beforeProperties order := by
  have hbody : ['>'] ++ (newLine 1 ++ (bodyTag.printOpen ++ (newLine 2 ++ (operationTag.printOpen ++
      (newLine 3 ++ (partTag.printOpen ++ (newLine 4 ++ (plainTag "Properties").printOpen))))))) =
        bodyStart := by
    decide +kernel
  unfold opening beforeProperties envelopeStart
  rw [printOpen_envelopeTag, ← hbody]
  simp only [List.append_assoc]

theorem hasSection_document (order : DeclarationOrder) {message : Message} {details : List Detail}
    (hlist : message.details = some details) (hdetails : details ≠ []) :
    HasSection order message.name (requestTree order message).document (details.flatMap block) := by
  have hline : newLine 4 = nameStart := by decide
  have hafter : newLine 3 ++ (partTag.printClose ++ (newLine 2 ++ (operationTag.printClose ++
      closing))) = afterName := by
    decide +kernel
  have hlines : lines message = newLine 4 ++ ((plainTag "Properties").printOpen ++
      (details.flatMap block ++ (afterProperties ++ (newLine 4 ++
        (Leaf.optional "name" message.name).print)))) := by
    rw [lines, messageParts, hlist, Xml.printLines_cons, Xml.printLines_cons, Xml.printLines_nil,
      print_propertiesTree hdetails, print_textTree]
    simp only [List.append_assoc, List.append_nil]
  have hrequest : requestTree order message = envelopeAround order operationTag partTag message :=
    rfl
  rw [HasSection, hrequest, document_envelopeAround, hlines, ending,
    ← opening_eq_beforeProperties, ← hafter, ← hline]
  simp only [List.append_assoc]

theorem hasSection_of_encode {order : DeclarationOrder} {message : Message} {details : List Detail}
    {text : String} (hlist : message.details = some details) (hdetails : details ≠ [])
    (hencode : encode order message = .ok text) :
    HasSection order message.name text (details.flatMap block) := by
  obtain ⟨-, rfl⟩ := (encode_eq_ok_iff order message text).mp hencode
  exact hasSection_document order hlist hdetails

theorem infix_block {detail : Detail} {leaf : Leaf} (hleaf : leaf ∈ leaves detail)
    (htext : leaf.text ≠ "") :
    leafStart ++ (leaf.startTag ++ escapeText leaf.text ++ leaf.endTag) <:+: block detail := by
  obtain ⟨before, after, hleaves⟩ := List.append_of_mem hleaf
  have hprint : leaf.print = leaf.startTag ++ escapeText leaf.text ++ leaf.endTag := if_neg htext
  refine ⟨blockStart ++ before.flatMap (fun leaf => leafStart ++ leaf.print),
    after.flatMap (fun leaf => leafStart ++ leaf.print) ++ blockEnd, ?_⟩
  rw [block, hleaves, List.flatMap_append, List.flatMap_cons, hprint]
  simp only [List.append_assoc]

theorem ending_some {name : String} (hname : name ≠ "") :
    ending (some name) = nameStart ++ ("<name>".toList ++ escapeText name ++ "</name>".toList) ++
      afterName := by
  have hstart : (Leaf.optional "name" (some "")).startTag = "<name>".toList := by decide
  have hend : (Leaf.optional "name" (some "")).endTag = "</name>".toList := by decide
  have hprint : (Leaf.optional "name" (some name)).print =
      (Leaf.optional "name" (some "")).startTag ++ escapeText name ++
        (Leaf.optional "name" (some "")).endTag :=
    if_neg hname
  rw [ending, hprint, hstart, hend]

/-- A list is accepted if each of its two parts is, under the name of the first part. -/
theorem exists_encode_append {first second : Message} {details others : List Detail}
    (hfirst : first.details = some details) (hsecond : second.details = some others)
    (hencode : ∃ order text, encode order first = .ok text)
    (hother : ∃ order text, encode order second = .ok text) (order : DeclarationOrder) :
    ∃ text, encode order { first with details := some (details ++ others) } = .ok text := by
  obtain ⟨firstOrder, text, hencode⟩ := hencode
  obtain ⟨secondOrder, other, hother⟩ := hother
  obtain ⟨hsendable, -⟩ := (encode_eq_ok_iff firstOrder first text).mp hencode
  obtain ⟨hsendableOther, -⟩ := (encode_eq_ok_iff secondOrder second other).mp hother
  refine ⟨_, (encode_eq_ok_iff order _ _).mpr ⟨fun item hitem => ?_, rfl⟩⟩
  rw [messageTexts, hfirst] at hsendable
  rw [messageTexts, hsecond] at hsendableOther
  simp only [messageTexts, Option.getD_some, List.flatMap_append, List.mem_append] at hitem
  rcases hitem with (hdetails | hothers) | hname
  · exact hsendable item (List.mem_append_left _ hdetails)
  · exact hsendableOther item (List.mem_append_left _ hothers)
  · exact hsendable item (List.mem_append_right _ hname)

/--
A request consists of its properties, block after block. The text in front of them varies with the
order of the namespaces alone, and the text behind them with the name alone. An element that carries
a text holds nothing else. Two lists that are accepted make up a third one, with the properties of
the first in front, and each of the three requests may have the namespaces in an order of its own.
-/
theorem request_composed_of_properties :
    (∀ order message details text, message.details = some details → details ≠ [] →
        encode order message = .ok text →
          HasSection order message.name text (details.flatMap block)) ∧
      (∀ detail, ∀ leaf ∈ leaves detail, leaf.text ≠ "" →
        leafStart ++ (leaf.startTag ++ escapeText leaf.text ++ leaf.endTag) <:+: block detail) ∧
      (∀ name ≠ "", ending (some name) =
        nameStart ++ ("<name>".toList ++ escapeText name ++ "</name>".toList) ++ afterName) ∧
      ∀ order order' order'' first second details others text other,
        first.details = some details → details ≠ [] → encode order first = .ok text →
        second.details = some others → others ≠ [] → encode order' second = .ok other →
          ∃ whole, encode order'' { first with details := some (details ++ others) } = .ok whole ∧
            ∀ properties otherProperties, HasSection order first.name text properties →
              HasSection order' second.name other otherProperties →
                HasSection order'' first.name whole (properties ++ otherProperties) := by
  refine ⟨fun _ _ _ _ => hasSection_of_encode, fun _ _ => infix_block, fun _ => ending_some, ?_⟩
  intro order order' order'' first second details others text other hfirst hdetails hencode hsecond
    hothers hother
  obtain ⟨whole, hwhole⟩ := exists_encode_append hfirst hsecond ⟨order, text, hencode⟩
    ⟨order', other, hother⟩ order''
  have hwholeSection : HasSection order'' first.name whole ((details ++ others).flatMap block) :=
    @hasSection_of_encode order'' { first with details := some (details ++ others) } _ _ rfl
      (List.append_ne_nil_of_left_ne_nil hdetails others) hwhole
  refine ⟨whole, hwhole, fun properties otherProperties hproperties hotherProperties => ?_⟩
  -- A request has one section only, so what is given as the section of a list are its blocks.
  rw [hproperties.unique (hasSection_of_encode hfirst hdetails hencode),
    hotherProperties.unique (hasSection_of_encode hsecond hothers hother), ← List.flatMap_append]
  exact hwholeSection

/-- A value that looks like markup on a line of its own, under an empty id. -/
def markupDetail : Detail where
  id := some ""
  index := 1
  value := some (.text "\n  <id>")

/-- Nothing but an index. -/
def bareDetail : Detail where
  id := none
  index := -1
  value := none

def messageOf (detail : Detail) : Message where
  name := some "a "
  details := some [detail]

/-- An order that is not the alphabetical one. -/
def reversedOrder : DeclarationOrder where
  attributes := declarations.reverse
  perm := declarations.reverse_perm

theorem request_composed_of_markup_and_bare :
    ∃ whole,
      encode reversedOrder
            { messageOf markupDetail with details := some [markupDetail, bareDetail] } =
          .ok whole ∧
        HasSection reversedOrder (some "a ") whole (block markupDetail ++ block bareDetail) ∧
        leafStart ++ "<value xsi:type=\"xsd:string\">\n  &lt;id&gt;</value>".toList <:+:
          block markupDetail := by
  obtain ⟨hsection, hinfix, -, happend⟩ := request_composed_of_properties
  have hmarkup : encode .alphabetical (messageOf markupDetail) =
      .ok (requestTree .alphabetical (messageOf markupDetail)).document :=
    (encode_eq_ok_iff_isCarried _ _ _).mpr ⟨by decide, rfl⟩
  have hbare : encode reversedOrder (messageOf bareDetail) =
      .ok (requestTree reversedOrder (messageOf bareDetail)).document :=
    (encode_eq_ok_iff_isCarried _ _ _).mpr ⟨by decide, rfl⟩
  obtain ⟨whole, hwhole, hsections⟩ := happend _ _ reversedOrder _ _ _ _ _ _ rfl
    (List.cons_ne_nil _ []) hmarkup rfl (List.cons_ne_nil _ []) hbare
  have hfirst := hsection _ _ _ _ rfl (List.cons_ne_nil _ []) hmarkup
  have hsecond := hsection _ _ _ _ rfl (List.cons_ne_nil _ []) hbare
  rw [List.flatMap_singleton] at hfirst hsecond
  have hvalue := hinfix markupDetail (.value markupDetail.value) (by simp [leaves]) (by decide)
  have hprinted : (Leaf.value markupDetail.value).startTag ++
      escapeText (Leaf.value markupDetail.value).text ++ (Leaf.value markupDetail.value).endTag =
        "<value xsi:type=\"xsd:string\">\n  &lt;id&gt;</value>".toList := by
    decide +kernel
  rw [hprinted] at hvalue
  exact ⟨whole, hwhole, hsections _ _ hfirst hsecond, hvalue⟩

end PanelRelay.Envelope
