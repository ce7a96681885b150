import PanelRelay.Proofs.Envelope.Details
import PanelRelay.Proofs.Envelope.Places
import PanelRelay.Proofs.Xml.Pieces

/-!
Texts of a reply that are written in pieces. Where a text stands in the message is told by the frames
around its element; what the message says there is the text of the pieces, joined.
-/

namespace PanelRelay

namespace Event

def Detail.putId (text : String) (detail : Detail) : Detail :=
  { detail with id := some text }

def Detail.putValue (text : String) (detail : Detail) : Detail :=
  { detail with value := some (.text text) }

namespace Message

/-- The message with another text in that place; a place that it has not got is left out. -/
def putText (place : TextPlace) (text : String) (message : Message) : Message :=
  match place with
  | .name => { message with name := some text }
  | .id position =>
      { message with details := message.details.map (·.modify position (Detail.putId text)) }
  | .value position =>
      { message with details := message.details.map (·.modify position (Detail.putValue text)) }

end Message

end Event

namespace Xml

def Frame.elements (frame : Frame) : List Element :=
  frame.nodes.filterMap Node.element?

/-- No element of that name has been read so far. -/
def Frame.Lacks (frame : Frame) (name : String) : Prop :=
  ∀ earlier ∈ frame.elements, earlier.name ≠ name

namespace Layer

variable {layer : Layer} {element : Element} {name : String}

theorem elements_frame (layer : Layer) :
    layer.frame.elements = (layer.before.filterMap Node.element?).reverse :=
  List.filterMap_reverse

theorem elements_around (layer : Layer) (element : Element) :
    (layer.around element).elements = layer.before.filterMap Node.element? ++
      element :: layer.after.filterMap Node.element? :=
  Element.elements_insert layer.tag layer.before layer.after element.node

/-- An element is found by its name if it is the first one called so. -/
theorem child?_around (hname : element.name = name) (hfirst : layer.frame.Lacks name) :
    (layer.around element).child? name = some element := by
  have hearlier : (layer.before.filterMap Node.element?).find? (fun child => child.name = name) =
      none := by
    rw [List.find?_eq_none]
    intro earlier hmem
    have hlacks := hfirst earlier (by rw [elements_frame]; exact List.mem_reverse.mpr hmem)
    simpa using hlacks
  rw [Element.child?, elements_around, List.find?_append, hearlier, Option.none_or,
    List.find?_cons_of_pos (by simpa using hname)]

theorem child?_around_eq_of_ne {other : Element} (hname : element.name ≠ name)
    (hother : other.name ≠ name) :
    (layer.around element).child? name = (layer.around other).child? name := by
  have hpassed : ∀ inner : Element, inner.name ≠ name → (layer.around inner).child? name =
      Element.child? { tag := layer.tag, children := layer.before ++ layer.after } name := by
    intro inner hinner
    refine Element.child?_insert (fun found hfound hcalled => ?_) layer.tag
    obtain rfl := Option.some.inj hfound
    exact absurd hcalled hinner
  rw [hpassed element hname, hpassed other hother]

end Layer

end Xml

namespace Envelope

open Event (Detail Message TextPlace)
open Xml (Element Frame Layer Node Tag enclose)

/-- The frames of a reply in which its result is being read, the innermost first. -/
inductive FindsResult : List Frame → Prop
  | intro {result response body envelope : Frame} (henvelope : envelope.tag.name.base = "Envelope")
      (hbody : body.tag.name.base = "Body") (hfirstBody : envelope.Lacks "Body")
      (hresponse : response.tag.name.base = responseName) (hfirst : body.elements = [])
      (hresult : result.tag.name.base = resultName) (hfirstResult : response.Lacks resultName) :
      FindsResult [result, response, body, envelope]

/-- The frames in which a property is being read, with the number of properties before it. -/
inductive FindsProperty : List Frame → Nat → Prop
  | intro {property properties result : Frame} {frames : List Frame}
      (hresult : FindsResult (result :: frames))
      (hproperties : properties.tag.name.base = "Properties")
      (hfirst : result.Lacks "Properties") (hnil : properties.tag.value? "nil" ≠ some "true")
      (hproperty : property.tag.name.base = propertyName) :
      FindsProperty (property :: properties :: result :: frames)
        (properties.elements.countP fun earlier => earlier.name = propertyName)

/-- The place in the message of the text that an element with the tag holds, within the frames. -/
inductive ShowsText (tag : Tag) : List Frame → TextPlace → Prop
  | name {result : Frame} {frames : List Frame} (hresult : FindsResult (result :: frames))
      (hname : tag.name.base = "name") (hfirst : result.Lacks "name") :
      ShowsText tag (result :: frames) .name
  | id {property : Frame} {frames : List Frame} {position : Nat}
      (hproperty : FindsProperty (property :: frames) position)
      (hname : tag.name.base = "id") (hfirst : property.Lacks "id") :
      ShowsText tag (property :: frames) (.id position)
  | value {property : Frame} {frames : List Frame} {position : Nat}
      (hproperty : FindsProperty (property :: frames) position)
      (hname : tag.name.base = "value") (hfirst : property.Lacks "value")
      (htype : ∀ type ∈ tag.value? "type", Xml.afterColon type = "string") :
      ShowsText tag (property :: frames) (.value position)

theorem FindsResult.exists_layer {layers : List Layer} (h : FindsResult (layers.map Layer.frame)) :
    ∃ layer rest, layers = layer :: rest ∧ ∀ element : Element,
      decodeEnvelope (enclose layers element) = decodeMessage (layer.around element) := by
  generalize hframes : layers.map Layer.frame = frames at h
  obtain ⟨henvelope, hbody, hfirstBody, hresponse, hfirst, hresult, hfirstResult⟩ := h
  obtain ⟨result, _, rfl, rfl, hrest⟩ := List.map_eq_cons_iff.mp hframes
  obtain ⟨response, _, rfl, rfl, hinner⟩ := List.map_eq_cons_iff.mp hrest
  obtain ⟨body, _, rfl, rfl, hroot⟩ := List.map_eq_cons_iff.mp hinner
  obtain ⟨envelope, _, rfl, rfl, hnone⟩ := List.map_eq_cons_iff.mp hroot
  obtain rfl := List.map_eq_nil_iff.mp hnone
  refine ⟨result, [response, body, envelope], rfl, fun element => ?_⟩
  have hresultFound : (response.around (result.around element)).child? resultName =
      some (result.around element) := Layer.child?_around hresult hfirstResult
  have hnone : body.before.filterMap Node.element? = [] := by
    rw [← List.reverse_eq_nil_iff, ← Layer.elements_frame, hfirst]
  have hbodyElements := Layer.elements_around body (response.around (result.around element))
  rw [hnone, List.nil_append] at hbodyElements
  have hbodyFound : (envelope.around (body.around (response.around (result.around element)))).child?
      "Body" = some (body.around (response.around (result.around element))) :=
    Layer.child?_around hbody hfirstBody
  have hroot : (envelope.around (body.around (response.around (result.around element)))).name =
      "Envelope" := henvelope
  have hcontent : (response.around (result.around element)).name = responseName := hresponse
  simp only [enclose, List.foldl_cons, List.foldl_nil]
  rw [decodeEnvelope, if_pos hroot, hbodyFound]
  simp only [hbodyElements]
  rw [decodeContent, hcontent, if_neg (by decide), if_pos rfl, hresultFound]

section Properties

variable {layer : Layer} {left right : Element}

theorem decodeOptionalDetails_around_eq (hleft : left.name ≠ "Properties")
    (hright : right.name ≠ "Properties") :
    decodeOptionalDetails (layer.around right) = decodeOptionalDetails (layer.around left) := by
  rw [decodeOptionalDetails, decodeOptionalDetails, Layer.child?_around_eq_of_ne hright hleft]

/-- The name of a message is the text of the element, whatever else the result holds. -/
theorem decodeMessage_around_name (hname : left.name = "name") (hsame : right.name = "name")
    (hfirst : layer.frame.Lacks "name") (hnil : isNil right = false) :
    decodeMessage (layer.around right) =
      (decodeMessage (layer.around left)).map (Message.putText .name right.text) := by
  have hfound := Layer.child?_around hsame hfirst
  have hdetails : decodeOptionalDetails (layer.around right) =
      decodeOptionalDetails (layer.around left) :=
    decodeOptionalDetails_around_eq (by rw [hname]; decide) (by rw [hsame]; decide)
  have htext : (some right).bind nillable? = some right.text := by
    rw [Option.bind_some, nillable?, if_neg (by rw [hnil]; exact Bool.false_ne_true)]
  rw [decodeMessage, decodeMessage, hdetails, hfound, htext]
  cases decodeOptionalDetails (layer.around left) <;> rfl

theorem decodeIndex_around_eq (hleft : left.name ≠ "index") (hright : right.name ≠ "index") :
    decodeIndex (layer.around right) = decodeIndex (layer.around left) := by
  rw [decodeIndex, decodeIndex, Layer.child?_around_eq_of_ne hright hleft]

theorem decodeDetail_around_id (hname : left.name = "id") (hsame : right.name = "id")
    (hfirst : layer.frame.Lacks "id") (hnil : isNil right = false) :
    decodeDetail (layer.around right) =
      (decodeDetail (layer.around left)).map (Detail.putId right.text) := by
  have hfound := Layer.child?_around hsame hfirst
  have hindex : decodeIndex (layer.around right) = decodeIndex (layer.around left) :=
    decodeIndex_around_eq (by rw [hname]; decide) (by rw [hsame]; decide)
  have hvalue : decodeOptionalValue (layer.around right) =
      decodeOptionalValue (layer.around left) := by
    rw [decodeOptionalValue, decodeOptionalValue,
      Layer.child?_around_eq_of_ne (by rw [hsame]; decide) (by rw [hname]; decide)]
  have htext : (some right).bind nillable? = some right.text := by
    rw [Option.bind_some, nillable?, if_neg (by rw [hnil]; exact Bool.false_ne_true)]
  rw [decodeDetail, decodeDetail, hindex, hvalue, hfound, htext]
  cases decodeIndex (layer.around left) with
  | error error => rfl
  | ok index => cases decodeOptionalValue (layer.around left) <;> rfl

theorem decodeValue_of_string (htype : ∀ type ∈ right.tag.value? "type",
    Xml.afterColon type = "string") : decodeValue right = .ok (.text right.text) := by
  rw [decodeValue]
  cases hfound : right.tag.value? "type" with
  | none => rfl
  | some type =>
      have hstring := htype type hfound
      simp only [Option.map_some, hstring, if_true]

theorem decodeDetail_around_value (hname : left.name = "value") (hsame : right.name = "value")
    (hfirst : layer.frame.Lacks "value") (hleftNil : isNil left = false)
    (hnil : isNil right = false)
    (hleft : decodeValue left = .ok (.text left.text))
    (hright : decodeValue right = .ok (.text right.text)) :
    decodeDetail (layer.around right) =
      (decodeDetail (layer.around left)).map (Detail.putValue right.text) := by
  have hindex : decodeIndex (layer.around right) = decodeIndex (layer.around left) :=
    decodeIndex_around_eq (by rw [hname]; decide) (by rw [hsame]; decide)
  have hid : (layer.around right).child? "id" = (layer.around left).child? "id" :=
    Layer.child?_around_eq_of_ne (by rw [hsame]; decide) (by rw [hname]; decide)
  have hvalue : ∀ element : Element, element.name = "value" → isNil element = false →
      decodeValue element = .ok (.text element.text) →
        decodeOptionalValue (layer.around element) = .ok (some (.text element.text)) := by
    intro element hcalled hnotNil hread
    rw [decodeOptionalValue, Layer.child?_around hcalled hfirst]
    simp only [hnotNil, Bool.false_eq_true, if_false, hread]
    rfl
  rw [decodeDetail, decodeDetail, hindex, hid, hvalue right hsame hnil hright,
    hvalue left hname hleftNil hleft]
  cases decodeIndex (layer.around left) <;> rfl

end Properties

/-- The message with the detail in that position changed. -/
def changeDetail (position : Nat) (change : Detail → Detail) (message : Message) : Message :=
  { message with details := message.details.map (·.modify position change) }

/-- The properties among the nodes of a list. -/
def listedIn (nodes : List Node) : List Element :=
  (nodes.filterMap Node.element?).filter fun child => child.name = propertyName

theorem listed_around (layer : Layer) {property : Element} (h : property.name = propertyName) :
    listed (layer.around property) = listedIn layer.before ++ property :: listedIn layer.after := by
  rw [listed, Layer.elements_around, List.filter_append, List.filter_cons_of_pos (by simpa using h)]
  rfl

theorem countP_elements_frame (layer : Layer) :
    layer.frame.elements.countP (fun earlier => earlier.name = propertyName) =
      (listedIn layer.before).length := by
  rw [Layer.elements_frame, List.countP_reverse, List.countP_eq_length_filter, listedIn]

section List

variable {result list : Layer} (hname : list.tag.name.base = "Properties")
  (hfirst : result.frame.Lacks "Properties") (hnil : list.tag.value? "nil" ≠ some "true")

include hname hfirst hnil

theorem decodeMessage_around_list {property : Element} (hproperty : property.name = propertyName) :
    decodeMessage (result.around (list.around property)) =
      ((listedIn list.before ++ property :: listedIn list.after).mapM decodeDetail).map
        fun details =>
          { name := ((result.around (list.around property)).child? "name").bind nillable?
            details := some details } := by
  have hfound : (result.around (list.around property)).child? "Properties" =
      some (list.around property) := Layer.child?_around hname hfirst
  have hshown : isNil (list.around property) = false := decide_eq_false hnil
  rw [decodeMessage_of_list hfound hshown, listed_around list hproperty]

theorem decodeMessage_around_property {left right : Element} {change : Detail → Detail}
    (hleft : left.name = propertyName) (hright : right.name = propertyName)
    (hread : decodeDetail right = (decodeDetail left).map change) :
    decodeMessage (result.around (list.around right)) =
      (decodeMessage (result.around (list.around left))).map
        (changeDetail (listedIn list.before).length change) := by
  have hcalled : ∀ property : Element, (list.around property).name ≠ "name" := by
    intro property hcalled
    have hboth : "Properties" = "name" := hname.symm.trans hcalled
    exact absurd hboth (by decide)
  have hsame : (result.around (list.around right)).child? "name" =
      (result.around (list.around left)).child? "name" :=
    Layer.child?_around_eq_of_ne (hcalled right) (hcalled left)
  rw [decodeMessage_around_list hname hfirst hnil hright,
    decodeMessage_around_list hname hfirst hnil hleft, mapM_insert_map hread, hsame]
  cases (listedIn list.before ++ left :: listedIn list.after).mapM decodeDetail <;> rfl

theorem detail?_of_decodeMessage_around {property : Element}
    (hproperty : property.name = propertyName) {message : Message}
    (h : decodeMessage (result.around (list.around property)) = .ok message) :
    ∃ detail, message.detail? (listedIn list.before).length = some detail ∧
      decodeDetail property = .ok detail := by
  rw [decodeMessage_around_list hname hfirst hnil hproperty] at h
  obtain ⟨details, hdetails, rfl⟩ := eq_ok_of_map_eq_ok h
  exact getElem?_of_mapM_insert hdetails

end List

/-- What is read of a property is what the message says in its position. -/
theorem FindsProperty.exists_layer {layers : List Layer} {position : Nat}
    (h : FindsProperty (layers.map Layer.frame) position) :
    ∃ layer rest, layers = layer :: rest ∧
      (∀ left right change,
        decodeDetail (layer.around right) = (decodeDetail (layer.around left)).map change →
          decodeEnvelope (enclose layers right) =
            (decodeEnvelope (enclose layers left)).map (changeDetail position change)) ∧
      ∀ element message, decodeEnvelope (enclose layers element) = .ok message →
        ∃ detail, message.detail? position = some detail ∧
          decodeDetail (layer.around element) = .ok detail := by
  generalize hframes : layers.map Layer.frame = frames at h
  obtain ⟨hresult, hproperties, hfirst, hnil, hproperty⟩ := h
  obtain ⟨property, _, rfl, rfl, hrest⟩ := List.map_eq_cons_iff.mp hframes
  obtain ⟨list, outer, rfl, rfl, hinner⟩ := List.map_eq_cons_iff.mp hrest
  rw [← hinner] at hresult
  obtain ⟨result, rest, rfl, hdecode⟩ := hresult.exists_layer
  obtain ⟨hframe, -⟩ := List.cons.inj hinner
  rw [← hframe] at hfirst
  have hread : ∀ element, decodeEnvelope (enclose (property :: list :: result :: rest) element) =
      decodeMessage (result.around (list.around (property.around element))) :=
    fun element => hdecode (list.around (property.around element))
  refine ⟨property, list :: result :: rest, rfl, ?_, ?_⟩
  · intro left right change hchange
    rw [hread, hread, countP_elements_frame]
    exact decodeMessage_around_property hproperties hfirst hnil hproperty hproperty hchange
  · intro element message hmessage
    rw [hread] at hmessage
    rw [countP_elements_frame]
    have hcalled : (property.around element).name = propertyName := hproperty
    exact detail?_of_decodeMessage_around hproperties hfirst hnil hcalled hmessage

section Text

variable {tag : Tag} {place : TextPlace} {layers : List Layer}
  (h : ShowsText tag (layers.map Layer.frame) place) (hnil : tag.value? "nil" ≠ some "true")

include h hnil

/-- One text instead of another changes the message in that place, and an error not at all. -/
theorem ShowsText.decodeEnvelope_enclose (left right : List Node) :
    decodeEnvelope (enclose layers { tag, children := right }) =
      (decodeEnvelope (enclose layers { tag, children := left })).map
        (Message.putText place (Element.text { tag, children := right })) := by
  have hshown : ∀ children, isNil { tag, children } = false := fun _ => decide_eq_false hnil
  generalize hframes : layers.map Layer.frame = frames at h
  cases h with
  | name hresult hname hfirst =>
      rw [← hframes] at hresult
      obtain ⟨result, rest, rfl, hdecode⟩ := hresult.exists_layer
      obtain ⟨rfl, -⟩ := List.cons.inj hframes
      rw [hdecode, hdecode]
      exact decodeMessage_around_name hname hname hfirst (hshown right)
  | id hproperty hname hfirst =>
      rw [← hframes] at hproperty
      obtain ⟨property, rest, rfl, hchange, -⟩ := hproperty.exists_layer
      obtain ⟨rfl, -⟩ := List.cons.inj hframes
      exact hchange _ _ _ (decodeDetail_around_id hname hname hfirst (hshown right))
  | value hproperty hname hfirst htype =>
      rw [← hframes] at hproperty
      obtain ⟨property, rest, rfl, hchange, -⟩ := hproperty.exists_layer
      obtain ⟨rfl, -⟩ := List.cons.inj hframes
      exact hchange _ _ _ (decodeDetail_around_value hname hname hfirst (hshown left) (hshown right)
        (decodeValue_of_string htype) (decodeValue_of_string htype))

/-- A message that is decoded has the text in that place. -/
theorem ShowsText.textAt?_eq {children : List Node} {message : Message}
    (hmessage : decodeEnvelope (enclose layers { tag, children }) = .ok message) :
    message.textAt? place = some (Element.text { tag, children }) := by
  have hshown : isNil { tag, children } = false := decide_eq_false hnil
  generalize hframes : layers.map Layer.frame = frames at h
  cases h with
  | name hresult hname hfirst =>
      rw [← hframes] at hresult
      obtain ⟨result, rest, rfl, hdecode⟩ := hresult.exists_layer
      obtain ⟨rfl, -⟩ := List.cons.inj hframes
      have hcalled : Element.name { tag, children } = "name" := hname
      have hput := decodeMessage_around_name hcalled hcalled hfirst hshown
      rw [← hdecode, hmessage] at hput
      rw [Except.ok.inj hput]
      rfl
  | id hproperty hname hfirst =>
      rw [← hframes] at hproperty
      obtain ⟨property, rest, rfl, -, hplaces⟩ := hproperty.exists_layer
      obtain ⟨rfl, -⟩ := List.cons.inj hframes
      obtain ⟨detail, hdetail, hread⟩ := hplaces _ _ hmessage
      have hcalled : Element.name { tag, children } = "id" := hname
      have hput := decodeDetail_around_id hcalled hcalled hfirst hshown
      rw [hread] at hput
      rw [Message.textAt?, hdetail, Except.ok.inj hput]
      rfl
  | value hproperty hname hfirst htype =>
      rw [← hframes] at hproperty
      obtain ⟨property, rest, rfl, -, hplaces⟩ := hproperty.exists_layer
      obtain ⟨rfl, -⟩ := List.cons.inj hframes
      obtain ⟨detail, hdetail, hread⟩ := hplaces _ _ hmessage
      have hcalled : Element.name { tag, children } = "value" := hname
      have hstring : decodeValue { tag, children } = .ok (.text (Element.text { tag, children })) :=
        decodeValue_of_string htype
      have hput := decodeDetail_around_value hcalled hcalled hfirst hshown hshown hstring hstring
      rw [hread] at hput
      rw [Message.textAt?, hdetail, Except.ok.inj hput]
      rfl

end Text

open Xml (ArePieces IsEndTag Opens Token declared? joined)

/--
The text of a name, an id or a string is that of its pieces: of all character data, and of the runs
that are no layout. How it is written decides nothing else: neither whether the reply is accepted nor
what it says in another place. Where no run is blank, nothing at all is dropped.
-/
theorem decode_of_pieces {declaration : Xml.Declaration} {front content closing back : List Char}
    {tag : Tag} {outer : List Frame} {place : TextPlace} {pieces : List Node} {octets : List UInt8}
    (hopens : Opens declaration.version front tag outer) (hplace : ShowsText tag outer place)
    (hnil : tag.value? "nil" ≠ some "true") (hclosing : IsEndTag tag.name closing)
    (hpieces : ArePieces declaration.version content pieces)
    (hdeclared : declared? octets = some (declaration, front ++ (content ++ closing) ++ back)) :
    (∀ message, decode octets = .ok message → message.textAt? place = some (joined pieces)) ∧
      (∀ declaration' content' pieces' octets', declaration'.version = declaration.version →
        ArePieces declaration.version content' pieces' →
          declared? octets' = some (declaration', front ++ (content' ++ closing) ++ back) →
            decode octets' = (decode octets).map (Message.putText place (joined pieces'))) ∧
      ((∀ node ∈ pieces, node.isLayout = false) →
        joined pieces = String.ofList (pieces.flatMap Node.ownText)) := by
  refine ⟨?_, ?_, ?_⟩
  · intro message hmessage
    have hparse := hopens.rel_parse? hclosing hpieces hpieces hdeclared hdeclared rfl
    rw [decode] at hmessage
    cases hroot : Element.parse? octets with
    | none =>
        rw [hroot] at hmessage
        cases hmessage
    | some root =>
        rw [hroot] at hmessage hparse
        obtain ⟨root', -, layers, rfl, rfl, -⟩ := Xml.exists_of_rel_some hparse
        exact hplace.textAt?_eq hnil hmessage
  · intro declaration' content' pieces' octets' hversion hpieces' hdeclared'
    have hparse := hopens.rel_parse? hclosing hpieces hpieces' hdeclared hdeclared' hversion
    rw [decode, decode]
    cases hroot : Element.parse? octets with
    | none =>
        rw [hroot] at hparse
        rw [Xml.eq_none_of_rel_none hparse]
        rfl
    | some root =>
        rw [hroot] at hparse
        obtain ⟨root', hroot', layers, rfl, rfl, rfl⟩ := Xml.exists_of_rel_some hparse
        rw [hroot']
        exact hplace.decodeEnvelope_enclose hnil _ _
  · intro hvisible
    rw [joined, Xml.kept_eq_self hvisible]

def startMark (name : String) : List Char :=
  '<' :: ((Xml.Name.plain name).chars ++ Token.tagEnd.chars)

def endMark (name : String) : List Char :=
  Token.endTagStart.chars ++ (Xml.Name.plain name).chars ++ [] ++ Token.tagEnd.chars

def resultFront : List Char :=
  startMark "Envelope" ++ startMark "Body" ++ startMark responseName ++ startMark resultName

/-- The start of a reply that holds a name and nothing else. -/
def nameFront : List Char :=
  resultFront ++ startMark "name"

def nameBack : List Char :=
  endMark resultName ++ endMark responseName ++ endMark "Body" ++ endMark "Envelope"

/-- What is open around the name, the innermost first. -/
def nameFrames : List Frame :=
  [{ tag := { name := .plain resultName } }, { tag := { name := .plain responseName } },
    { tag := { name := .plain "Body" } }, { tag := { name := .plain "Envelope" } }]

/-- A reply whose name is written so. -/
def nameReply (content : List Char) : List Char :=
  nameFront ++ (content ++ endMark "name") ++ nameBack

theorem isValid_replyNames :
    ∀ name ∈ ["Envelope", "Body", responseName, resultName, "name"],
      (Xml.Name.plain name).IsValid := by
  decide +kernel

theorem opens_resultFront (version : Xml.Version) :
    Opens version resultFront { name := .plain resultName } nameFrames.tail := by
  have hroot : Opens version (startMark "Envelope") { name := .plain "Envelope" } [] :=
    Xml.opens_root .nil (Xml.isTag_of_name (isValid_replyNames "Envelope" (by simp)))
  have hbody := hroot.firstChild (isValid_replyNames "Body" (by simp))
  have hresponse := hbody.firstChild (isValid_replyNames responseName (by simp))
  exact hresponse.firstChild (isValid_replyNames resultName (by simp))

theorem opens_nameFront (version : Xml.Version) :
    Opens version nameFront { name := .plain "name" } nameFrames :=
  (opens_resultFront version).firstChild (isValid_replyNames "name" (by simp))

theorem showsText_name : ShowsText { name := .plain "name" } nameFrames .name :=
  .name (.intro rfl rfl nofun rfl rfl rfl nofun) rfl nofun

theorem isEndTag_name : IsEndTag (.plain "name") (endMark "name") :=
  .intro (isValid_replyNames "name" (by simp)) nofun

/-- Two runs with a reference each, character data, two remarks, and a blank between these. -/
def mixedContent : List Char :=
  ['a', '&', 'a', 'm', 'p', ';'] ++
    (Token.cdataStart.chars ++ ['<', 'b', '>'] ++ Token.cdataEnd.chars ++
      (Token.commentStart.chars ++ ['c'] ++ Token.commentEnd.chars ++
        ([' '] ++ (Token.instructionStart.chars ++ ['d'] ++ ' ' :: ['e'] ++
          Token.instructionEnd.chars ++ (['&', '#', 'x', '6', '6', ';'] ++ [])))))

def mixedPieces : List Node :=
  [.text "a&", .cdata "<b>", .comment "c", .text " ", .instruction "d" (some "e"), .text "f"]

theorem arePieces_mixedContent : ArePieces .v10 mixedContent mixedPieces := by
  have hname : Xml.Reference.ofText? .v10 ['a', 'm', 'p'] = some (.char '&') := by decide
  have hcode : Xml.Reference.ofText? .v10 ['#', 'x', '6', '6'] = some (.char 'f') := by decide
  have hampersand : Xml.IsRun .v10 ['a', '&', 'a', 'm', 'p', ';'] ['a', '&'] :=
    ⟨.literal (by decide) (by decide) (.reference hname .nil), by decide⟩
  have hletter : Xml.IsRun .v10 ['&', '#', 'x', '6', '6', ';'] ['f'] :=
    ⟨.reference hcode .nil, by decide⟩
  have hblank : Xml.IsRun .v10 [' '] [' '] := ⟨.literal (by decide) (by decide) .nil, by decide⟩
  have htarget : Xml.IsTarget ['d'] := ⟨rfl, List.forall_mem_singleton.mpr rfl, rfl⟩
  have hdata : Xml.IsMarkup .v10 _ (.cdata (String.ofList ['<', 'b', '>'])) :=
    .cdata (List.all_eq_true.mp rfl) (by decide)
  have hremark : Xml.IsMarkup .v10 _ (.comment (String.ofList ['c'])) :=
    .comment (List.forall_mem_singleton.mpr rfl) (by decide)
  have hinstruction : Xml.IsMarkup .v10 (Token.instructionStart.chars ++ ['d'] ++ ' ' :: ['e'] ++
      Token.instructionEnd.chars) (.instruction (String.ofList ['d']) _) :=
    .instruction htarget rfl (List.forall_mem_singleton.mpr rfl) (by decide)
  have hbehind : ArePieces .v10 _ [.text " ", .instruction "d" (some "e"), .text "f"] :=
    .cons (.run hblank (by decide)) (.cons (.markup hinstruction rfl)
      (.cons (.run hletter (by decide)) .nil (by decide)) (by decide)) (by decide)
  exact .cons (.run hampersand (by decide)) (.cons (.markup hdata rfl)
    (.cons (.markup hremark rfl) hbehind (by decide)) (by decide)) (by decide)

theorem decode_mixedContent :
    decode (Utf8.encode (String.ofList (nameReply mixedContent))) =
      .ok { name := some "a&<b>f" } := by
  have hdeclared : ∀ content ∈ [[], mixedContent],
      declared? (Utf8.encode (String.ofList (nameReply content))) =
        some ({}, nameReply content) := by
    intro content hcontent
    apply Xml.declared?_encode
    · revert content
      decide +kernel
    · revert content
      decide +kernel
  have hempty : decode (Utf8.encode (String.ofList (nameReply []))) = .ok { name := some "" } := by
    have hroot : Element.parse? (Utf8.encode (String.ofList (nameReply []))) =
        some (enclose (nameFrames.map fun frame => { tag := frame.tag, before := [], after := [] })
          { tag := { name := .plain "name" }, children := [] }) :=
      Xml.parse?_of_plainRoot? (by decide +kernel) (by decide +kernel) (by decide +kernel)
    rw [decode, hroot]
    rfl
  obtain ⟨-, hpieces, -⟩ := decode_of_pieces (opens_nameFront .v10) showsText_name (by decide)
    isEndTag_name .nil (hdeclared [] (by simp))
  rw [hpieces {} mixedContent mixedPieces _ rfl arePieces_mixedContent
    (hdeclared mixedContent (by simp)), hempty]
  rfl

/-- Character data, and a blank right behind it. -/
def trailingContent : List Char :=
  Token.cdataStart.chars ++ ['x'] ++ Token.cdataEnd.chars ++ ([' '] ++ [])

def trailingPieces : List Node :=
  [.cdata "x", .text " "]

/-- Not every run of blanks is dropped: one of them comes back behind the character data. -/
theorem blank_behind_cdata_is_kept :
    ArePieces .v10 trailingContent trailingPieces ∧
      decode (Utf8.encode (String.ofList (nameReply trailingContent))) =
        .ok { name := some "x " } ∧
      String.ofList ((Xml.withoutLayout trailingPieces).flatMap Node.ownText) = "x" := by
  have hblank : Xml.IsRun .v10 [' '] [' '] := ⟨.literal (by decide) (by decide) .nil, by decide⟩
  have hdata : Xml.IsMarkup .v10 _ (.cdata (String.ofList ['x'])) :=
    .cdata (List.forall_mem_singleton.mpr rfl) (by decide)
  have hbehind : ArePieces .v10 _ [.text " "] := .cons (.run hblank (by decide)) .nil (by decide)
  refine ⟨.cons (.markup hdata rfl) hbehind (by decide), ?_, ?_⟩
  · have hroot : Element.parse? (Utf8.encode (String.ofList (nameReply trailingContent))) =
        some (enclose (nameFrames.map fun frame => { tag := frame.tag, before := [], after := [] })
          { tag := { name := .plain "name" }, children := trailingPieces }) :=
      Xml.parse?_of_plainRoot? (by decide +kernel) (by decide +kernel) (by decide +kernel)
    rw [decode, hroot]
    rfl
  · decide

end Envelope

end PanelRelay
