import Mathlib.Logic.Relation
import PanelRelay.Envelope.Reply
import PanelRelay.Proofs.Xml.Lookup
import PanelRelay.Proofs.Xml.Plain

/-!
Edits that a reply does not show. Every element that is looked for has a role, and its role tells
which of its children are looked for in turn; whatever else is put in or taken out goes unnoticed.
-/

namespace PanelRelay.Envelope

open Event (Detail Message)
open Xml (Attribute Element Name Node Tag bareElement tagged)

/-- What an element is to the reader of a reply; the texts are read off leaves. -/
inductive Role where
  | envelope
  | body
  | fault
  | response
  | unexpected
  | result
  | properties
  | property
  | leaf
  deriving DecidableEq

namespace Role

/-- The role of a child of that name, if such a child is looked for. -/
def below? : Role → String → Option Role
  | .envelope, name => if name = "Body" then some .body else none
  | .body, name =>
      if name = faultName then some .fault
      else if name = responseName then some .response
      else some .unexpected
  | .fault, name => if name = "faultcode" ∨ name = "faultstring" then some .leaf else none
  | .response, name => if name = resultName then some .result else none
  | .unexpected, _ => none
  | .result, name =>
      if name = "Properties" then some .properties
      else if name = "name" then some .leaf
      else none
  | .properties, name => if name = propertyName then some .property else none
  | .property, name =>
      if name = "id" ∨ name = "index" ∨ name = "value" then some .leaf else none
  | .leaf, _ => none

/-- Whether a child of that name comes too late to be looked at behind other elements. -/
def IsServed : Role → List Element → String → Prop
  | .body, earlier, _ => earlier ≠ []
  | .properties, _, _ => False
  | _, earlier, name => ∃ element ∈ earlier, element.name = name

/-- All that is read off an element in its role. -/
abbrev Reading : Role → Type
  | .envelope => Except Error Message
  | .body => Option (Except Error Message)
  | .fault => Error
  | .response => Option (Except Error Message)
  | .unexpected => Unit
  | .result => Except Error Message
  | .properties => Except Error (Option (List Detail))
  | .property => Except Error Detail
  | .leaf => Bool × Option String × String

def read : (role : Role) → Element → role.Reading
  | .envelope, element => decodeEnvelope element
  | .body, element => element.elements.head?.map decodeContent
  | .fault, element => faultOf element
  | .response, element => (element.child? resultName).map decodeMessage
  | .unexpected, _ => ()
  | .result, element => decodeMessage element
  | .properties, element =>
      if isNil element then .ok none else (decodeDetails element).map some
  | .property, element => decodeDetail element
  | .leaf, element => (isNil element, element.tag.value? "type", element.text)

end Role

/-- A node behind `front` that is passed over in an element of the role. -/
inductive Ignored : Role → List Node → Node → Prop
  | text {role : Role} {front : List Node} {content : String} :
      role ≠ .leaf → Ignored role front (.text content)
  | cdata {role : Role} {front : List Node} {content : String} :
      role ≠ .leaf → Ignored role front (.cdata content)
  | comment {role : Role} {front : List Node} {content : String} :
      Ignored role front (.comment content)
  | instruction {role : Role} {front : List Node} {target : String} {data : Option String} :
      Ignored role front (.instruction target data)
  | unsought {role : Role} {front : List Node} {element : Element} :
      role.below? element.name = none → Ignored role front element.node
  | surplus {role : Role} {front : List Node} {element : Element} :
      role.IsServed (front.filterMap Node.element?) element.name →
      Ignored role front element.node

/-- An attribute that declares a prefix, or is called neither `nil` nor `type`. -/
def IsIdle (item : Attribute) : Prop :=
  item.declared?.isNone = true →
    Xml.isCalled "nil" item.name.base = false ∧ Xml.isCalled "type" item.name.base = false

/-- One insertion, in an element of the role or somewhere below it. -/
inductive Insertion : Role → Element → Element → Prop
  | node {role : Role} {tag : Tag} {front back : List Node} {node : Node} :
      Ignored role front node →
      Insertion role { tag, children := front ++ back } { tag, children := front ++ node :: back }
  | item {role : Role} {name : Name} {before after : List Attribute} {item : Attribute}
      {children : List Node} :
      IsIdle item →
      Insertion role { tag := { name, attributes := before ++ after }, children }
        { tag := { name, attributes := before ++ item :: after }, children }
  | inside {role inner : Role} {tag : Tag} {front back : List Node} {child edited : Element} :
      role.below? child.name = some inner → Insertion inner child edited →
      Insertion role { tag, children := front ++ child.node :: back }
        { tag, children := front ++ edited.node :: back }

theorem Insertion.name_eq {role : Role} {element edited : Element}
    (h : Insertion role element edited) : edited.name = element.name := by
  cases h <;> rfl

/-- The children that are found by name in an element are read alike in the edited one. -/
def SameChildren (role : Role) (element edited : Element) : Prop :=
  ∀ name inner, role.below? name = some inner →
    (edited.child? name).map inner.read = (element.child? name).map inner.read

theorem cases_of_map_eq {α β : Type} {read : α → β} {left right : Option α}
    (h : left.map read = right.map read) :
    (left = none ∧ right = none) ∨
      ∃ a b, left = some a ∧ right = some b ∧ read a = read b := by
  cases left with
  | none =>
      cases right with
      | none => exact .inl ⟨rfl, rfl⟩
      | some b => cases h
  | some a =>
      cases right with
      | none => cases h
      | some b => exact .inr ⟨a, b, rfl, rfl, Option.some.inj h⟩

section Leaves

variable {name : String} {element edited : Element}
  (h : (edited.child? name).map (Role.read .leaf) = (element.child? name).map (Role.read .leaf))

include h

theorem nillable?_congr :
    (edited.child? name).bind nillable? = (element.child? name).bind nillable? := by
  rcases cases_of_map_eq h with ⟨hedited, helement⟩ | ⟨a, b, hedited, helement, hread⟩
  · rw [hedited, helement]
  · obtain ⟨hnil, hrest⟩ := Prod.mk.inj hread
    obtain ⟨-, htext⟩ := Prod.mk.inj hrest
    rw [hedited, helement, Option.bind_some, Option.bind_some, nillable?, nillable?, hnil, htext]

theorem faultText_congr : faultText edited name = faultText element name := by
  rcases cases_of_map_eq h with ⟨hedited, helement⟩ | ⟨a, b, hedited, helement, hread⟩
  · rw [faultText, faultText, hedited, helement]
  · obtain ⟨-, hrest⟩ := Prod.mk.inj hread
    obtain ⟨-, htext⟩ := Prod.mk.inj hrest
    rw [faultText, faultText, hedited, helement, Option.elim_some, Option.elim_some, htext]

end Leaves

theorem decodeOptionalValue_congr {element edited : Element}
    (h : (edited.child? "value").map (Role.read .leaf) =
      (element.child? "value").map (Role.read .leaf)) :
    decodeOptionalValue edited = decodeOptionalValue element := by
  rcases cases_of_map_eq h with ⟨hedited, helement⟩ | ⟨a, b, hedited, helement, hread⟩
  · rw [decodeOptionalValue, decodeOptionalValue, hedited, helement]
  · obtain ⟨hnil, hrest⟩ := Prod.mk.inj hread
    obtain ⟨htype, htext⟩ := Prod.mk.inj hrest
    have hvalue : decodeValue a = decodeValue b := by
      rw [decodeValue, decodeValue, htype, htext]
    simp only [decodeOptionalValue, hedited, helement, hnil, hvalue]

theorem decodeDetail_congr {element edited : Element} (h : SameChildren .property element edited) :
    decodeDetail edited = decodeDetail element := by
  have hindex : decodeIndex edited = decodeIndex element := by
    rw [decodeIndex, decodeIndex, nillable?_congr (h "index" .leaf rfl)]
  rw [decodeDetail, decodeDetail, hindex, decodeOptionalValue_congr (h "value" .leaf rfl),
    nillable?_congr (h "id" .leaf rfl)]

theorem decodeOptionalDetails_eq (element : Element) :
    decodeOptionalDetails element =
      ((element.child? "Properties").map (Role.read .properties)).getD (.ok none) := by
  rw [decodeOptionalDetails]
  cases element.child? "Properties" <;> rfl

theorem decodeMessage_congr {element edited : Element} (h : SameChildren .result element edited) :
    decodeMessage edited = decodeMessage element := by
  rw [decodeMessage, decodeMessage, decodeOptionalDetails_eq, decodeOptionalDetails_eq,
    h "Properties" .properties rfl, nillable?_congr (h "name" .leaf rfl)]

theorem faultOf_congr {element edited : Element} (h : SameChildren .fault element edited) :
    faultOf edited = faultOf element := by
  rw [faultOf, faultOf, faultText_congr (h "faultcode" .leaf rfl),
    faultText_congr (h "faultstring" .leaf rfl)]

theorem decodeEnvelope_eq (root : Element) :
    decodeEnvelope root =
      if root.name = "Envelope" then
        ((root.child? "Body").map (Role.read .body)).elim (.error .missingBody) fun reading =>
          reading.getD (.error (.missingElement responseName))
      else .error .missingEnvelope := by
  rw [decodeEnvelope]
  cases root.child? "Body" with
  | none => rfl
  | some body =>
      simp only [Option.map_some, Option.elim_some, Role.read]
      cases body.elements <;> rfl

theorem decodeEnvelope_congr {element edited : Element} (hname : edited.name = element.name)
    (h : SameChildren .envelope element edited) :
    decodeEnvelope edited = decodeEnvelope element := by
  rw [decodeEnvelope_eq, decodeEnvelope_eq, hname, h "Body" .body rfl]

/-- The content of a body is read by its name, which tells its role. -/
theorem decodeContent_congr {element edited : Element} {inner : Role}
    (hname : edited.name = element.name) (hrole : Role.below? .body element.name = some inner)
    (hread : inner.read edited = inner.read element) :
    decodeContent edited = decodeContent element := by
  rw [decodeContent, decodeContent, hname]
  rw [Role.below?] at hrole
  split
  next hfault =>
    rw [if_pos hfault] at hrole
    obtain rfl := Option.some.inj hrole
    exact congrArg Except.error hread
  next hfault =>
    rw [if_neg hfault] at hrole
    split
    next hresponse =>
      rw [if_pos hresponse] at hrole
      obtain rfl := Option.some.inj hrole
      rcases cases_of_map_eq hread with ⟨hedited, helement⟩ | ⟨a, b, hedited, helement, hread⟩
      · rw [hedited, helement]
      · rw [hedited, helement]
        exact hread
    next => rfl

/-- Roles that are read by the names of the children, apart from the name of the element. -/
theorem read_congr {role : Role} {element edited : Element} (hname : edited.name = element.name)
    (h : SameChildren role element edited) (hbody : role ≠ .body)
    (hproperties : role ≠ .properties) (hleaf : role ≠ .leaf) :
    role.read edited = role.read element := by
  cases role with
  | envelope => exact decodeEnvelope_congr hname h
  | body => exact absurd rfl hbody
  | fault => exact faultOf_congr h
  | response => exact h resultName .result rfl
  | unexpected => rfl
  | result => exact decodeMessage_congr h
  | properties => exact absurd rfl hproperties
  | property => exact decodeDetail_congr h
  | leaf => exact absurd rfl hleaf

section Node

variable {role : Role} {tag : Tag} {front back : List Node} {node : Node}

theorem Role.exists_of_isServed {earlier : List Element} {name : String} (hbody : role ≠ .body)
    (hserved : role.IsServed earlier name) : ∃ element ∈ earlier, element.name = name := by
  cases role with
  | body => exact absurd rfl hbody
  | properties => exact hserved.elim
  | _ => exact hserved

theorem Ignored.sameChildren (h : Ignored role front node) (hbody : role ≠ .body) :
    SameChildren role { tag, children := front ++ back }
      { tag, children := front ++ node :: back } := by
  intro name inner hbelow
  refine congrArg _ (Element.child?_insert ?_ tag)
  intro element helement hname
  cases h with
  | text _ => cases helement
  | cdata _ => cases helement
  | comment => cases helement
  | instruction => cases helement
  | unsought hunsought =>
      obtain rfl := Option.some.inj helement
      rw [hname, hbelow] at hunsought
      cases hunsought
  | surplus hserved =>
      obtain rfl := Option.some.inj helement
      exact hname ▸ Role.exists_of_isServed hbody hserved

/-- A body shows its first element only, and elements are ignored only behind that one. -/
theorem Ignored.head?_elements (h : Ignored .body front node) :
    (Element.elements { tag, children := front ++ node :: back }).head? =
      (Element.elements { tag, children := front ++ back }).head? := by
  rw [Element.elements_insert, Element.elements_append]
  cases h with
  | text _ => rfl
  | cdata _ => rfl
  | comment => rfl
  | instruction => rfl
  | @unsought element hunsought =>
      simp only [Role.below?] at hunsought
      split at hunsought
      · cases hunsought
      · split at hunsought <;> cases hunsought
  | surplus hserved =>
      obtain ⟨first, rest, hfront⟩ := List.exists_cons_of_ne_nil hserved
      rw [hfront]
      rfl

/-- Every property of a list shows, so that no further one is ignored. -/
theorem Ignored.decodeDetails_eq (h : Ignored .properties front node) :
    decodeDetails { tag, children := front ++ node :: back } =
      decodeDetails { tag, children := front ++ back } := by
  rw [decodeDetails, decodeDetails, Element.elements_insert, Element.elements_append,
    List.filter_append, List.filter_append, List.filter_append]
  cases h with
  | text _ => rfl
  | cdata _ => rfl
  | comment => rfl
  | instruction => rfl
  | @unsought element hunsought =>
      have hname : element.name ≠ propertyName := by
        intro hname
        simp only [Role.below?, if_pos hname, reduceCtorEq] at hunsought
      rw [Element.element?_node, Option.toList_some, List.filter_cons_of_neg (by simpa using hname),
        List.filter_nil, List.nil_append]
  | surplus hserved => exact hserved.elim

theorem Ignored.ownText_eq_nil (h : Ignored .leaf front node) : node.ownText = [] := by
  cases h with
  | text hleaf => exact absurd rfl hleaf
  | cdata hleaf => exact absurd rfl hleaf
  | comment => rfl
  | instruction => rfl
  | unsought _ => rfl
  | surplus _ => rfl

theorem Ignored.read_eq (h : Ignored role front node) :
    role.read { tag, children := front ++ node :: back } =
      role.read { tag, children := front ++ back } := by
  cases role with
  | body => exact congrArg (Option.map decodeContent) h.head?_elements
  | properties =>
      simp only [Role.read, h.decodeDetails_eq]
      rfl
  | leaf =>
      simp only [Role.read, Element.text_insert h.ownText_eq_nil]
      rfl
  | _ => exact read_congr rfl (h.sameChildren nofun) nofun nofun nofun

end Node

section Attribute

variable {name : Name} {before after : List Attribute} {item : Attribute} {children : List Node}

theorem IsIdle.isNil_eq (h : IsIdle item) :
    isNil { tag := { name, attributes := before ++ item :: after }, children } =
      isNil { tag := { name, attributes := before ++ after }, children } := by
  simp only [isNil, Tag.value?_insert fun hdeclared => (h hdeclared).1]

theorem IsIdle.read_eq (h : IsIdle item) (role : Role) :
    role.read { tag := { name, attributes := before ++ item :: after }, children } =
      role.read { tag := { name, attributes := before ++ after }, children } := by
  cases role with
  | body => rfl
  | properties =>
      simp only [Role.read, h.isNil_eq]
      rfl
  | leaf =>
      simp only [Role.read, h.isNil_eq, Tag.value?_insert fun hdeclared => (h hdeclared).2]
      rfl
  | _ => exact read_congr rfl (fun _ _ _ => rfl) nofun nofun nofun

end Attribute

section Inside

variable {role inner : Role} {tag : Tag} {front back : List Node} {child edited : Element}
  (hname : edited.name = child.name) (hrole : role.below? child.name = some inner)
  (hread : inner.read edited = inner.read child)

include hname hrole hread

theorem sameChildren_inside :
    SameChildren role { tag, children := front ++ child.node :: back }
      { tag, children := front ++ edited.node :: back } := by
  intro name other hother
  refine Element.map_child?_replace other.read hname ?_ tag
  rintro rfl
  obtain rfl := Option.some.inj (hrole.symm.trans hother)
  exact hread

end Inside

theorem head?_elements_inside {inner : Role} {tag : Tag} {front back : List Node}
    {child edited : Element} (hname : edited.name = child.name)
    (hrole : Role.below? .body child.name = some inner)
    (hread : inner.read edited = inner.read child) :
    Role.read .body { tag, children := front ++ edited.node :: back } =
      Role.read .body { tag, children := front ++ child.node :: back } := by
  have hcontent := decodeContent_congr hname hrole hread
  rw [Role.read, Role.read, Element.elements_insert, Element.elements_insert]
  cases front.filterMap Node.element? with
  | nil => exact congrArg some hcontent
  | cons first rest => rfl

theorem decodeDetails_inside {tag : Tag} {front back : List Node} {child edited : Element}
    (hname : edited.name = child.name) (hchild : child.name = propertyName)
    (hread : decodeDetail edited = decodeDetail child) :
    decodeDetails { tag, children := front ++ edited.node :: back } =
      decodeDetails { tag, children := front ++ child.node :: back } := by
  simp only [decodeDetails, Element.elements_insert, Element.element?_node, Option.toList_some,
    List.singleton_append, List.filter_append, List.filter_cons, hname, hchild, decide_true,
    if_true, List.mapM_append, List.mapM_cons, hread]

theorem Role.below?_properties {name : String} {inner : Role}
    (h : Role.below? .properties name = some inner) : name = propertyName ∧ inner = .property := by
  rw [Role.below?] at h
  split at h
  next hname => exact ⟨hname, (Option.some.inj h).symm⟩
  next => cases h

theorem Insertion.read_eq {role : Role} {element edited : Element}
    (h : Insertion role element edited) : role.read edited = role.read element := by
  induction h with
  | node hignored => exact hignored.read_eq
  | item hidle => exact hidle.read_eq _
  | @inside role inner tag front back child edited hrole hinner ih =>
      have hname := hinner.name_eq
      cases role with
      | body => exact head?_elements_inside hname hrole ih
      | properties =>
          obtain ⟨hchild, rfl⟩ := Role.below?_properties hrole
          simp only [Role.read, decodeDetails_inside hname hchild ih]
          rfl
      | leaf => cases hrole
      | _ => exact read_congr rfl (sameChildren_inside hname hrole ih) nofun nofun nofun

/-- Trees that insertions, made and taken back any number of times, lead from one to the other. -/
def Edited : Element → Element → Prop :=
  Relation.EqvGen (Insertion .envelope)

theorem Edited.decodeEnvelope_eq {root edited : Element} (h : Edited root edited) :
    decodeEnvelope edited = decodeEnvelope root := by
  induction h with
  | rel root edited hinsertion => exact hinsertion.read_eq
  | refl root => rfl
  | symm root edited _ ih => exact ih.symm
  | trans root middle edited _ _ ihfirst ihsecond => exact ihsecond.trans ihfirst

/--
A reply is decoded as what it is without the edits: message or error, with all that it says. The two
trees may come from any two texts.
-/
theorem decode_eq_of_edited {root edited : Element} (h : Edited root edited) :
    decodeEnvelope edited = decodeEnvelope root ∧
      ∀ octets octets', Element.parse? octets = some root → Element.parse? octets' = some edited →
        decode octets' = decode octets := by
  refine ⟨h.decodeEnvelope_eq, ?_⟩
  intro octets octets' hroot hedited
  rw [decode, decode, hroot, hedited]
  exact h.decodeEnvelope_eq

theorem Insertion.node_bareElement {role : Role} {name : String} {node : Node}
    (front back : List Node) (h : Ignored role front node) :
    Insertion role (bareElement name (front ++ back)) (bareElement name (front ++ node :: back)) :=
  .node h

theorem Insertion.inside_bareElement {role inner : Role} {name : String} {child edited : Element}
    (front back : List Node) (hrole : role.below? child.name = some inner)
    (h : Insertion inner child edited) :
    Insertion role (bareElement name (front ++ child.node :: back))
      (bareElement name (front ++ edited.node :: back)) :=
  .inside hrole h

def shortProperty (remarks further : List Node) : Element :=
  bareElement propertyName ([(bareElement "id" (.text "a" :: remarks)).node,
    (bareElement "index" [.text "0"]).node] ++ further)

/-- A reply with one property, and nodes put in at four places of it. -/
def shortReply (header remarks further behind : List Node) : Element :=
  bareElement "Envelope" (header ++ [(bareElement "Body" ((bareElement responseName
    [(bareElement resultName [(bareElement "Properties"
      [(shortProperty remarks further).node]).node]).node]).node :: behind)).node])

def shortReplyText (header remarks further behind : List Char) : List Char :=
  tagged "Envelope" (header ++ tagged "Body" (tagged responseName (tagged resultName
    (tagged "Properties" (tagged propertyName
      (tagged "id" ('a' :: remarks) ++ tagged "index" ['0'] ++ further)))) ++ behind))

def strayHeader : Node :=
  (bareElement "Header" []).node

def secondId : Node :=
  (bareElement "id" [.text "c"]).node

def lateFault : Node :=
  (bareElement "Fault" []).node

theorem parse?_bareReply :
    Element.parse? (Utf8.encode (String.ofList (shortReplyText [] [] [] (tagged "Fault" [])))) =
      some (shortReply [] [] [] [lateFault]) :=
  Xml.parse?_of_plainRoot? (by decide +kernel) (by decide +kernel) (by decide +kernel)

theorem decode_bareReply :
    decode (Utf8.encode (String.ofList (shortReplyText [] [] [] (tagged "Fault" [])))) =
      .ok { details := some [{ id := some "a", index := 0, value := none }] } := by
  rw [decode, parse?_bareReply]
  rfl

theorem parse?_remarkedReply :
    Element.parse? (Utf8.encode (String.ofList
        (shortReplyText (tagged "Header" []) "<!--b-->".toList (tagged "id" ['c']) []))) =
      some (shortReply [strayHeader] [.comment "b"] [secondId] []) :=
  Xml.parse?_of_plainRoot? (by decide +kernel) (by decide +kernel) (by decide +kernel)

theorem insertion_shortReply {remarks remarks' further further' : List Node}
    (header behind : List Node)
    (h : Insertion .property (shortProperty remarks further) (shortProperty remarks' further')) :
    Insertion .envelope (shortReply header remarks further behind)
      (shortReply header remarks' further' behind) := by
  have hresult : Insertion .result
      (bareElement resultName
        [(bareElement "Properties" [(shortProperty remarks further).node]).node])
      (bareElement resultName
        [(bareElement "Properties" [(shortProperty remarks' further').node]).node]) :=
    .inside_bareElement [] [] rfl (.inside_bareElement [] [] rfl h)
  exact .inside_bareElement header [] rfl
    (.inside_bareElement [] behind rfl (.inside_bareElement [] [] rfl hresult))

/-- A header, a remark and a second id come in; what stood behind the response goes out. -/
theorem decode_remarkedReply :
    Edited (shortReply [] [] [] [lateFault])
        (shortReply [strayHeader] [.comment "b"] [secondId] []) ∧
      decode (Utf8.encode (String.ofList
          (shortReplyText (tagged "Header" []) "<!--b-->".toList (tagged "id" ['c']) []))) =
        .ok { details := some [{ id := some "a", index := 0, value := none }] } := by
  have hheader : Insertion .envelope (shortReply [] [] [] [lateFault])
      (shortReply [strayHeader] [] [] [lateFault]) :=
    .node_bareElement [] _ (.unsought rfl)
  have hremark : Insertion .property (shortProperty [] []) (shortProperty [.comment "b"] []) :=
    .inside_bareElement [] [_] rfl (.node_bareElement [_] [] .comment)
  have hid : Insertion .property (shortProperty [.comment "b"] [])
      (shortProperty [.comment "b"] [secondId]) :=
    .node_bareElement [_, _] [] (.surplus ⟨_, .head _, rfl⟩)
  have hlate : Insertion .envelope (shortReply [strayHeader] [.comment "b"] [secondId] [])
      (shortReply [strayHeader] [.comment "b"] [secondId] [lateFault]) :=
    .inside_bareElement [_] [] rfl (.node_bareElement [_] [] (.surplus (List.cons_ne_nil _ _)))
  have hproperty : Edited (shortReply [strayHeader] [] [] [lateFault])
      (shortReply [strayHeader] [.comment "b"] [secondId] [lateFault]) :=
    .trans _ _ _ (.rel _ _ (insertion_shortReply _ _ hremark))
      (.rel _ _ (insertion_shortReply _ _ hid))
  have hedited : Edited (shortReply [] [] [] [lateFault])
      (shortReply [strayHeader] [.comment "b"] [secondId] []) :=
    .trans _ _ _ (.rel _ _ hheader) (.trans _ _ _ hproperty (.symm _ _ (.rel _ _ hlate)))
  have hdecode := (decode_eq_of_edited hedited).2 _ _ parse?_bareReply parse?_remarkedReply
  exact ⟨hedited, hdecode.trans decode_bareReply⟩

end PanelRelay.Envelope
