import PanelRelay.Envelope.Reply
import PanelRelay.Envelope.Request
import PanelRelay.Proofs.Envelope.Steps
import PanelRelay.Proofs.Xml.Lookup
import PanelRelay.Proofs.Xml.Plain

/-!
The properties of a reply are decoded all or none. Each of them becomes one detail, in its place;
the first that is refused decides the error, by its index before its value.
-/

namespace PanelRelay.Envelope

open Event (Detail Message)
open Xml (Element bareElement)

theorem bind_nillable?_eq_none_iff (element : Element) (name : String) :
    (element.child? name).bind nillable? = none ↔
      ∀ child, element.child? name = some child → isNil child = true := by
  cases element.child? name with
  | none => simp
  | some child => simp [nillable?]

theorem bind_nillable?_eq_some_iff (element : Element) (name text : String) :
    (element.child? name).bind nillable? = some text ↔
      ∃ child, element.child? name = some child ∧ isNil child = false ∧ child.text = text := by
  cases element.child? name with
  | none => simp
  | some child => simp [nillable?]

theorem integer?_eq_error_iff (element text : String) (error : Error) :
    integer? element text = .error error ↔
      Decimal.int32? (trim text.toList) = none ∧ error = .invalidValue element text := by
  rw [integer?]
  cases Decimal.int32? (trim text.toList) with
  | none => simp [eq_comm]
  | some n => simp

/-- Why the index of a property is refused, with the error that says so. -/
inductive IndexRefused (element : Element) : Error → Prop
  | missing : (∀ child, element.child? "index" = some child → isNil child = true) →
      IndexRefused element (.missingElement "index")
  | unreadable {child : Element} : element.child? "index" = some child → isNil child = false →
      Decimal.int32? (trim child.text.toList) = none →
      IndexRefused element (.invalidValue "index" child.text)

/-- The error of a value that is there and cannot be read. -/
inductive ValueRefused (element : Element) : Error → Prop
  | unreadable {child : Element} {error : Error} : element.child? "value" = some child →
      isNil child = false → decodeValue child = .error error → ValueRefused element error

/-- The value counts only behind an index that is not refused; the id never does. -/
inductive DetailRefused (element : Element) : Error → Prop
  | index {error : Error} : IndexRefused element error → DetailRefused element error
  | value {error : Error} : (∀ other, ¬ IndexRefused element other) →
      ValueRefused element error → DetailRefused element error

section Refusals

variable {element : Element} {error : Error}

theorem decodeIndex_eq_error_iff :
    decodeIndex element = .error error ↔ IndexRefused element error := by
  rw [decodeIndex]
  constructor
  · intro h
    split at h
    next hnone =>
      obtain rfl := Except.error.inj h
      exact .missing ((bind_nillable?_eq_none_iff element "index").mp hnone)
    next text htext =>
      obtain ⟨child, hchild, hnil, rfl⟩ :=
        (bind_nillable?_eq_some_iff element "index" text).mp htext
      obtain ⟨hread, rfl⟩ := (integer?_eq_error_iff "index" child.text error).mp h
      exact .unreadable hchild hnil hread
  · intro h
    cases h with
    | missing hmissing =>
        rw [(bind_nillable?_eq_none_iff element "index").mpr hmissing]
    | @unreadable child hchild hnil hread =>
        rw [(bind_nillable?_eq_some_iff element "index" child.text).mpr ⟨child, hchild, hnil, rfl⟩]
        exact (integer?_eq_error_iff "index" child.text _).mpr ⟨hread, rfl⟩

theorem decodeOptionalValue_eq_error_iff :
    decodeOptionalValue element = .error error ↔ ValueRefused element error := by
  rw [decodeOptionalValue]
  constructor
  · intro h
    split at h
    next => cases h
    next child hchild =>
      split at h
      next => cases h
      next hnil =>
        cases hvalue : decodeValue child with
        | ok value =>
            rw [hvalue] at h
            cases h
        | error found =>
            rw [hvalue] at h
            obtain rfl := Except.error.inj h
            exact .unreadable hchild (Bool.eq_false_iff.mpr hnil) hvalue
  · intro h
    cases h with
    | unreadable hchild hnil hvalue =>
        simp only [hchild, hnil, Bool.false_eq_true, if_false, hvalue]
        rfl

theorem decodeDetail_eq_error_iff :
    decodeDetail element = .error error ↔ DetailRefused element error := by
  rw [decodeDetail]
  constructor
  · intro h
    rcases bind_eq_error_iff.mp h with hindex | ⟨index, hindex, h⟩
    · exact .index (decodeIndex_eq_error_iff.mp hindex)
    · have hread : ∀ other, ¬ IndexRefused element other := by
        intro other hrefused
        cases hindex.symm.trans (decodeIndex_eq_error_iff.mpr hrefused)
      rcases bind_eq_error_iff.mp h with hvalue | ⟨value, -, h⟩
      · exact .value hread (decodeOptionalValue_eq_error_iff.mp hvalue)
      · cases h
  · intro h
    cases h with
    | index hrefused => exact bind_eq_error_iff.mpr (.inl (decodeIndex_eq_error_iff.mpr hrefused))
    | value hread hrefused =>
        cases hindex : decodeIndex element with
        | error other => exact absurd (decodeIndex_eq_error_iff.mp hindex) (hread other)
        | ok index =>
            have hvalue := decodeOptionalValue_eq_error_iff.mpr hrefused
            exact bind_eq_error_iff.mpr (.inr ⟨index, rfl, bind_eq_error_iff.mpr (.inl hvalue)⟩)

end Refusals

/-- The properties of a list, whatever else stands between them. -/
def listed (list : Element) : List Element :=
  list.elements.filter fun child => child.name = propertyName

theorem decodeMessage_of_list {result list : Element}
    (hlist : result.child? "Properties" = some list) (hnil : isNil list = false) :
    decodeMessage result = ((listed list).mapM decodeDetail).map fun details =>
      { name := (result.child? "name").bind nillable?, details := some details } := by
  have hdetails : decodeOptionalDetails result = ((listed list).mapM decodeDetail).map some := by
    simp only [decodeOptionalDetails, hlist, hnil, Bool.false_eq_true, if_false]
    rfl
  rw [decodeMessage, hdetails]
  cases (listed list).mapM decodeDetail <;> rfl

/--
A list of properties is decoded as a whole: into as many details, each from the property in its
place. Otherwise the first property that is refused decides the error, by its index before its value.
-/
theorem properties_decoded_all_or_none {result list : Element}
    (hlist : result.child? "Properties" = some list) (hnil : isNil list = false) :
    ((∃ message, decodeMessage result = .ok message) ↔
        ∀ property ∈ listed list, ∃ detail, decodeDetail property = .ok detail) ∧
      (∀ message, decodeMessage result = .ok message →
        ∃ details, message.details = some details ∧ details.length = (listed list).length ∧
          (listed list).map decodeDetail = details.map .ok) ∧
      (∀ error, decodeMessage result = .error error ↔
        ∃ before refused after, listed list = before ++ refused :: after ∧
          (∀ property ∈ before, ∃ detail, decodeDetail property = .ok detail) ∧
            decodeDetail refused = .error error) ∧
      ∀ property error, decodeDetail property = .error error ↔ DetailRefused property error := by
  have hmessage := decodeMessage_of_list hlist hnil
  refine ⟨?_, ?_, ?_, fun property error => decodeDetail_eq_error_iff⟩
  · rw [← exists_mapM_eq_ok_iff, hmessage]
    constructor
    · rintro ⟨message, h⟩
      obtain ⟨details, hdetails, -⟩ := eq_ok_of_map_eq_ok h
      exact ⟨details, hdetails⟩
    · rintro ⟨details, hdetails⟩
      rw [hdetails]
      exact ⟨_, rfl⟩
  · intro message h
    rw [hmessage] at h
    obtain ⟨details, hdetails, rfl⟩ := eq_ok_of_map_eq_ok h
    have hplaces := mapM_eq_ok_iff.mp hdetails
    have hlength := congrArg List.length hplaces
    rw [List.length_map, List.length_map] at hlength
    exact ⟨details, rfl, hlength.symm, hplaces⟩
  · intro error
    rw [hmessage, map_eq_error_iff, mapM_eq_error_iff]

def readableProperty : Element :=
  bareElement propertyName [(bareElement "id" []).node, (bareElement "index" [.text " +7"]).node]

/-- Neither the index nor the value can be read. -/
def unreadableProperty : Element :=
  bareElement propertyName [typedNode "xsd:int" "one", (bareElement "index" [.text " x"]).node]

/-- The type of the value is not known. -/
def untypedProperty : Element :=
  bareElement propertyName [(bareElement "index" [.text "0"]).node, typedNode "xsd:date" "today"]

def propertyList (properties : List Element) : Element :=
  bareElement "Properties" (.comment "b" :: (bareElement "id" []).node ::
    properties.map Element.node)

def listResult (properties : List Element) : Element :=
  bareElement resultName [(propertyList properties).node]

theorem properties_decoded_of_readable_and_unreadable :
    (∃ message, decodeMessage (listResult [readableProperty, readableProperty]) = .ok message) ∧
      decodeMessage (listResult [readableProperty, unreadableProperty, untypedProperty]) =
        .error (.invalidValue "index" " x") := by
  have hreadable :
      decodeDetail readableProperty = .ok { id := some "", index := 7, value := none } :=
    rfl
  obtain ⟨hall, -⟩ := @properties_decoded_all_or_none
    (listResult [readableProperty, readableProperty]) _ rfl rfl
  obtain ⟨-, -, hfirst, hrefused⟩ := @properties_decoded_all_or_none
    (listResult [readableProperty, unreadableProperty, untypedProperty]) _ rfl rfl
  have hunread : Decimal.int32? (trim (bareElement "index" [.text " x"]).text.toList) = none := by
    decide
  have hindex : DetailRefused unreadableProperty (.invalidValue "index" " x") :=
    .index (.unreadable rfl rfl hunread)
  refine ⟨hall.mpr ?_, (hfirst _).mpr ⟨[readableProperty], unreadableProperty, [untypedProperty],
    rfl, ?_, (hrefused _ _).mpr hindex⟩⟩
  · exact List.forall_mem_cons.mpr
      ⟨⟨_, hreadable⟩, List.forall_mem_singleton.mpr ⟨_, hreadable⟩⟩
  · exact List.forall_mem_singleton.mpr ⟨_, hreadable⟩

end PanelRelay.Envelope
