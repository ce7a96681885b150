import PanelRelay.Proofs.Envelope.Places
import PanelRelay.Proofs.Envelope.Values
import PanelRelay.Proofs.Text.Numerals

/-!
Integers of a reply. An index and a value that is given as an integer are read by one rule: a text
tells the number of its numeral, white space around it aside, and nothing if that number is out of
range. Every integer is told by the text that a request carries for it.
-/

namespace PanelRelay.Envelope

open Event (Detail Message)
open Xml (Element bareElement)

def Tells (text : String) (n : Int32) : Prop :=
  Decimal.IsSpaced n.toInt text.toList

/-- The text is no numeral, or that of a number beyond 32 bits. -/
def TellsNone (text : String) : Prop :=
  ∀ n : Int, Decimal.IsSpaced n text.toList → ¬ (-0x80000000 ≤ n ∧ n ≤ 0x7fffffff)

/-- What is decoded is the integer that the text tells; a text that tells none is blamed as it is. -/
structure ReadsInteger {α : Type} (decoded : Except Error α) (result : Int32 → α)
    (element text : String) : Prop where
  eq_ok_iff : ∀ found, decoded = .ok found ↔ ∃ n, found = result n ∧ Tells text n
  eq_error_iff : ∀ error, decoded = .error error ↔
    TellsNone text ∧ error = .invalidValue element text

/-- The text of a property's index. -/
def ShowsIndex (property : Element) (text : String) : Prop :=
  ∃ child, property.child? "index" = some child ∧ isNil child = false ∧ child.text = text

/-- The text of a property's value, which is given as an integer. -/
def ShowsInteger (property : Element) (text : String) : Prop :=
  ∃ child, property.child? "value" = some child ∧ isNil child = false ∧
    HasType child "int" ∧ child.text = text

/-- The text that some property of a request carries for an index. -/
def IsIndexSentAs (index : Int32) (text : String) : Prop :=
  ∃ detail property, detail.index = index ∧
    (propertyNode detail).map Xml.Node.element? = .ok (some property) ∧ ShowsIndex property text

/-- The list of properties in the result of a reply. -/
inductive HoldsList (octets : List UInt8) (list : Element) : Prop
  | intro {root body content result : Element} {further : List Element} :
      Element.parse? octets = some root → root.name = "Envelope" →
      root.child? "Body" = some body → body.elements = content :: further →
      content.name = responseName → content.child? resultName = some result →
      result.child? "Properties" = some list → isNil list = false → HoldsList octets list

theorem Tells.unique {text : String} {n m : Int32} (hn : Tells text n) (hm : Tells text m) : n = m :=
  Int32.toInt_inj.mp (Decimal.IsSpaced.unique hn hm)

theorem integer?_eq_ok_iff (element text : String) (n : Int32) :
    integer? element text = .ok n ↔ Tells text n := by
  rw [Tells, ← Decimal.int32?_trim_eq_some_iff, integer?]
  cases Decimal.int32? (trim text.toList) with
  | none => simp
  | some found => simp

theorem readsInteger_map {α : Type} (result : Int32 → α) (element text : String) :
    ReadsInteger ((integer? element text).map result) result element text where
  eq_ok_iff found := by
    constructor
    · intro h
      obtain ⟨n, hn, rfl⟩ := eq_ok_of_map_eq_ok h
      exact ⟨n, rfl, (integer?_eq_ok_iff element text n).mp hn⟩
    · rintro ⟨n, rfl, hn⟩
      rw [(integer?_eq_ok_iff element text n).mpr hn]
      rfl
  eq_error_iff error := by
    rw [map_eq_error_iff, integer?_eq_error_iff, Decimal.int32?_trim_eq_none_iff]
    rfl

theorem ShowsIndex.readsInteger {property : Element} {text : String}
    (h : ShowsIndex property text) : ReadsInteger (decodeIndex property) id "index" text := by
  have hindex : decodeIndex property = integer? "index" text := by
    rw [decodeIndex, (bind_nillable?_eq_some_iff property "index" text).mpr h]
  have hread := readsInteger_map id "index" text
  rwa [Except.map_id, id_eq, ← hindex] at hread

theorem decodeValue_of_int {element : Element} (htype : HasType element "int") :
    decodeValue element = (integer? "value" element.text).map .integer := by
  rw [HasType] at htype
  simp only [decodeValue, htype]
  rw [if_neg (by decide), if_pos trivial]

theorem ShowsInteger.readsInteger {property : Element} {text : String}
    (h : ShowsInteger property text) :
    ReadsInteger (decodeOptionalValue property) (fun n => some (.integer n)) "value" text := by
  obtain ⟨child, hchild, hnil, htype, rfl⟩ := h
  have hvalue : decodeOptionalValue property =
      (integer? "value" child.text).map fun n => some (.integer n) := by
    rw [decodeOptionalValue, hchild]
    simp only [hnil, Bool.false_eq_true, if_false, decodeValue_of_int htype]
    cases integer? "value" child.text <;> rfl
  rw [hvalue]
  exact readsInteger_map _ "value" child.text

theorem decodeDetail_eq_ok_iff (property : Element) (detail : Detail) :
    decodeDetail property = .ok detail ↔
      decodeIndex property = .ok detail.index ∧ decodeOptionalValue property = .ok detail.value ∧
        (property.child? "id").bind nillable? = detail.id := by
  rw [decodeDetail]
  constructor
  · intro h
    obtain ⟨index, hindex, h⟩ := eq_ok_of_bind_eq_ok h
    obtain ⟨value, hvalue, h⟩ := eq_ok_of_bind_eq_ok h
    obtain rfl := Except.ok.inj h
    exact ⟨hindex, hvalue, rfl⟩
  · rintro ⟨hindex, hvalue, hid⟩
    rw [hindex, hvalue, hid]
    rfl

theorem exists_decodeDetail_iff (property : Element) :
    (∃ detail, decodeDetail property = .ok detail) ↔
      (∃ n, decodeIndex property = .ok n) ∧ ∃ value, decodeOptionalValue property = .ok value := by
  constructor
  · rintro ⟨detail, h⟩
    obtain ⟨hindex, hvalue, -⟩ := (decodeDetail_eq_ok_iff property detail).mp h
    exact ⟨⟨_, hindex⟩, _, hvalue⟩
  · rintro ⟨⟨index, hindex⟩, value, hvalue⟩
    exact ⟨{ id := _, index, value }, (decodeDetail_eq_ok_iff _ _).mpr ⟨hindex, hvalue, rfl⟩⟩

/-- The index of a property is read before its value. -/
theorem decodeDetail_eq_error {property : Element} {error : Error}
    (h : decodeIndex property = .error error ∨
      (∃ n, decodeIndex property = .ok n) ∧ decodeOptionalValue property = .error error) :
    decodeDetail property = .error error := by
  rw [decodeDetail, bind_eq_error_iff]
  rcases h with hindex | ⟨⟨n, hindex⟩, hvalue⟩
  · exact .inl hindex
  · exact .inr ⟨n, hindex, bind_eq_error_iff.mpr (.inl hvalue)⟩

namespace HoldsList

variable {octets : List UInt8} {list : Element} (h : HoldsList octets list)

include h

theorem exists_decode_eq : ∃ name, decode octets =
    ((listed list).mapM decodeDetail).map fun details => { name, details := some details } := by
  obtain @⟨root, body, content, result, further, hroot, henvelope, hbody, hcontent, hresponse,
    hresult, hlist, hnil⟩ := h
  refine ⟨(result.child? "name").bind nillable?, ?_⟩
  rw [decode, hroot]
  simp only [decodeEnvelope, if_pos henvelope, hbody, hcontent]
  rw [decodeContent, hresponse, if_neg (by decide), if_pos rfl, hresult]
  exact decodeMessage_of_list hlist hnil

theorem exists_decode_iff : (∃ message, decode octets = .ok message) ↔
    ∀ property ∈ listed list, ∃ detail, decodeDetail property = .ok detail := by
  obtain ⟨name, hdecode⟩ := h.exists_decode_eq
  rw [← exists_mapM_eq_ok_iff, hdecode]
  constructor
  · rintro ⟨message, hmessage⟩
    obtain ⟨details, hdetails, -⟩ := eq_ok_of_map_eq_ok hmessage
    exact ⟨details, hdetails⟩
  · rintro ⟨details, hdetails⟩
    rw [hdetails]
    exact ⟨_, rfl⟩

variable {before after : List Element} {property : Element}
  (hlisted : listed list = before ++ property :: after)

include hlisted

theorem detail?_of_decode {message : Message} (hmessage : decode octets = .ok message) :
    ∃ detail, message.detail? before.length = some detail ∧
      decodeDetail property = .ok detail := by
  obtain ⟨name, hdecode⟩ := h.exists_decode_eq
  rw [hdecode, hlisted] at hmessage
  obtain ⟨details, hdetails, rfl⟩ := eq_ok_of_map_eq_ok hmessage
  exact getElem?_of_mapM_insert hdetails

theorem decode_eq_error (hbefore : ∀ earlier ∈ before, ∃ detail, decodeDetail earlier = .ok detail)
    {error : Error} (hrefused : decodeDetail property = .error error) :
    decode octets = .error error := by
  obtain ⟨name, hdecode⟩ := h.exists_decode_eq
  rw [hdecode, map_eq_error_iff, mapM_eq_error_iff]
  exact ⟨before, property, after, hlisted, hbefore, hrefused⟩

end HoldsList

theorem tells_integerText (n : Int32) : Tells (integerText n) n :=
  (integer?_eq_ok_iff "value" (integerText n) n).mp (integer?_integerText "value" n)

theorem isSentAs_integer_iff (n : Int32) (text : String) :
    IsSentAs (.integer n) text ↔ text = integerText n := by
  rw [isSentAs_iff]
  exact ⟨fun h => h.2, fun h => ⟨nofun, h⟩⟩

theorem isIndexSentAs_iff (n : Int32) (text : String) :
    IsIndexSentAs n text ↔ text = integerText n := by
  have hshown (detail : Detail) (text : String) :
      ShowsIndex (propertyElement detail) text ↔ text = integerText detail.index := by
    rw [ShowsIndex, ← bind_nillable?_eq_some_iff, (child?_propertyElement detail).2.1,
      Option.bind_some, nillable?_textElement, Option.some.injEq]
    exact eq_comm
  constructor
  · rintro ⟨detail, property, rfl, hproperty, hindex⟩
    rw [propertyNode_eq, map_judged_eq_ok_iff, element?_propertyTree] at hproperty
    obtain rfl := Option.some.inj hproperty.2
    exact (hshown detail text).mp hindex
  · rintro rfl
    let detail : Detail := { id := none, index := n, value := none }
    refine ⟨detail, propertyElement detail, rfl, ?_, (hshown detail _).mpr rfl⟩
    rw [propertyNode_eq, map_judged_eq_ok_iff, element?_propertyTree]
    exact ⟨nofun, rfl⟩

/--
An index, and a value that is given as an integer, is read as the integer that its text tells, and a
text that tells none is refused as it stands. So each integer of a decoded reply is the one that is
told in its place, and the first property whose index or integer tells none decides the error. A
request carries every integer in one text, which tells it.
-/
theorem integers_of_reply_read_exactly :
    (∀ property text, ShowsIndex property text →
        ReadsInteger (decodeIndex property) id "index" text) ∧
      (∀ element, HasType element "int" →
        ReadsInteger (decodeValue element) Property.Value.integer "value" element.text) ∧
      (∀ octets list, HoldsList octets list →
        ((∃ message, decode octets = .ok message) ↔ ∀ property ∈ listed list,
          (∃ n, decodeIndex property = .ok n) ∧
            ∃ value, decodeOptionalValue property = .ok value) ∧
        ∀ before property after, listed list = before ++ property :: after →
          (∀ message, decode octets = .ok message →
            ∃ detail, message.detail? before.length = some detail ∧
              (∀ text, ShowsIndex property text → Tells text detail.index) ∧
              ∀ text, ShowsInteger property text →
                ∃ n, detail.value = some (.integer n) ∧ Tells text n) ∧
          ((∀ earlier ∈ before, ∃ detail, decodeDetail earlier = .ok detail) →
            ∀ text, TellsNone text →
              (ShowsIndex property text →
                decode octets = .error (.invalidValue "index" text)) ∧
              ((∃ n, decodeIndex property = .ok n) → ShowsInteger property text →
                decode octets = .error (.invalidValue "value" text)))) ∧
      ∀ n, Tells (integerText n) n ∧ ∀ text,
        (IsIndexSentAs n text ↔ text = integerText n) ∧
          (IsSentAs (.integer n) text ↔ text = integerText n) := by
  refine ⟨fun _ _ hindex => hindex.readsInteger, ?_, ?_, ?_⟩
  · intro element htype
    rw [decodeValue_of_int htype]
    exact readsInteger_map _ "value" element.text
  · intro octets list hlist
    refine ⟨?_, ?_⟩
    · rw [hlist.exists_decode_iff]
      exact forall₂_congr fun property _ => exists_decodeDetail_iff property
    · intro before property after hlisted
      refine ⟨?_, ?_⟩
      · intro message hmessage
        obtain ⟨detail, hdetail, hread⟩ := hlist.detail?_of_decode hlisted hmessage
        obtain ⟨hindex, hvalue, -⟩ := (decodeDetail_eq_ok_iff property detail).mp hread
        refine ⟨detail, hdetail, ?_, ?_⟩
        · intro text htext
          obtain ⟨n, hn, htells⟩ := (htext.readsInteger.eq_ok_iff _).mp hindex
          exact hn ▸ htells
        · intro text htext
          exact (htext.readsInteger.eq_ok_iff _).mp hvalue
      · intro hbefore text htells
        refine ⟨?_, ?_⟩
        · intro htext
          have hrefused := (htext.readsInteger.eq_error_iff _).mpr ⟨htells, rfl⟩
          exact hlist.decode_eq_error hlisted hbefore (decodeDetail_eq_error (.inl hrefused))
        · intro hindex htext
          have hrefused := (htext.readsInteger.eq_error_iff _).mpr ⟨htells, rfl⟩
          exact hlist.decode_eq_error hlisted hbefore
            (decodeDetail_eq_error (.inr ⟨hindex, hrefused⟩))
  · intro n
    exact ⟨tells_integerText n, fun text => ⟨isIndexSentAs_iff n text, isSentAs_integer_iff n text⟩⟩

def integerProperty (index value : String) : Element :=
  bareElement propertyName [(bareElement "index" [.text index]).node,
    .element { name := .plain "value", attributes := [{ name := .plain "type", value := "int" }] }
      [.text value]]

def integerList (index value : String) : Element :=
  bareElement "Properties" [(integerProperty index value).node]

def integerRoot (index value : String) : Element :=
  bareElement "Envelope" [(bareElement "Body" [(bareElement responseName
    [(bareElement resultName [(integerList index value).node]).node]).node]).node]

/-- A reply with one property, in which two integers are told by the texts. -/
def integerReply (index value : String) : List Char :=
  "<Envelope>".toList ++
    ("<Body><logMessageResponse><reponse><Properties><Program.Property><index>".toList ++
      index.toList ++ "</index><value type=\"int\">".toList ++ value.toList ++
      ("</value></Program.Property></Properties></reponse></logMessageResponse></Body>" ++
        "</Envelope>").toList)

theorem holdsList_integerReply {index value : String}
    (hroot : Xml.plainRoot? (integerReply index value) = some (integerRoot index value)) :
    HoldsList (Utf8.encode (String.ofList (integerReply index value))) (integerList index value) := by
  have hfront : Utf8.encode "<Envelope>" =
      0x3c :: 0x45 :: [0x6e, 0x76, 0x65, 0x6c, 0x6f, 0x70, 0x65, 0x3e] := by decide
  exact .intro (Xml.parse?_of_front hfront (by decide) hroot) rfl rfl rfl rfl rfl rfl rfl

theorem shows_integerProperty (index value : String) :
    ShowsIndex (integerProperty index value) index ∧
      ShowsInteger (integerProperty index value) value := by
  have htext (tag : Xml.Tag) (text : String) : Element.text { tag, children := [.text text] } = text := by
    simp [Element.text, Xml.Node.ownText]
  exact ⟨⟨_, rfl, rfl, htext _ index⟩, _, rfl, rfl, rfl, htext _ value⟩

theorem integers_of_reply_read_least_and_too_great :
    (∃ message detail,
      decode (Utf8.encode (String.ofList (integerReply "\u2003+007\n" "-2147483648"))) =
          .ok message ∧
        message.detail? 0 = some detail ∧ detail.index = 7 ∧
          detail.value = some (.integer (-2147483648))) ∧
      decode (Utf8.encode (String.ofList (integerReply "-0" " 2147483648"))) =
        .error (.invalidValue "value" " 2147483648") ∧
      decodeIndex (integerProperty "1 2" "x") = .error (.invalidValue "index" "1 2") := by
  obtain ⟨hindex, -, hreply, -⟩ := integers_of_reply_read_exactly
  have hseven : Tells "\u2003+007\n" 7 := (Decimal.int32?_trim_eq_some_iff _ _).mp (by decide)
  have hleast : Tells "-2147483648" (-2147483648) :=
    (Decimal.int32?_trim_eq_some_iff _ _).mp (by decide)
  have hzero : Tells "-0" 0 := (Decimal.int32?_trim_eq_some_iff _ _).mp (by decide)
  have hgreat : TellsNone " 2147483648" := (Decimal.int32?_trim_eq_none_iff _).mp (by decide)
  have hsplit : TellsNone "1 2" := (Decimal.int32?_trim_eq_none_iff _).mp (by decide)
  refine ⟨?_, ?_, ?_⟩
  · have hlist := @holdsList_integerReply "\u2003+007\n" "-2147483648" (by decide +kernel)
    obtain ⟨hshownIndex, hshownValue⟩ := shows_integerProperty "\u2003+007\n" "-2147483648"
    obtain ⟨haccepted, hplaces⟩ := hreply _ _ hlist
    obtain ⟨htold, -⟩ := hplaces [] _ [] rfl
    obtain ⟨message, hmessage⟩ := haccepted.mpr (List.forall_mem_singleton.mpr
      ⟨⟨7, ((hindex _ _ hshownIndex).eq_ok_iff 7).mpr ⟨7, rfl, hseven⟩⟩,
        _, (hshownValue.readsInteger.eq_ok_iff _).mpr ⟨_, rfl, hleast⟩⟩)
    obtain ⟨detail, hdetail, htoldIndex, htoldValue⟩ := htold message hmessage
    obtain ⟨n, hn, htells⟩ := htoldValue _ hshownValue
    exact ⟨message, detail, hmessage, hdetail, (htoldIndex _ hshownIndex).unique hseven,
      htells.unique hleast ▸ hn⟩
  · have hlist := @holdsList_integerReply "-0" " 2147483648" (by decide +kernel)
    obtain ⟨hshownIndex, hshownValue⟩ := shows_integerProperty "-0" " 2147483648"
    have hread := ((hindex _ _ hshownIndex).eq_ok_iff 0).mpr ⟨0, rfl, hzero⟩
    obtain ⟨-, hrefused⟩ := (hreply _ _ hlist).2 [] _ [] rfl
    exact (hrefused nofun " 2147483648" hgreat).2 ⟨0, hread⟩ hshownValue
  · obtain ⟨hshownIndex, -⟩ := shows_integerProperty "1 2" "x"
    exact ((hindex _ _ hshownIndex).eq_error_iff _).mpr ⟨hsplit, rfl⟩

end PanelRelay.Envelope
