import PanelRelay.Proofs.Envelope.Tree
import PanelRelay.Proofs.Text.Escape

/-!
Which messages can be sent, and which text is blamed otherwise. The texts are judged in the order of
`messageTexts`: property by property, in each the value before the id, and the name at the end.
-/

namespace PanelRelay.Envelope

open Event (Message)

def IsSendable (c : Char) : Prop :=
  c = '\t' ∨ c = '\n' ∨ c = '\r' ∨ (' ' ≤ c ∧ c ≠ '\ufffe' ∧ c ≠ '\uffff')

def Sendable (text : String) : Prop :=
  ∀ c ∈ text.toList, IsSendable c

theorem allows_iff (c : Char) : Xml.Version.v10.allows c = true ↔ IsSendable c := by
  have hspace : ' ' ≤ c ↔ 0x20 ≤ c.toNat := Iff.rfl
  have hfirst : c.toNat ≠ 0xfffe ↔ c ≠ '\ufffe' := not_congr (@Char.toNat_inj c '\ufffe')
  have hsecond : c.toNat ≠ 0xffff ↔ c ≠ '\uffff' := not_congr (@Char.toNat_inj c '\uffff')
  simp [Xml.Version.allows, IsSendable, hspace, hfirst, hsecond, or_assoc, and_assoc]

/-- The error names the element that the text was for, and has the whole text, escaped. -/
def Error.Blames (error : Error) (element text : String) : Prop :=
  ∃ escaped, IsEscapedFrom text escaped ∧ error = .invalidValue element escaped

theorem Error.blames_iff {error : Error} {element text : String} :
    error.Blames element text ↔ error = .invalidValue element (escape text) := by
  simp only [Error.Blames, isEscapedFrom_iff, exists_eq_left]

theorem isCarried_iff (text : String) : isCarried text = true ↔ Sendable text := by
  simp only [isCarried, List.all_eq_true, allows_iff, Sendable]

theorem offence?_eq_none_iff (texts : List (String × String)) :
    offence? texts = none ↔ ∀ item ∈ texts, Sendable item.2 := by
  simp [offence?, isCarried_iff]

theorem offence?_eq_some_iff (texts : List (String × String)) (error : Error) :
    offence? texts = some error ↔
      ∃ before element text after,
        texts = before ++ (element, text) :: after ∧
          (∀ item ∈ before, Sendable item.2) ∧ ¬ Sendable text ∧ error.Blames element text := by
  simp only [offence?, Option.map_eq_some_iff, List.find?_eq_some_iff_append, Error.blames_iff]
  constructor
  · rintro ⟨⟨element, text⟩, ⟨hrefused, before, after, rfl, hbefore⟩, rfl⟩
    refine ⟨before, element, text, after, rfl, ?_, ?_, rfl⟩
    · intro item hitem
      simpa [isCarried_iff] using hbefore item hitem
    · simpa [← isCarried_iff] using hrefused
  · rintro ⟨before, element, text, after, rfl, hbefore, hrefused, rfl⟩
    refine ⟨(element, text), ⟨?_, before, after, rfl, ?_⟩, rfl⟩
    · simpa [← isCarried_iff] using hrefused
    · intro item hitem
      simpa [isCarried_iff] using hbefore item hitem

theorem judged_eq_ok_iff {α : Type} (texts : List (String × String)) (result found : α) :
    judged texts result = .ok found ↔ (∀ item ∈ texts, Sendable item.2) ∧ result = found := by
  rw [← offence?_eq_none_iff, judged]
  cases offence? texts with
  | none => simp
  | some error => simp

theorem judged_eq_error_iff {α : Type} (texts : List (String × String)) (result : α)
    (error : Error) : judged texts result = .error error ↔ offence? texts = some error := by
  rw [judged]
  cases offence? texts with
  | none => simp
  | some found => simp

section Order

variable (order : DeclarationOrder)

theorem encode_eq_ok_iff (message : Message) (text : String) :
    encode order message = .ok text ↔
      (∀ item ∈ messageTexts message, Sendable item.2) ∧
        (requestTree order message).document = text := by
  rw [encode_eq, judged_eq_ok_iff]

theorem encode_eq_ok_iff_isCarried (message : Message) (text : String) :
    encode order message = .ok text ↔
      (∀ item ∈ messageTexts message, isCarried item.2 = true) ∧
        (requestTree order message).document = text := by
  simp only [encode_eq_ok_iff, isCarried_iff]

/--
A message is encoded exactly if every character of its free texts can be sent; otherwise the first
text with another character is blamed, escaped as a whole. Absent fields, integers, octets and
indices contribute no text that could be blamed.
-/
theorem encode_blames_first_offender (message : Message) :
    ((∃ text, encode order message = .ok text) ↔
        ∀ item ∈ messageTexts message, Sendable item.2) ∧
      (∀ error, encode order message = .error error ↔
        ∃ before element text after,
          messageTexts message = before ++ (element, text) :: after ∧
            (∀ item ∈ before, Sendable item.2) ∧ ¬ Sendable text ∧ error.Blames element text) ∧
      ∀ text escaped, IsEscapedFrom text escaped → ∀ c ∈ escaped.toList, isPrintable c = true := by
  refine ⟨?_, ?_, fun _ _ => IsEscapedFrom.isPrintable_of_mem⟩
  · constructor
    · rintro ⟨text, hencode⟩
      exact ((encode_eq_ok_iff order message text).mp hencode).1
    · intro hsendable
      exact ⟨_, (encode_eq_ok_iff order message _).mpr ⟨hsendable, rfl⟩⟩
  · intro error
    rw [encode_eq, judged_eq_error_iff, offence?_eq_some_iff]

end Order

end PanelRelay.Envelope
