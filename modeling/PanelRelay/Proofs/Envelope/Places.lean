import PanelRelay.Proofs.Envelope.RoundTrip

/-!
Where the free texts of a message stand, and which of them come back when the message is sent and
echoed: every text with a character that is no blank, wherever carriage returns stand in it.
-/

namespace PanelRelay

namespace Event

/-- The name, or the id or the value of the property in that position. -/
inductive TextPlace where
  | name
  | id (position : Nat)
  | value (position : Nat)
  deriving DecidableEq

def Detail.content? (detail : Detail) : Option String :=
  detail.value.bind (Property.Value.content? .text)

namespace Message

def detail? (message : Message) (position : Nat) : Option Detail :=
  message.details.bind fun details => details[position]?

def textAt? (message : Message) : TextPlace → Option String
  | .name => message.name
  | .id position => (message.detail? position).bind Detail.id
  | .value position => (message.detail? position).bind Detail.content?

variable (f : String → String)

theorem content?_mapTexts (detail : Detail) :
    (detail.mapTexts f).content? = detail.content?.map f := by
  obtain ⟨id, index, value⟩ := detail
  cases value with
  | none => rfl
  | some value => cases value <;> rfl

theorem detail?_mapTexts (message : Message) (position : Nat) :
    (message.mapTexts f).detail? position = (message.detail? position).map (Detail.mapTexts f) := by
  obtain ⟨name, details⟩ := message
  cases details with
  | none => rfl
  | some details => exact List.getElem?_map

/-- Texts that are changed all in one way are changed place by place. -/
theorem textAt?_mapTexts (message : Message) (place : TextPlace) :
    (message.mapTexts f).textAt? place = (message.textAt? place).map f := by
  cases place with
  | name => rfl
  | id position =>
      rw [textAt?, textAt?, detail?_mapTexts]
      cases message.detail? position <;> rfl
  | value position =>
      rw [textAt?, textAt?, detail?_mapTexts]
      cases message.detail? position with
      | none => rfl
      | some detail => exact content?_mapTexts f detail

end Message

end Event

namespace Envelope

open Event (Detail Message TextPlace)

theorem clearText_of_visible {text : String} (h : ∃ c ∈ text.toList, isBlank c = false) :
    clearText isBlank text = text := by
  obtain ⟨c, hc, hvisible⟩ := h
  rw [clearText_eq_self_iff]
  intro _
  rw [List.all_eq_false]
  exact ⟨c, hc, by simp [hvisible]⟩

/--
A text that may be sent and is no mere layout comes back in its place exactly, each carriage return
in it included, as long as the message holds no text that may not be sent.
-/
theorem visible_text_comes_back (order : DeclarationOrder) {message : Message} {place : TextPlace}
    {text : String}
    (hplace : message.textAt? place = some text) (hsendable : Sendable text)
    (hvisible : ∃ c ∈ text.toList, c ∉ [' ', '\t', '\r', '\n'])
    (hothers : ∀ item ∈ messageTexts message, item.2 = text ∨ Sendable item.2) :
    ∃ request reply, encode order message = .ok request ∧
      decode (Utf8.encode (echo request)) = .ok reply ∧ reply.textAt? place = some text := by
  have hall : ∀ item ∈ messageTexts message, Sendable item.2 := by
    intro item hitem
    rcases hothers item hitem with heq | hother
    · rw [heq]
      exact hsendable
    · exact hother
  have hencode : encode order message = .ok (requestTree order message).document :=
    (encode_eq_ok_iff order message _).mpr ⟨hall, rfl⟩
  have hkept : clearText isBlank text = text := by
    obtain ⟨c, hc, hnot⟩ := hvisible
    apply clearText_of_visible
    refine ⟨c, hc, ?_⟩
    rw [← Bool.not_eq_true, isBlank_iff]
    simpa using hnot
  refine ⟨_, _, hencode, decode_echo hencode, ?_⟩
  rw [Message.textAt?_mapTexts, hplace, Option.map_some, hkept]

/-- Carriage returns alone, before a line feed, in a row and at either end. -/
def returningText : String :=
  "\r\r\nA\r\t<b>\r\n&\n\r"

def returningMessage : Message where
  name := some returningText
  details := some [
    { id := some "\r", index := 0, value := none },
    { id := some returningText, index := 1, value := some (.text returningText) }]

theorem returningText_comes_back :
    ∃ request, encode .alphabetical returningMessage = .ok request ∧
      ∀ place ∈ [TextPlace.name, .id 1, .value 1], ∃ reply,
        decode (Utf8.encode (echo request)) = .ok reply ∧
          reply.textAt? place = some returningText := by
  have hsendable : Sendable returningText := by
    rw [← isCarried_iff]
    decide
  have hvisible : ∃ c ∈ returningText.toList, c ∉ [' ', '\t', '\r', '\n'] :=
    ⟨'A', by decide, by decide⟩
  have hcarried : ∀ item ∈ messageTexts returningMessage, isCarried item.2 = true := by decide
  have hothers : ∀ item ∈ messageTexts returningMessage,
      item.2 = returningText ∨ Sendable item.2 :=
    fun item hitem => .inr ((isCarried_iff item.2).mp (hcarried item hitem))
  have hplaces : ∀ place ∈ [TextPlace.name, .id 1, .value 1],
      returningMessage.textAt? place = some returningText := by decide
  refine ⟨_, (encode_eq_ok_iff_isCarried _ _ _).mpr ⟨hcarried, rfl⟩, ?_⟩
  intro place hplace
  obtain ⟨request, reply, hencode, hdecode, htext⟩ :=
    visible_text_comes_back .alphabetical (hplaces place hplace) hsendable hvisible hothers
  rw [(encode_eq_ok_iff_isCarried _ _ _).mpr ⟨hcarried, rfl⟩] at hencode
  obtain rfl := Except.ok.inj hencode
  exact ⟨reply, hdecode, htext⟩

end Envelope

end PanelRelay
