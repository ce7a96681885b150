import PanelRelay.Event.Report
import PanelRelay.Proofs.Calendar.Instants

/-!
The reported start. Its text is a date and a time of day from which the second of the start can be read
back, so starts in different seconds are told apart, and their texts are in the order of the starts.
-/

namespace PanelRelay.Event

open Calendar (Instant Moment)

/-- The text that a search for the start finds in a message. -/
def Message.TellsStart (message : Message) (text : String) : Prop :=
  ∃ detail, message.find? "program.startedAt" 0 = some detail ∧ detail.value = some (.text text)

theorem Message.TellsStart.unique {message : Message} {text other : String}
    (h : message.TellsStart text) (hother : message.TellsStart other) : text = other := by
  obtain ⟨detail, hfound, hvalue⟩ := h
  obtain ⟨detail', hfound', hvalue'⟩ := hother
  obtain rfl := Option.some.inj (hfound.symm.trans hfound')
  exact Property.Value.text.inj (Option.some.inj (hvalue.symm.trans hvalue'))

theorem tellsStart_programStarted (name version : String) (start : Instant) :
    (programStarted name version start).TellsStart start.text :=
  ⟨{ id := some "program.startedAt", index := 0, value := some (.text start.text) }, rfl, rfl⟩

/-- The text is a moment on the calendar, and that of no other, in the second of the start. -/
theorem programStarted_tells_second (name version : String) {start : Instant}
    (hstart : start.IsPlain) :
    ∃ text, (programStarted name version start).TellsStart text ∧ text.length = 20 ∧
      (∃ moment : Moment, moment.IsValid ∧ moment.IsWrittenAs text ∧
        moment.seconds = start.wholeSeconds ∧
        ∀ other : Moment, other.IsValid → other.IsWrittenAs text → other = moment) ∧
      ∀ (laterName laterVersion : String) (later : Instant) (laterText : String), later.IsPlain →
        (programStarted laterName laterVersion later).TellsStart laterText →
          (text < laterText ↔ start.wholeSeconds < later.wholeSeconds) ∧
          (text = laterText ↔ start.wholeSeconds = later.wholeSeconds) := by
  have hwritten := hstart.isWrittenAs_text
  have hvalid := hstart.isValid_moment
  refine ⟨start.text, tellsStart_programStarted name version start, hwritten.length_eq,
    ⟨start.moment, hvalid, hwritten, ?_, ?_⟩, ?_⟩
  · rw [hstart.seconds_moment, hstart.wholeSeconds_eq]
  · intro other hother hsame
    exact hsame.unique hwritten hother.date.year hvalid.date.year
  · intro laterName laterVersion later laterText hlater htells
    obtain rfl := htells.unique (tellsStart_programStarted laterName laterVersion later)
    rw [hstart.wholeSeconds_eq, hlater.wholeSeconds_eq]
    exact ⟨hstart.text_lt_iff hlater, hstart.text_eq_iff hlater⟩

/-- Half a second before 1970. -/
def beforeEpoch : Instant where
  seconds := -1
  nanos := 500000000

theorem programStarted_tells_second_beforeEpoch :
    beforeEpoch.IsPlain ∧
      ∃ text, (programStarted "panelgate" "0.1.0" beforeEpoch).TellsStart text ∧
        text.length = 20 ∧
        ∃ moment : Moment, moment.IsValid ∧ moment.IsWrittenAs text ∧ moment.seconds = -1 := by
  have hplain : beforeEpoch.IsPlain :=
    { nanos := by decide
      first_le := by rw [Moment.seconds_first]; decide
      le_last := by rw [Moment.seconds_last]; decide }
  obtain ⟨text, htells, hlength, ⟨moment, hvalid, hwritten, hseconds, -⟩, -⟩ :=
    programStarted_tells_second "panelgate" "0.1.0" hplain
  exact ⟨hplain, text, htells, hlength, moment, hvalid, hwritten, hseconds⟩

end PanelRelay.Event
