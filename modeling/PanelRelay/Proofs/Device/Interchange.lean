import Mathlib.Data.List.Forall2
import PanelRelay.Proofs.Device.Identity
import PanelRelay.Proofs.Device.Query

/-!
A store in place of one that yields values only of the kind asked for. Both are read alike, with an
event for an event; a value of another kind is reported as such by the one, and as no value by the
other.
-/

namespace PanelRelay

open Journal (Event Fields Level Origin)

/-- What an event is about, apart from its words. -/
def Journal.Event.heading (event : Event) : Origin × Level × Fields :=
  (event.origin, event.level, event.fields)

namespace Property.Store

/-- An event about a store, and the one in its place about the strict form of the store. -/
inductive Retold (store : Store) : Event → Event → Prop
  | same {event : Event} :
      (∀ (address : Address) (expected found : Kind), event ≠ address.otherKind expected found) →
      Retold store event event
  | otherKind {address : Address} {kind : Kind} {value : Value} : store.status address = .ok →
      store.value address kind = some value → value.kind ≠ kind →
      Retold store (address.otherKind kind value.kind) address.withoutValue

theorem Retold.heading_eq {store : Store} {event other : Event} (h : store.Retold event other) :
    event.heading = other.heading := by
  cases h with
  | same _ => rfl
  | otherKind _ _ _ => rfl

theorem map_heading_eq {store : Store} {events others : List Event}
    (h : List.Forall₂ store.Retold events others) :
    others.map Event.heading = events.map Event.heading := by
  induction h with
  | nil => rfl
  | cons hevent _ ih => rw [List.map_cons, List.map_cons, hevent.heading_eq, ih]

/-- Equal results, and the events of the second in the place of those of the first. -/
structure ToldAlike (store : Store) {α : Type} (noted other : Noted α) : Prop where
  result : other.result = noted.result
  events : List.Forall₂ store.Retold noted.events other.events

namespace ToldAlike

variable {store : Store} {α β : Type} {noted other : Noted α}

theorem pure (a : α) : store.ToldAlike (Pure.pure a) (Pure.pure a) :=
  ⟨rfl, .nil⟩

theorem single {event otherEvent : Event} (a : α) (h : store.Retold event otherEvent) :
    store.ToldAlike ⟨a, [event]⟩ ⟨a, [otherEvent]⟩ :=
  ⟨rfl, .cons h .nil⟩

theorem map (h : store.ToldAlike noted other) (f : α → β) :
    store.ToldAlike (noted.map f) (other.map f) :=
  ⟨congrArg f h.result, h.events⟩

theorem bind {next : α → Noted β} {otherNext : α → Noted β} (h : store.ToldAlike noted other)
    (hnext : ∀ a, store.ToldAlike (next a) (otherNext a)) :
    store.ToldAlike (noted >>= next) (other >>= otherNext) := by
  have hfollowing := hnext noted.result
  constructor
  · rw [Noted.result_bind, Noted.result_bind, h.result, hfollowing.result]
  · rw [Noted.events_bind, Noted.events_bind, h.result]
    exact List.rel_append h.events hfollowing.events

end ToldAlike

theorem notAvailable_ne_otherKind (place address : Address) (status : Status)
    (expected found : Kind) : place.notAvailable status ≠ address.otherKind expected found := by
  intro heq
  cases congrArg Event.level heq

/-- The only read that goes another way is the one that meets a value of another kind. -/
theorem toldAlike_read (store : Store) (kind : Kind) (address : Address) :
    store.ToldAlike (store.read kind address) (store.strict.read kind address) := by
  have hending := store.readEnding_read kind address
  generalize store.read kind address = noted at hending
  cases hending with
  | unavailable hstatus =>
      have hstrict : store.strict.read kind address =
          ⟨none, [address.notAvailable (store.status address)]⟩ := by
        cases hreported : store.status address with
        | ok => exact absurd hreported hstatus
        | notAvailable => simp only [read, strict, hreported]
        | failed => simp only [read, strict, hreported]
      rw [hstrict]
      exact .single none (.same (notAvailable_ne_otherKind address · (store.status address)))
  | withoutValue hstatus hvalue =>
      have hstrict : store.strict.read kind address = ⟨none, [address.withoutValue]⟩ := by
        simp only [read, strict, hstatus, hvalue, Option.filter_none]
      rw [hstrict]
      exact .single none (.same fun place expected found =>
        (otherKind_ne_withoutValue place address expected found).symm)
  | @otherKind value hstatus hvalue hkind =>
      have hstrict : store.strict.read kind address = ⟨none, [address.withoutValue]⟩ := by
        simp only [read, strict, hstatus, hvalue, Option.filter_some, hkind, decide_false,
          Bool.false_eq_true, if_false]
      rw [hstrict]
      exact .single none (.otherKind hstatus hvalue hkind)
  | @content content hstatus hvalue =>
      have hkind : (Value.ofContent kind content).kind = kind := by
        cases kind <;> rfl
      have hstrict : store.strict.read kind address = ⟨some content, []⟩ := by
        simp only [read, strict, hstatus, hvalue, Option.filter_some, hkind, decide_true, if_true,
          Value.content?_ofContent]
      rw [hstrict]
      exact .pure (some content)

end Property.Store

namespace Device.Description

open Property (Address Kind Store)

variable (store : Store)

theorem toldAlike_textProperty (name : String) :
    store.ToldAlike ((⟨store⟩ : Description).textProperty name)
      ((⟨store.strict⟩ : Description).textProperty name) :=
  (store.toldAlike_read .text ⟨name, 0⟩).map _

/-- What is said about an address that was read does not concern the store. -/
theorem toldAlike_macOfOctets (octets : List UInt8) :
    store.ToldAlike (macOfOctets octets) (macOfOctets octets) := by
  refine ⟨rfl, List.forall₂_same.mpr fun event hevent => .same ?_⟩
  rintro address expected found rfl
  cases origin_of_mem_macOfOctets hevent

theorem toldAlike_mac :
    store.ToldAlike (⟨store⟩ : Description).mac (⟨store.strict⟩ : Description).mac := by
  refine (store.toldAlike_read .bytes ⟨macProperty, 0⟩).bind fun octets => ?_
  cases octets with
  | none => exact .pure none
  | some octets => exact toldAlike_macOfOctets store octets

theorem toldAlike_encryptionMode :
    store.ToldAlike (⟨store⟩ : Description).encryptionMode
      (⟨store.strict⟩ : Description).encryptionMode :=
  (store.toldAlike_read .integer ⟨encryptionModeProperty, 0⟩).map _

theorem toldAlike_identity :
    store.ToldAlike (⟨store⟩ : Description).identity (⟨store.strict⟩ : Description).identity := by
  refine (toldAlike_textProperty store nameProperty).bind fun name => ?_
  refine (toldAlike_textProperty store modelProperty).bind fun model => ?_
  refine (toldAlike_textProperty store versionProperty).bind fun version => ?_
  refine (toldAlike_textProperty store serialNumberProperty).bind fun serialNumber => ?_
  refine (toldAlike_mac store).bind fun mac => ?_
  exact (toldAlike_encryptionMode store).bind fun encryptionMode => .pure _

theorem toldAlike_ask (query : Query) :
    store.ToldAlike ((⟨store⟩ : Description).ask query)
      ((⟨store.strict⟩ : Description).ask query) := by
  cases query with
  | name => exact toldAlike_textProperty store nameProperty
  | model => exact toldAlike_textProperty store modelProperty
  | version => exact toldAlike_textProperty store versionProperty
  | serialNumber => exact toldAlike_textProperty store serialNumberProperty
  | mac => exact toldAlike_mac store
  | encryptionMode => exact toldAlike_encryptionMode store
  | identity => exact toldAlike_identity store
  | property kind address => exact store.toldAlike_read kind address

/--
A store that yields a value only for its own kind can stand in for any other: every query has the
same answer, and as many events, of the same levels and about the same properties. They differ in
one warning, about a value of another kind than was asked for, which the strict store does not show.
-/
theorem strict_store_answers_alike (query : Query) :
    ∃ description strict,
      ofMessage (some descriptionKind) store = .ok description ∧
      ofMessage (some descriptionKind) store.strict = .ok strict ∧
      (strict.ask query).result = (description.ask query).result ∧
      (strict.ask query).events.map Event.heading =
        (description.ask query).events.map Event.heading ∧
      List.Forall₂ store.Retold (description.ask query).events (strict.ask query).events := by
  have halike := toldAlike_ask store query
  exact ⟨⟨store⟩, ⟨store.strict⟩, ofMessage_descriptionKind store,
    ofMessage_descriptionKind store.strict, halike.result,
    Store.map_heading_eq halike.events, halike.events⟩

end Device.Description

end PanelRelay
