import PanelRelay.Property.Store

/-!
What a read of a store yields, and what it notes. The value at an address counts only while the store
reports the address as available, so two stores that differ elsewhere are read alike.
-/

namespace PanelRelay.Property.Store

/-- The stores cannot be told apart at an address: a value matters only where the status is `ok`. -/
structure AgreeAt (store other : Store) (address : Address) : Prop where
  status : store.status address = other.status address
  value : store.status address = .ok → store.value address = other.value address

/-- The ways in which a read ends, each with all that is noted about it. -/
inductive ReadEnding (store : Store) (kind : Kind) (address : Address) :
    Noted (Option kind.Content) → Prop
  | unavailable : store.status address ≠ .ok →
      ReadEnding store kind address ⟨none, [address.notAvailable (store.status address)]⟩
  | withoutValue : store.status address = .ok → store.value address kind = none →
      ReadEnding store kind address ⟨none, [address.withoutValue]⟩
  | otherKind {value : Value} : store.status address = .ok →
      store.value address kind = some value → value.kind ≠ kind →
      ReadEnding store kind address ⟨none, [address.otherKind kind value.kind]⟩
  | content {content : kind.Content} : store.status address = .ok →
      store.value address kind = some (.ofContent kind content) →
      ReadEnding store kind address ⟨some content, []⟩

theorem readEnding_read (store : Store) (kind : Kind) (address : Address) :
    ReadEnding store kind address (store.read kind address) := by
  cases hstatus : store.status address with
  | ok =>
      cases hvalue : store.value address kind with
      | none =>
          simp only [read, hstatus, hvalue]
          exact .withoutValue hstatus hvalue
      | some value =>
          cases hcontent : value.content? kind with
          | none =>
              simp only [read, hstatus, hvalue, hcontent]
              exact .otherKind hstatus hvalue (Value.content?_eq_none_iff.mp hcontent)
          | some content =>
              simp only [read, hstatus, hvalue, hcontent]
              exact .content hstatus (Value.content?_eq_some_iff.mp hcontent ▸ hvalue)
  | notAvailable =>
      have hending := @ReadEnding.unavailable store kind address (by simp [hstatus])
      rw [hstatus] at hending
      simpa only [read, hstatus] using hending
  | failed =>
      have hending := @ReadEnding.unavailable store kind address (by simp [hstatus])
      rw [hstatus] at hending
      simpa only [read, hstatus] using hending

/-- The store has a value wherever it reports one, whatever kind is asked for. -/
def IsBacked (store : Store) : Prop :=
  ∀ address kind, store.status address = .ok → store.value address kind ≠ none

/-- The two warnings differ in their first words. -/
theorem otherKind_ne_withoutValue (address place : Address) (expected found : Kind) :
    address.otherKind expected found ≠ place.withoutValue := by
  intro heq
  have hmessage := congrArg (fun event : Journal.Event => event.message.toList[3]?) heq
  simp only [Address.otherKind, Address.withoutValue, String.toList_append, List.append_assoc]
    at hmessage
  have hfourth : some 'E' = some 'P' := hmessage
  exact absurd hfourth (by decide)

/-- What is read from a backed store is never missed for want of a value. -/
theorem IsBacked.withoutValue_not_mem {store : Store} (h : store.IsBacked) (kind : Kind)
    (address place : Address) : place.withoutValue ∉ (store.read kind address).events := by
  have hending := store.readEnding_read kind address
  generalize store.read kind address = noted at hending
  intro hmem
  cases hending with
  | unavailable _ => cases List.mem_singleton.mp hmem
  | withoutValue hstatus hvalue => exact h address kind hstatus hvalue
  | otherKind _ _ _ =>
      exact otherKind_ne_withoutValue _ _ _ _ (List.mem_singleton.mp hmem).symm
  | content _ _ => cases hmem

theorem result_read_eq_some_iff (store : Store) (kind : Kind) (address : Address)
    (content : kind.Content) :
    (store.read kind address).result = some content ↔
      store.status address = .ok ∧ store.value address kind = some (.ofContent kind content) := by
  cases hstatus : store.status address with
  | ok =>
      cases hvalue : store.value address kind with
      | none => simp [read, hstatus, hvalue]
      | some value =>
          simp only [read, hstatus, hvalue, true_and, Option.some.injEq]
          rw [← Value.content?_eq_some_iff]
          cases value.content? kind with
          | none => simp
          | some found => simp
  | notAvailable => simp [read, hstatus]
  | failed => simp [read, hstatus]

theorem AgreeAt.read_eq {store other : Store} {address : Address}
    (h : store.AgreeAt other address) (kind : Kind) :
    store.read kind address = other.read kind address := by
  have hstatus := h.status
  cases hreported : store.status address with
  | ok =>
      have hvalue := h.value hreported
      simp only [read, ← hstatus, hreported, hvalue]
  | notAvailable => simp only [read, ← hstatus, hreported]
  | failed => simp only [read, ← hstatus, hreported]

theorem AgreeAt.strict {store other : Store} {address : Address}
    (h : store.AgreeAt other address) : store.strict.AgreeAt other.strict address where
  status := h.status
  value hreported := by simp only [Store.strict, h.value hreported]

end PanelRelay.Property.Store
