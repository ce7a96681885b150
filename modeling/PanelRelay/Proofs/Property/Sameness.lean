import PanelRelay.Proofs.Property.Bag
import PanelRelay.Proofs.Property.History

/-!
When two runs leave the same bag. A bag is told by its answers at all addresses, so neither the order
of changes at different addresses shows in it nor what was taken back, but an explicit entry does.
-/

namespace PanelRelay.Property.Bag

/-- Whatever is asked about the address, the bags answer the same. -/
structure AnswerAlikeAt (left right : Bag) (address : Address) : Prop where
  contains : left.contains address = right.contains address
  status : left.store.status address = right.store.status address
  value : ∀ kind, left.store.value address kind = right.store.value address kind

theorem slot_eq_of_parts {slot other : Slot} (hstatus : slot.status = other.status)
    (hvalue : slot.value = other.value) : slot = other := by
  cases slot
  cases other
  simp_all

/-- Without `contains`, an entry that is not available and has no value would pass for none. -/
theorem answerAlikeAt_iff {left right : Bag} {address : Address} :
    left.AnswerAlikeAt right address ↔ left.slot? address = right.slot? address := by
  constructor
  · intro h
    have hcontains := h.contains
    have hstatus := h.status
    have hvalue := h.value .text
    simp only [Bag.contains, store, Bag.status, Bag.value] at hcontains hstatus hvalue
    cases hleft : left.slot? address with
    | none =>
        cases hright : right.slot? address with
        | none => rfl
        | some other =>
            rw [hleft, hright] at hcontains
            cases hcontains
    | some slot =>
        cases hright : right.slot? address with
        | none =>
            rw [hleft, hright] at hcontains
            cases hcontains
        | some other =>
            rw [hleft, hright] at hstatus hvalue
            exact congrArg some (slot_eq_of_parts hstatus hvalue)
  · intro h
    have hagree := agreeAt_store h
    exact ⟨congrArg Option.isSome h, hagree.status, fun _ => congrArg (Option.bind · Slot.value) h⟩

theorem beq_iff_answerAlikeAt (left right : Bag) :
    (left == right) = true ↔ ∀ address, left.AnswerAlikeAt right address := by
  rw [beq_iff_slot?]
  exact forall_congr' fun _ => answerAlikeAt_iff.symm

theorem run_append (before after : List Change) (bag : Bag) :
    run (before ++ after) bag = run after (run before bag) :=
  List.foldl_append

section Exchange

variable {here there : Change}

/-- At any one address at most one of the two changes counts. -/
theorem changesAt_exchange (hplaces : here.address ≠ there.address) (address : Address)
    (before after : List Change) :
    changesAt address (before ++ here :: there :: after) =
      changesAt address (before ++ there :: here :: after) := by
  rw [changesAt, changesAt, List.filter_append, List.filter_append]
  by_cases hhere : here.address = address
  · have hthere : there.address ≠ address := fun heq => hplaces (hhere.trans heq.symm)
    simp [hhere, hthere]
  · simp [List.filter_cons, hhere]

theorem beq_run_exchange (hplaces : here.address ≠ there.address) (before after : List Change) :
    (run (before ++ here :: there :: after) empty ==
      run (before ++ there :: here :: after) empty) = true := by
  rw [beq_iff_slot?]
  intro address
  rw [slot?_run, slot?_run, recent, recent, changesAt_exchange hplaces]

end Exchange

section Fresh

variable {bag : Bag} {address : Address}

theorem slot?_eq_none_of_contains_eq_false (h : bag.contains address = false) :
    bag.slot? address = none :=
  slot?_eq_none_of_not_contains (Bool.eq_false_iff.mp h)

theorem beq_remove_set (hfresh : bag.contains address = false) (value : Value) :
    (((bag.set address value).remove address).2 == bag) = true := by
  rw [beq_iff_slot?]
  intro place
  rw [remove, slot?_erase, set, slot?_put]
  by_cases hplace : place = address
  · rw [if_pos hplace, hplace, slot?_eq_none_of_contains_eq_false hfresh]
  · rw [if_neg hplace, if_neg hplace]

theorem contains_setStatus (bag : Bag) (address : Address) (status : Status) :
    (bag.setStatus address status).contains address = true := by
  rw [contains, setStatus, slot?_put, if_pos rfl]
  rfl

theorem beq_setStatus_eq_false (hfresh : bag.contains address = false) (status : Status) :
    (bag.setStatus address status == bag) = false := by
  rw [Bool.eq_false_iff, ne_eq, beq_iff_answerAlikeAt]
  intro halike
  have hcontains := (halike address).contains
  rw [contains_setStatus, hfresh] at hcontains
  cases hcontains

/-- An entry that says no more than its absence would cannot be told by status and value. -/
theorem store_setStatus_notAvailable (hfresh : bag.contains address = false) (place : Address) :
    (bag.setStatus address .notAvailable).store.status place = bag.store.status place ∧
      ∀ kind, (bag.setStatus address .notAvailable).store.value place kind =
        bag.store.value place kind := by
  have hnone := slot?_eq_none_of_contains_eq_false hfresh
  simp only [store, status, value, setStatus, slot?_put, hnone]
  by_cases hplace : place = address
  · subst hplace
    rw [if_pos rfl, hnone]
    exact ⟨rfl, fun _ => rfl⟩
  · rw [if_neg hplace]
    exact ⟨rfl, fun _ => rfl⟩

end Fresh

/--
Two runs from the empty bag leave the same bag exactly if they leave the same answers everywhere.
Neighbouring changes at different addresses may change places, and a value that is set at a fresh
address and removed again leaves no trace. An explicit entry that is not available and has no value
makes a difference, though status and value read the same with it.
-/
theorem run_beq_iff_answerAlikeAt (first second : List Change) :
    ((run first empty == run second empty) = true ↔
      ∀ address, (run first empty).AnswerAlikeAt (run second empty) address) ∧
      (∀ here there after, here.address ≠ there.address →
        (run (first ++ here :: there :: after) empty ==
          run (first ++ there :: here :: after) empty) = true) ∧
      ∀ address, (run first empty).contains address = false →
        (∀ value, (run (first ++ [.set address value, .remove address]) empty ==
          run first empty) = true) ∧
        (run (first ++ [.setStatus address .notAvailable]) empty == run first empty) = false ∧
        ∀ place,
          (run (first ++ [.setStatus address .notAvailable]) empty).store.status place =
            (run first empty).store.status place ∧
          ∀ kind, (run (first ++ [.setStatus address .notAvailable]) empty).store.value place kind =
            (run first empty).store.value place kind := by
  refine ⟨beq_iff_answerAlikeAt _ _, fun here there after hplaces =>
    beq_run_exchange hplaces first after, fun address hfresh => ⟨fun value => ?_, ?_, ?_⟩⟩
  · rw [run_append]
    exact beq_remove_set hfresh value
  · rw [run_append]
    exact beq_setStatus_eq_false hfresh .notAvailable
  · rw [run_append]
    exact store_setStatus_notAvailable hfresh

def hall : Address := ⟨"zone.name", 0⟩

def garage : Address := ⟨"zone.name", 1⟩

theorem run_beq_relabelledZones :
    let first : List Change := [.set hall (.text "Hall")]
    let second : List Change := [.set garage (.text "Garage"), .set hall (.text "Lobby"),
      .remove garage, .set hall (.text "Hall")]
    (∀ address, (run first empty).AnswerAlikeAt (run second empty) address) ∧
      hall ≠ garage ∧
      (run (first ++ [.setStatus hall .failed, .set garage (.text "Garage")]) empty ==
        run (first ++ [.set garage (.text "Garage"), .setStatus hall .failed]) empty) = true ∧
      (run first empty).contains garage = false ∧
      (run (first ++ [.set garage (.text "Garage"), .remove garage]) empty ==
        run first empty) = true ∧
      (run (first ++ [.setStatus garage .notAvailable]) empty == run first empty) = false ∧
      (run (first ++ [.setStatus garage .notAvailable]) empty).store.status garage =
        (run first empty).store.status garage := by
  intro first second
  have hplaces : hall ≠ garage := by decide
  have hfresh : (run first empty).contains garage = false := by decide
  obtain ⟨hsame, hexchange, hundone⟩ := run_beq_iff_answerAlikeAt first second
  obtain ⟨hremoved, hexplicit, hsilent⟩ := hundone garage hfresh
  exact ⟨hsame.mp (by decide), hplaces,
    hexchange (.setStatus hall .failed) (.set garage (.text "Garage")) [] hplaces, hfresh,
    hremoved (.text "Garage"), hexplicit, (hsilent garage).1⟩

end PanelRelay.Property.Bag
