import Mathlib.Data.List.Nodup
import Mathlib.Data.List.Perm.Subperm
import PanelRelay.Proofs.Property.Reading
import PanelRelay.Property.Bag

/-! What a bag answers, in terms of the slots that it lists, and when two bags are the same. -/

namespace PanelRelay.Property.Bag

theorem eq_of_slots {left right : Bag} (h : left.slots = right.slots) : left = right := by
  cases left
  cases right
  simp_all

theorem contains_iff_mem (bag : Bag) (address : Address) :
    bag.contains address = true ↔ address ∈ bag.slots.map Prod.fst := by
  simp only [contains, slot?, List.lookup_isSome_iff, List.mem_map, beq_iff_eq]
  exact exists_congr fun entry => and_congr_right fun _ => eq_comm

private theorem lookup_eq_some_of_mem {slots : List (Address × Slot)}
    (hnodup : (slots.map Prod.fst).Nodup) {address : Address} {slot : Slot}
    (hmem : (address, slot) ∈ slots) : slots.lookup address = some slot := by
  induction slots with
  | nil => cases hmem
  | cons entry slots ih =>
      obtain ⟨hfresh, hnodup⟩ := List.nodup_cons.mp hnodup
      rcases List.mem_cons.mp hmem with rfl | hmem
      · exact List.lookup_cons_self
      · have hne : address ≠ entry.1 := by
          intro heq
          exact hfresh (List.mem_map.mpr ⟨(address, slot), hmem, heq⟩)
        rw [List.lookup_cons, beq_eq_false_iff_ne.mpr hne]
        exact ih hnodup hmem

theorem slot?_eq_some_of_mem {bag : Bag} {address : Address} {slot : Slot}
    (h : (address, slot) ∈ bag.slots) : bag.slot? address = some slot :=
  lookup_eq_some_of_mem bag.nodup h

theorem slot?_eq_some_iff_mem {bag : Bag} {address : Address} {slot : Slot} :
    bag.slot? address = some slot ↔ (address, slot) ∈ bag.slots := by
  constructor
  · intro h
    obtain ⟨front, back, hslots, -⟩ := List.lookup_eq_some_iff.mp h
    rw [hslots]
    exact List.mem_append_right front List.mem_cons_self
  · exact slot?_eq_some_of_mem

theorem nodup_slots (bag : Bag) : bag.slots.Nodup :=
  List.Nodup.of_map Prod.fst bag.nodup

theorem slot?_eq_of_perm {left right : Bag} (h : left.slots.Perm right.slots) (address : Address) :
    left.slot? address = right.slot? address := by
  apply Option.ext
  intro slot
  rw [slot?_eq_some_iff_mem, slot?_eq_some_iff_mem, h.mem_iff]

/-- Two bags are the same if they list the same slots, in any order. -/
theorem beq_iff_perm (left right : Bag) :
    (left == right) = true ↔ left.slots.Perm right.slots := by
  have hbeq : (left == right) = true ↔ left.slots.length = right.slots.length ∧
      ∀ entry ∈ left.slots, right.slot? entry.1 = some entry.2 := by
    change left.same right = true ↔ _
    rw [same, Bool.and_eq_true, List.all_eq_true, decide_eq_true_eq]
    simp only [decide_eq_true_eq, size]
  rw [hbeq]
  constructor
  · rintro ⟨hlength, hentries⟩
    have hsubset : left.slots ⊆ right.slots := fun entry hentry =>
      slot?_eq_some_iff_mem.mp (hentries entry hentry)
    exact (left.nodup_slots.subperm hsubset).perm_of_length_le (Nat.le_of_eq hlength.symm)
  · intro hperm
    exact ⟨hperm.length_eq, fun entry hentry => slot?_eq_some_of_mem (hperm.mem_iff.mp hentry)⟩

/-- The order in which a bag lists its slots cannot be told from its answers. -/
theorem beq_iff_slot? (left right : Bag) :
    (left == right) = true ↔ ∀ address, left.slot? address = right.slot? address := by
  rw [beq_iff_perm]
  constructor
  · exact slot?_eq_of_perm
  · intro h
    refine (List.perm_ext_iff_of_nodup left.nodup_slots right.nodup_slots).mpr ?_
    rintro ⟨address, slot⟩
    rw [← slot?_eq_some_iff_mem, h, slot?_eq_some_iff_mem]

theorem slot?_eq_none_of_not_contains {bag : Bag} {address : Address}
    (h : ¬ bag.contains address = true) : bag.slot? address = none := by
  simpa [contains] using h

theorem agreeAt_store {bag other : Bag} {address : Address}
    (h : bag.slot? address = other.slot? address) : bag.store.AgreeAt other.store address where
  status := by simp only [store, status, h]
  value _ := by simp only [store, value, h]

theorem isBacked_store_iff (bag : Bag) :
    bag.store.IsBacked ↔ ∀ entry ∈ bag.slots, entry.2.status = .ok → entry.2.value ≠ none := by
  constructor
  · intro h entry hentry hstatus
    have hslot := slot?_eq_some_of_mem hentry
    have hbacked := h entry.1 .text
    simp only [store, status, value, hslot, Option.elim_some, Option.bind_some] at hbacked
    exact hbacked hstatus
  · intro h address kind hstatus
    simp only [store, status, value] at hstatus ⊢
    cases hslot : bag.slot? address with
    | none =>
        rw [hslot] at hstatus
        cases hstatus
    | some slot =>
        rw [hslot] at hstatus
        exact h (address, slot) (slot?_eq_some_iff_mem.mp hslot) hstatus

/-- A fresh address stands in front of the slots that are there. -/
theorem slots_put_of_not_contains {bag : Bag} {address : Address} (slot : Slot)
    (h : ¬ bag.contains address = true) :
    (bag.put address slot).slots = (address, slot) :: bag.slots := by
  rw [contains_iff_mem] at h
  have hothers : bag.others address = bag.slots := by
    apply List.filter_eq_self.mpr
    intro entry hentry
    have hne : entry.1 ≠ address := fun heq => h (List.mem_map.mpr ⟨entry, hentry, heq⟩)
    simpa using hne
  exact congrArg (List.cons (address, slot)) hothers

/-- What is put last at an address counts. -/
theorem put_put (bag : Bag) (address : Address) (first second : Slot) :
    (bag.put address first).put address second = bag.put address second := by
  apply eq_of_slots
  simp [put, others]

/-- Setting a value and then a status leaves both. -/
theorem setStatus_set (bag : Bag) (address : Address) (value : Value) (status : Status) :
    (bag.set address value).setStatus address status =
      bag.put address { status, value := some value } := by
  rw [setStatus, set, put_put]
  simp

end PanelRelay.Property.Bag
