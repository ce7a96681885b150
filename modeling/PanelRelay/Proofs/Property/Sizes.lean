import Mathlib.Data.Set.Card
import PanelRelay.Proofs.Property.Bag
import PanelRelay.Proofs.Property.History

/-!
How many slots a bag has, in all and under each name. Both numbers count the addresses that the bag
contains, and a change moves them by one exactly where an address comes or goes.
-/

namespace PanelRelay.Property.Bag

def keys (bag : Bag) : List Address :=
  bag.slots.map Prod.fst

theorem mem_keys {bag : Bag} {address : Address} :
    address ∈ bag.keys ↔ bag.contains address = true :=
  (contains_iff_mem bag address).symm

theorem nodup_keys (bag : Bag) : bag.keys.Nodup :=
  bag.nodup

theorem size_eq_length_keys (bag : Bag) : bag.size = bag.keys.length := by
  rw [size, keys, List.length_map]

theorem count_eq_countP_keys (bag : Bag) (name : String) :
    bag.count name = bag.keys.countP fun address => address.name = name := by
  rw [keys, List.countP_map]
  rfl

section Numbers

private theorem encard_setOf_mem {α : Type} [DecidableEq α] {list : List α} (h : list.Nodup) :
    {a | a ∈ list}.encard = list.length := by
  rw [← List.coe_toFinset, Set.encard_coe_eq_coe_finsetCard, List.toFinset_card_of_nodup h]

theorem encard_contains (bag : Bag) :
    {address | bag.contains address = true}.encard = bag.size := by
  rw [size_eq_length_keys, ← encard_setOf_mem bag.nodup_keys]
  exact congrArg Set.encard (Set.ext fun _ => mem_keys.symm)

/-- The indices in use under a name are as many as the addresses of that name. -/
theorem encard_indices (bag : Bag) (name : String) :
    {index | bag.contains ⟨name, index⟩ = true}.encard = bag.count name := by
  have hinjective : Function.Injective (Address.mk name) := fun _ _ heq =>
    (Address.mk.inj heq).2
  have hnodup : (bag.keys.filter fun address => address.name = name).Nodup :=
    bag.nodup_keys.filter _
  rw [count_eq_countP_keys, List.countP_eq_length_filter, ← encard_setOf_mem hnodup,
    ← hinjective.encard_image]
  apply congrArg Set.encard
  ext ⟨found, index⟩
  simp only [Set.mem_image, Set.mem_ofPred_eq, List.mem_filter, mem_keys, Address.mk.injEq,
    decide_eq_true_eq]
  constructor
  · rintro ⟨_, hcontains, rfl, rfl⟩
    exact ⟨hcontains, rfl⟩
  · rintro ⟨hcontains, rfl⟩
    exact ⟨index, hcontains, rfl, rfl⟩

private theorem countP_or_of_disjoint {α : Type} {p q : α → Bool} {list : List α}
    (h : ∀ a ∈ list, p a = true → q a = false) :
    list.countP (fun a => p a || q a) = list.countP p + list.countP q := by
  induction list with
  | nil => rfl
  | cons a list ih =>
      obtain ⟨hfirst, hrest⟩ := List.forall_mem_cons.mp h
      simp only [List.countP_cons, ih hrest]
      cases hp : p a with
      | false =>
          rw [Bool.false_or, if_neg Bool.false_ne_true]
          omega
      | true =>
          rw [Bool.true_or, hfirst hp, if_pos rfl, if_neg Bool.false_ne_true]
          omega

/-- Names that are listed once each are counted apart. -/
theorem sum_count_eq_countP (bag : Bag) {names : List String} (hnames : names.Nodup) :
    (names.map bag.count).sum = bag.keys.countP fun address => address.name ∈ names := by
  induction names with
  | nil => simp
  | cons name names ih =>
      obtain ⟨hfresh, hnames⟩ := List.nodup_cons.mp hnames
      have hapart : ∀ address ∈ bag.keys, decide (address.name = name) = true →
          decide (address.name ∈ names) = false := by
        intro address _ hname
        rw [of_decide_eq_true hname]
        exact decide_eq_false hfresh
      rw [List.map_cons, List.sum_cons, ih hnames, count_eq_countP_keys,
        ← countP_or_of_disjoint hapart]
      exact List.countP_congr fun address _ => by simp

theorem sum_count_eq_size (bag : Bag) {names : List String} (hnames : names.Nodup)
    (hall : ∀ address, bag.contains address = true → address.name ∈ names) :
    (names.map bag.count).sum = bag.size := by
  rw [sum_count_eq_countP bag hnames, size_eq_length_keys, List.countP_eq_length]
  intro address haddress
  exact decide_eq_true (hall address (mem_keys.mp haddress))

theorem isEmpty_iff_size (bag : Bag) : bag.isEmpty = true ↔ bag.size = 0 := by
  rw [isEmpty, List.isEmpty_iff, size, List.length_eq_zero_iff]

end Numbers

/-- One address more, which shows in the size and under its own name. -/
structure HasOneMore (address : Address) (bag larger : Bag) : Prop where
  size : larger.size = bag.size + 1
  own : larger.count address.name = bag.count address.name + 1
  others : ∀ name, name ≠ address.name → larger.count name = bag.count name

structure HasAsMany (bag other : Bag) : Prop where
  size : other.size = bag.size
  counts : ∀ name, other.count name = bag.count name

section Changes

variable {bag other : Bag} {address : Address}

theorem hasOneMore_of_perm (h : other.keys.Perm (address :: bag.keys)) :
    HasOneMore address bag other where
  size := by
    rw [size_eq_length_keys, h.length_eq, List.length_cons, size_eq_length_keys]
  own := by
    have hown : decide (address.name = address.name) = true := decide_eq_true rfl
    rw [count_eq_countP_keys, h.countP_eq, List.countP_cons, if_pos hown, count_eq_countP_keys]
  others name hname := by
    have hother : ¬ decide (address.name = name) = true := by simpa using hname.symm
    rw [count_eq_countP_keys, h.countP_eq, List.countP_cons, if_neg hother, Nat.add_zero,
      count_eq_countP_keys]

theorem hasAsMany_of_perm (h : other.keys.Perm bag.keys) : HasAsMany bag other where
  size := by rw [size_eq_length_keys, h.length_eq, size_eq_length_keys]
  counts name := by rw [count_eq_countP_keys, h.countP_eq, count_eq_countP_keys]

theorem keys_erase (bag : Bag) (address : Address) :
    (bag.erase address).keys = bag.keys.erase address := by
  have hothers : (bag.erase address).keys = (bag.others address).map Prod.fst := rfl
  rw [hothers, bag.nodup_keys.erase_eq_filter, others, keys, List.filter_map]
  apply congrArg (List.map Prod.fst)
  apply List.filter_congr
  intro entry _
  by_cases haddress : entry.1 = address
  · simp [haddress]
  · simp [haddress]

theorem keys_put (bag : Bag) (address : Address) (slot : Slot) :
    (bag.put address slot).keys = address :: bag.keys.erase address :=
  congrArg (List.cons address) (bag.keys_erase address)

theorem exists_put_of_not_isRemove {change : Change} (hkept : change.isRemove = false) (bag : Bag) :
    ∃ slot, (bag.apply change).2 = bag.put change.address slot := by
  cases change with
  | set address value => exact ⟨_, rfl⟩
  | setStatus address status => exact ⟨_, rfl⟩
  | remove address => cases hkept

theorem hasOneMore_put (hfresh : bag.contains address = false) (slot : Slot) :
    HasOneMore address bag (bag.put address slot) := by
  apply hasOneMore_of_perm
  have hmem : address ∉ bag.keys := by simpa [mem_keys] using hfresh
  rw [keys_put, List.erase_of_not_mem hmem]

theorem hasAsMany_put (hcontains : bag.contains address = true) (slot : Slot) :
    HasAsMany bag (bag.put address slot) := by
  apply hasAsMany_of_perm
  rw [keys_put]
  exact (List.perm_cons_erase (mem_keys.mpr hcontains)).symm

theorem hasOneMore_erase (hcontains : bag.contains address = true) :
    HasOneMore address (bag.erase address) bag := by
  apply hasOneMore_of_perm
  rw [keys_erase]
  exact List.perm_cons_erase (mem_keys.mpr hcontains)

theorem hasAsMany_erase (hfresh : bag.contains address = false) :
    HasAsMany bag (bag.erase address) := by
  apply hasAsMany_of_perm
  have hmem : address ∉ bag.keys := by simpa [mem_keys] using hfresh
  rw [keys_erase, List.erase_of_not_mem hmem]

end Changes

/--
The size of a bag after a run is the number of the addresses that it contains, and the count of a
name is the number of the indices in use under it, so the counts of all names add up to the size.
One more change makes both one larger if it brings a new address, one smaller if it removes one that
is there, and leaves them alone otherwise; the counts of other names never change.
-/
theorem run_size_and_counts (changes : List Change) :
    let bag := run changes empty
    {address | bag.contains address = true}.encard = bag.size ∧
      (∀ name, {index | bag.contains ⟨name, index⟩ = true}.encard = bag.count name) ∧
      (∀ names : List String, names.Nodup →
        (∀ address, bag.contains address = true → address.name ∈ names) →
          (names.map bag.count).sum = bag.size) ∧
      (bag.isEmpty = true ↔ bag.size = 0) ∧
      ∀ change,
        let after := run (changes ++ [change]) empty
        (change.isRemove = false → bag.contains change.address = false →
          HasOneMore change.address bag after) ∧
        (change.isRemove = false → bag.contains change.address = true → HasAsMany bag after) ∧
        (change.isRemove = true → bag.contains change.address = true →
          HasOneMore change.address after bag) ∧
        (change.isRemove = true → bag.contains change.address = false → HasAsMany bag after) := by
  intro bag
  refine ⟨bag.encard_contains, bag.encard_indices, fun names => bag.sum_count_eq_size,
    bag.isEmpty_iff_size, fun change => ?_⟩
  intro after
  have hafter : after = (bag.apply change).2 := run_concat changes change empty
  have hremoval (hremove : change.isRemove = true) : after = bag.erase change.address := by
    cases change with
    | set address value => cases hremove
    | setStatus address status => cases hremove
    | remove address => exact hafter
  refine ⟨fun hkept hfresh => ?_, fun hkept hcontains => ?_, fun hremove hcontains => ?_,
    fun hremove hfresh => ?_⟩
  · obtain ⟨slot, hput⟩ := exists_put_of_not_isRemove hkept bag
    rw [hafter, hput]
    exact hasOneMore_put hfresh slot
  · obtain ⟨slot, hput⟩ := exists_put_of_not_isRemove hkept bag
    rw [hafter, hput]
    exact hasAsMany_put hcontains slot
  · rw [hremoval hremove]
    exact hasOneMore_erase hcontains
  · rw [hremoval hremove]
    exact hasAsMany_erase hfresh

end PanelRelay.Property.Bag
