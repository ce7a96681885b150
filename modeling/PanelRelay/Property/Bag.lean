import PanelRelay.Property.Store

/-!
A store in memory. An address that was never set reports that it is not available. The order in
which addresses arrived cannot be observed: two bags are the same when they answer alike everywhere.
-/

namespace PanelRelay.Property

structure Slot where
  status : Status
  value : Option Value
  deriving DecidableEq

structure Bag where
  slots : List (Address × Slot) := []
  nodup : (slots.map Prod.fst).Nodup := by simp

namespace Bag

def empty : Bag := {}

def slot? (bag : Bag) (address : Address) : Option Slot :=
  bag.slots.lookup address

def others (bag : Bag) (address : Address) : List (Address × Slot) :=
  bag.slots.filter fun entry => entry.1 ≠ address

theorem nodup_others (bag : Bag) (address : Address) :
    ((bag.others address).map Prod.fst).Nodup :=
  bag.nodup.sublist ((List.filter_sublist).map Prod.fst)

theorem not_mem_others (bag : Bag) (address : Address) :
    address ∉ (bag.others address).map Prod.fst := by
  simp [others]

def put (bag : Bag) (address : Address) (slot : Slot) : Bag where
  slots := (address, slot) :: bag.others address
  nodup := List.nodup_cons.mpr ⟨bag.not_mem_others address, bag.nodup_others address⟩

/-- Stores an available value over whatever was at the address. -/
def set (bag : Bag) (address : Address) (value : Value) : Bag :=
  bag.put address { status := .ok, value := some value }

/-- Changes the status of an address and keeps a value that was stored there. -/
def setStatus (bag : Bag) (address : Address) (status : Status) : Bag :=
  bag.put address { status, value := (bag.slot? address).bind Slot.value }

def erase (bag : Bag) (address : Address) : Bag where
  slots := bag.others address
  nodup := bag.nodup_others address

def contains (bag : Bag) (address : Address) : Bool :=
  (bag.slot? address).isSome

def status (bag : Bag) (address : Address) : Status :=
  (bag.slot? address).elim .notAvailable Slot.status

def value (bag : Bag) (address : Address) : Option Value :=
  (bag.slot? address).bind Slot.value

def remove (bag : Bag) (address : Address) : Option Value × Bag :=
  (bag.value address, bag.erase address)

def size (bag : Bag) : Nat :=
  bag.slots.length

def isEmpty (bag : Bag) : Bool :=
  bag.slots.isEmpty

def count (bag : Bag) (name : String) : Nat :=
  bag.slots.countP fun entry => entry.1.name = name

/-- The view of a bag as a store; the kind asked for is left to the reader to check. -/
def store (bag : Bag) : Store where
  status := bag.status
  value address _ := bag.value address

/-- Whether two bags have the same slot at every address. -/
def same (left right : Bag) : Bool :=
  left.size = right.size && left.slots.all fun entry => right.slot? entry.1 = some entry.2

instance : BEq Bag := ⟨same⟩

/-- A change of a store that is kept by its owner. -/
inductive Change where
  | set (address : Address) (value : Value)
  | setStatus (address : Address) (status : Status)
  | remove (address : Address)

/-- What a change takes out of the bag, and the bag after it. -/
def apply (bag : Bag) : Change → Option Value × Bag
  | .set address value => (none, bag.set address value)
  | .setStatus address status => (none, bag.setStatus address status)
  | .remove address => bag.remove address

def run (changes : List Change) (bag : Bag) : Bag :=
  changes.foldl (fun bag change => (bag.apply change).2) bag

@[simp] theorem slot?_empty (address : Address) : empty.slot? address = none := rfl

theorem lookup_filter_ne (slots : List (Address × Slot)) (removed address : Address) :
    (slots.filter fun entry => entry.1 ≠ removed).lookup address =
      if address = removed then none else slots.lookup address := by
  induction slots with
  | nil => simp
  | cons entry slots ih =>
      obtain ⟨key, slot⟩ := entry
      by_cases hkey : key = removed
      · subst hkey
        by_cases haddress : address = key
        · simpa [haddress] using ih
        · simpa [List.lookup_cons, haddress, beq_eq_false_iff_ne.mpr haddress] using ih
      · by_cases haddress : address = key
        · subst haddress
          simp [hkey]
        · simp [hkey, List.lookup_cons, beq_eq_false_iff_ne.mpr haddress]
          simpa using ih

@[simp] theorem slot?_put (bag : Bag) (place address : Address) (slot : Slot) :
    (bag.put place slot).slot? address =
      if address = place then some slot else bag.slot? address := by
  by_cases h : address = place
  · simp [put, slot?, h]
  · simp only [put, slot?, List.lookup_cons, beq_eq_false_iff_ne.mpr h, others,
      lookup_filter_ne, if_neg h]

@[simp] theorem slot?_erase (bag : Bag) (place address : Address) :
    (bag.erase place).slot? address =
      if address = place then none else bag.slot? address := by
  simp only [erase, slot?, others, lookup_filter_ne]

end Bag

end PanelRelay.Property
