import Mathlib.Data.List.DropRight
import PanelRelay.Property.Bag

/-!
What a bag answers after any run of changes. An address remembers what was done to it since it was
last removed, and nothing of what was done elsewhere.
-/

namespace PanelRelay.Property.Bag

namespace Change

def address : Change → Address
  | .set address _ => address
  | .setStatus address _ => address
  | .remove address => address

def isRemove : Change → Bool
  | .set _ _ => false
  | .setStatus _ _ => false
  | .remove _ => true

/-- The status that its address reports right after a change. -/
def status : Change → Status
  | .set _ _ => .ok
  | .setStatus _ status => status
  | .remove _ => .notAvailable

def value? : Change → Option Value
  | .set _ value => some value
  | .setStatus _ _ => none
  | .remove _ => none

/-- What a change makes of the slot at its address. -/
def next (slot : Option Slot) : Change → Option Slot
  | .set _ value => some { status := .ok, value := some value }
  | .setStatus _ status => some { status, value := slot.bind Slot.value }
  | .remove _ => none

end Change

def changesAt (address : Address) (changes : List Change) : List Change :=
  changes.filter fun change => change.address = address

/-- The changes at some addresses, in the order in which they were made. -/
def changesAmong (addresses : List Address) (changes : List Change) : List Change :=
  changes.filter fun change => change.address ∈ addresses

/-- The changes at an address behind the last removal there. -/
def recent (address : Address) (changes : List Change) : List Change :=
  (changesAt address changes).rtakeWhile fun change => !change.isRemove

/-- The status after the last of some changes at one address. -/
def lastStatus (changes : List Change) : Status :=
  changes.getLast?.elim .notAvailable Change.status

/-- The value that was set last, whatever statuses came after it. -/
def lastValue? (changes : List Change) : Option Value :=
  (changes.filterMap Change.value?).getLast?

/-- The slot that changes without a removal among them leave at their address. -/
def left (changes : List Change) : Option Slot :=
  if changes = [] then none
  else some { status := lastStatus changes, value := lastValue? changes }

theorem slot?_apply (bag : Bag) (change : Change) (address : Address) :
    (bag.apply change).2.slot? address =
      if change.address = address then change.next (bag.slot? address)
      else bag.slot? address := by
  cases change with
  | set place value => simp [apply, set, Change.address, Change.next, eq_comm]
  | setStatus place status =>
      by_cases hplace : place = address
      · simp [apply, setStatus, Change.address, Change.next, hplace]
      · simp [apply, setStatus, Change.address, hplace, Ne.symm hplace]
  | remove place => simp [apply, remove, Change.address, Change.next, eq_comm]

theorem run_concat (changes : List Change) (change : Change) (bag : Bag) :
    run (changes ++ [change]) bag = ((run changes bag).apply change).2 := by
  simp [run]

section Recent

variable {address : Address} {change : Change} (changes : List Change)

theorem recent_concat_elsewhere (hplace : change.address ≠ address) :
    recent address (changes ++ [change]) = recent address changes := by
  simp [recent, changesAt, hplace]

theorem recent_concat_removal (hplace : change.address = address)
    (hremoval : change.isRemove = true) : recent address (changes ++ [change]) = [] := by
  simp [recent, changesAt, hplace, hremoval]

theorem recent_concat_kept (hplace : change.address = address)
    (hkept : change.isRemove = false) :
    recent address (changes ++ [change]) = recent address changes ++ [change] := by
  simp [recent, changesAt, hplace, hkept]

theorem recent_changesAt : recent address (changesAt address changes) = recent address changes := by
  simp [recent, changesAt]

theorem changesAt_changesAmong {addresses : List Address} (h : address ∈ addresses) :
    changesAt address (changesAmong addresses changes) = changesAt address changes := by
  rw [changesAt, changesAt, changesAmong, List.filter_filter]
  refine List.filter_congr fun change _ => ?_
  by_cases hplace : change.address = address
  · simp [hplace, h]
  · simp [hplace]

end Recent

@[simp] theorem lastStatus_concat (changes : List Change) (change : Change) :
    lastStatus (changes ++ [change]) = change.status := by
  simp [lastStatus]

theorem lastValue?_concat (changes : List Change) (change : Change) :
    lastValue? (changes ++ [change]) = change.value?.or (lastValue? changes) := by
  cases hvalue : change.value? with
  | none => simp [lastValue?, hvalue]
  | some value => simp [lastValue?, List.filterMap_append, hvalue]

theorem left_bind_value (changes : List Change) :
    (left changes).bind Slot.value = lastValue? changes := by
  by_cases hempty : changes = []
  · subst hempty
    rfl
  · rw [left, if_neg hempty, Option.bind_some]

/-- One more change does to what is left what it does to a slot. -/
theorem left_concat (changes : List Change) {change : Change} (hkept : change.isRemove = false) :
    left (changes ++ [change]) = change.next (left changes) := by
  rw [left, if_neg (by simp), lastStatus_concat, lastValue?_concat]
  cases change with
  | set place value => rfl
  | setStatus place status => simp [Change.next, Change.status, Change.value?, left_bind_value]
  | remove place => cases hkept

/-- The invariant of a run: each slot is what the recent changes at its address leave. -/
theorem slot?_run (changes : List Change) (address : Address) :
    (run changes empty).slot? address = left (recent address changes) := by
  induction changes using List.reverseRecOn with
  | nil => rfl
  | append_singleton changes change ih =>
      rw [run_concat, slot?_apply, ih]
      by_cases hplace : change.address = address
      · rw [if_pos hplace]
        cases change with
        | set place value => rw [recent_concat_kept changes hplace rfl, left_concat _ rfl]
        | setStatus place status => rw [recent_concat_kept changes hplace rfl, left_concat _ rfl]
        | remove place =>
            rw [recent_concat_removal changes hplace rfl]
            rfl
      · rw [if_neg hplace, recent_concat_elsewhere changes hplace]

/-- At the addresses among which changes are kept, the others may as well not have been made. -/
theorem slot?_run_changesAmong {addresses : List Address} {address : Address}
    (h : address ∈ addresses) (changes : List Change) :
    (run (changesAmong addresses changes) empty).slot? address =
      (run changes empty).slot? address := by
  rw [slot?_run, slot?_run, recent, recent, changesAt_changesAmong changes h]

/--
What a bag answers after a run from the empty bag. At each address only the changes behind the last
removal there count: the address is known if there is one, its status is what the last of them says,
and its value is the one that was set last among them; that value is also what a removal returns.
The run of the changes at this address alone answers alike.
-/
theorem run_answers_from_recent_changes (changes : List Change) (address : Address) :
    ((run changes empty).contains address = true ↔ recent address changes ≠ []) ∧
      (run changes empty).store.status address = lastStatus (recent address changes) ∧
      (∀ kind, (run changes empty).store.value address kind =
        lastValue? (recent address changes)) ∧
      (∀ kind, ((run changes empty).apply (.remove address)).1 =
        (run changes empty).store.value address kind) ∧
      (run (changesAt address changes) empty).contains address =
        (run changes empty).contains address ∧
      (run (changesAt address changes) empty).store.status address =
        (run changes empty).store.status address ∧
      (∀ kind, (run (changesAt address changes) empty).store.value address kind =
        (run changes empty).store.value address kind) := by
  have halone : (run (changesAt address changes) empty).slot? address =
      (run changes empty).slot? address := by
    rw [slot?_run, slot?_run, recent_changesAt]
  refine ⟨?_, ?_, ?_, fun _ => rfl, ?_, ?_, ?_⟩
  · by_cases hrecent : recent address changes = []
    · simp [contains, slot?_run, left, hrecent]
    · simp [contains, slot?_run, left, hrecent]
  · by_cases hrecent : recent address changes = []
    · simp [store, status, slot?_run, left, lastStatus, hrecent]
    · simp [store, status, slot?_run, left, hrecent]
  · intro kind
    rw [← left_bind_value, ← slot?_run]
    rfl
  · rw [contains, contains, halone]
  · exact congrArg (Option.elim · .notAvailable Slot.status) halone
  · intro kind
    exact congrArg (Option.bind · Slot.value) halone

end PanelRelay.Property.Bag
