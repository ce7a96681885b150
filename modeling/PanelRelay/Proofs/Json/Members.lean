import Mathlib.Data.List.Basic
import PanelRelay.Json.Value

/-!
Members of an object. Looking up a known name does not depend on the order of the members, nor on
members with other names.
-/

namespace PanelRelay.Json

/--
The members come in another order, or there is one more whose name is none of the known ones. The
names that may be added can be restricted.
-/
inductive MemberChange (admits : List Piece → Prop) (known : List String) :
    List (List Piece × Value) → List (List Piece × Value) → Prop
  | reordered {members changed : List (List Piece × Value)} :
      members.Perm changed → MemberChange admits known members changed
  | added {front back : List (List Piece × Value)} {name : List Piece} {value : Value} :
      (∀ field ∈ known, name ≠ pieces field) → admits name →
      MemberChange admits known (front ++ back) (front ++ (name, value) :: back)

@[simp] theorem pieces_inj {text other : String} : pieces text = pieces other ↔ text = other := by
  have hchar : Function.Injective Piece.char := fun _ _ => Piece.char.inj
  rw [pieces, pieces, (List.map_injective_iff.mpr hchar).eq_iff, String.toList_inj]

namespace Value

/-- Only those members count that have the name, in any order. -/
theorem find_eq_of_perm {name : String} {members changed : List (List Piece × Value)}
    (h : (members.filter fun member => member.1 = pieces name).Perm
      (changed.filter fun member => member.1 = pieces name)) :
    find name changed = find name members := by
  rw [find, find]
  cases hfound : members.filter fun member => member.1 = pieces name with
  | nil =>
      rw [hfound] at h
      rw [h.nil_eq.symm]
  | cons first rest =>
      rw [hfound] at h
      cases rest with
      | nil => rw [List.perm_singleton.mp h.symm]
      | cons second rest =>
          have hlength := h.length_eq
          cases hchanged : changed.filter fun member => member.1 = pieces name with
          | nil => simp [hchanged] at hlength
          | cons first' rest' =>
              cases rest' with
              | nil => simp [hchanged] at hlength
              | cons second' rest' => rfl

theorem find_of_other {name : String} {other : List Piece} (h : other ≠ pieces name) (value : Value)
    (front back : List (List Piece × Value)) :
    find name (front ++ (other, value) :: back) = find name (front ++ back) := by
  simp [find, List.filter_append, h]

theorem find_of_split (name : String) (value : Value) (front back : List (List Piece × Value)) :
    find name (front ++ (pieces name, value) :: back) =
      match find name (front ++ back) with
      | .absent => .once value
      | _ => .repeated := by
  have hperm : (front ++ (pieces name, value) :: back).Perm
      ((pieces name, value) :: (front ++ back)) := List.perm_middle
  rw [find_eq_of_perm (hperm.symm.filter _), find, find, List.filter_cons_of_pos (by simp)]
  cases (front ++ back).filter fun member => member.1 = pieces name with
  | nil => rfl
  | cons first rest => cases rest <;> rfl

end Value

theorem MemberChange.find_eq {admits : List Piece → Prop} {known : List String}
    {members changed : List (List Piece × Value)} (h : MemberChange admits known members changed)
    {name : String} (hname : name ∈ known) :
    Value.find name changed = Value.find name members := by
  cases h with
  | reordered hperm => exact Value.find_eq_of_perm (hperm.filter _)
  | added hunknown _ => exact Value.find_of_other (hunknown name hname) _ _ _

end PanelRelay.Json
