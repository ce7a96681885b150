import PanelRelay.Device.Mac
import PanelRelay.Text.Radix

/-!
The text of a hardware address. It has a group of two upper-case hexadecimal digits for each octet,
in the order of the octets and with colons between them, and no other address has the same groups.
-/

namespace PanelRelay.Device

/-- Two digits, none of them a lower-case letter, for an octet. -/
inductive IsGroup : UInt8 → List Char → Prop
  | digits {octet : UInt8} {front back : Char} {high low : Nat} :
      hexDigit? front = some high → hexDigit? back = some low →
      front.isLower = false → back.isLower = false → octet.toNat = high * 16 + low →
      IsGroup octet [front, back]

/-- Groups for some octets, with a colon between any two. -/
inductive AreGroups : List UInt8 → List Char → Prop
  | last {octet : UInt8} {group : List Char} : IsGroup octet group → AreGroups [octet] group
  | cons {octet : UInt8} {octets : List UInt8} {group rest : List Char} :
      IsGroup octet group → AreGroups octets rest →
      AreGroups (octet :: octets) (group ++ ':' :: rest)

theorem IsGroup.length_eq {octet : UInt8} {group : List Char} (h : IsGroup octet group) :
    group.length = 2 := by
  cases h
  rfl

theorem IsGroup.unique {octet other : UInt8} {group : List Char} (h : IsGroup octet group)
    (hother : IsGroup other group) : octet = other := by
  cases h with
  | digits hfront hback _ _ hoctet =>
      cases hother with
      | digits hfront' hback' _ _ hother =>
          obtain rfl := Option.some.inj (hfront.symm.trans hfront')
          obtain rfl := Option.some.inj (hback.symm.trans hback')
          exact UInt8.toNat_inj.mp (hoctet.trans hother.symm)

theorem AreGroups.length_eq {octets : List UInt8} {text : List Char} (h : AreGroups octets text) :
    text.length + 1 = 3 * octets.length := by
  induction h with
  | last hgroup => simp [hgroup.length_eq]
  | cons hgroup _ ih =>
      simp only [List.length_append, List.length_cons, hgroup.length_eq]
      omega

theorem IsGroup.ne_append {octet other : UInt8} {group front rest : List Char}
    (h : IsGroup octet group) (hother : IsGroup other front) : group ≠ front ++ ':' :: rest := by
  intro heq
  have hlength := congrArg List.length heq
  rw [List.length_append, List.length_cons, h.length_eq, hother.length_eq] at hlength
  omega

theorem AreGroups.inj {octets others : List UInt8} {text other : List Char}
    (h : AreGroups octets text) (hother : AreGroups others other) (heq : text = other) :
    octets = others := by
  induction h generalizing others other with
  | last hgroup =>
      cases hother with
      | last hgroup' => rw [hgroup.unique (heq ▸ hgroup')]
      | cons hgroup' _ => exact absurd heq (hgroup.ne_append hgroup')
  | cons hgroup _ ih =>
      cases hother with
      | last hgroup' => exact absurd heq.symm (hgroup'.ne_append hgroup)
      | cons hgroup' hrest' =>
          obtain ⟨hfront, hrest⟩ := List.append_inj heq (hgroup.length_eq.trans hgroup'.length_eq.symm)
          rw [hgroup.unique (hfront ▸ hgroup'), ih hrest' (List.cons.inj hrest).2]

namespace Mac

theorem hexDigit?_upperDigit : ∀ n < 16, hexDigit? (upperDigit n) = some n := by
  decide

theorem isLower_upperDigit : ∀ n < 16, (upperDigit n).isLower = false := by
  decide

theorem isGroup_group (octet : UInt8) : IsGroup octet (group octet) := by
  have hbound := octet.toNat_lt
  have hhigh : octet.toNat / 16 < 16 := by omega
  have hlow : octet.toNat % 16 < 16 := by omega
  exact .digits (hexDigit?_upperDigit _ hhigh) (hexDigit?_upperDigit _ hlow)
    (isLower_upperDigit _ hhigh) (isLower_upperDigit _ hlow) (by omega)

theorem areGroups_intercalate (octet : UInt8) (octets : List UInt8) :
    AreGroups (octet :: octets) ([':'].intercalate ((octet :: octets).map group)) := by
  induction octets generalizing octet with
  | nil => simpa [List.intercalate] using AreGroups.last (isGroup_group octet)
  | cons next octets ih =>
      simpa [List.intercalate] using AreGroups.cons (isGroup_group octet) (ih next)

theorem areGroups_text (mac : Mac) : AreGroups mac.octets.toList mac.text.toList := by
  obtain ⟨octet, octets, hoctets⟩ :=
    List.exists_cons_of_length_eq_add_one (mac.octets.length_toList : _ = 5 + 1)
  rw [text, String.toList_ofList, hoctets]
  exact areGroups_intercalate octet octets

theorem length_text (mac : Mac) : mac.text.length = 17 := by
  have hlength := mac.areGroups_text.length_eq
  rw [mac.octets.length_toList, String.length_toList] at hlength
  omega

theorem eq_of_areGroups {mac other : Mac} {text : List Char}
    (h : AreGroups mac.octets.toList text) (hother : AreGroups other.octets.toList text) :
    mac = other := by
  have hoctets : mac.octets = other.octets := Vector.toList_inj.mp (h.inj hother rfl)
  exact congrArg Mac.mk hoctets

theorem text_inj {mac other : Mac} (h : mac.text = other.text) : mac = other :=
  eq_of_areGroups (h ▸ mac.areGroups_text) other.areGroups_text

end Mac

end PanelRelay.Device
