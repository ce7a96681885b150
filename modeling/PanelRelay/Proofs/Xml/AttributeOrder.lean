import Mathlib.Data.List.Nodup
import Mathlib.Data.List.TakeWhile
import PanelRelay.Proofs.Xml.LocalNames
import PanelRelay.Proofs.Xml.Lookup

/-!
Values of attributes in any order. They are kept by base names, of which no two are equal, and none
has a colon; so a lookup finds the one value that is called so wherever it stands.
-/

namespace PanelRelay.Xml

theorem isCalled_iff_of_isLocal {base name : String} (h : ':' ∉ base.toList) :
    isCalled name base = true ↔ base = name := by
  have hkept : base.toList.reverse.takeWhile (· ≠ ':') = base.toList.reverse := by
    rw [List.takeWhile_eq_self_iff]
    intro c hc
    simpa using fun heq : c = ':' => h (heq ▸ List.mem_reverse.mp hc)
  have hbehind : afterColon base = base := by
    rw [afterColon, hkept, List.reverse_reverse, String.ofList_toList]
  rw [isCalled, hbehind, Bool.or_self, decide_eq_true_eq]

theorem find?_eq_of_perm {α : Type} {p : α → Bool} {items others : List α}
    (hperm : others.Perm items) (hfew : (items.filter p).length ≤ 1) :
    others.find? p = items.find? p := by
  have hfound := hperm.filter p
  rw [← List.head?_filter, ← List.head?_filter]
  cases hcase : items.filter p with
  | nil =>
      rw [hcase] at hfound
      rw [hfound.eq_nil]
  | cons first rest =>
      rw [hcase] at hfew hfound
      obtain rfl : rest = [] := by simpa using hfew
      rw [List.perm_singleton.mp hfound]

namespace Tag

variable {tag other : Tag}

theorem nodup_keys_foldl_keep (items : List Attribute) {values : List (String × String)}
    (h : (values.map Prod.fst).Nodup) : ((items.foldl keep values).map Prod.fst).Nodup := by
  induction items generalizing values with
  | nil => exact h
  | cons item items ih =>
      refine ih ?_
      rw [keep, List.map_append, List.map_singleton, List.nodup_append]
      refine ⟨h.sublist (List.filter_sublist.map _), List.nodup_singleton _, ?_⟩
      rintro key hkey _ hlast rfl
      obtain ⟨entry, hentry, rfl⟩ := List.mem_map.mp hkey
      have hother := (List.mem_filter.mp hentry).2
      simp [List.mem_singleton.mp hlast] at hother

theorem nodup_keys_values (tag : Tag) : (tag.values.map Prod.fst).Nodup :=
  nodup_keys_foldl_keep tag.ordinary List.nodup_nil

theorem forall_keys_foldl_keep {P : String → Prop} {items : List Attribute}
    {values : List (String × String)} (hitems : ∀ item ∈ items, P item.name.base)
    (hvalues : ∀ entry ∈ values, P entry.1) : ∀ entry ∈ items.foldl keep values, P entry.1 := by
  induction items generalizing values with
  | nil => exact hvalues
  | cons item items ih =>
      obtain ⟨hitem, hitems⟩ := List.forall_mem_cons.mp hitems
      refine ih hitems (List.forall_mem_append.mpr ⟨?_, List.forall_mem_singleton.mpr hitem⟩)
      exact fun entry hentry => hvalues entry (List.mem_filter.mp hentry).1

theorem HasLocalNames.keys (h : tag.HasLocalNames) :
    ∀ entry ∈ tag.values, ':' ∉ entry.1.toList := by
  have hitems : ∀ item ∈ tag.ordinary, ':' ∉ item.name.base.toList :=
    fun item hitem => h item (List.mem_filter.mp hitem).1
  exact forall_keys_foldl_keep (P := fun key => ':' ∉ key.toList) hitems nofun

/-- Of the keys that are kept at most one is called by a name. -/
def AnswersOnce (tag : Tag) : Prop :=
  ∀ name, (tag.values.filter fun entry => isCalled name entry.1).length ≤ 1

theorem HasLocalNames.answersOnce (h : tag.HasLocalNames) : tag.AnswersOnce := by
  intro name
  have hcalled : (tag.values.filter fun entry => isCalled name entry.1) =
      tag.values.filter fun entry => entry.1 = name := by
    refine List.filter_congr fun entry hentry => ?_
    rw [Bool.eq_iff_iff, isCalled_iff_of_isLocal (h.keys entry hentry), decide_eq_true_eq]
  have hcount := List.nodup_iff_count_le_one.mp tag.nodup_keys_values name
  rw [List.count_eq_countP, List.countP_map, List.countP_eq_length_filter] at hcount
  rw [hcalled]
  exact hcount

theorem value?_eq_of_perm (h : tag.HasLocalNames) (hvalues : other.values.Perm tag.values)
    (name : String) : other.value? name = tag.value? name :=
  congrArg (Option.map Prod.snd) (find?_eq_of_perm hvalues (h.answersOnce name))

theorem foldl_keep_eq_append {items : List Attribute} {values : List (String × String)}
    (h : (values.map Prod.fst ++ items.map fun item => item.name.base).Nodup) :
    items.foldl keep values = values ++ items.map fun item => (item.name.base, item.value) := by
  induction items generalizing values with
  | nil => simp
  | cons item items ih =>
      have hapart : ∀ entry ∈ values, decide (entry.1 ≠ item.name.base) = true := by
        intro entry hentry
        have hdisjoint := (List.nodup_append.mp h).2.2 entry.1 (List.mem_map_of_mem hentry)
          item.name.base (by simp)
        simpa using hdisjoint
      have hkeep : keep values item = values ++ [(item.name.base, item.value)] := by
        rw [keep, List.filter_eq_self.mpr hapart]
      rw [List.foldl_cons, hkeep, ih (by simpa using h), List.map_cons, List.append_assoc]
      rfl

/-- Where no base name occurs twice, every attribute is kept. -/
theorem values_eq_map (h : (tag.ordinary.map fun item => item.name.base).Nodup) :
    tag.values = tag.ordinary.map fun item => (item.name.base, item.value) :=
  foldl_keep_eq_append h

theorem values_perm_of_attributes_perm (hperm : other.attributes.Perm tag.attributes)
    (h : (tag.ordinary.map fun item => item.name.base).Nodup) : other.values.Perm tag.values := by
  have hordinary : other.ordinary.Perm tag.ordinary := hperm.filter _
  have hunique : (other.ordinary.map fun item => item.name.base).Nodup :=
    (hordinary.map _).nodup_iff.mpr h
  rw [values_eq_map h, values_eq_map hunique]
  exact hordinary.map _

/-- A tag that keeps the values as they are listed. -/
def listing (name : Name) (values : List (String × String)) : Tag where
  name := name
  attributes := values.map fun entry => { name := .qualified "p" entry.1, value := entry.2 }

theorem values_listing (name : Name) {values : List (String × String)}
    (h : (values.map Prod.fst).Nodup) : (listing name values).values = values := by
  have hordinary : (listing name values).ordinary = (listing name values).attributes := by
    rw [ordinary, List.filter_eq_self]
    intro item hitem
    obtain ⟨entry, -, rfl⟩ := List.mem_map.mp hitem
    rfl
  have hkeys : ((listing name values).attributes.map fun item => item.name.base) =
      values.map Prod.fst := by
    rw [listing, List.map_map]
    rfl
  rw [← hkeys, ← hordinary] at h
  rw [values_eq_map h, hordinary, listing, List.map_map]
  exact List.map_id' values

/-- Whatever order the values of a tag are listed in, there is a tag that keeps them so. -/
theorem exists_values_eq {values : List (String × String)} (h : values.Perm tag.values) :
    ∃ other : Tag, other.name = tag.name ∧ other.values = values :=
  ⟨listing tag.name values, rfl,
    values_listing tag.name ((h.map _).nodup_iff.mpr tag.nodup_keys_values)⟩

end Tag

end PanelRelay.Xml
