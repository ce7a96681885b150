import Mathlib.Data.List.TakeWhile
import PanelRelay.Proofs.Xml.Lookup

/-!
Trees without prefixes. Names shrink to their bases, declarations of prefixes go, and of the name of
a type what stands behind the colon is left; all that is found by base names stays where it was.
-/

namespace PanelRelay.Xml

/-- The value of an attribute called `type` is a name itself. -/
def Attribute.unprefixed (item : Attribute) : Attribute where
  name := .plain item.name.base
  value := if isCalled "type" item.name.base then afterColon item.value else item.value

def Tag.unprefixed (tag : Tag) : Tag where
  name := .plain tag.name.base
  attributes := tag.ordinary.map Attribute.unprefixed

mutual

def Node.unprefixed : Node → Node
  | .element tag children => .element tag.unprefixed (unprefixed children)
  | node => node

def unprefixed : List Node → List Node
  | [] => []
  | node :: nodes => node.unprefixed :: unprefixed nodes

end

def Element.unprefixed (element : Element) : Element where
  tag := element.tag.unprefixed
  children := PanelRelay.Xml.unprefixed element.children

theorem unprefixed_eq_map (nodes : List Node) : unprefixed nodes = nodes.map Node.unprefixed := by
  induction nodes with
  | nil => rfl
  | cons node nodes ih => rw [unprefixed, ih, List.map_cons]

theorem Node.element?_unprefixed (node : Node) :
    node.unprefixed.element? = node.element?.map Element.unprefixed := by
  cases node <;> rfl

theorem Node.ownText_unprefixed (node : Node) : node.unprefixed.ownText = node.ownText := by
  cases node <;> rfl

theorem afterColon_afterColon (text : String) : afterColon (afterColon text) = afterColon text := by
  rw [afterColon, afterColon, String.toList_ofList, List.reverse_reverse, List.takeWhile_idem]

theorem afterColon_of_isCalled {name base : String} (hname : afterColon name = name)
    (h : isCalled name base = true) : afterColon base = name := by
  rw [isCalled, Bool.or_eq_true, decide_eq_true_eq, decide_eq_true_eq] at h
  rcases h with rfl | h
  · exact hname
  · exact h

namespace Tag

theorem filter_called_unprefixed {name : String} (hname : isCalled name "xmlns" = false) (tag : Tag) :
    (tag.unprefixed.ordinary.filter fun item => isCalled name item.name.base) =
      (tag.ordinary.filter fun item => isCalled name item.name.base).map Attribute.unprefixed := by
  have hkept : ∀ item : Attribute,
      (isCalled name item.name.base && item.unprefixed.declared?.isNone) =
        isCalled name item.name.base := by
    intro item
    by_cases hbase : item.name.base = "xmlns"
    · rw [hbase, hname, Bool.false_and]
    · simp [Attribute.unprefixed, Attribute.declared?, Name.plain, hbase]
  rw [Tag.ordinary, Tag.unprefixed, List.filter_filter, List.filter_map]
  exact congrArg _ (List.filter_congr fun item _ => hkept item)

/-- Changing the values kept comes to the same as changing them beforehand. -/
theorem foldl_keep_map {f : Attribute → Attribute} {g : String → String} {items : List Attribute}
    (hitems : ∀ item ∈ items, (f item).name.base = item.name.base ∧ (f item).value = g item.value)
    (values : List (String × String)) :
    (items.map f).foldl keep (values.map fun entry => (entry.1, g entry.2)) =
      (items.foldl keep values).map fun entry => (entry.1, g entry.2) := by
  induction items generalizing values with
  | nil => rfl
  | cons item items ih =>
      obtain ⟨⟨hbase, hvalue⟩, hitems⟩ := List.forall_mem_cons.mp hitems
      have hfirst : keep (values.map fun entry => (entry.1, g entry.2)) (f item) =
          (keep values item).map fun entry => (entry.1, g entry.2) := by
        simp [keep, hbase, hvalue, List.filter_map, Function.comp_def]
      rw [List.map_cons, List.foldl_cons, hfirst, ih hitems, List.foldl_cons]

theorem value?_unprefixed {name : String} {g : String → String}
    (hname : isCalled name "xmlns" = false)
    (hvalues : ∀ item : Attribute, isCalled name item.name.base = true →
      item.unprefixed.value = g item.value) (tag : Tag) :
    tag.unprefixed.value? name = (tag.value? name).map g := by
  have hitems : ∀ item ∈ tag.ordinary.filter fun item => isCalled name item.name.base,
      item.unprefixed.name.base = item.name.base ∧ item.unprefixed.value = g item.value :=
    fun item hitem => ⟨rfl, hvalues item (List.mem_filter.mp hitem).2⟩
  have hkept := foldl_keep_map hitems []
  rw [List.map_nil] at hkept
  rw [value?_eq, value?_eq, filter_called_unprefixed hname, hkept, List.head?_map, Option.map_map,
    Option.map_map]
  rfl

theorem nil_unprefixed (tag : Tag) : tag.unprefixed.value? "nil" = tag.value? "nil" := by
  have hvalues : ∀ item : Attribute, isCalled "nil" item.name.base = true →
      item.unprefixed.value = id item.value := by
    intro item hitem
    have hnil := afterColon_of_isCalled (by decide) hitem
    have htype : isCalled "type" item.name.base = false := by
      rw [← Bool.not_eq_true]
      intro h
      rw [afterColon_of_isCalled (by decide) h] at hnil
      exact absurd hnil (by decide)
    exact if_neg (by rw [htype]; exact Bool.false_ne_true)
  rw [value?_unprefixed (by decide) hvalues, Option.map_id_apply]

theorem type_unprefixed (tag : Tag) :
    (tag.unprefixed.value? "type").map afterColon = (tag.value? "type").map afterColon := by
  have hvalues : ∀ item : Attribute, isCalled "type" item.name.base = true →
      item.unprefixed.value = afterColon item.value := fun item hitem => if_pos hitem
  rw [value?_unprefixed (by decide) hvalues, Option.map_map]
  exact congrArg (Option.map · _) (funext afterColon_afterColon)

end Tag

namespace Element

variable (element : Element)

theorem name_unprefixed : element.unprefixed.name = element.name := rfl

theorem text_unprefixed : element.unprefixed.text = element.text := by
  simp only [text, unprefixed, unprefixed_eq_map, List.flatMap_map, Node.ownText_unprefixed]

theorem elements_unprefixed :
    element.unprefixed.elements = element.elements.map Element.unprefixed := by
  rw [elements, elements, unprefixed, unprefixed_eq_map, List.filterMap_map, List.map_filterMap]
  exact congrArg (List.filterMap · _) (funext Node.element?_unprefixed)

theorem child?_unprefixed (name : String) :
    element.unprefixed.child? name = (element.child? name).map Element.unprefixed := by
  rw [child?, child?, elements_unprefixed, List.find?_map]
  rfl

end Element

end PanelRelay.Xml
