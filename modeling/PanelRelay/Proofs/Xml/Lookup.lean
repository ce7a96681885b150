import PanelRelay.Xml.Node

/-!
What is found in an element when a node or an attribute is put in, or when one child takes the place
of another. A lookup by name sees the first child of that name only, and of the attributes only those
that are called so.
-/

namespace PanelRelay.Xml

namespace Element

def node (element : Element) : Node :=
  .element element.tag element.children

@[simp] theorem element?_node (element : Element) : element.node.element? = some element := rfl

variable {front back : List Node} {node : Node}

theorem elements_append (tag : Tag) (front back : List Node) :
    elements { tag, children := front ++ back } =
      front.filterMap Node.element? ++ back.filterMap Node.element? :=
  List.filterMap_append

theorem elements_insert (tag : Tag) (front back : List Node) (node : Node) :
    elements { tag, children := front ++ node :: back } =
      front.filterMap Node.element? ++ (node.element?.toList ++ back.filterMap Node.element?) := by
  rw [elements_append]
  cases hnode : node.element? with
  | none => rw [List.filterMap_cons_none hnode, Option.toList_none, List.nil_append]
  | some element => rw [List.filterMap_cons_some hnode, Option.toList_some, List.singleton_append]

/-- A node is not found by a name if it has another one, or an element of that name comes first. -/
theorem child?_insert {name : String}
    (h : ∀ element, node.element? = some element → element.name = name →
      ∃ earlier ∈ front.filterMap Node.element?, earlier.name = name) (tag : Tag) :
    child? { tag, children := front ++ node :: back } name =
      child? { tag, children := front ++ back } name := by
  rw [child?, child?, elements_insert, elements_append, List.find?_append, List.find?_append,
    List.find?_append]
  cases hfront : (front.filterMap Node.element?).find? fun child => child.name = name with
  | some element => rfl
  | none =>
      have hnone := List.find?_eq_none.mp hfront
      cases hnode : node.element? with
      | none => rfl
      | some element =>
          have hname : element.name ≠ name := by
            intro heq
            obtain ⟨earlier, hearlier, hsame⟩ := h element hnode heq
            exact hnone earlier hearlier (decide_eq_true hsame)
          rw [Option.toList_some, List.find?_singleton, if_neg (by simpa using hname),
            Option.none_or]

/-- Two children of one name are found alike, so that only what is read off them can differ. -/
theorem map_child?_replace {α : Type} (read : Element → α) {name : String}
    {child edited : Element} (hname : edited.name = child.name)
    (hread : child.name = name → read edited = read child) (tag : Tag) :
    (child? { tag, children := front ++ edited.node :: back } name).map read =
      (child? { tag, children := front ++ child.node :: back } name).map read := by
  simp only [child?, elements_insert, element?_node, Option.toList_some, List.singleton_append,
    List.find?_append]
  cases hfront : (front.filterMap Node.element?).find? fun child => child.name = name with
  | some element => rfl
  | none =>
      by_cases hmatch : child.name = name
      · simp [hname, hmatch, hread hmatch]
      · simp [hname, hmatch]

theorem text_insert (h : node.ownText = []) (tag : Tag) :
    text { tag, children := front ++ node :: back } =
      text { tag, children := front ++ back } := by
  simp [text, h]

end Element

/-- Whether a base name is what a lookup by that name takes. -/
def isCalled (name base : String) : Bool :=
  base = name || afterColon base = name

namespace Tag

/-- The values by base name behind one more attribute. -/
def keep (values : List (String × String)) (item : Attribute) : List (String × String) :=
  values.filter (fun entry => entry.1 ≠ item.name.base) ++ [(item.name.base, item.value)]

theorem values_eq (tag : Tag) : tag.values = tag.ordinary.foldl keep [] := rfl

theorem filter_keep_of_called {name : String} {item : Attribute}
    (hcalled : isCalled name item.name.base = true) (values : List (String × String)) :
    (keep values item).filter (fun entry => isCalled name entry.1) =
      keep (values.filter fun entry => isCalled name entry.1) item := by
  simp [keep, hcalled, List.filter_filter, Bool.and_comm]

theorem filter_keep_of_not_called {name : String} {item : Attribute}
    (hcalled : isCalled name item.name.base = false) (values : List (String × String)) :
    (keep values item).filter (fun entry => isCalled name entry.1) =
      values.filter fun entry => isCalled name entry.1 := by
  have hother : ∀ entry : String × String,
      (isCalled name entry.1 && decide (entry.1 ≠ item.name.base)) = isCalled name entry.1 := by
    intro entry
    by_cases heq : entry.1 = item.name.base
    · rw [heq, hcalled, Bool.false_and]
    · simp [heq]
  simp only [keep, List.filter_append, List.filter_filter, hother]
  simp [hcalled]

theorem filter_foldl_keep (name : String) (items : List Attribute)
    (values : List (String × String)) :
    (items.foldl keep values).filter (fun entry => isCalled name entry.1) =
      (items.filter fun item => isCalled name item.name.base).foldl keep
        (values.filter fun entry => isCalled name entry.1) := by
  induction items generalizing values with
  | nil => rfl
  | cons item items ih =>
      rw [List.foldl_cons, ih, List.filter_cons]
      cases hcalled : isCalled name item.name.base with
      | true => rw [filter_keep_of_called hcalled, if_pos rfl, List.foldl_cons]
      | false => rw [filter_keep_of_not_called hcalled, if_neg Bool.false_ne_true]

/-- Only attributes that are called so, and declare no prefix, have a part in a lookup. -/
theorem value?_eq (tag : Tag) (name : String) :
    tag.value? name =
      (((tag.ordinary.filter fun item => isCalled name item.name.base).foldl keep []).head?).map
        Prod.snd := by
  have hfound : tag.value? name =
      ((tag.values.filter fun entry => isCalled name entry.1).head?).map Prod.snd := by
    rw [List.head?_filter]
    rfl
  rw [hfound, values_eq, filter_foldl_keep, List.filter_nil]

theorem value?_insert {name : String} {item : Attribute}
    (h : item.declared?.isNone = true → isCalled name item.name.base = false) (tagName : Name)
    (before after : List Attribute) :
    value? { name := tagName, attributes := before ++ item :: after } name =
      value? { name := tagName, attributes := before ++ after } name := by
  have hpassed : (isCalled name item.name.base && item.declared?.isNone) = false := by
    cases hdeclared : item.declared?.isNone with
    | false => rw [Bool.and_false]
    | true => rw [h hdeclared, Bool.false_and]
  simp only [value?_eq, ordinary, List.filter_filter, List.filter_append]
  rw [List.filter_cons_of_neg (by rw [hpassed]; decide)]

end Tag

end PanelRelay.Xml
