import PanelRelay.Xml.Document

/-!
Texts without a declaration in which no entity is opened. They are read character by character with
nothing left over, so that the tree of a given text can be computed and compared.
-/

namespace PanelRelay.Xml

mutual

def Node.isSame : Node → Node → Bool
  | .element tag children, .element tag' children' => tag = tag' && areSame children children'
  | .text content, .text content' => content = content'
  | .cdata content, .cdata content' => content = content'
  | .comment content, .comment content' => content = content'
  | .instruction target data, .instruction target' data' => target = target' && data = data'
  | _, _ => false

def areSame : List Node → List Node → Bool
  | [], [] => true
  | node :: nodes, node' :: nodes' => node.isSame node' && areSame nodes nodes'
  | _, _ => false

end

mutual

theorem Node.isSame_iff (node node' : Node) : node.isSame node' = true ↔ node = node' := by
  cases node with
  | element tag children =>
      cases node' with
      | element tag' children' => simp [Node.isSame, areSame_iff children children']
      | _ => simp [Node.isSame]
  | _ => cases node' <;> simp [Node.isSame]

theorem areSame_iff (nodes nodes' : List Node) : areSame nodes nodes' = true ↔ nodes = nodes' := by
  cases nodes with
  | nil => cases nodes' <;> simp [areSame]
  | cons node nodes =>
      cases nodes' with
      | nil => simp [areSame]
      | cons node' nodes' => simp [areSame, Node.isSame_iff node node', areSame_iff nodes nodes']

end

instance : DecidableEq Node := fun node node' =>
  decidable_of_iff (node.isSame node' = true) (Node.isSame_iff node node')

deriving instance DecidableEq for Element

namespace Reader

def plainStep? (reader : Reader) (c : Char) : Option Reader :=
  match reader.step? c with
  | some (next, []) => some next
  | _ => none

def readPlain? (reader : Reader) (text : List Char) : Option Reader :=
  text.foldlM plainStep? reader

theorem read?_of_plainStep? {reader next : Reader} {c : Char}
    (h : reader.plainStep? c = some next) : reader.read? c = some next := by
  rw [plainStep?] at h
  split at h
  next later hstep =>
    obtain rfl := Option.some.inj h
    exact read?_eq_of_step? hstep
  next => cases h

theorem readAll?_of_readPlain? {reader next : Reader} {text : List Char}
    (h : reader.readPlain? text = some next) : reader.readAll? text = some next := by
  induction text generalizing reader with
  | nil => exact h
  | cons c text ih =>
      rw [readPlain?, List.foldlM_cons] at h
      obtain ⟨middle, hmiddle, hrest⟩ := Option.bind_eq_some_iff.mp h
      rw [readAll?_cons, read?_of_plainStep? hmiddle, Option.bind_some]
      exact ih hrest

end Reader

def plainRoot? (text : List Char) : Option Element := do
  let reader ← ({} : Reader).readPlain? text
  let roots ← reader.roots?
  if roots.all Element.isBound then roots.head? else none

theorem declared?_encode {text : List Char}
    (hfirst : (Utf8.encode (String.ofList text)).head? = some 0x3c)
    (hat : Declaration.isAt (latin1 ((Utf8.encode (String.ofList text)).take 6)) = false) :
    declared? (Utf8.encode (String.ofList text)) = some ({}, text) := by
  have hunmarked : declared? (Utf8.encode (String.ofList text)) =
      unmarked? (Utf8.encode (String.ofList text)) := by
    obtain ⟨octets, hoctets⟩ := List.head?_eq_some_iff.mp hfirst
    rw [hoctets]
    rfl
  rw [hunmarked, unmarked?, if_neg (by rw [hat]; exact Bool.false_ne_true), utf8?,
    Utf8.decode?_encode, Option.map_some, Option.map_some, String.toList_ofList]

theorem parse?_of_plainRoot? {text : List Char} {root : Element}
    (hfirst : (Utf8.encode (String.ofList text)).head? = some 0x3c)
    (hat : Declaration.isAt (latin1 ((Utf8.encode (String.ofList text)).take 6)) = false)
    (hroot : plainRoot? text = some root) :
    Element.parse? (Utf8.encode (String.ofList text)) = some root := by
  obtain ⟨reader, hreader, hroot⟩ := Option.bind_eq_some_iff.mp hroot
  obtain ⟨roots, hroots, hroot⟩ := Option.bind_eq_some_iff.mp hroot
  by_cases hbound : roots.all Element.isBound = true
  · rw [if_pos hbound] at hroot
    have hread : roots? .v10 text = some roots := by
      simp only [roots?, Reader.readAll?_of_readPlain? hreader, hroots, hbound,
        Option.bind_eq_bind, Option.bind_some, if_true]
    simp only [Element.parse?, declared?_encode hfirst hat, Option.bind_eq_bind, Option.bind_some,
      hread, hroot]
  · rw [if_neg hbound] at hroot
    cases hroot

/-- A text that starts with a tag is not taken for a declared one, whatever follows. -/
theorem parse?_of_front {front : String} {octet : UInt8} {octets : List UInt8} {rest : List Char}
    {root : Element} (hfront : Utf8.encode front = 0x3c :: octet :: octets)
    (hmark : Char.ofNat octet.toNat ≠ '?') (hroot : plainRoot? (front.toList ++ rest) = some root) :
    Element.parse? (Utf8.encode (String.ofList (front.toList ++ rest))) = some root := by
  have hencode : Utf8.encode (String.ofList (front.toList ++ rest)) =
      0x3c :: octet :: (octets ++ Utf8.encode (String.ofList rest)) := by
    rw [String.ofList_append, String.ofList_toList, Utf8.encode_append, hfront]
    rfl
  refine parse?_of_plainRoot? (by rw [hencode]; rfl) ?_ hroot
  rw [hencode, List.take_succ_cons, List.take_succ_cons, latin1, List.map_cons, List.map_cons,
    Declaration.isAt]
  rintro _ _ heq
  exact hmark (List.cons.inj (List.cons.inj heq).2).1

def bareElement (name : String) (children : List Node) : Element where
  tag := { name := .plain name }
  children := children

/-- How an element without attributes is written. -/
def tagged (name : String) (content : List Char) : List Char :=
  '<' :: name.toList ++ '>' :: content ++ '<' :: '/' :: name.toList ++ ['>']

end PanelRelay.Xml
