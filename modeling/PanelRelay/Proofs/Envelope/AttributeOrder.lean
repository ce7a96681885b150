import Mathlib.Logic.Relation
import PanelRelay.Proofs.Envelope.Edits
import PanelRelay.Proofs.Envelope.Pieces
import PanelRelay.Proofs.Xml.Reordering

/-!
A reply says the same in whatever order its attributes are written, and in whatever order their values
are kept: what is read off an element in any role depends on its tag by name and by lookups only.
-/

namespace PanelRelay

namespace Xml

/-- Tags that cannot be told apart by their name and by lookups. -/
structure Tag.AnswersAlike (tag other : Tag) : Prop where
  name_eq : other.name = tag.name
  value?_eq : ∀ name, other.value? name = tag.value? name

/-- Tags that keep the same values, which may be listed in another order. -/
structure Tag.KeepsAlike (tag other : Tag) : Prop where
  name_eq : other.name = tag.name
  values : other.values.Perm tag.values

theorem Tag.KeepsAlike.answersAlike {tag other : Tag} (h : tag.KeepsAlike other)
    (hlocal : tag.HasLocalNames) : tag.AnswersAlike other :=
  ⟨h.name_eq, value?_eq_of_perm hlocal h.values⟩

/-- Whatever order the values of a tag are listed in, there is a tag that keeps them so. -/
theorem Tag.exists_keepsAlike {tag : Tag} {values : List (String × String)}
    (h : values.Perm tag.values) : ∃ other, tag.KeepsAlike other ∧ other.values = values := by
  obtain ⟨other, hname, hvalues⟩ := exists_values_eq h
  exact ⟨other, ⟨hname, hvalues ▸ h⟩, hvalues⟩

theorem Tag.IsReordered.answersAlike {tag other : Tag} (h : tag.IsReordered other) :
    tag.AnswersAlike other :=
  ⟨h.permuted.name_eq, value?_eq_of_perm h.hasLocalNames h.values⟩

end Xml

namespace Envelope

open Event (Detail Message)
open Xml (Element Node Tag)

/-- Whether two elements with tags that answer alike are read alike in the role. -/
def Role.ReadsAlike (role : Role) : Prop :=
  ∀ element other, Element.Alike Tag.AnswersAlike element other →
    role.read other = role.read element

section Roles

variable {element other : Element}

theorem name_eq_of_alike (h : Element.Alike Tag.AnswersAlike element other) :
    other.name = element.name := by
  rw [Element.name, Element.name, h.tag.name_eq]

theorem isNil_eq_of_alike (h : Element.Alike Tag.AnswersAlike element other) :
    isNil other = isNil element := by
  rw [isNil, isNil, h.tag.value?_eq]

theorem readsAlike_leaf : Role.ReadsAlike .leaf := by
  intro element other h
  rw [Role.read, Role.read, isNil_eq_of_alike h, h.tag.value?_eq, h.text_eq]

/-- Where the children are found by name, it suffices that they are read alike. -/
theorem sameChildren_of_alike {role : Role} (h : Element.Alike Tag.AnswersAlike element other)
    (hinner : ∀ name inner, role.below? name = some inner → inner.ReadsAlike) :
    SameChildren role element other := by
  intro name inner hbelow
  have hchild := h.child? (fun _ _ htag => htag.name_eq) name
  generalize element.child? name = left at hchild ⊢
  generalize other.child? name = right at hchild ⊢
  cases hchild with
  | none => rfl
  | some halike => exact congrArg some (hinner name inner hbelow _ _ halike)

theorem readsAlike_of_below {role : Role} (hbody : role ≠ .body) (hproperties : role ≠ .properties)
    (hleaf : role ≠ .leaf)
    (hinner : ∀ name inner, role.below? name = some inner → inner.ReadsAlike) :
    role.ReadsAlike := by
  intro element other h
  exact read_congr (name_eq_of_alike h) (sameChildren_of_alike h hinner) hbody hproperties hleaf

theorem readsAlike_of_ite {p : Prop} [Decidable p] {role inner : Role}
    (h : (if p then some role else none) = some inner) (hrole : role.ReadsAlike) :
    inner.ReadsAlike := by
  obtain ⟨-, hsame⟩ := Option.ite_none_right_eq_some.mp h
  rwa [← Option.some.inj hsame]

theorem readsAlike_property : Role.ReadsAlike .property := by
  refine readsAlike_of_below nofun nofun nofun fun name inner hbelow => ?_
  exact readsAlike_of_ite hbelow readsAlike_leaf

theorem decodeDetails_eq_of_alike (h : Element.Alike Tag.AnswersAlike element other) :
    decodeDetails other = decodeDetails element := by
  rw [decodeDetails, decodeDetails]
  have helements := h.elements
  generalize element.elements = left at helements ⊢
  generalize other.elements = right at helements ⊢
  induction helements with
  | nil => rfl
  | @cons child child' children children' hchild _ ih =>
      have hname := name_eq_of_alike hchild
      have hread : decodeDetail child' = decodeDetail child := readsAlike_property _ _ hchild
      simp only [List.filter_cons, hname]
      split
      next => rw [List.mapM_cons, List.mapM_cons, hread, ih]
      next => exact ih

theorem readsAlike_properties : Role.ReadsAlike .properties := by
  intro element other h
  simp only [Role.read, isNil_eq_of_alike h, decodeDetails_eq_of_alike h]

theorem readsAlike_result : Role.ReadsAlike .result := by
  refine readsAlike_of_below nofun nofun nofun fun name inner hbelow => ?_
  rw [Role.below?] at hbelow
  split at hbelow
  next =>
    obtain rfl := Option.some.inj hbelow
    exact readsAlike_properties
  next => exact readsAlike_of_ite hbelow readsAlike_leaf

theorem readsAlike_fault : Role.ReadsAlike .fault := by
  refine readsAlike_of_below nofun nofun nofun fun name inner hbelow => ?_
  exact readsAlike_of_ite hbelow readsAlike_leaf

theorem readsAlike_response : Role.ReadsAlike .response := by
  refine readsAlike_of_below nofun nofun nofun fun name inner hbelow => ?_
  exact readsAlike_of_ite hbelow readsAlike_result

theorem readsAlike_of_below_body {name : String} {inner : Role}
    (h : Role.below? .body name = some inner) : inner.ReadsAlike := by
  rw [Role.below?] at h
  split at h
  next =>
    obtain rfl := Option.some.inj h
    exact readsAlike_fault
  next =>
    split at h
    next =>
      obtain rfl := Option.some.inj h
      exact readsAlike_response
    next =>
      obtain rfl := Option.some.inj h
      exact fun _ _ _ => rfl

theorem Role.exists_below?_body (name : String) : ∃ inner, Role.below? .body name = some inner := by
  rw [Role.below?]
  split
  next => exact ⟨_, rfl⟩
  next => split <;> exact ⟨_, rfl⟩

theorem readsAlike_body : Role.ReadsAlike .body := by
  intro element other h
  rw [Role.read, Role.read]
  have helements := h.elements
  generalize element.elements = left at helements ⊢
  generalize other.elements = right at helements ⊢
  cases helements with
  | nil => rfl
  | @cons child child' _ _ hchild _ =>
      obtain ⟨inner, hinner⟩ := Role.exists_below?_body child.name
      have hread := readsAlike_of_below_body hinner _ _ hchild
      exact congrArg some (decodeContent_congr (name_eq_of_alike hchild) hinner hread)

theorem readsAlike_envelope : Role.ReadsAlike .envelope := by
  refine readsAlike_of_below nofun nofun nofun fun name inner hbelow => ?_
  exact readsAlike_of_ite hbelow readsAlike_body

end Roles

open Xml (Declaration Reordering Token declared? enclose roots?)

/-- What a reply says is told by its text behind the declaration, and by the version. -/
theorem decode_of_declared? {octets : List UInt8} {declaration : Declaration} {text : List Char}
    (h : declared? octets = some (declaration, text)) :
    decode octets = (((roots? declaration.version text).bind List.head?).map decodeEnvelope).getD
      (.error .malformed) := by
  have hparse : Element.parse? octets = (roots? declaration.version text).bind List.head? := by
    rw [Element.parse?, h]
    rfl
  rw [decode, hparse]
  cases (roots? declaration.version text).bind List.head? <;> rfl

theorem decodeEnvelope_head?_of_reordering {version : Xml.Version} {text text' : List Char}
    (h : Reordering version text text') :
    ((roots? version text').bind List.head?).map decodeEnvelope =
      ((roots? version text).bind List.head?).map decodeEnvelope := by
  have hroots := h.rel_roots?
  generalize roots? version text = left at hroots ⊢
  generalize roots? version text' = right at hroots ⊢
  cases hroots with
  | none => rfl
  | some hall =>
      cases hall with
      | nil => rfl
      | cons hroot _ =>
          have hlocal := hroot.node.everywhere fun _ _ htag => htag.hasLocalNames
          have halike := hroot.imp (fun _ _ _ htag => htag.answersAlike) hlocal
          exact congrArg some (readsAlike_envelope _ _ halike)

/-- One start tag after the other is reordered, there and back. -/
theorem decodeEnvelope_head?_of_reorderings {version : Xml.Version} {text text' : List Char}
    (h : Relation.EqvGen (Reordering version) text text') :
    ((roots? version text').bind List.head?).map decodeEnvelope =
      ((roots? version text).bind List.head?).map decodeEnvelope := by
  induction h with
  | rel _ _ hstep => exact decodeEnvelope_head?_of_reordering hstep
  | refl => rfl
  | symm _ _ _ ih => exact ih.symm
  | trans _ _ _ _ _ hfirst hsecond => exact hsecond.trans hfirst

/--
The order of attributes decides nothing. In a reply that is read no two keys of an element are called
by one name, and the values of every element may be listed in any order; two replies that differ in the
order of attributes, none of which share a local name, say the same or are refused alike.
-/
theorem decode_in_any_attribute_order (octets : List UInt8) :
    (∀ root, Element.parse? octets = some root →
      root.node.Everywhere Tag.AnswersOnce ∧
        ∀ other, Element.Alike Tag.KeepsAlike root other → decodeEnvelope other = decode octets) ∧
      (∀ (tag : Tag) values, values.Perm tag.values →
        ∃ other, tag.KeepsAlike other ∧ other.values = values) ∧
      (∀ declaration text octets' declaration' text',
        declared? octets = some (declaration, text) →
          declared? octets' = some (declaration', text') →
            declaration'.version = declaration.version →
              Relation.EqvGen (Reordering declaration.version) text text' →
                decode octets' = decode octets) := by
  refine ⟨fun root hparse => ?_, fun tag values => Tag.exists_keepsAlike, ?_⟩
  · have hlocal := Xml.everywhere_of_parse? hparse
    refine ⟨hlocal.imp fun tag htag => htag.answersOnce, fun other halike => ?_⟩
    have hanswers := halike.imp (fun _ _ htag hkeeps => hkeeps.answersAlike htag) hlocal
    rw [decode, hparse]
    exact readsAlike_envelope _ _ hanswers
  · intro declaration text octets' declaration' text' hdeclared hdeclared' hversion hreordered
    rw [decode_of_declared? hdeclared, decode_of_declared? hdeclared', hversion,
      decodeEnvelope_head?_of_reorderings hreordered]

/-- The tag of a name that is marked as missing. -/
def missingTag : Tag where
  name := .plain "name"
  attributes :=
    [{ name := .qualified "xmlns" "i", value := "u" }, { name := .qualified "i" "nil", value := "true" },
      { name := .plain "lang", value := "en" }]

/-- The same tag the other way round; the prefix is used before it is declared. -/
def missingTagReordered : Tag where
  name := .plain "name"
  attributes := missingTag.attributes.reverse

theorem isPermuted_missingTag : missingTag.IsPermuted missingTagReordered :=
  ⟨rfl, List.reverse_perm _⟩

theorem nodup_missingTag : (missingTag.ordinary.map fun item => item.name.base).Nodup := by
  decide

theorem keepsAlike_missingTag : missingTag.KeepsAlike missingTagReordered :=
  ⟨rfl, Tag.values_perm_of_attributes_perm isPermuted_missingTag.attributes nodup_missingTag⟩

/-- A reply whose name has the tag. -/
def taggedReply (tag : Tag) : List Char :=
  resultFront ++ ['<'] ++ (tag.print ++ [] ++ Token.tagEnd.chars) ++
    ('x' :: (endMark "name" ++ nameBack))

theorem reordering_taggedReply :
    Reordering .v10 (taggedReply missingTag) (taggedReply missingTagReordered) := by
  have htag : Xml.IsTag .v10 (missingTag.print ++ []) missingTag :=
    Tag.IsValid.isTag (by decide +kernel) (List.forall_mem_nil _)
  have htag' : Xml.IsTag .v10 (missingTagReordered.print ++ []) missingTagReordered :=
    Tag.IsValid.isTag (by decide +kernel) (List.forall_mem_nil _)
  exact (opens_resultFront .v10).reordering htag htag' isPermuted_missingTag nodup_missingTag false _

theorem declared?_taggedReply :
    ∀ tag ∈ [missingTag, missingTagReordered],
      declared? (Utf8.encode (String.ofList (taggedReply tag))) = some ({}, taggedReply tag) := by
  intro tag htag
  apply Xml.declared?_encode
  · revert tag
    decide +kernel
  · revert tag
    decide +kernel

def taggedRoot (tag : Tag) : Element :=
  enclose (nameFrames.map fun frame => { tag := frame.tag, before := [], after := [] })
    { tag, children := [.text "x"] }

theorem parse?_taggedReply :
    Element.parse? (Utf8.encode (String.ofList (taggedReply missingTag))) =
      some (taggedRoot missingTag) :=
  Xml.parse?_of_plainRoot? (by decide +kernel) (by decide +kernel) (by decide +kernel)

theorem alike_taggedRoot {tag other : Tag} (h : tag.KeepsAlike other) :
    Element.Alike Tag.KeepsAlike (taggedRoot tag) (taggedRoot other) := by
  have hself : ∀ tag : Tag, tag.KeepsAlike tag := fun tag => ⟨rfl, .refl _⟩
  have hname : Node.Alike Tag.KeepsAlike (.element tag [.text "x"]) (.element other [.text "x"]) :=
    .element h (.cons (.other rfl) .nil)
  have hresult := Node.Alike.element (hself { name := .plain resultName }) (.cons hname .nil)
  have hresponse := Node.Alike.element (hself { name := .plain responseName }) (.cons hresult .nil)
  have hbody := Node.Alike.element (hself { name := .plain "Body" }) (.cons hresponse .nil)
  exact ⟨hself { name := .plain "Envelope" }, .cons hbody .nil⟩

theorem decode_missingTag_reordered :
    (taggedRoot missingTag).node.Everywhere Tag.AnswersOnce ∧
      decodeEnvelope (taggedRoot missingTagReordered) = .ok { name := none } ∧
      (∃ other, missingTag.KeepsAlike other ∧ other.values = [("lang", "en"), ("nil", "true")]) ∧
      decode (Utf8.encode (String.ofList (taggedReply missingTagReordered))) =
        .ok { name := none } := by
  have hmissing : decode (Utf8.encode (String.ofList (taggedReply missingTag))) =
      .ok { name := none } := by
    rw [decode, parse?_taggedReply]
    rfl
  obtain ⟨hread, hlisted, hreordered⟩ := decode_in_any_attribute_order
    (Utf8.encode (String.ofList (taggedReply missingTag)))
  obtain ⟨honce, hkept⟩ := hread _ parse?_taggedReply
  refine ⟨honce, ?_, hlisted missingTag _ (List.Perm.swap _ _ _), ?_⟩
  · rw [hkept _ (alike_taggedRoot keepsAlike_missingTag), hmissing]
  · rw [hreordered {} (taggedReply missingTag) _ {} (taggedReply missingTagReordered)
      (declared?_taggedReply _ (by simp)) (declared?_taggedReply _ (by simp)) rfl
      (.rel _ _ reordering_taggedReply), hmissing]

end Envelope

end PanelRelay
