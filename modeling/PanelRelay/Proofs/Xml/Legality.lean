import PanelRelay.Xml.Document

/-!
Every character in the texts of a document that was read is one that its version allows, however it
was written: as itself, by a reference, by way of an entity, or in a section of character data.
-/

namespace PanelRelay.Xml

theorem allows_of_allowsLiteral {version : Version} {c : Char}
    (h : version.allowsLiteral c = true) : version.allows c = true := by
  cases version with
  | v10 => exact h
  | v11 =>
      rw [Version.allowsLiteral, Bool.and_eq_true] at h
      exact h.1

theorem Token.allows_of_mem_chars {token : Token} (htoken : ∀ c, token ≠ .char c)
    (version : Version) : ∀ c ∈ token.chars, version.allows c = true := by
  rw [← List.all_eq_true]
  cases token with
  | char c => exact absurd rfl (htoken c)
  | quote mark => cases mark <;> cases version <;> decide
  | _ => cases version <;> decide

namespace Reference

theorem allows_of_charOfCodePoint? {version : Version} {n : Nat} {c : Char}
    (h : charOfCodePoint? version n = some c) : version.allows c = true := by
  by_cases hvalid : n.isValidChar
  · rw [charOfCodePoint?, dif_pos hvalid] at h
    obtain ⟨hallowed, hc⟩ := Option.ite_none_right_eq_some.mp h
    obtain rfl := Option.some.inj hc
    exact hallowed
  · rw [charOfCodePoint?, dif_neg hvalid] at h
    cases h

theorem allows_of_mem_predefined (version : Version) :
    ∀ entry ∈ predefined, version.allows entry.2 = true := by
  cases version <;> decide

theorem mem_of_lookup {entries : List (String × Char)} {name : String} {c : Char}
    (h : entries.lookup name = some c) : (name, c) ∈ entries := by
  obtain ⟨before, after, rfl, -⟩ := List.lookup_eq_some_iff.mp h
  simp

theorem allows_of_ofChars? {version : Version} {text : List Char} {c : Char}
    (h : ofChars? version text = some (.char c)) : version.allows c = true := by
  unfold ofChars? at h
  split at h
  next => cases h
  next code =>
    obtain ⟨d, hd, heq⟩ := Option.map_eq_some_iff.mp h
    obtain ⟨n, -, hn⟩ := Option.bind_eq_some_iff.mp hd
    obtain rfl := Reference.char.inj heq
    exact allows_of_charOfCodePoint? hn
  next =>
    split at h
    next d hlookup =>
      obtain rfl := Reference.char.inj (Option.some.inj h)
      exact allows_of_mem_predefined version _ (mem_of_lookup hlookup)
    next => cases h

end Reference

/-- Whether all characters in the texts of a tree pass a test; attributes and remarks may hold any. -/
inductive Node.Carries (p : Char → Bool) : Node → Prop where
  | element {tag : Tag} {children : List Node} (hchildren : ∀ child ∈ children, child.Carries p) :
      Node.Carries p (.element tag children)
  | text {content : String} (hcontent : ∀ c ∈ content.toList, p c = true) :
      Node.Carries p (.text content)
  | cdata {content : String} (hcontent : ∀ c ∈ content.toList, p c = true) :
      Node.Carries p (.cdata content)
  | comment {content : String} : Node.Carries p (.comment content)
  | instruction {target : String} {data : Option String} : Node.Carries p (.instruction target data)

def Element.Carries (p : Char → Bool) (element : Element) : Prop :=
  ∀ child ∈ element.children, child.Carries p

structure Nesting.Carries (p : Char → Bool) (nesting : Nesting) : Prop where
  frames : ∀ frame ∈ nesting.frames, ∀ node ∈ frame.nodes, node.Carries p
  roots : ∀ root ∈ nesting.roots, root.Carries p

namespace Nesting.Carries

variable {p : Char → Bool} {nesting : Nesting}

theorem place (h : nesting.Carries p) {element : Element} (helement : element.Carries p) :
    (nesting.place element).Carries p := by
  obtain ⟨frames, roots⟩ := nesting
  cases frames with
  | nil => exact ⟨h.frames, List.forall_mem_cons.mpr ⟨helement, h.roots⟩⟩
  | cons frame frames =>
      obtain ⟨hframe, hframes⟩ := List.forall_mem_cons.mp h.frames
      have hadded : ∀ node ∈ (frame.add (.element element.tag element.children)).nodes,
          node.Carries p :=
        List.forall_mem_cons.mpr ⟨.element helement, hframe⟩
      exact ⟨List.forall_mem_cons.mpr ⟨hadded, hframes⟩, h.roots⟩

theorem note (h : nesting.Carries p) {node : Node} (hnode : node.Carries p) :
    (nesting.note node).Carries p := by
  obtain ⟨frames, roots⟩ := nesting
  cases frames with
  | nil => exact h
  | cons frame frames =>
      obtain ⟨hframe, hframes⟩ := List.forall_mem_cons.mp h.frames
      have hadded := List.forall_mem_cons.mpr ⟨hnode, hframe⟩
      exact ⟨List.forall_mem_cons.mpr ⟨hadded, hframes⟩, h.roots⟩

theorem start (h : nesting.Carries p) (tag : Tag) (closed : Bool) :
    (nesting.start tag closed).Carries p := by
  cases closed with
  | true => exact h.place nofun
  | false => exact ⟨List.forall_mem_cons.mpr ⟨nofun, h.frames⟩, h.roots⟩

theorem finish? (h : nesting.Carries p) {name : Name} {next : Nesting}
    (hnext : nesting.finish? name = some next) : next.Carries p := by
  obtain ⟨frames, roots⟩ := nesting
  cases frames with
  | nil => cases hnext
  | cons frame frames =>
      obtain ⟨hframe, hframes⟩ := List.forall_mem_cons.mp h.frames
      simp only [Nesting.finish?, Option.ite_none_right_eq_some, Option.some.injEq] at hnext
      obtain ⟨-, rfl⟩ := hnext
      have houter : Nesting.Carries p { frames, roots } := ⟨hframes, h.roots⟩
      exact houter.place fun node hnode => hframe node (List.mem_reverse.mp hnode)

end Nesting.Carries

namespace Reader

/-- What every token keeps is kept by a whole text. -/
structure IsKept (P : Reader → Prop) : Prop where
  lexer : ∀ reader lexer, P reader → P { reader with lexer }
  accept? : ∀ reader token next text, P reader → reader.accept? token = some (next, text) → P next

namespace IsKept

variable {P : Reader → Prop} {reader next : Reader}

theorem acceptAll? (h : IsKept P) {tokens : List Token} {text : List Char} (hreader : P reader)
    (hnext : reader.acceptAll? tokens = some (next, text)) : P next := by
  induction tokens generalizing reader text with
  | nil =>
      obtain ⟨rfl, -⟩ := Prod.mk.inj (Option.some.inj hnext)
      exact hreader
  | cons token tokens ih =>
      obtain ⟨⟨middle, inserted⟩, hmiddle, hnext⟩ := Option.bind_eq_some_iff.mp hnext
      obtain ⟨⟨last, more⟩, hlast, hnext⟩ := Option.bind_eq_some_iff.mp hnext
      obtain ⟨rfl, -⟩ := Prod.mk.inj (Option.some.inj hnext)
      exact ih (h.accept? _ _ _ _ hreader hmiddle) hlast

theorem step? (h : IsKept P) {c : Char} {text : List Char} (hreader : P reader)
    (hnext : reader.step? c = some (next, text)) : P next := by
  obtain ⟨⟨tokens, lexer⟩, -, hnext⟩ := Option.bind_eq_some_iff.mp hnext
  exact h.acceptAll? (h.lexer _ lexer hreader) hnext

theorem drain? (h : IsKept P) {budget : Nat} {text : List Char} (hreader : P reader)
    (hnext : reader.drain? budget text = some next) : P next := by
  fun_induction Reader.drain? reader budget text with
  | case1 =>
      obtain rfl := Option.some.inj hnext
      exact hreader
  | case2 => cases hnext
  | case3 reader budget c rest middle hstep ih => exact ih (h.step? hreader hstep) hnext
  | case4 => cases hnext
  | case5 => cases hnext
  | case6 reader c rest middle d inserted hstep _ budget ih =>
      exact ih (h.step? hreader hstep) hnext

theorem readAll? (h : IsKept P) {text : List Char} (hreader : P reader)
    (hnext : reader.readAll? text = some next) : P next := by
  induction text generalizing reader with
  | nil =>
      obtain rfl := Option.some.inj hnext
      exact hreader
  | cons c text ih =>
      rw [readAll?_cons] at hnext
      obtain ⟨middle, hmiddle, hrest⟩ := Option.bind_eq_some_iff.mp hnext
      exact ih (h.drain? hreader hmiddle) hrest

end IsKept

end Reader

theorem eq_some_of_map_behind {result : Option Reader} {next : Reader} {text inserted : List Char}
    (h : result.map (·, inserted) = some (next, text)) : result = some next := by
  obtain ⟨found, hfound, heq⟩ := Option.map_eq_some_iff.mp h
  rw [hfound, (Prod.mk.inj heq).1]

/-- Text that is being read and will make up a node by itself, in reverse. -/
def Place.pending (place : Place) : List Char :=
  match place with
  | .cdata text => text
  | _ => []

structure Reader.Carries (version : Version) (reader : Reader) : Prop where
  version_eq : reader.version = version
  run : ∀ c ∈ reader.run, version.allows c = true
  pending : ∀ c ∈ reader.place.pending, version.allows c = true
  nesting : reader.nesting.Carries version.allows

namespace Reader.Carries

variable {version : Version} {reader next : Reader}

theorem enter (h : reader.Carries version) {place : Place}
    (hplace : ∀ c ∈ place.pending, version.allows c = true) :
    (reader.enter place).Carries version :=
  ⟨h.version_eq, h.run, hplace, h.nesting⟩

theorem push (h : reader.Carries version) {c : Char} (hc : version.allows c = true) :
    (reader.push c).Carries version :=
  ⟨h.version_eq, List.forall_mem_cons.mpr ⟨hc, h.run⟩, h.pending, h.nesting⟩

theorem foldl_push (h : reader.Carries version) {text : List Char}
    (htext : ∀ c ∈ text, version.allows c = true) :
    (text.foldl Reader.push reader).Carries version := by
  induction text generalizing reader with
  | nil => exact h
  | cons c text ih =>
      obtain ⟨hc, htext⟩ := List.forall_mem_cons.mp htext
      exact ih (h.push hc) htext

theorem flush (h : reader.Carries version) : reader.flush.Carries version := by
  refine ⟨h.version_eq, nofun, h.pending, ?_⟩
  simp only [Reader.flush]
  split
  next => exact h.nesting
  next =>
    refine h.nesting.note (.text fun c hc => h.run c ?_)
    simpa using hc

theorem note (h : reader.Carries version) {node : Node} (hnode : node.Carries version.allows) :
    (reader.note node).Carries version := by
  have hnested := h.nesting.note hnode
  exact ⟨h.version_eq, h.run, nofun, hnested⟩

theorem acceptContent? (h : reader.Carries version) {token : Token}
    (hnext : reader.acceptContent? token = some next) : next.Carries version := by
  have hflushed := h.flush
  unfold Reader.acceptContent? at hnext
  cases token with
  | char c =>
      dsimp only at hnext
      split at hnext
      next =>
        simp only [Option.ite_none_right_eq_some, Option.some.injEq, h.version_eq] at hnext
        obtain ⟨hliteral, rfl⟩ := hnext
        exact h.push (allows_of_allowsLiteral hliteral)
      next =>
        simp only [Option.ite_none_right_eq_some, Option.some.injEq] at hnext
        obtain ⟨-, rfl⟩ := hnext
        exact h
  | tagStart =>
      obtain rfl := Option.some.inj hnext
      exact ⟨hflushed.version_eq, hflushed.run, nofun, hflushed.nesting⟩
  | doctypeStart =>
      simp only [Option.ite_none_right_eq_some, Option.some.injEq] at hnext
      obtain ⟨-, rfl⟩ := hnext
      exact ⟨hflushed.version_eq, hflushed.run, nofun, hflushed.nesting⟩
  | commentStart | instructionStart =>
      obtain rfl := Option.some.inj hnext
      exact hflushed.enter nofun
  | endTagStart | cdataStart =>
      simp only [Option.ite_none_right_eq_some, Option.some.injEq] at hnext
      obtain ⟨-, rfl⟩ := hnext
      exact hflushed.enter nofun
  | ampersand =>
      simp only [Option.ite_none_right_eq_some, Option.some.injEq] at hnext
      obtain ⟨-, rfl⟩ := hnext
      exact h.enter nofun
  | cdataEnd | declarationStart => cases hnext
  | _ =>
      simp only [Option.ite_none_right_eq_some, Option.some.injEq] at hnext
      obtain ⟨-, rfl⟩ := hnext
      exact h.foldl_push (Token.allows_of_mem_chars (by simp) version)

theorem acceptStartTag? (h : reader.Carries version) {start : StartTag} {token : Token}
    (hnext : reader.acceptStartTag? start token = some next) : next.Carries version := by
  obtain ⟨step, -, rfl⟩ := Option.map_eq_some_iff.mp hnext
  cases step with
  | more start => exact h.enter nofun
  | reference value => exact h.enter nofun
  | finish tag closed =>
      have hstarted := h.nesting.start tag closed
      exact ⟨h.version_eq, h.run, nofun, hstarted⟩

theorem finishElement? (h : reader.Carries version) {name : Name}
    (hnext : reader.finishElement? name = some next) : next.Carries version := by
  obtain ⟨nesting, hnesting, rfl⟩ := Option.map_eq_some_iff.mp hnext
  exact ⟨h.version_eq, h.run, nofun, h.nesting.finish? hnesting⟩

theorem acceptEndName? (h : reader.Carries version) {name : List Char} {token : Token}
    (hnext : reader.acceptEndName? name token = some next) : next.Carries version := by
  unfold Reader.acceptEndName? at hnext
  cases token with
  | char c =>
      dsimp only at hnext
      split at hnext
      next =>
        obtain ⟨name, -, rfl⟩ := Option.map_eq_some_iff.mp hnext
        exact h.enter nofun
      next =>
        obtain ⟨name, -, rfl⟩ := Option.map_eq_some_iff.mp hnext
        exact h.enter nofun
  | tagEnd =>
      obtain ⟨name, -, hnext⟩ := Option.bind_eq_some_iff.mp hnext
      exact h.finishElement? hnext
  | _ => cases hnext

theorem acceptEndTag? (h : reader.Carries version) {name : Name} {token : Token}
    (hnext : reader.acceptEndTag? name token = some next) : next.Carries version := by
  unfold Reader.acceptEndTag? at hnext
  cases token with
  | char c =>
      simp only [Option.ite_none_right_eq_some, Option.some.injEq] at hnext
      obtain ⟨-, rfl⟩ := hnext
      exact h
  | tagEnd => exact h.finishElement? hnext
  | _ => cases hnext

theorem acceptReference? (h : reader.Carries version) {reference text : List Char} {token : Token}
    (hnext : reader.acceptReference? reference token = some (next, text)) :
    next.Carries version := by
  unfold Reader.acceptReference? at hnext
  cases token with
  | char c =>
      obtain ⟨longer, -, heq⟩ := Option.map_eq_some_iff.mp hnext
      obtain ⟨rfl, -⟩ := Prod.mk.inj heq
      exact h.enter nofun
  | semicolon =>
      dsimp only at hnext
      split at hnext
      next c hchar =>
        obtain ⟨rfl, -⟩ := Prod.mk.inj (Option.some.inj hnext)
        rw [h.version_eq] at hchar
        exact (h.push (Reference.allows_of_ofChars? hchar)).enter nofun
      next name =>
        obtain ⟨inserted, -, heq⟩ := Option.map_eq_some_iff.mp hnext
        obtain ⟨rfl, -⟩ := Prod.mk.inj heq
        exact ⟨h.version_eq, h.run, nofun, h.nesting⟩
      next => cases hnext
  | _ => cases hnext

theorem acceptValueReference? (h : reader.Carries version) {value : OpenValue}
    {reference : List Char} {token : Token}
    (hnext : reader.acceptValueReference? value reference token = some next) :
    next.Carries version := by
  unfold Reader.acceptValueReference? at hnext
  cases token with
  | char c =>
      obtain ⟨longer, -, rfl⟩ := Option.map_eq_some_iff.mp hnext
      exact h.enter nofun
  | semicolon =>
      dsimp only at hnext
      split at hnext
      next c _ =>
        obtain rfl := Option.some.inj hnext
        exact h.enter nofun
      next name =>
        obtain ⟨inserted, -, rfl⟩ := Option.map_eq_some_iff.mp hnext
        exact h.enter nofun
      next => cases hnext
  | _ => cases hnext

theorem acceptComment? (h : reader.Carries version) {content : List Char} {token : Token}
    (hnext : reader.acceptComment? content token = some next) : next.Carries version := by
  unfold Reader.acceptComment? at hnext
  cases token with
  | commentEnd =>
      obtain rfl := Option.some.inj hnext
      exact h.note .comment
  | char c =>
      simp only [Option.ite_none_right_eq_some, Option.some.injEq] at hnext
      obtain ⟨-, rfl⟩ := hnext
      exact h.enter nofun
  | _ => cases hnext

theorem acceptCdata? (h : reader.Carries version) {content : List Char} {token : Token}
    (hcontent : ∀ c ∈ content, version.allows c = true)
    (hnext : reader.acceptCdata? content token = some next) : next.Carries version := by
  unfold Reader.acceptCdata? at hnext
  cases token with
  | cdataEnd =>
      obtain rfl := Option.some.inj hnext
      refine h.note (.cdata fun c hc => hcontent c ?_)
      simpa using hc
  | char c =>
      simp only [Option.ite_none_right_eq_some, Option.some.injEq] at hnext
      obtain ⟨hallowed, rfl⟩ := hnext
      rw [h.version_eq] at hallowed
      exact ⟨h.version_eq, h.run, List.forall_mem_cons.mpr ⟨hallowed, hcontent⟩, h.nesting⟩
  | _ => cases hnext

theorem acceptTarget? (h : reader.Carries version) {name : List Char} {token : Token}
    (hnext : reader.acceptTarget? name token = some next) : next.Carries version := by
  unfold Reader.acceptTarget? at hnext
  cases token with
  | char c =>
      dsimp only at hnext
      split at hnext
      next =>
        simp only [Option.ite_none_left_eq_some, Option.some.injEq] at hnext
        obtain ⟨-, rfl⟩ := hnext
        exact h.enter nofun
      next =>
        obtain ⟨name, -, rfl⟩ := Option.map_eq_some_iff.mp hnext
        exact h.enter nofun
  | instructionEnd =>
      simp only [Option.ite_none_left_eq_some, Option.some.injEq] at hnext
      obtain ⟨-, rfl⟩ := hnext
      exact h.note .instruction
  | _ => cases hnext

theorem acceptData? (h : reader.Carries version) {target : String} {content : List Char}
    {token : Token} (hnext : reader.acceptData? target content token = some next) :
    next.Carries version := by
  unfold Reader.acceptData? at hnext
  cases token with
  | instructionEnd =>
      obtain rfl := Option.some.inj hnext
      exact h.note .instruction
  | char c =>
      simp only [Option.ite_none_right_eq_some, Option.some.injEq] at hnext
      obtain ⟨-, rfl⟩ := hnext
      exact h.enter nofun
  | _ =>
      obtain rfl := Option.some.inj hnext
      exact h.enter nofun

theorem acceptDoctype? (h : reader.Carries version) {place : Doctype} {token : Token}
    {text : List Char} (hnext : reader.acceptDoctype? place token = some (next, text)) :
    next.Carries version := by
  obtain ⟨step, -, heq⟩ := Option.map_eq_some_iff.mp hnext
  cases step with
  | declare name inserted =>
      obtain ⟨rfl, -⟩ := Prod.mk.inj heq
      exact ⟨h.version_eq, h.run, nofun, h.nesting⟩
  | _ =>
      obtain ⟨rfl, -⟩ := Prod.mk.inj heq
      exact h.enter nofun

theorem accept? (h : reader.Carries version) {token : Token} {text : List Char}
    (hnext : reader.accept? token = some (next, text)) : next.Carries version := by
  unfold Reader.accept? at hnext
  split at hnext
  next => exact h.acceptContent? (eq_some_of_map_behind hnext)
  next => exact h.acceptStartTag? (eq_some_of_map_behind hnext)
  next => exact h.acceptEndName? (eq_some_of_map_behind hnext)
  next => exact h.acceptEndTag? (eq_some_of_map_behind hnext)
  next => exact h.acceptReference? hnext
  next => exact h.acceptValueReference? (eq_some_of_map_behind hnext)
  next => exact h.acceptComment? (eq_some_of_map_behind hnext)
  next content hplace =>
    have hcontent := h.pending
    rw [hplace] at hcontent
    exact h.acceptCdata? hcontent (eq_some_of_map_behind hnext)
  next => exact h.acceptTarget? (eq_some_of_map_behind hnext)
  next => exact h.acceptData? (eq_some_of_map_behind hnext)
  next => exact h.acceptDoctype? hnext

end Reader.Carries

theorem Reader.isKept_carries (version : Version) : IsKept (Reader.Carries version) where
  lexer _ _ h := ⟨h.version_eq, h.run, h.pending, h.nesting⟩
  accept? _ _ _ _ h hnext := h.accept? hnext

theorem carries_of_roots? {version : Version} {text : List Char} {roots : List Element}
    (h : roots? version text = some roots) : ∀ root ∈ roots, root.Carries version.allows := by
  obtain ⟨reader, hreader, h⟩ := Option.bind_eq_some_iff.mp h
  obtain ⟨found, hfound, h⟩ := Option.bind_eq_some_iff.mp h
  simp only [Option.ite_none_right_eq_some, Option.some.injEq] at h
  obtain ⟨-, rfl⟩ := h
  have hstart : Reader.Carries version { version } := ⟨rfl, nofun, nofun, nofun, nofun⟩
  have hcarries := (Reader.isKept_carries version).readAll? hstart hreader
  unfold Reader.roots? at hfound
  split at hfound
  next =>
    obtain ⟨-, hcomplete⟩ := Option.ite_none_right_eq_some.mp hfound
    unfold Nesting.complete? at hcomplete
    split at hcomplete
    next =>
      obtain rfl := Option.some.inj hcomplete
      exact fun root hroot => hcarries.nesting.roots root (List.mem_reverse.mp hroot)
    next => cases hcomplete
  next => cases hfound

/-- The version a document declares; the older one without a declaration. -/
def declaredVersion? (octets : List UInt8) : Option Version :=
  (declared? octets).map fun found => found.1.version

/-- All texts of a document that is read keep to the version it declares. -/
theorem Element.carries_of_parse? {octets : List UInt8} {root : Element}
    (h : Element.parse? octets = some root) :
    ∃ version, declaredVersion? octets = some version ∧ root.Carries version.allows := by
  obtain ⟨⟨declaration, text⟩, hdeclared, h⟩ := Option.bind_eq_some_iff.mp h
  obtain ⟨roots, hroots, h⟩ := Option.bind_eq_some_iff.mp h
  refine ⟨declaration.version, ?_, carries_of_roots? hroots root (List.mem_of_mem_head? h)⟩
  rw [declaredVersion?, hdeclared, Option.map_some]

namespace Element.Carries

variable {p : Char → Bool} {element child : Element}

theorem of_mem_elements (h : element.Carries p) (hchild : child ∈ element.elements) :
    child.Carries p := by
  obtain ⟨node, hnode, hfound⟩ := List.mem_filterMap.mp hchild
  cases h node hnode with
  | element hchildren =>
      obtain rfl := Option.some.inj hfound
      exact hchildren
  | _ => cases hfound

theorem of_child? (h : element.Carries p) {name : String}
    (hchild : element.child? name = some child) : child.Carries p :=
  h.of_mem_elements (List.mem_of_find?_eq_some hchild)

theorem text (h : element.Carries p) : ∀ c ∈ element.text.toList, p c = true := by
  intro c hc
  rw [Element.text, String.toList_ofList] at hc
  obtain ⟨node, hnode, hc⟩ := List.mem_flatMap.mp hc
  cases h node hnode with
  | text hcontent => exact hcontent c hc
  | cdata hcontent => exact hcontent c hc
  | _ => cases hc

end Element.Carries

end PanelRelay.Xml
