import PanelRelay.Proofs.Xml.Entities
import PanelRelay.Proofs.Xml.Reading
import PanelRelay.Proofs.Xml.RoundTrip
import PanelRelay.Proofs.Xml.Surroundings

/-!
Text that is written in pieces: runs of characters and references, sections of character data, and
remarks between them. A run of blanks is layout and is dropped, save right behind character data that
holds more than blanks.
-/

namespace PanelRelay.Xml

variable {version : Version}

/--
A piece of what an element without child elements holds, and the node that it stands for. The reader
takes an instruction also where a blank comes first, and then it has no target.
-/
inductive IsPiece (version : Version) : List Char → Node → Prop
  | run {written text : List Char} (hrun : IsRun version written text) (hnonempty : text ≠ []) :
      IsPiece version written (.text (String.ofList text))
  | markup {written : List Char} {node : Node} (hmarkup : IsMarkup version written node)
      (hnode : node.element? = none) : IsPiece version written node
  | untargeted {data : List Char} {blank : Char} (hblank : isBlank blank = true)
      (hallowed : ∀ c ∈ data, version.allows c = true)
      (hend : ¬ Token.instructionEnd.chars <:+: data) :
      IsPiece version (Token.instructionStart.chars ++ blank :: data ++ Token.instructionEnd.chars)
        (.instruction "" (some (instructionData data)))

def Node.isRun : Node → Bool
  | .text _ => true
  | _ => false

/-- Pieces behind each other; two runs that touch would be one. -/
inductive ArePieces (version : Version) : List Char → List Node → Prop
  | nil : ArePieces version [] []
  | cons {written rest : List Char} {node : Node} {nodes : List Node}
      (hpiece : IsPiece version written node) (hrest : ArePieces version rest nodes)
      (happart : node.isRun = true → ∀ next ∈ nodes.head?, next.isRun = false) :
      ArePieces version (written ++ rest) (node :: nodes)

/-- What is left of pieces without the layout, behind a piece that is loud or not. -/
def kept (loud : Bool) : List Node → List Node
  | [] => []
  | node :: nodes =>
      if node.isLayout && !loud then kept node.isLoud nodes else node :: kept node.isLoud nodes

/-- The text that is read off pieces. -/
def joined (pieces : List Node) : String :=
  String.ofList ((kept false pieces).flatMap Node.ownText)

/-- The element that is read where its text is written in pieces. -/
def Element.ofPieces (tag : Tag) (pieces : List Node) : Element where
  tag := tag
  children := kept false pieces

theorem isLayout_of_not_isRun {node : Node} (h : node.isRun = false) : node.isLayout = false := by
  cases node with
  | text content => cases h
  | _ => rfl

theorem IsMarkup.isRun_eq_false {written : List Char} {node : Node}
    (h : IsMarkup version written node) : node.isRun = false := by
  cases h <;> rfl

/-- Where no run comes first, it does not matter what stands before. -/
theorem kept_eq_of_apart {nodes : List Node} (h : ∀ next ∈ nodes.head?, next.isRun = false)
    (loud : Bool) : kept loud nodes = kept false nodes := by
  cases nodes with
  | nil => rfl
  | cons node nodes =>
      have hlayout := isLayout_of_not_isRun (h node rfl)
      simp [kept, hlayout]

theorem kept_run {text : List Char} (hnonempty : text ≠ []) (loud : Bool) (nodes : List Node) :
    kept loud (.text (String.ofList text) :: nodes) = runNodes loud text ++ kept false nodes := by
  have hlayout : Node.isLayout (.text (String.ofList text)) = text.all isBlank := by
    rw [Node.isLayout, String.toList_ofList]
  have hloud : Node.isLoud (.text (String.ofList text)) = false := rfl
  rw [kept, hlayout, hloud, runNodes]
  cases loud <;> cases text.all isBlank <;> simp [hnonempty]

/-- Without runs of blanks nothing is dropped. -/
theorem kept_eq_self {nodes : List Node} (h : ∀ node ∈ nodes, node.isLayout = false) (loud : Bool) :
    kept loud nodes = nodes := by
  induction nodes generalizing loud with
  | nil => rfl
  | cons node nodes ih =>
      obtain ⟨hnode, hnodes⟩ := List.forall_mem_cons.mp h
      rw [kept, hnode, ih hnodes]
      rfl

theorem forall_element?_kept {nodes : List Node} (h : ∀ node ∈ nodes, node.element? = none)
    (loud : Bool) : ∀ node ∈ kept loud nodes, node.element? = none := by
  induction nodes generalizing loud with
  | nil => exact List.forall_mem_nil _
  | cons node nodes ih =>
      obtain ⟨hnode, hnodes⟩ := List.forall_mem_cons.mp h
      rw [kept]
      split
      next => exact ih hnodes _
      next => exact List.forall_mem_cons.mpr ⟨hnode, ih hnodes _⟩

theorem IsPiece.element?_eq_none {written : List Char} {node : Node}
    (h : IsPiece version written node) : node.element? = none := by
  cases h with
  | run _ _ => rfl
  | markup _ hnode => exact hnode
  | untargeted _ _ _ => rfl

theorem IsPiece.exists_run {written : List Char} {node : Node} (h : IsPiece version written node)
    (hrun : node.isRun = true) :
    ∃ text, IsRun version written text ∧ text ≠ [] ∧ node = .text (String.ofList text) := by
  cases h with
  | run htext hnonempty => exact ⟨_, htext, hnonempty, rfl⟩
  | markup hmarkup _ =>
      rw [hmarkup.isRun_eq_false] at hrun
      cases hrun
  | untargeted _ _ _ => cases hrun

theorem ArePieces.element?_eq_none {written : List Char} {nodes : List Node}
    (h : ArePieces version written nodes) : ∀ node ∈ nodes, node.element? = none := by
  induction h with
  | nil => exact List.forall_mem_nil _
  | cons hpiece _ _ ih => exact List.forall_mem_cons.mpr ⟨hpiece.element?_eq_none, ih⟩

theorem isRun_nil (version : Version) : IsRun version [] [] :=
  ⟨.nil, by decide⟩

section Reading

open Reader (Advances IsPoised resting)

variable {nesting : Nesting} {admitsDoctype loud : Bool} {reader : Reader}

/-- Markup that is no element is read as its node and leaves all else as it was. -/
theorem IsMarkup.advances {written : List Char} {node : Node} (h : IsMarkup version written node)
    (hnode : node.element? = none) (hreader : IsPoised version nesting admitsDoctype reader)
    (hopen : nesting.isOpen = true) :
    ∃ rest, written = '<' :: rest ∧
      Advances { mode := .angle } reader rest {}
        (resting version (nesting.take node) admitsDoctype node.isLoud) := by
  cases h with
  | comment hallowed hend => exact ⟨_, rfl, Reader.advances_comment hreader hallowed hend⟩
  | cdata hallowed hend =>
      have hread := Reader.advances_cdata hreader hopen hallowed hend
      rw [Node.isLoud, String.toList_ofList]
      exact ⟨_, rfl, hread⟩
  | bareInstruction htarget => exact ⟨_, rfl, Reader.advances_bareInstruction hreader htarget⟩
  | instruction htarget hblank hallowed hend =>
      exact ⟨_, rfl, Reader.advances_instruction hreader htarget hblank hallowed hend⟩
  | empty _ => cases hnode
  | element _ _ _ => cases hnode

theorem Reader.advances_untargeted (hreader : IsPoised version nesting admitsDoctype reader)
    {data : List Char} {blank : Char} (hblank : isBlank blank = true)
    (hallowed : ∀ c ∈ data, version.allows c = true)
    (hend : ¬ Token.instructionEnd.chars <:+: data) :
    Advances { mode := .angle } reader
      (Token.instructionStart.chars ++ blank :: data ++ Token.instructionEnd.chars).tail {}
      (resting version (nesting.note (.instruction "" (some (instructionData data)))) admitsDoctype
        false) := by
  rw [← List.append_nil data] at hend
  have hgap := Lexer.scanAll?_plainInstruction (List.forall_mem_singleton.mpr (.inr hblank))
  have hscan := Lexer.isEnclosed_instruction.scanAll? .nothing hend
  have hleave : ((resting version nesting admitsDoctype false).enter (.target [])).Steps
      (.char blank) ((resting version nesting admitsDoctype false).enter (.data "" [])) := by
    intro lexer
    unfold accept? acceptTarget?
    simp [enter, hblank, isReserved]
  exact (advances_instructionStart hreader).append
    ⟨_, Lexer.scanAll?_append hgap hscan, .cons hleave (follows_data hallowed)⟩

theorem IsPiece.advances {written : List Char} {node : Node} (h : IsPiece version written node)
    (hrun : node.isRun = false) (hreader : IsPoised version nesting admitsDoctype reader)
    (hopen : nesting.isOpen = true) :
    ∃ rest, written = '<' :: rest ∧
      Advances { mode := .angle } reader rest {}
        (resting version (nesting.take node) admitsDoctype node.isLoud) := by
  cases h with
  | run _ _ => cases hrun
  | markup hmarkup hnode => exact hmarkup.advances hnode hreader hopen
  | untargeted hblank hallowed hend =>
      exact ⟨_, rfl, Reader.advances_untargeted hreader hblank hallowed hend⟩

/-- By induction on the pieces. A run is read together with the bracket of the piece behind it. -/
theorem ArePieces.advances_behind {written : List Char} {nodes : List Node}
    (h : ArePieces version written nodes) (hopen : nesting.isOpen = true) {run text : List Char}
    (hrun : IsRun version run text)
    (happart : text = [] ∨ ∀ next ∈ nodes.head?, next.isRun = false) :
    ∃ next, IsPoised version ((runNodes loud text ++ kept loud nodes).foldl Nesting.take nesting)
        admitsDoctype next ∧
      Advances {} (resting version nesting admitsDoctype loud) (run ++ written ++ ['<'])
        { mode := .angle } next := by
  induction h generalizing nesting loud run text with
  | nil =>
      rw [kept, List.append_nil, List.append_nil]
      exact Reader.advances_run admitsDoctype loud hopen hrun
  | @cons written rest node nodes hpiece hrest hnext ih =>
      cases hkind : node.isRun with
      | true =>
          obtain ⟨later, hlater, hnonempty, rfl⟩ := hpiece.exists_run hkind
          have htext : text = [] := happart.resolve_right fun h => nomatch h _ rfl
          subst htext
          obtain ⟨hspelled, -⟩ := hrun
          cases hspelled
          have hempty : runNodes loud [] = [] := if_pos (.inl rfl)
          have hheads := hnext rfl
          rw [hempty, List.nil_append, List.nil_append, kept_run hnonempty,
            ← kept_eq_of_apart hheads loud]
          exact ih hopen hlater (.inr hheads)
      | false =>
          obtain ⟨middle, hmiddle, hread⟩ := Reader.advances_run admitsDoctype loud hopen hrun
          have hstill := Nesting.isOpen_foldl_take hopen (runNodes loud text)
          obtain ⟨body, rfl, hbody⟩ := hpiece.advances hkind hmiddle hstill
          have hnested : (((runNodes loud text).foldl Nesting.take nesting).take node).isOpen = true :=
            Nesting.isOpen_foldl_take hstill [node]
          obtain ⟨last, hlast, hmore⟩ := ih hnested (isRun_nil version) (.inl rfl)
          have hkept : kept loud (node :: nodes) = node :: kept node.isLoud nodes := by
            rw [kept, isLayout_of_not_isRun hkind]
            rfl
          refine ⟨last, ?_, ?_⟩
          · rw [hkept, List.foldl_append, List.foldl_cons]
            exact hlast
          · have hsplit : run ++ ('<' :: body ++ rest) ++ ['<'] =
                run ++ ['<'] ++ (body ++ ([] ++ rest ++ ['<'])) := by simp
            rw [hsplit]
            exact hread.append (hbody.append hmore)

theorem ArePieces.advances {written : List Char} {nodes : List Node}
    (h : ArePieces version written nodes) (hopen : nesting.isOpen = true) (admitsDoctype : Bool) :
    ∃ next, IsPoised version ((kept false nodes).foldl Nesting.take nesting) admitsDoctype next ∧
      Advances {} (resting version nesting admitsDoctype false) (written ++ ['<'])
        { mode := .angle } next :=
  h.advances_behind hopen (isRun_nil version) (.inl rfl)

/-- The mark behind the content of an element of that name. -/
inductive IsEndTag (name : Name) : List Char → Prop
  | intro {blanks : List Char} (hname : name.IsValid) (hblanks : AreBlanks blanks) :
      IsEndTag name
        (Token.endTagStart.chars ++ name.chars ++ blanks ++ Token.tagEnd.chars)

/-- The element of the tag is read to its end, whatever pieces its text is written in. -/
theorem ArePieces.advances_close {written closing : List Char} {nodes : List Node} {tag : Tag}
    (h : ArePieces version written nodes) (hclosing : IsEndTag tag.name closing)
    (nesting : Nesting) (admitsDoctype : Bool) :
    Advances {} (resting version (nesting.start tag false) admitsDoctype false) (written ++ closing)
      {} (resting version (nesting.place (.ofPieces tag nodes)) admitsDoctype false) := by
  have hopen : (nesting.start tag false).isOpen = true := rfl
  obtain ⟨next, hnext, hread⟩ := h.advances hopen admitsDoctype
  obtain ⟨hname, hblanks⟩ := hclosing
  have hclose := Reader.advances_endTag hnext (Nesting.isOpen_foldl_take hopen _) hname hblanks
    (Nesting.finish?_foldl_take nesting tag (kept false nodes))
  have hsplit : ∀ blanks : List Char, written ++ (Token.endTagStart.chars ++ tag.name.chars ++
      blanks ++ Token.tagEnd.chars) = written ++ ['<'] ++
        '/' :: (tag.name.chars ++ blanks ++ Token.tagEnd.chars) := by
    intro blanks
    simp [Token.chars]
  rw [hsplit]
  exact hread.append hclose

end Reading

/-- A reader right behind a tag, in a document that declares entities. -/
def Reader.behindTag (version : Version) (nesting : Nesting) (entities : Entities) : Reader :=
  { Reader.resting version nesting false false with entities }

theorem Reader.readAll?_behindTag {nesting next : Nesting} {text : List Char}
    (h : Advances {} (resting version nesting false false) text {}
      (resting version next false false)) (entities : Entities) :
    (behindTag version nesting entities).readAll? text = some (behindTag version next entities) := by
  have hbehind : Advances (behindTag version nesting entities).lexer
      (behindTag version nesting entities) text {} (behindTag version next entities) :=
    h.withEntities rfl entities
  exact hbehind.readAll?

/--
The start of a document, up to the end of a start tag: the element stands in the first one at the top,
within the frames that are open around it.
-/
def Opens (version : Version) (front : List Char) (tag : Tag) (outer : List Frame) : Prop :=
  ∃ entities, Reader.readAll? { version } front =
    some (Reader.behindTag version (({ frames := outer } : Nesting).start tag false) entities)

/-- By recursion on the content; the markup in it has been shown to be read as its node. -/
theorem IsContent.areReadAs {loud : Bool} {written : List Char} {nodes : List Node} :
    IsContent version loud written nodes → AreReadAs version loud written nodes
  | .run hrun => fun _ hopen admitsDoctype =>
      ⟨admitsDoctype, Reader.advances_run admitsDoctype loud hopen hrun⟩
  | .markup hrun hmarkup hrest => areReadAs_markup hrun hmarkup.isReadAs hrest.areReadAs

/-- The start of a document whose root begins behind blanks and remarks. -/
theorem opens_root {before opening : List Char} {tag : Tag} (hbefore : IsMargin version before)
    (htag : IsTag version opening tag) :
    Opens version (before ++ '<' :: (opening ++ Token.tagEnd.chars)) tag [] := by
  obtain ⟨later, hmargin⟩ := hbefore.advances [] true
  have hpoised : Reader.IsPoised version {} later (Reader.resting version {} later false) :=
    Reader.isPoised_resting {} later
  have hstart : Reader.Advances { mode := .angle } (Reader.resting version {} later false)
      (opening ++ Token.tagEnd.chars) {}
      (Reader.resting version (Nesting.start {} tag false) false false) :=
    Reader.advances_startTag hpoised htag false
  have hopening : Reader.Advances {} (Reader.resting version {} later false)
      ('<' :: (opening ++ Token.tagEnd.chars)) {}
      (Reader.resting version (Nesting.start {} tag false) false false) :=
    .cons rfl (.nil _) hstart
  have hall : Reader.Advances (Reader.resting version {} true false).lexer
      (Reader.resting version {} true false) (before ++ '<' :: (opening ++ Token.tagEnd.chars)) {}
      (Reader.resting version (Nesting.start {} tag false) false false) :=
    hmargin.append hopening
  exact ⟨[], hall.readAll?⟩

/-- A child begins behind what has been read of the element around it. -/
theorem Opens.child {front content opening : List Char} {tag inner : Tag} {outer : List Frame}
    {nodes : List Node} (h : Opens version front tag outer)
    (hcontent : IsContent version false content nodes) (htag : IsTag version opening inner) :
    Opens version (front ++ (content ++ '<' :: (opening ++ Token.tagEnd.chars))) inner
      ({ tag, nodes := nodes.reverse } :: outer) := by
  obtain ⟨entities, hfront⟩ := h
  have hopen : (({ frames := outer } : Nesting).start tag false).isOpen = true := rfl
  obtain ⟨later, next, hnext, hread⟩ := hcontent.areReadAs hopen false
  have hstart := hread.append (Reader.advances_startTag hnext htag false)
  have hnested : (nodes.foldl Nesting.take (({ frames := outer } : Nesting).start tag false)).start
      inner false =
        ({ frames := { tag, nodes := nodes.reverse } :: outer } : Nesting).start inner false := by
    rw [Nesting.start, Nesting.start, if_neg Bool.false_ne_true, if_neg Bool.false_ne_true,
      Nesting.start, if_neg Bool.false_ne_true, Nesting.foldl_take_open, List.append_nil]
  rw [hnested] at hstart
  have hsplit : content ++ '<' :: (opening ++ Token.tagEnd.chars) =
      content ++ ['<'] ++ (opening ++ Token.tagEnd.chars) := by simp
  refine ⟨entities, ?_⟩
  rw [hsplit, Reader.readAll?_append, hfront, Option.bind_some]
  exact Reader.readAll?_behindTag hstart entities

theorem isTag_of_name {name : Name} (hname : name.IsValid) :
    IsTag version name.chars { name } := by
  have hnodup : ((Tag.ordinary { name }).map Attribute.name).Nodup := List.nodup_nil
  have htag : IsTag version (name.chars ++ [] ++ []) { name } := .intro hname .nil hnodup nofun
  rw [List.append_nil, List.append_nil] at htag
  exact htag

/-- A child without attributes begins where the element around it has only just begun. -/
theorem Opens.firstChild {front : List Char} {tag : Tag} {outer : List Frame} {name : Name}
    (h : Opens version front tag outer) (hname : name.IsValid) :
    Opens version (front ++ '<' :: (name.chars ++ Token.tagEnd.chars)) { name }
      ({ tag } :: outer) := by
  have hcontent : IsContent version false [] [] := .run (isRun_nil version)
  exact h.child hcontent (isTag_of_name hname)

section Documents

variable {front written closing : List Char} {tag : Tag} {outer : List Frame} {nodes : List Node}

theorem ArePieces.readAll?_close {entities : Entities} (h : ArePieces version written nodes)
    (hfront : Reader.readAll? { version } front =
      some (Reader.behindTag version (({ frames := outer } : Nesting).start tag false) entities))
    (hclosing : IsEndTag tag.name closing) :
    Reader.readAll? { version } (front ++ (written ++ closing)) =
      some (Reader.behindTag version
        (({ frames := outer } : Nesting).place (.ofPieces tag nodes)) entities) := by
  rw [Reader.readAll?_append, hfront, Option.bind_some]
  exact Reader.readAll?_behindTag (h.advances_close hclosing { frames := outer } false) entities

theorem ArePieces.elements_ofPieces (h : ArePieces version written nodes) (tag : Tag) :
    (Element.ofPieces tag nodes).elements = [] :=
  List.filterMap_eq_nil_iff.mpr (forall_element?_kept h.element?_eq_none false)

/--
Two documents that differ in the pieces of one element only. Both are refused, or the element stands
in the same surroundings in both of them.
-/
theorem Opens.rel_parse? {declaration declaration' : Declaration} {written' back : List Char}
    {nodes' : List Node} {octets octets' : List UInt8}
    (hopens : Opens declaration.version front tag outer) (hclosing : IsEndTag tag.name closing)
    (hpieces : ArePieces declaration.version written nodes)
    (hpieces' : ArePieces declaration.version written' nodes')
    (hdeclared : declared? octets = some (declaration, front ++ (written ++ closing) ++ back))
    (hdeclared' : declared? octets' = some (declaration', front ++ (written' ++ closing) ++ back))
    (hversion : declaration'.version = declaration.version) :
    Option.Rel
      (fun root root' => ∃ layers, outer = layers.map Layer.frame ∧
        root = enclose layers (.ofPieces tag nodes) ∧ root' = enclose layers (.ofPieces tag nodes'))
      (Element.parse? octets) (Element.parse? octets') := by
  obtain ⟨entities, hfront⟩ := hopens
  have hsame : ∀ scope, (Element.ofPieces tag nodes).node.isBound scope =
      (Element.ofPieces tag nodes').node.isBound scope :=
    isBound_eq_of_tag_eq rfl (hpieces.elements_ofPieces tag) (hpieces'.elements_ofPieces tag)
  have hkept := Nesting.isKept_around (.ofPieces tag nodes) (.ofPieces tag nodes') outer
  have hbehind : Reader.Beside (Nesting.Around (.ofPieces tag nodes) (.ofPieces tag nodes') outer)
      (Reader.behindTag declaration.version
        (({ frames := outer } : Nesting).place (.ofPieces tag nodes)) entities)
      (Reader.behindTag declaration.version
        (({ frames := outer } : Nesting).place (.ofPieces tag nodes')) entities) :=
    ⟨rfl, Nesting.around_place _ _ outer, trivial⟩
  have hread : Option.Rel
      (Reader.Beside (Nesting.Around (.ofPieces tag nodes) (.ofPieces tag nodes') outer))
      (Reader.readAll? { version := declaration.version } (front ++ (written ++ closing) ++ back))
      (Reader.readAll? { version := declaration.version }
        (front ++ (written' ++ closing) ++ back)) := by
    rw [Reader.readAll?_append, Reader.readAll?_append _ _ back,
      hpieces.readAll?_close hfront hclosing, hpieces'.readAll?_close hfront hclosing]
    exact hbehind.readAll? hkept back
  refine Xml.rel_parse? (fun _ _ h => h.complete?) ?_ hread ?_ hdeclared hdeclared' rfl hversion
  · rintro _ _ ⟨layers, later, -, rfl, rfl⟩
    have hroot := isBound_enclose hsame layers boundEverywhere
    exact congrArg (· && later.all Element.isBound) hroot
  · rintro _ _ ⟨layers, later, houter, rfl, rfl⟩
    exact .some ⟨layers, houter, rfl, rfl⟩

end Documents

end PanelRelay.Xml
