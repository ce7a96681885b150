import PanelRelay.Proofs.Xml.Markup

/-!
Reading documents as they may be written. Each run of text is read together with the bracket behind
it, which makes the text a node; elements and their contents are read by induction on each other.
-/

namespace PanelRelay.Xml

namespace Nesting

variable {nesting : Nesting} {frame : Frame} {frames : List Frame} {roots : List Element}

theorem take_open (node : Node) :
    Nesting.take { frames := frame :: frames, roots } node =
      { frames := frame.add node :: frames, roots } := by
  cases node <;> rfl

theorem foldl_take_open (nodes : List Node) :
    nodes.foldl Nesting.take { frames := frame :: frames, roots } =
      { frames := { frame with nodes := nodes.reverse ++ frame.nodes } :: frames, roots } := by
  induction nodes generalizing frame with
  | nil => rfl
  | cons node nodes ih =>
      rw [List.foldl_cons, take_open, ih]
      simp [Frame.add]

theorem isOpen_foldl_take (hopen : nesting.isOpen = true) (nodes : List Node) :
    (nodes.foldl Nesting.take nesting).isOpen = true := by
  obtain ⟨frames, roots⟩ := nesting
  cases frames with
  | nil => cases hopen
  | cons frame frames =>
      rw [foldl_take_open]
      rfl

theorem finish?_foldl_take (nesting : Nesting) (tag : Tag) (children : List Node) :
    (children.foldl Nesting.take (nesting.start tag false)).finish? tag.name =
      some (nesting.place { tag, children }) := by
  rw [start, if_neg Bool.false_ne_true, foldl_take_open]
  simp [finish?, Frame.close]

end Nesting

namespace Reader

variable {version : Version} {nesting : Nesting} {admitsDoctype loud : Bool} {reader : Reader}

theorem acceptContent?_literal (hopen : reader.nesting.isOpen = true) {c : Char}
    (hallowed : reader.version.allowsLiteral c = true) (hampersand : c ≠ '&') :
    reader.acceptContent? (Token.ofChar c) = some (reader.push c) := by
  unfold Token.ofChar
  split
  · exact if_pos hopen
  · exact if_pos hopen
  · exact if_pos hopen
  · exact if_pos hopen
  · exact absurd rfl hampersand
  · exact if_pos hopen
  · exact (if_pos hopen).trans (if_pos hallowed)

theorem follows_reference (hplace : reader.place = .content)
    (hopen : reader.nesting.isOpen = true) {body : List Char} {c : Char}
    (hbody : Reference.ofText? reader.version body = some (.char c)) :
    Follows reader (.ampersand :: (body.map Token.char ++ [.semicolon])) (reader.push c) := by
  obtain ⟨run, hrun, hchar⟩ := Option.bind_eq_some_iff.mp hbody
  have hbegin : reader.Steps .ampersand (reader.enter (.reference [])) :=
    steps_of_place hplace fun lexer => if_pos hopen
  have hend : (reader.enter (.reference run)).Steps .semicolon (reader.push c) := by
    intro lexer
    unfold accept? acceptReference?
    simp [enter, push, hchar, hplace]
  refine .cons hbegin (.append (follows_chars .reference ?_ hrun) (.single hend))
  intro run c longer hextend lexer
  unfold accept? acceptReference?
  simp only [enter, hextend, Option.map_some]

theorem foldl_push (reader : Reader) (text : List Char) :
    text.foldl push reader =
      { reader with
        run := text.reverse ++ reader.run
        isLayout := reader.isLayout && text.all isBlank } := by
  induction text generalizing reader with
  | nil => simp
  | cons c text ih => simp [ih, push, Bool.and_assoc]

/-- The text behind a piece of markup, as far as it has been read. -/
def pushed (version : Version) (nesting : Nesting) (admitsDoctype loud : Bool) (text : List Char) :
    Reader :=
  text.foldl push (resting version nesting admitsDoctype loud)

theorem pushed_eq (text : List Char) :
    pushed version nesting admitsDoctype loud text =
      { resting version nesting admitsDoctype loud with
        run := text.reverse
        isLayout := !loud && text.all isBlank } := by
  rw [pushed, foldl_push]
  simp [resting]

theorem pushed_append (front text : List Char) :
    pushed version nesting admitsDoctype loud (front ++ text) =
      text.foldl push (pushed version nesting admitsDoctype loud front) :=
  List.foldl_append

theorem absorbs_content (admitsDoctype loud : Bool) (hopen : nesting.isOpen = true) :
    Absorbs version ['<', '&'] true (pushed version nesting admitsDoctype loud) where
  opening := by decide
  held := by decide
  char front c hallowed hbarred := by
    have hampersand : c ≠ '&' := by
      rintro rfl
      exact hbarred (by decide)
    rw [pushed_append, pushed_eq]
    refine steps_of_place rfl fun lexer => ?_
    exact acceptContent?_literal hopen hallowed hampersand
  emptyTagEnd front := by
    rw [pushed_append, pushed_eq]
    exact steps_of_place rfl fun lexer => if_pos hopen
  cdataEnd := nofun
  reference front body c hbody := by
    rw [pushed_append, pushed_eq]
    exact follows_reference rfl hopen hbody

theorem isPoised_pushed (text : List Char) (hopen : nesting.isOpen = true) :
    IsPoised version ((runNodes loud text).foldl Nesting.take nesting) admitsDoctype
      (pushed version nesting admitsDoctype loud text) := by
  rw [pushed_eq]
  refine ⟨rfl, hopen.trans (Nesting.isOpen_foldl_take hopen _).symm, ?_⟩
  by_cases hempty : text = []
  · subst hempty
    simp [flush, resting, runNodes]
  · have hrun : text.reverse ≠ [] := by simpa using hempty
    cases hlayout : !loud && text.all isBlank with
    | true =>
        have hnodes : runNodes loud text = [] := by
          simp only [Bool.and_eq_true, Bool.not_eq_true'] at hlayout
          exact if_pos (.inr hlayout)
        simp [flush, resting, hnodes]
    | false =>
        have hnodes : runNodes loud text = [.text (String.ofList text)] := by
          refine if_neg ?_
          rintro (h | ⟨rfl, hblank⟩)
          · exact hempty h
          · rw [hblank] at hlayout
            cases hlayout
        simp [flush, resting, hnodes, hempty, Nesting.take]

theorem isPoised_resting (nesting : Nesting) (admitsDoctype : Bool) :
    IsPoised version nesting admitsDoctype (resting version nesting admitsDoctype false) :=
  ⟨rfl, rfl, rfl⟩

theorem advances_run (admitsDoctype loud : Bool) (hopen : nesting.isOpen = true)
    {written text : List Char} (hrun : IsRun version written text) :
    ∃ next, IsPoised version ((runNodes loud text).foldl Nesting.take nesting) admitsDoctype next ∧
      Advances {} (resting version nesting admitsDoctype loud) (written ++ ['<'])
        { mode := .angle } next :=
  ⟨_, isPoised_pushed text hopen,
    (absorbs_content admitsDoctype loud hopen).advances_open hrun.1 (fun _ => hrun.2) []⟩

/-- The first character of the name tells that the bracket before it begins a start tag. -/
theorem advances_startTag (h : IsPoised version nesting admitsDoctype reader) {tag : Tag}
    {written : List Char} (htag : IsTag version written tag) (closed : Bool) :
    Advances { mode := .angle } reader
      (written ++ (if closed then Token.emptyTagEnd else .tagEnd).chars) {}
      (resting version (nesting.start tag closed) false false) := by
  have hread : Advances {} ((resting version nesting false false).atStart (.tagName []))
      (written ++ (if closed then Token.emptyTagEnd else .tagEnd).chars) {}
      (resting version (nesting.start tag closed) false false) :=
    advances_tag htag closed
  obtain ⟨tokens, hscan, hfollows⟩ := hread
  obtain ⟨hname, -, -, -⟩ := htag
  obtain ⟨c, rest, hchars, hstart⟩ := hname.exists_cons
  rw [hchars] at hscan ⊢
  exact ⟨_, Lexer.scanAll?_angle hstart hscan, .cons h.steps_tagStart hfollows⟩

theorem follows_endNameChars {name : Name} (hname : name.IsValid) :
    Follows (reader.enter (.endName [])) (name.chars.map Token.ofChar)
      (reader.enter (.endName name.chars.reverse)) := by
  apply follows_name hname Place.endName
  intro run c longer hextend lexer
  have hblank := not_isBlank_of_isNameChar (isNameChar_of_extendName? hextend).1
  unfold accept? acceptEndName?
  simp [enter, hblank, hextend]

theorem advances_endName {name : Name} {blanks : List Char} (hname : name.IsValid)
    (hblanks : AreBlanks blanks) {closed : Nesting}
    (hfinish : reader.nesting.finish? name = some closed) :
    Advances {} (reader.enter (.endName [])) (name.chars ++ blanks ++ Token.tagEnd.chars) {}
      { reader with nesting := closed, place := .content } := by
  have hread : Advances {} (reader.enter (.endName [])) name.chars {}
      (reader.enter (.endName name.chars.reverse)) :=
    advances_name hname (follows_endNameChars hname)
  cases blanks with
  | nil =>
      have hend : (reader.enter (.endName name.chars.reverse)).Steps .tagEnd
          { reader with nesting := closed, place := .content } := by
        intro lexer
        unfold accept? acceptEndName?
        simp [finishElement?, enter, hname.ofChars?, hfinish]
      rw [List.append_nil]
      exact hread.append (.cons rfl (.single hend) (.refl _ _))
  | cons c blanks =>
      obtain ⟨hc, hblanks⟩ := List.forall_mem_cons.mp hblanks
      have hleave : Advances {} (reader.enter (.endName name.chars.reverse)) [c] {}
          (reader.enter (.endTag name)) := by
        refine advances_blank hc fun lexer => ?_
        unfold accept? acceptEndName?
        simp [enter, hc, hname.ofChars?]
      have hmore : Advances {} (reader.enter (.endTag name)) blanks {}
          (reader.enter (.endTag name)) := by
        refine advances_blanks hblanks fun d hd lexer => ?_
        unfold accept? acceptEndTag?
        simp [enter, hd]
      have hend : (reader.enter (.endTag name)).Steps .tagEnd
          { reader with nesting := closed, place := .content } := by
        intro lexer
        unfold accept? acceptEndTag?
        simp [finishElement?, enter, hfinish]
      exact (hread.append (hleave.append hmore)).append (.cons rfl (.single hend) (.refl _ _))

theorem advances_endTag (h : IsPoised version nesting admitsDoctype reader) {name : Name}
    {blanks : List Char} (hopen : nesting.isOpen = true) (hname : name.IsValid)
    (hblanks : AreBlanks blanks) {closed : Nesting} (hfinish : nesting.finish? name = some closed) :
    Advances { mode := .angle } reader ('/' :: (name.chars ++ blanks ++ Token.tagEnd.chars)) {}
      (resting version closed admitsDoctype false) := by
  have hrest : Advances {} ((resting version nesting admitsDoctype false).enter (.endName []))
      (name.chars ++ blanks ++ Token.tagEnd.chars) {}
      (resting version closed admitsDoctype false) :=
    advances_endName hname hblanks hfinish
  exact .cons rfl (.single (h.steps_endTagStart hopen)) hrest

end Reader

open Reader (Advances IsPoised resting)

variable {version : Version}

theorem IsTag.isValid_name {written : List Char} {tag : Tag} (h : IsTag version written tag) :
    tag.name.IsValid := by
  cases h with
  | intro hname => exact hname

/-- Markup that is read as its node, which goes behind what has been built so far. -/
def IsReadAs (version : Version) (written : List Char) (node : Node) : Prop :=
  ∀ ⦃nesting : Nesting⦄ ⦃admitsDoctype : Bool⦄ ⦃reader : Reader⦄,
    IsPoised version nesting admitsDoctype reader →
      nesting.isOpen = true ∨ (∀ content, node ≠ .cdata content) →
        ∃ rest later, written = '<' :: rest ∧
          Advances { mode := .angle } reader rest {}
            (resting version (nesting.take node) later node.isLoud)

/-- Content that is read up to the bracket behind it as its nodes, one behind the other. -/
def AreReadAs (version : Version) (loud : Bool) (written : List Char) (nodes : List Node) : Prop :=
  ∀ ⦃nesting : Nesting⦄, nesting.isOpen = true → ∀ admitsDoctype,
    ∃ later next, IsPoised version (nodes.foldl Nesting.take nesting) later next ∧
      Advances {} (resting version nesting admitsDoctype loud) (written ++ ['<'])
        { mode := .angle } next

theorem isReadAs_element {opening content blanks : List Char} {tag : Tag} {children : List Node}
    (htag : IsTag version opening tag) (hcontent : AreReadAs version false content children)
    (hblanks : AreBlanks blanks) :
    IsReadAs version
      (Token.tagStart.chars ++ opening ++ Token.tagEnd.chars ++ content ++
        Token.endTagStart.chars ++ tag.name.chars ++ blanks ++ Token.tagEnd.chars)
      (.element tag children) := by
  intro nesting admitsDoctype reader hreader _
  have hopen : (nesting.start tag false).isOpen = true := rfl
  have hopening : Advances { mode := .angle } reader (opening ++ Token.tagEnd.chars) {}
      (resting version (nesting.start tag false) false false) :=
    Reader.advances_startTag hreader htag false
  obtain ⟨later, next, hnext, hread⟩ := hcontent hopen false
  have hclosing := Reader.advances_endTag hnext (Nesting.isOpen_foldl_take hopen children)
    htag.isValid_name hblanks (Nesting.finish?_foldl_take nesting tag children)
  have hsplit : Token.tagStart.chars ++ opening ++ Token.tagEnd.chars ++ content ++
      Token.endTagStart.chars ++ tag.name.chars ++ blanks ++ Token.tagEnd.chars =
        '<' :: (opening ++ Token.tagEnd.chars ++ (content ++ ['<'] ++
          '/' :: (tag.name.chars ++ blanks ++ Token.tagEnd.chars))) := by
    simp [Token.chars]
  exact ⟨_, _, hsplit, hopening.append (hread.append hclosing)⟩

theorem areReadAs_markup {loud : Bool} {run text written rest : List Char} {node : Node}
    {nodes : List Node} (hrun : IsRun version run text) (hmarkup : IsReadAs version written node)
    (hrest : AreReadAs version node.isLoud rest nodes) :
    AreReadAs version loud (run ++ written ++ rest) (runNodes loud text ++ node :: nodes) := by
  intro nesting hopen admitsDoctype
  obtain ⟨middle, hmiddle, hread⟩ := Reader.advances_run admitsDoctype loud hopen hrun
  have hstill := Nesting.isOpen_foldl_take hopen (runNodes loud text)
  obtain ⟨body, between, rfl, hbody⟩ := hmarkup hmiddle (.inl hstill)
  have hopen : (((runNodes loud text).foldl Nesting.take nesting).take node).isOpen = true :=
    Nesting.isOpen_foldl_take hstill [node]
  obtain ⟨later, next, hnext, hlast⟩ := hrest hopen between
  refine ⟨later, next, ?_, ?_⟩
  · rw [List.foldl_append, List.foldl_cons]
    exact hnext
  · have hsplit : run ++ '<' :: body ++ rest ++ ['<'] =
        run ++ ['<'] ++ (body ++ (rest ++ ['<'])) := by simp
    rw [hsplit]
    exact hread.append (hbody.append hlast)

/-- By induction on markup and on content at once, which are parts of each other. -/
theorem IsMarkup.isReadAs {written : List Char} {node : Node} (h : IsMarkup version written node) :
    IsReadAs version written node := by
  refine @IsMarkup.rec version (fun written node _ => IsReadAs version written node)
    (fun loud written nodes _ => AreReadAs version loud written nodes) ?comment ?cdata
    ?bareInstruction ?instruction ?empty ?element ?run ?markup _ _ h
  case comment =>
    intro content hallowed hend nesting admitsDoctype reader hreader _
    exact ⟨_, _, rfl, Reader.advances_comment hreader hallowed hend⟩
  case cdata =>
    intro content hallowed hend nesting admitsDoctype reader hreader hplace
    have hopen : nesting.isOpen = true := hplace.resolve_right fun h => h _ rfl
    have hread := Reader.advances_cdata hreader hopen hallowed hend
    rw [Node.isLoud, String.toList_ofList]
    exact ⟨_, _, rfl, hread⟩
  case bareInstruction =>
    intro target htarget nesting admitsDoctype reader hreader _
    exact ⟨_, _, rfl, Reader.advances_bareInstruction hreader htarget⟩
  case instruction =>
    intro target data blank htarget hblank hallowed hend nesting admitsDoctype reader hreader _
    exact ⟨_, _, rfl, Reader.advances_instruction hreader htarget hblank hallowed hend⟩
  case empty =>
    intro opening tag htag nesting admitsDoctype reader hreader _
    exact ⟨_, _, rfl, Reader.advances_startTag hreader htag true⟩
  case element =>
    intro opening content blanks tag children htag _ hblanks hcontent
    exact isReadAs_element htag hcontent hblanks
  case run =>
    intro loud written text hrun nesting hopen admitsDoctype
    exact ⟨admitsDoctype, Reader.advances_run admitsDoctype loud hopen hrun⟩
  case markup =>
    intro loud run text written rest node nodes hrun _ _ hmarkup hrest
    exact areReadAs_markup hrun hmarkup hrest

theorem IsReadAs.advances {written : List Char} {node : Node} (h : IsReadAs version written node)
    (hnode : ∀ content, node ≠ .cdata content) (nesting : Nesting) (admitsDoctype : Bool) :
    ∃ later, Advances {} (resting version nesting admitsDoctype false) written {}
      (resting version (nesting.take node) later node.isLoud) := by
  obtain ⟨rest, later, rfl, hread⟩ :=
    h (Reader.isPoised_resting nesting admitsDoctype) (.inr hnode)
  exact ⟨later, .cons rfl (.nil _) hread⟩

/-- What stands before and behind the root leaves nothing behind. -/
theorem IsMargin.advances {written : List Char} (h : IsMargin version written)
    (roots : List Element) (admitsDoctype : Bool) :
    ∃ later, Advances {} (resting version { roots } admitsDoctype false) written {}
      (resting version { roots } later false) := by
  induction h generalizing admitsDoctype with
  | nil => exact ⟨admitsDoctype, .refl _ _⟩
  | blank hc hrest ih =>
      obtain ⟨later, hread⟩ := ih admitsDoctype
      refine ⟨later, (Reader.advances_blank hc ?_).append hread⟩
      exact Reader.steps_of_place rfl fun lexer => if_pos hc
  | comment hcomment hrest ih =>
      obtain ⟨middle, hfirst⟩ := hcomment.isReadAs.advances nofun { roots } admitsDoctype
      obtain ⟨later, hread⟩ := ih middle
      exact ⟨later, hfirst.append hread⟩
  | instruction hinstruction hrest ih =>
      obtain ⟨middle, hfirst⟩ := hinstruction.isReadAs.advances nofun { roots } admitsDoctype
      obtain ⟨later, hread⟩ := ih middle
      exact ⟨later, hfirst.append hread⟩

theorem IsDocument.roots? {text : List Char} {root : Element} (h : IsDocument version text root)
    (hbound : root.isBound = true) : Xml.roots? version text = some [root] := by
  obtain ⟨hbefore, hroot, hbehind⟩ := h
  obtain ⟨first, hfirst⟩ := hbefore.advances [] true
  obtain ⟨second, hsecond⟩ := hroot.isReadAs.advances nofun {} first
  obtain ⟨third, hthird⟩ := hbehind.advances [root] second
  have hall : Advances (resting version {} true false).lexer (resting version {} true false) _ {}
      (resting version { roots := [root] } third false) :=
    (hfirst.append hsecond).append hthird
  have hread : Reader.readAll? { version } _ =
      some (resting version { roots := [root] } third false) :=
    hall.readAll?
  have hroots : (resting version { roots := [root] } third false).roots? = some [root] := rfl
  rw [Xml.roots?, hread]
  simp [hroots, hbound]

/-- A document is parsed as what is written in it. -/
theorem IsWritten.parse? {octets : List UInt8} {root : Element} (h : IsWritten octets root) :
    Element.parse? octets = some root := by
  obtain ⟨declaration, text, hdeclared, hdocument, hbound⟩ := h
  simp [Element.parse?, hdeclared, hdocument.roots? hbound]

end PanelRelay.Xml
