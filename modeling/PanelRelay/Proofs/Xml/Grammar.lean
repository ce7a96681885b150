import PanelRelay.Proofs.Xml.Lookup
import PanelRelay.Proofs.Xml.Printing
import PanelRelay.Xml.Document

/-!
Documents as they may be written, as far as they have no document type declaration. For each kind of
piece a relation ties what is written to what it stands for; how a text is cut into tokens and read
has no part in it.
-/

namespace PanelRelay.Xml

def AreBlanks (text : List Char) : Prop :=
  ∀ c ∈ text, isBlank c = true

/-- Characters as themselves, save for those that are barred, or by references. -/
inductive IsSpelled (version : Version) (barred : List Char) : List Char → List Char → Prop where
  | nil : IsSpelled version barred [] []
  | literal {c : Char} {written text : List Char} (hallowed : version.allowsLiteral c = true)
      (hbarred : c ∉ barred) (hrest : IsSpelled version barred written text) :
      IsSpelled version barred (c :: written) (c :: text)
  | reference {body : List Char} {c : Char} {written text : List Char}
      (hbody : Reference.ofText? version body = some (.char c))
      (hrest : IsSpelled version barred written text) :
      IsSpelled version barred ('&' :: (body ++ ';' :: written)) (c :: text)

inductive IsAttributes (version : Version) : List Char → List Attribute → Prop where
  | nil : IsAttributes version [] []
  | cons {blanks before behind written rest : List Char} {quote : Quote} {item : Attribute}
      {items : List Attribute} (hblanks : AreBlanks blanks) (hnonempty : blanks ≠ [])
      (hname : item.name.IsValid) (hbefore : AreBlanks before) (hbehind : AreBlanks behind)
      (hvalue : IsSpelled version ['<', '&', quote.char] written item.value.toList)
      (hrest : IsAttributes version rest items) :
      IsAttributes version
        (blanks ++ item.name.chars ++ before ++ '=' :: behind ++ quote.char :: written ++
          quote.char :: rest)
        (item :: items)

/-- A tag without the marks around it; no attribute may stand in it twice. -/
inductive IsTag (version : Version) : List Char → Tag → Prop where
  | intro {attributes blanks : List Char} {tag : Tag} (hname : tag.name.IsValid)
      (hattributes : IsAttributes version attributes tag.attributes)
      (hnodup : (tag.ordinary.map Attribute.name).Nodup) (hblanks : AreBlanks blanks) :
      IsTag version (tag.name.chars ++ attributes ++ blanks) tag

/-- Text between two pieces of markup, which must not look like the end of character data. -/
def IsRun (version : Version) (written text : List Char) : Prop :=
  IsSpelled version ['<', '&'] written text ∧ ¬ Token.cdataEnd.chars <:+: written

/-- Character data other than blanks, behind which blanks are no layout. -/
def Node.isLoud : Node → Bool
  | .cdata content => !content.toList.all isBlank
  | _ => false

/-- The nodes of a text: none if it is empty or mere layout. -/
def runNodes (loud : Bool) (text : List Char) : List Node :=
  if text = [] ∨ (loud = false ∧ text.all isBlank = true) then [] else [.text (String.ofList text)]

def IsTarget (target : List Char) : Prop :=
  target.head?.any isNameStart = true ∧ (∀ c ∈ target, isNameChar c = true) ∧
    Reader.isReserved target = false

/-- The data of an instruction; a slash comes out as the start of an end tag. -/
def instructionData (data : List Char) : String :=
  String.ofList (data.flatMap fun c => if c = '/' then Token.endTagStart.chars else [c])

mutual

inductive IsMarkup (version : Version) : List Char → Node → Prop where
  | comment {content : List Char} (hallowed : ∀ c ∈ content, version.allows c = true)
      (hend : ¬ ['-', '-'] <:+: content ++ ['-']) :
      IsMarkup version (Token.commentStart.chars ++ content ++ Token.commentEnd.chars)
        (.comment (String.ofList content))
  | cdata {content : List Char} (hallowed : ∀ c ∈ content, version.allows c = true)
      (hend : ¬ Token.cdataEnd.chars <:+: content) :
      IsMarkup version (Token.cdataStart.chars ++ content ++ Token.cdataEnd.chars)
        (.cdata (String.ofList content))
  | bareInstruction {target : List Char} (htarget : IsTarget target) :
      IsMarkup version (Token.instructionStart.chars ++ target ++ Token.instructionEnd.chars)
        (.instruction (String.ofList target) none)
  | instruction {target data : List Char} {blank : Char} (htarget : IsTarget target)
      (hblank : isBlank blank = true) (hallowed : ∀ c ∈ data, version.allows c = true)
      (hend : ¬ Token.instructionEnd.chars <:+: data) :
      IsMarkup version
        (Token.instructionStart.chars ++ target ++ blank :: data ++ Token.instructionEnd.chars)
        (.instruction (String.ofList target) (some (instructionData data)))
  | empty {written : List Char} {tag : Tag} (htag : IsTag version written tag) :
      IsMarkup version (Token.tagStart.chars ++ written ++ Token.emptyTagEnd.chars)
        (.element tag [])
  | element {written content blanks : List Char} {tag : Tag} {children : List Node}
      (htag : IsTag version written tag) (hcontent : IsContent version false content children)
      (hblanks : AreBlanks blanks) :
      IsMarkup version
        (Token.tagStart.chars ++ written ++ Token.tagEnd.chars ++ content ++
          Token.endTagStart.chars ++ tag.name.chars ++ blanks ++ Token.tagEnd.chars)
        (.element tag children)

/-- Runs of text and pieces of markup, in turn, behind a piece that is loud or not. -/
inductive IsContent (version : Version) : Bool → List Char → List Node → Prop where
  | run {loud : Bool} {written text : List Char} (hrun : IsRun version written text) :
      IsContent version loud written (runNodes loud text)
  | markup {loud : Bool} {run text written rest : List Char} {node : Node} {nodes : List Node}
      (hrun : IsRun version run text) (hmarkup : IsMarkup version written node)
      (hrest : IsContent version node.isLoud rest nodes) :
      IsContent version loud (run ++ written ++ rest) (runNodes loud text ++ node :: nodes)

end

/-- What may stand before and behind the root: blanks and remarks. -/
inductive IsMargin (version : Version) : List Char → Prop where
  | nil : IsMargin version []
  | blank {c : Char} {rest : List Char} (hc : isBlank c = true) (hrest : IsMargin version rest) :
      IsMargin version (c :: rest)
  | comment {written rest : List Char} {content : String}
      (hcomment : IsMarkup version written (.comment content)) (hrest : IsMargin version rest) :
      IsMargin version (written ++ rest)
  | instruction {written rest : List Char} {target : String} {data : Option String}
      (hinstruction : IsMarkup version written (.instruction target data))
      (hrest : IsMargin version rest) : IsMargin version (written ++ rest)

inductive IsDocument (version : Version) : List Char → Element → Prop where
  | intro {before written behind : List Char} {root : Element} (hbefore : IsMargin version before)
      (hroot : IsMarkup version written root.node) (hbehind : IsMargin version behind) :
      IsDocument version (before ++ written ++ behind) root

/-- Octets that are a document, in which every prefix is bound. -/
def IsWritten (octets : List UInt8) (root : Element) : Prop :=
  ∃ declaration text, declared? octets = some (declaration, text) ∧
    IsDocument declaration.version text root ∧ root.isBound = true

end PanelRelay.Xml
