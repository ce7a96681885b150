import PanelRelay.Xml.Reference
import PanelRelay.Xml.Token

/-!
Document type declarations. Only the texts of entities are kept; what concerns validity is passed
over. The name of a parameter entity is kept with its percent sign.
-/

namespace PanelRelay.Xml

structure EntityValue where
  name : String
  quote : Quote
  chars : List Char := []

/-- How far a document type declaration has been read. Incomplete names stand in reverse. -/
inductive Doctype where
  | outside
  | inQuotes (quote : Quote)
  | inComment
  | inKeyword (keyword : List Char)
  | beforeName
  | beforeParameter
  | inName (name : List Char)
  | beforeValue (name : String)
  | inValue (value : EntityValue)
  | inReference (value : EntityValue)
  | inCodePoint (value : EntityValue) (code : List Char)
  | inValueParameter (value : EntityValue) (name : List Char)
  /-- In what nothing is kept of, up to the end of the declaration. -/
  | passedOver
  | inParameter (name : List Char)

namespace EntityValue

def append (value : EntityValue) (text : List Char) : EntityValue :=
  { value with chars := text.reverse ++ value.chars }

def text (value : EntityValue) : List Char :=
  value.chars.reverse

end EntityValue

namespace Doctype

inductive Step where
  | more (place : Doctype)
  | declare (name : String) (text : List Char)
  | expand (text : List Char)
  | finish

def acceptOutside? (token : Token) : Option Step :=
  match token with
  | .tagEnd => some .finish
  | .declarationStart => some (.more (.inKeyword []))
  | .char c => if c = '%' then some (.more (.inParameter ['%'])) else some (.more .outside)
  | .commentStart => some (.more .inComment)
  | .quote quote => some (.more (.inQuotes quote))
  | .cdataStart => none
  | _ => some (.more .outside)

def acceptKeyword? (keyword : List Char) (token : Token) : Option Step :=
  match token with
  | .char c =>
      if isBlank c then
        let keyword := String.ofList keyword.reverse
        if keyword = "ENTITY" then some (.more .beforeName)
        else if keyword ∈ ["ELEMENT", "ATTLIST", "NOTATION"] then some (.more .passedOver)
        else none
      else if c.isUpper then some (.more (.inKeyword (c :: keyword)))
      else none
  | _ => none

def acceptBeforeName? (token : Token) : Option Step :=
  match token with
  | .char c =>
      if isBlank c then some (.more .beforeName)
      else if c = '%' then some (.more .beforeParameter)
      else if isNameStart c then some (.more (.inName [c]))
      else none
  | _ => none

def acceptBeforeParameter? (token : Token) : Option Step :=
  match token with
  | .char c =>
      if isBlank c then some (.more .beforeParameter)
      else if isNameStart c then some (.more (.inName [c, '%']))
      else none
  | _ => none

def acceptName? (name : List Char) (token : Token) : Option Step :=
  match token with
  | .char c =>
      if isBlank c then some (.more (.beforeValue (String.ofList name.reverse)))
      else if isNameChar c then some (.more (.inName (c :: name)))
      else none
  | _ => none

/-- An entity that is kept elsewhere counts as empty. -/
def acceptBeforeValue? (name : String) (token : Token) : Option Step :=
  match token with
  | .char c =>
      if isBlank c then some (.more (.beforeValue name))
      else if c = 'S' ∨ c = 'P' then some (.declare name [])
      else none
  | .quote quote => some (.more (.inValue { name, quote }))
  | _ => none

def acceptValue? (version : Version) (value : EntityValue) (token : Token) : Option Step :=
  match token with
  | .quote quote =>
      if quote = value.quote then some (.declare value.name value.text)
      else some (.more (.inValue (value.append token.chars)))
  | .ampersand => some (.more (.inReference value))
  | .char c =>
      if c = '&' then some (.more (.inReference value))
      else if c = '%' then some (.more (.inValueParameter value ['%']))
      else if version.allows c then some (.more (.inValue (value.append [c])))
      else none
  | _ => none

/-- Only code points are replaced here; other references wait until the entity is used. -/
def acceptReference? (version : Version) (value : EntityValue) (token : Token) : Option Step :=
  match token with
  | .char c =>
      if c = '#' then some (.more (.inCodePoint value []))
      else if version.allows c then some (.more (.inValue (value.append ['&', c])))
      else none
  | _ => none

def acceptCodePoint? (version : Version) (value : EntityValue) (code : List Char)
    (token : Token) : Option Step :=
  let finish := (Reference.char? version code.reverse).map fun c =>
    .more (.inValue (value.append [c]))
  match token with
  | .semicolon => finish
  | .char c =>
      if c = ';' then finish
      else if version.allows c then some (.more (.inCodePoint value (c :: code)))
      else none
  | _ => none

/-- The text of the parameter entity that is referred to takes the place of the reference. -/
def acceptParameter? (entities : Entities) (name : List Char) (more : List Char → Step)
    (replace : List Char → Step) (token : Token) : Option Step :=
  let finish := (entities.lookup (String.ofList name.reverse)).map replace
  match token with
  | .semicolon => finish
  | .char c =>
      if c = ';' then finish
      else if isNameChar c then some (more (c :: name))
      else none
  | _ => none

def accept? (version : Version) (entities : Entities) (place : Doctype) (token : Token) :
    Option Step :=
  match place with
  | .outside => acceptOutside? token
  | .inQuotes quote => some (.more (if token = .quote quote then .outside else place))
  | .inComment => some (.more (if token = .commentEnd then .outside else place))
  | .inKeyword keyword => acceptKeyword? keyword token
  | .beforeName => acceptBeforeName? token
  | .beforeParameter => acceptBeforeParameter? token
  | .inName name => acceptName? name token
  | .beforeValue name => acceptBeforeValue? name token
  | .inValue value => acceptValue? version value token
  | .inReference value => acceptReference? version value token
  | .inCodePoint value code => acceptCodePoint? version value code token
  | .inValueParameter value name =>
      acceptParameter? entities name (fun name => .more (.inValueParameter value name))
        (fun text => .more (.inValue (value.append text))) token
  | .passedOver => some (.more (if token = .tagEnd then .outside else place))
  | .inParameter name =>
      acceptParameter? entities name (fun name => .more (.inParameter name)) .expand token

end Doctype

end PanelRelay.Xml
