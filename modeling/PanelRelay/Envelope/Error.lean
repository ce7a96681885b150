/-! What can be wrong with an envelope or with the texts to be put into one. -/

namespace PanelRelay.Envelope

inductive Error where
  | malformed
  | missingEnvelope
  | missingBody
  | missingElement (name : String)
  | unexpectedElement (name : String)
  | unsupportedType (label : String)
  | invalidValue (element value : String)
  | fault (code text : String)
  deriving DecidableEq

/-- `explanation` is what the reader of XML says about a document that is not well-formed. -/
def Error.message (explanation : String) : Error → String
  | .malformed => s!"XML parse error: {explanation}"
  | .missingEnvelope => "missing SOAP envelope"
  | .missingBody => "missing SOAP body"
  | .missingElement name => s!"missing element '{name}'"
  | .unexpectedElement name => s!"unexpected element '{name}' in SOAP body"
  | .unsupportedType label => s!"unsupported value type '{label}'"
  | .invalidValue element value => s!"invalid value '{value}' for '{element}'"
  | .fault code text => s!"SOAP fault {code}: {text}"

end PanelRelay.Envelope
