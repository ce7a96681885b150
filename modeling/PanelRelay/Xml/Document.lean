import PanelRelay.Xml.Declaration
import PanelRelay.Xml.Namespace
import PanelRelay.Xml.Reader

/-!
Reading a document. All of its text has to be well-formed; the first element at the top is the one
that counts.
-/

namespace PanelRelay.Xml

/-- The elements at the top of a text that no declaration precedes. -/
def roots? (version : Version) (text : List Char) : Option (List Element) := do
  let reader ← Reader.readAll? { version } text
  let roots ← reader.roots?
  if roots.all Element.isBound then some roots else none

def Element.parse? (octets : List UInt8) : Option Element := do
  let (declaration, text) ← declared? octets
  let roots ← roots? declaration.version text
  roots.head?

end PanelRelay.Xml
