import PanelRelay.Property.Value

/-! Messages to the event logger: a name and a list of properties, both of which may be absent. -/

namespace PanelRelay.Event

structure Detail where
  id : Option String
  index : Int32
  value : Option Property.Value
  deriving DecidableEq

structure Message where
  name : Option String := none
  details : Option (List Detail) := none
  deriving DecidableEq

namespace Message

def empty : Message := {}

def named (name : String) : Message where
  name := some name
  details := some []

/-- Appends a property; an absent list counts as an empty one. -/
def add (message : Message) (id : String) (index : Int32) (value : Option Property.Value) :
    Message :=
  let detail := { id := some id, index, value }
  { message with details := some (message.details.getD [] ++ [detail]) }

/-- The first property of an id and index; one without id is never found. -/
def find? (message : Message) (id : String) (index : Int32) : Option Detail :=
  (message.details.getD []).find? fun detail =>
    detail.id = some id && detail.index = index

end Message

end PanelRelay.Event
