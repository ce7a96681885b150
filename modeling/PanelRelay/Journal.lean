import PanelRelay.Text.Escape

/-! What the program reports about its work, in the order in which it happens. -/

namespace PanelRelay.Journal

inductive Level where
  | trace
  | debug
  | info
  | warn
  deriving DecidableEq, Repr

def Level.label : Level → String
  | .trace => "TRACE"
  | .debug => "DEBUG"
  | .info => "INFO"
  | .warn => "WARN"

inductive Origin where
  | host
  | loader
  | property
  | description
  | exchange
  deriving DecidableEq, Repr

def Origin.label : Origin → String
  | .host => "panelgate"
  | .loader => "panelgate::message_loader::loader"
  | .property => "panelgate::domain::property::property"
  | .description => "panelgate::discovery::device_description"
  | .exchange => "panelgate::event_logger::client"

inductive Datum where
  | number (value : Int)
  | plain (value : String)
  | quoted (value : String)
  deriving DecidableEq, Repr

abbrev Fields := List (String × Datum)

structure Event where
  origin : Origin
  level : Level
  message : String
  fields : Fields := []
  deriving DecidableEq, Repr

structure Span where
  name : String
  fields : Fields := []
  deriving DecidableEq, Repr

inductive Entry where
  | event (event : Event)
  | span (span : Span)
  deriving DecidableEq, Repr

def Span.entries (span : Span) (events : List Event) : List Entry :=
  .span span :: events.map Entry.event

structure Note where
  span : Option Span := none
  event : Event
  deriving DecidableEq, Repr

def Span.notes (span : Span) (events : List Event) : List Note :=
  events.map fun event => { span := some span, event }

def notes (events : List Event) : List Note :=
  events.map fun event => { event }

def Level.isShown : Level → Bool
  | .trace => false
  | .debug => false
  | .info => true
  | .warn => true

def Datum.text : Datum → String
  | .number value => toString value
  | .plain value => value
  | .quoted value => quote value

/-- Characters that could steer a terminal are shown by their number. -/
def shownChar (c : Char) : List Char :=
  if c ∈ ['\x07', '\x08', '\x0c', '\x1b', '\x7f'] then
    ['\\', 'x', Nat.digitChar (c.toNat / 16), Nat.digitChar (c.toNat % 16)]
  else if 0x80 ≤ c.toNat ∧ c.toNat ≤ 0x9f then codePointEscape c
  else [c]

def shown (message : String) : String :=
  String.ofList (message.toList.flatMap shownChar)

def fieldText (item : String × Datum) : String :=
  s!"{item.1}={item.2.text}"

def Span.text (span : Span) : String :=
  span.name ++ "\x7b" ++ " ".intercalate (span.fields.map fieldText) ++ "\x7d: "

def Note.line (note : Note) : String :=
  let event := note.event
  let place := note.span.elim "" Span.text
  let start := s!"{event.level.label} {place}{event.origin.label}: {shown event.message}"
  " ".intercalate (start :: event.fields.map fieldText)

def lines (notes : List Note) : List String :=
  (notes.filter fun note => note.event.level.isShown).map Note.line

end PanelRelay.Journal

namespace PanelRelay

structure Noted (α : Type) where
  result : α
  events : List Journal.Event := []
  deriving DecidableEq, Repr

namespace Noted

def map {α β : Type} (f : α → β) (noted : Noted α) : Noted β :=
  { result := f noted.result, events := noted.events }

def bind {α β : Type} (noted : Noted α) (next : α → Noted β) : Noted β :=
  let following := next noted.result
  { result := following.result, events := noted.events ++ following.events }

instance : Monad Noted where
  pure result := { result }
  bind := bind
  map := map

@[simp] theorem result_pure {α : Type} (a : α) : (pure a : Noted α).result = a := rfl

@[simp] theorem events_pure {α : Type} (a : α) : (pure a : Noted α).events = [] := rfl

@[simp] theorem result_bind {α β : Type} (noted : Noted α) (next : α → Noted β) :
    (noted >>= next).result = (next noted.result).result := rfl

@[simp] theorem events_bind {α β : Type} (noted : Noted α) (next : α → Noted β) :
    (noted >>= next).events = noted.events ++ (next noted.result).events := rfl

@[simp] theorem result_map {α β : Type} (f : α → β) (noted : Noted α) :
    (f <$> noted).result = f noted.result := rfl

@[simp] theorem events_map {α β : Type} (f : α → β) (noted : Noted α) :
    (f <$> noted).events = noted.events := rfl

end Noted

end PanelRelay
