import PanelRelay.Xml.Name

/-! The vocabulary of the event logger's service. -/

namespace PanelRelay.Envelope

open Xml (Name)

def envelopeUri : String := "http://schemas.xmlsoap.org/soap/envelope/"
def schemaUri : String := "http://www.w3.org/2001/XMLSchema"
def instanceUri : String := "http://www.w3.org/2001/XMLSchema-instance"
def serviceUri : String := "ATSAdvanced.DTO"
def propertyUri : String := "http://schemas.datacontract.org/2004/07/AtsAdvancedTest"

def operationName : String := "logMessage"
def partName : String := "message"
def responseName : String := "logMessageResponse"

/-- Spelled this way by the service. -/
def resultName : String := "reponse"

def propertyName : String := "Program.Property"
def faultName : String := "Fault"

def nilName : Name := .qualified "xsi" "nil"
def typeName : Name := .qualified "xsi" "type"

end PanelRelay.Envelope
