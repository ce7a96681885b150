import PanelRelay.Calendar
import PanelRelay.Device.Description
import PanelRelay.Event.Message

/-! The events that the program reports about itself and about panels. -/

namespace PanelRelay.Event

open Device (Identity)

def deviceDiscoveredName : String := "device.Discovered"
def programStartedName : String := "program.Started"

/-- A field that the panel did not report goes out without a value, under the id it came from. -/
def deviceDiscovered (identity : Identity) : Message :=
  Message.named deviceDiscoveredName
    |>.add Device.nameProperty 0 (identity.name.map .text)
    |>.add Device.modelProperty 0 (identity.model.map .text)
    |>.add Device.versionProperty 0 (identity.version.map .text)
    |>.add Device.serialNumberProperty 0 (identity.serialNumber.map .text)
    |>.add Device.macProperty 0 (identity.mac.map fun mac => .text mac.text)
    |>.add Device.encryptionModeProperty 0 (some (.integer identity.encryptionMode))

def programStarted (name version : String) (start : Calendar.Instant) : Message :=
  Message.named programStartedName
    |>.add "program.name" 0 (some (.text name))
    |>.add "program.version" 0 (some (.text version))
    |>.add "program.startedAt" 0 (some (.text start.text))

end PanelRelay.Event
