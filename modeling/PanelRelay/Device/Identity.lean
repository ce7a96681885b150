import PanelRelay.Device.Mac
import PanelRelay.Json.Value

/-! What identifies a panel, as one snapshot. -/

namespace PanelRelay.Device

structure Identity where
  name : Option String
  model : Option String
  version : Option String
  serialNumber : Option String
  mac : Option Mac
  /-- The raw code, zero when the panel reports none. -/
  encryptionMode : Int32
  deriving DecidableEq

def Mac.json (mac : Mac) : Json.Value :=
  .ofText mac.text

def Identity.json (identity : Identity) : Json.Value :=
  .ofMembers
    [("name", .ofOption .ofText identity.name),
      ("model", .ofOption .ofText identity.model),
      ("version", .ofOption .ofText identity.version),
      ("serial_number", .ofOption .ofText identity.serialNumber),
      ("mac", .ofOption Mac.json identity.mac),
      ("encryption_mode", .ofInt identity.encryptionMode.toInt)]

end PanelRelay.Device
