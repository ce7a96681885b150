import PanelRelay.Property.Json
import PanelRelay.Proofs.Json.Compact

/-! Property values and statuses are read back from what they are written as. -/

namespace PanelRelay.Property

open Json (pieces)

theorem integer?_ofInt (n : Int) : integer? (.ofInt n) = some n :=
  Json.Number.integer?_ofInt n

theorem string?_ofText (text : String) : string? (.ofText text) = some text :=
  Json.text?_pieces text

theorem octets?_array (octets : List UInt8) :
    octets? (.array (octets.map fun octet => .ofInt octet.toNat)) = some octets := by
  rw [octets?]
  induction octets with
  | nil => rfl
  | cons octet octets ih => simp [integer?_ofInt, ih]

namespace Value

theorem isPrintable_json (value : Value) : value.json.IsPrintable := by
  cases value with
  | text content =>
      refine Json.Value.isPrintable_ofMembers (List.forall_mem_singleton.mpr ?_)
      exact Json.Value.isPrintable_ofText content
  | integer content =>
      refine Json.Value.isPrintable_ofMembers (List.forall_mem_singleton.mpr ?_)
      exact Json.Value.isPrintable_ofInt content.toInt
  | bytes content =>
      refine Json.Value.isPrintable_ofMembers (List.forall_mem_singleton.mpr ?_)
      refine Json.Value.isPrintable_array (List.forall_mem_map.mpr ?_)
      exact fun octet _ => Json.Value.isPrintable_ofInt octet.toNat

/-- The name of the only member says which kind of value follows. -/
theorem ofJson?_json (value : Value) : ofJson? value.json = some value := by
  have hinteger : pieces "integer" ≠ pieces "text" := by decide
  have hbytes : pieces "bytes" ≠ pieces "text" ∧ pieces "bytes" ≠ pieces "integer" := by decide
  cases value with
  | text content =>
      rw [json, Json.Value.ofMembers, List.map_singleton, ofJson?, ofMember?, if_pos rfl,
        string?_ofText]
      rfl
  | integer content =>
      rw [json, Json.Value.ofMembers, List.map_singleton, ofJson?, ofMember?, if_neg hinteger,
        if_pos rfl, integer?_ofInt, Option.bind_some, int32?_toInt]
      rfl
  | bytes content =>
      rw [json, Json.Value.ofMembers, List.map_singleton, ofJson?, ofMember?, if_neg hbytes.1,
        if_neg hbytes.2, if_pos rfl, octets?_array]
      rfl

end Value

namespace Status

theorem isPrintable_json (status : Status) : status.json.IsPrintable :=
  Json.Value.isPrintable_ofText status.label

theorem ofJson?_json (status : Status) : ofJson? status.json = some status := by
  rw [json, Json.Value.ofText, ofJson?, Json.text?_pieces, Option.bind_some, ofLabel?_label]

end Status

end PanelRelay.Property
