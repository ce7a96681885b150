import PanelRelay.Settings.Value

/-!
Tables that are being defined. A table can be defined once: by its header, or by dotted keys. A
header also brings the tables on the way to it into being, and those may still get a header of their
own, unless dotted keys have led through them.
-/

namespace PanelRelay.Toml

open Settings (Value)

inductive Origin where
  | header
  /-- Only named in the header of another table so far. -/
  | passed
  | dotted
  deriving DecidableEq

inductive Node where
  | value (value : Value)
  | table (origin : Origin) (members : List (String × Node))
  /-- A list of tables, the latest first. -/
  | tables (latest : List (String × Node)) (before : List (List (String × Node)))

abbrev Table := List (String × Node)

namespace Table

def replace (table : Table) (key : String) (node : Node) : Table :=
  table.map fun member => if member.1 = key then (key, node) else member

def append (table : Table) (key : String) (node : Node) : Table :=
  table ++ [(key, node)]

/-- Whether dotted keys may go on into a table, `isLast` if they add to it directly. -/
def admitsDotted (origin : Origin) (isLast : Bool) : Bool :=
  match origin with
  | .header => false
  | .passed => !isLast
  | .dotted => true

def put? (value : Value) : List String → Table → Option Table
  | [], _ => none
  | [key], table =>
      if (table.lookup key).isSome then none else some (table.append key (.value value))
  | key :: keys, table =>
      match table.lookup key with
      | none => (put? value keys []).map fun inner => table.append key (.table .dotted inner)
      | some (.table origin inner) =>
          if admitsDotted origin (keys.length = 1) then
            (put? value keys inner).map fun inner => table.replace key (.table .dotted inner)
          else none
      | some (.tables latest before) =>
          if keys.length = 1 then none
          else (put? value keys latest).map fun latest =>
            table.replace key (.tables latest before)
      | some (.value _) => none

def modify? (change : Table → Option Table) : List String → Table → Option Table
  | [], table => change table
  | key :: keys, table =>
      match table.lookup key with
      | none => (modify? change keys []).map fun inner => table.append key (.table .passed inner)
      | some (.table origin inner) =>
          (modify? change keys inner).map fun inner => table.replace key (.table origin inner)
      | some (.tables latest before) =>
          (modify? change keys latest).map fun latest => table.replace key (.tables latest before)
      | some (.value _) => none

def define? (key : String) (table : Table) : Option Table :=
  match table.lookup key with
  | none => some (table.append key (.table .header []))
  | some (.table .passed inner) => some (table.replace key (.table .header inner))
  | _ => none

def extend? (key : String) (table : Table) : Option Table :=
  match table.lookup key with
  | none => some (table.append key (.tables [] []))
  | some (.tables latest before) => some (table.replace key (.tables [] (latest :: before)))
  | _ => none

end Table

mutual

def Node.toValue : Node → Value
  | .value value => value
  | .table _ members => .table (membersToValues members)
  | .tables latest before =>
      .array (tablesToValues before ++ [.table (membersToValues latest)])

def membersToValues : List (String × Node) → List (String × Value)
  | [] => []
  | (key, node) :: members => (key, node.toValue) :: membersToValues members

/-- Tables that stand in reverse. -/
def tablesToValues : List (List (String × Node)) → List Value
  | [] => []
  | table :: before => tablesToValues before ++ [.table (membersToValues table)]

end

end PanelRelay.Toml
