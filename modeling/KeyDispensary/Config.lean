import KeyDispensary.Policy
import KeyDispensary.Store.Disk

/-! The configuration: the names of the four tables and the policy to start with. -/

namespace KeyDispensary

/-- The names of the tables. -/
structure Tables where
  /-- One-time elliptic-curve keys. -/
  ecPool : String := "Keys"
  /-- One-time post-quantum keys. -/
  pqPool : String := "PqKeys"
  /-- Legacy signed elliptic-curve keys. -/
  legacy : String := "EcSignedPreKeys"
  /-- Last-resort post-quantum keys. -/
  lastResort : String := "PqLastResortKeys"
deriving DecidableEq

namespace Tables

/-- The names in the order of their declaration. -/
def names (tables : Tables) : List String :=
  [tables.ecPool, tables.pqPool, tables.legacy, tables.lastResort]

/-- Requires names that are not empty and that differ from one another. -/
def validate (tables : Tables) : Except KeyError Unit :=
  if tables.names.any String.isEmpty then .error (.misconfigured .emptyTableName)
  else if tables.names.Nodup then .ok ()
  else .error (.misconfigured .sharedTableName)

/-- The names that were read so far. -/
structure Draft where
  ecPool : Option String := none
  pqPool : Option String := none
  legacy : Option String := none
  lastResort : Option String := none

/-- The member that names the table of one-time elliptic-curve keys. -/
def ecPoolField : Json.Field Draft where
  name := "ec_pre_keys"
  isGiven draft := draft.ecPool.isSome
  fill draft text := (Json.readText text).map fun (value, rest) =>
    ({ draft with ecPool := some value }, rest)

/-- The member that names the table of one-time post-quantum keys. -/
def pqPoolField : Json.Field Draft where
  name := "pq_pre_keys"
  isGiven draft := draft.pqPool.isSome
  fill draft text := (Json.readText text).map fun (value, rest) =>
    ({ draft with pqPool := some value }, rest)

/-- The member that names the table of legacy keys. -/
def legacyField : Json.Field Draft where
  name := "ec_signed_pre_keys"
  isGiven draft := draft.legacy.isSome
  fill draft text := (Json.readText text).map fun (value, rest) =>
    ({ draft with legacy := some value }, rest)

/-- The member that names the table of last-resort keys. -/
def lastResortField : Json.Field Draft where
  name := "pq_last_resort_keys"
  isGiven draft := draft.lastResort.isSome
  fill draft text := (Json.readText text).map fun (value, rest) =>
    ({ draft with lastResort := some value }, rest)

/-- The names that were read, with the usual name for each that was not. -/
def Draft.tables (draft : Draft) : Tables :=
  let usual : Tables := {}
  ⟨draft.ecPool.getD usual.ecPool, draft.pqPool.getD usual.pqPool,
    draft.legacy.getD usual.legacy, draft.lastResort.getD usual.lastResort⟩

/-- How table names are read. -/
def shape : Json.Shape Tables where
  name := "TableNames"
  Draft := Draft
  blank := {}
  fields := [ecPoolField, pqPoolField, legacyField, lastResortField]
  complete draft := .ok draft.tables

/-- The members of written table names. -/
def members (tables : Tables) : List (String × List Char) :=
  [(ecPoolField.name, Json.writeString tables.ecPool),
    (pqPoolField.name, Json.writeString tables.pqPool),
    (legacyField.name, Json.writeString tables.legacy),
    (lastResortField.name, Json.writeString tables.lastResort)]

end Tables

/-- A configuration. -/
structure Config where
  tables : Tables := {}
  policy : Policy := {}
deriving DecidableEq

namespace Config

/-- The parts of a configuration that were read so far. -/
structure Draft where
  tables : Option Tables := none
  policy : Option Policy := none

/-- The member that holds the table names. -/
def tablesField : Json.Field Draft where
  name := "tables"
  isGiven draft := draft.tables.isSome
  fill draft text := (Tables.shape.read text).map fun (value, rest) =>
    ({ draft with tables := some value }, rest)

/-- The member that holds the policy. -/
def policyField : Json.Field Draft where
  name := "migration"
  isGiven draft := draft.policy.isSome
  fill draft text := (Policy.shape.read text).map fun (value, rest) =>
    ({ draft with policy := some value }, rest)

/-- How a configuration is read; a part that is not given is the usual one. -/
def shape : Json.Shape Config where
  name := "PreKeyStoreConfig"
  Draft := Draft
  blank := {}
  fields := [tablesField, policyField]
  complete draft := .ok ⟨draft.tables.getD {}, draft.policy.getD {}⟩

/-- The configuration that a text gives, if its table names are sound. -/
def parse (text : String) : Except KeyError Config :=
  match Json.decode shape.read (Bytes.ofText text) with
  | .error error => .error (.misconfigured (.badConfig error))
  | .ok config => config.tables.validate.map fun _ => config

/-- The configuration that the file of a path gives. -/
def load (disk : Disk) (path : String) : Except KeyError Config :=
  match disk.readText (Path.ofText path) with
  | .error fault => .error (.misconfigured (.unreadable path fault))
  | .ok text => parse text

/-- The text of a configuration, with each setting on a line of its own. -/
def text (config : Config) : String :=
  String.ofList (Json.writeBlock 0
    [(tablesField.name, Json.writeBlock 1 config.tables.members),
      (policyField.name, Json.writeBlock 1 config.policy.members)])

end Config

end KeyDispensary
