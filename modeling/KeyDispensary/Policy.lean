import KeyDispensary.Json.Struct
import KeyDispensary.Json.Write
import KeyDispensary.Keys.Error

/-! The policy for legacy signed keys while devices move away from them. -/

namespace KeyDispensary

/-- Whether legacy signed keys are still stored, and whether they are deleted with the others. -/
structure Policy where
  storesLegacy : Bool := true
  deletesLegacy : Bool := true
deriving DecidableEq

namespace Policy

/-- The parts of a policy that were read so far. -/
structure Draft where
  stores : Option Bool := none
  deletes : Option Bool := none

/-- The member that says whether legacy keys are stored. -/
def storesField : Json.Field Draft where
  name := "store_legacy_signed_keys"
  isGiven draft := draft.stores.isSome
  fill draft text := (Json.readFlag text).map fun (value, rest) =>
    ({ draft with stores := some value }, rest)

/-- The member that says whether legacy keys are deleted. -/
def deletesField : Json.Field Draft where
  name := "delete_legacy_signed_keys"
  isGiven draft := draft.deletes.isSome
  fill draft text := (Json.readFlag text).map fun (value, rest) =>
    ({ draft with deletes := some value }, rest)

/-- How a policy is read; a part that is not given is on. -/
def shape : Json.Shape Policy where
  name := "MigrationPolicy"
  Draft := Draft
  blank := {}
  fields := [storesField, deletesField]
  complete draft := .ok ⟨draft.stores.getD true, draft.deletes.getD true⟩

/-- The members of a written policy. -/
def members (policy : Policy) : List (String × List Char) :=
  [(storesField.name, Json.writeFlag policy.storesLegacy),
    (deletesField.name, Json.writeFlag policy.deletesLegacy)]

/-- The policy that a text sets. -/
def parse (text : String) : Except KeyError Policy :=
  (Json.decode shape.read (Bytes.ofText text)).mapError fun error =>
    .misconfigured (.badPolicy error)

end Policy

end KeyDispensary
