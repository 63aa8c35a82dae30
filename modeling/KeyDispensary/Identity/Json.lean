import KeyDispensary.Identity.Text
import KeyDispensary.Json.Value

/-! Identities and devices as JSON values: the text of an identity, the number of a device. -/

namespace KeyDispensary

/-- Reads an identity, which is a text in one of the written forms. -/
def Identity.read : Json.Reader Identity := fun text =>
  match Json.readTextAs "a formatted UUID string" text with
  | .error fault => .error fault
  | .ok (value, rest) =>
    match Identity.parse value with
    | .ok identity => .ok (identity, rest)
    | .error error => .error ((Json.Cause.badIdentity error).before rest)

/-- Reads a device, which is a number of eight bits. -/
def Device.read : Json.Reader Device := fun text =>
  (Json.readByte text).map fun (id, rest) => (⟨id⟩, rest)

end KeyDispensary
