import KeyDispensary.Json.Skip
import KeyDispensary.Json.Value

/-!
Reading a value with named fields. It is written as an object, whose members may come in any order
and among members of other names, or as a list of the fields in their order.
-/

namespace KeyDispensary.Json

/-- One field of a value that is being read into a draft. -/
structure Field (δ : Type) where
  name : String
  /-- Whether the draft has the field already. -/
  isGiven : δ → Bool
  /-- Reads the field's value into the draft. -/
  fill : δ → Reader δ

/-- How a value with named fields is read. -/
structure Shape (α : Type) where
  name : String
  /-- What is gathered while the members are read. -/
  Draft : Type
  blank : Draft
  fields : List (Field Draft)
  /-- The value of a draft, or the first field that it lacks. -/
  complete : Draft → Except String α

variable {α δ : Type}

/-- What the shape is called where another kind of value stands. -/
def Shape.wanted (shape : Shape α) : String :=
  s!"struct {shape.name}"

/-- What the shape is called where a list is too short. -/
def Shape.wantedElements (shape : Shape α) : String :=
  s!"struct {shape.name} with {shape.fields.length} elements"

/-- Why the members of a value were not read to their end. -/
inductive Stop where
  /-- A fault with a place of its own. -/
  | placed (fault : Fault)
  /-- A cause that gets its place when the bracket has been closed as far as the rest allows. -/
  | pending (cause : Cause) (rest : Bytes)

/-- Where an object goes on: at its closing byte, or after the opening quote of a key. -/
inductive ObjectPlace where
  | closing
  | key
deriving DecidableEq

/-- Finds the next key of an object, past the comma that stands before all but the first. -/
def nextKey (first : Bool) : Reader ObjectPlace := fun text =>
  match dropBlank text with
  | [] => .error (Cause.endInObject.before [])
  | b :: rest =>
    if b = byte '\x7d' then .ok (.closing, b :: rest)
    else if first then
      if b = byte '"' then .ok (.key, rest) else .error (Cause.keyNotText.onFirst (b :: rest))
    else if b = byte ',' then
      match dropBlank rest with
      | [] => .error (Cause.endInValue.before [])
      | c :: rest =>
        if c = byte '"' then .ok (.key, rest)
        else if c = byte '\x7d' then .error (Cause.trailingComma.onFirst (c :: rest))
        else .error (Cause.keyNotText.onFirst (c :: rest))
    else .error (Cause.noObjectSeparator.onFirst (b :: rest))

/-- Passes over the colon between a key and its value. -/
def skipColon (text : Bytes) : Except Fault Bytes :=
  match dropBlank text with
  | [] => .error (Cause.endInObject.before [])
  | b :: rest =>
    if b = byte ':' then .ok rest else .error (Cause.noColon.onFirst (b :: rest))

/-- Reads a colon and the value of a field. -/
def readFieldValue (field : Field δ) (draft : δ) : Reader δ := fun text =>
  match skipColon text with
  | .error fault => .error fault
  | .ok rest => field.fill draft rest

/-- Passes over a colon and a value of no interest. -/
def skipMember (text : Bytes) : Except Fault Bytes :=
  match skipColon text with
  | .error fault => .error fault
  | .ok rest => skipValue rest

/-- Reads one member after the opening quote of its key. -/
def readMember (fields : List (Field δ)) (draft : δ) (text : Bytes) :
    Except Stop (δ × Bytes) :=
  match readString text with
  | .error fault => .error (.placed fault)
  | .ok (key, rest) =>
    match fields.find? fun field => field.name = key with
    | none =>
      match skipMember rest with
      | .error fault => .error (.placed fault)
      | .ok rest => .ok (draft, rest)
    | some field =>
      if field.isGiven draft then .error (.pending (.duplicateField key) rest)
      else
        match readFieldValue field draft rest with
        | .error fault => .error (.placed fault)
        | .ok (draft, rest) => .ok (draft, rest)

/-- Reads members up to the closing byte of the object; each takes at least one byte. -/
def readMembers (fields : List (Field δ)) :
    Nat → Bool → δ → Bytes → Except Stop (δ × Bytes)
  | 0, _, _, text => .error (.placed (Cause.endInObject.before text))
  | steps + 1, first, draft, text =>
    match nextKey first text with
    | .error fault => .error (.placed fault)
    | .ok (.closing, rest) => .ok (draft, rest)
    | .ok (.key, rest) =>
      match readMember fields draft rest with
      | .error stop => .error stop
      | .ok (draft, rest) => readMembers fields steps false draft rest

/-- What is left of an object after its closing byte, if only blanks stand before that byte. -/
def afterObject (text : Bytes) : Bytes :=
  match dropBlank text with
  | [] => []
  | b :: rest => if b = byte '\x7d' then rest else b :: rest

/-- Reads an object of the shape after its opening byte. -/
def Shape.readObject (shape : Shape α) : Reader α := fun text =>
  match readMembers shape.fields (text.length + 1) true shape.blank text with
  | .error (.placed fault) => .error fault
  | .error (.pending cause rest) => .error (cause.before (afterObject rest))
  | .ok (draft, rest) =>
    match shape.complete draft with
    | .ok value => .ok (value, afterObject rest)
    | .error name => .error ((Cause.missingField name).before (afterObject rest))

/-- Reads fields as elements of a list until the list or the fields end; counts those read. -/
def readColumns : List (Field δ) → Bool → δ → Bytes → Except Fault (δ × Nat × Bytes)
  | [], _, draft, text => .ok (draft, 0, text)
  | field :: fields, first, draft, text =>
    match nextElement first text with
    | .error fault => .error fault
    | .ok (.closing, rest) => .ok (draft, 0, rest)
    | .ok (.element, rest) =>
      match field.fill draft rest with
      | .error fault => .error fault
      | .ok (draft, rest) =>
        match readColumns fields false draft rest with
        | .error fault => .error fault
        | .ok (draft, count, rest) => .ok (draft, count + 1, rest)

/-- Closes a list after the elements of all fields. -/
def closeList (text : Bytes) : Except Fault Bytes :=
  match dropBlank text with
  | [] => .error (Cause.endInList.before [])
  | b :: rest =>
    if b = byte ']' then .ok rest
    else if b = byte ',' then
      match dropBlank rest with
      | [] => .error (Cause.trailingText.before [])
      | c :: rest =>
        if c = byte ']' then .error (Cause.trailingComma.onFirst (c :: rest))
        else .error (Cause.trailingText.onFirst (c :: rest))
    else .error (Cause.trailingText.onFirst (b :: rest))

/-- Reads a list of the shape's fields after its opening byte. -/
def Shape.readList (shape : Shape α) : Reader α := fun text =>
  match readColumns shape.fields true shape.blank text with
  | .error fault => .error fault
  | .ok (draft, count, rest) =>
    match shape.complete draft with
    | .ok value => (closeList rest).map fun rest => (value, rest)
    -- The list is at its closing byte, which is passed before the fault is placed.
    | .error _ => .error ((Cause.wrongLength count shape.wantedElements).before (rest.drop 1))

/-- Reads a value of the shape. -/
def Shape.read (shape : Shape α) : Reader α := fun text =>
  match dropBlank text with
  | [] => .error (Cause.endInValue.before [])
  | b :: rest =>
    if b = byte '\x7b' then shape.readObject rest
    else if b = byte '[' then shape.readList rest
    else .error (mismatch shape.wanted (b :: rest))

end KeyDispensary.Json
