import KeyDispensary.Identity
import KeyDispensary.Text.Hex

/-!
Written forms of an identity: 32 digits alone, five groups joined by hyphens, the groups in braces,
or the groups after `urn:uuid:`. An identity is always written as lower-case groups.
-/

namespace KeyDispensary

/-- Why a text names no identity. -/
inductive IdentityError where
  /-- The text has a length that no written form has. -/
  | length (found : Nat)
  /-- A character is neither a digit nor a hyphen. -/
  | character (found : Char) (index : Nat)
  /-- The hyphens do not make five groups. -/
  | groupCount (found : Nat)
  /-- A group has the wrong number of digits. -/
  | groupLength (group expected found : Nat)
deriving DecidableEq

/-- The text that reports the error. -/
def IdentityError.message : IdentityError → String
  | .length found => s!"invalid length: found {found}"
  | .character found index => s!"invalid character: found `{found}` at {index}"
  | .groupCount found => s!"invalid group count: expected 5, found {found}"
  | .groupLength group expected found =>
    s!"invalid group length in group {group}: expected {expected}, found {found}"

namespace Identity

/-- The number of digits in each group. -/
def groups : List Nat := [8, 4, 4, 4, 12]

/-- What stands before the groups in the form of a name. -/
def urnLead : List Char := "urn:uuid:".toList

/-- Cuts digits into groups of the given lengths and joins them by hyphens. -/
def join : List Nat → List Char → List Char
  | [], _ => []
  | [_], digits => digits
  | size :: more, digits => digits.take size ++ '-' :: join more (digits.drop size)

/-- The digits of groups that have the given lengths and are joined by hyphens. -/
def unjoin? : List Nat → List Char → Option (List Char)
  | [], _ => none
  | [size], text => if text.length = size then some text else none
  | size :: more, text =>
    match text.drop size with
    | '-' :: rest => (unjoin? more rest).map (text.take size ++ ·)
    | _ => none

/-- What stands between an opening and a closing brace. -/
def unbrace? : List Char → Option (List Char)
  | '\x7b' :: rest =>
    match rest.getLast? with
    | some '\x7d' => some rest.dropLast
    | _ => none
  | _ => none

/-- What stands after `urn:uuid:`, whose letters may have either case. -/
def afterUrn? (text : List Char) : Option (List Char) :=
  if (text.take urnLead.length).map Char.toLower = urnLead then some (text.drop urnLead.length)
  else none

/-- The 32 digits of a text in one of the written forms, told apart by their lengths. -/
def digits? (text : List Char) : Option (List Char) :=
  if text.length = 32 then some text
  else if text.length = 36 then unjoin? groups text
  else if text.length = 38 then (unbrace? text).bind (unjoin? groups)
  else if text.length = 45 then (afterUrn? text).bind (unjoin? groups)
  else none

/-- The identity whose bytes 32 digits stand for. -/
def ofDigits? (digits : List Char) : Option Identity :=
  match Hex.decode? digits with
  | some octets => if full : octets.length = 16 then some ⟨octets, full⟩ else none
  | none => none

/-- The number of UTF-8 bytes of a run of characters. -/
def byteLength : List Char → Nat
  | [] => 0
  | c :: rest => c.utf8Size + byteLength rest

/-- The first character that is neither a digit nor a hyphen, with its place in bytes. -/
def stray? : Nat → List Char → Option IdentityError
  | _, [] => none
  | index, c :: rest =>
    if (Hex.value? c).isSome || c = '-' then stray? (index + c.utf8Size) rest
    else some (.character c index)

/-- The places of the hyphens, in bytes. -/
def hyphens : Nat → List Char → List Nat
  | _, [] => []
  | index, c :: rest =>
    if c = '-' then index :: hyphens (index + 1) rest else hyphens (index + c.utf8Size) rest

/-- The first group whose end is not where its length puts it, counted from `group` at `start`. -/
def misplaced? : Nat → Nat → List Nat → List Nat → Option IdentityError
  | group, start, size :: sizes, place :: places =>
    if place = start + size then misplaced? (group + 1) (place + 1) sizes places
    else some (.groupLength group size (place - start))
  | _, _, _, _ => none

/--
The first fault of groups that stand `lead` bytes inside a text of `total` bytes.

A text without hyphens is only asked for its length unless it has to have groups.
-/
def faultInGroups (total lead : Nat) (grouped : Bool) (body : List Char) : IdentityError :=
  match stray? lead body with
  | some fault => fault
  | none =>
    let places := hyphens 0 body
    if !grouped && places.isEmpty then .length total
    else if places.length ≠ 4 then .groupCount (places.length + 1)
    else (misplaced? 0 0 groups places).getD (.groupLength 4 12 (total - 24))

/-- The fault of a text of any form, which is looked at with its braces or its lead. -/
def faultOfAny (text : List Char) : IdentityError :=
  let total := byteLength text
  if total = 0 ∨ 45 < total then .length total
  else
    match unbrace? text with
    | some body => faultInGroups total 1 true body
    | none =>
      match afterUrn? text with
      | some body => faultInGroups total urnLead.length true body
      | none => faultInGroups total 0 false text

/-- The fault of text that has to be groups and nothing else. -/
def faultOfGroups (text : List Char) : IdentityError :=
  faultInGroups (byteLength text) 0 true text

/--
The fault of a text that no written form matches.

A text of the length of a form with groups is reported as those groups, without brace or lead.
-/
def fault (text : List Char) : IdentityError :=
  if byteLength text = 36 then faultOfGroups text
  else if byteLength text = 38 then
    match unbrace? text with
    | some body => faultOfGroups body
    | none => faultOfAny text
  else if byteLength text = 45 then
    match afterUrn? text with
    | some body => faultOfGroups body
    | none => faultOfAny text
  else faultOfAny text

/-- The identity that a text names. -/
def parse (text : String) : Except IdentityError Identity :=
  match (digits? text.toList).bind ofDigits? with
  | some identity => .ok identity
  | none => .error (fault text.toList)

/-- The text of an identity: groups of lower-case digits. -/
def text (identity : Identity) : String :=
  String.ofList (join groups (Hex.encode identity.octets))

end Identity

end KeyDispensary
