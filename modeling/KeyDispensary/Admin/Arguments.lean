import KeyDispensary.Identity.Text

/-!
Arguments of the command line: a database and perhaps a configuration, then a command with its operands.
Arguments that fit no command are refused as a whole, and so are those that ask for help.
-/

namespace KeyDispensary.Admin

/-- What the command line is asked to do. -/
inductive Command where
  /-- Counts the one-time keys of a device. -/
  | count (identity : Identity) (device : Device)
  /-- Lists the devices with a last-resort key. -/
  | pqDevices (identity : Identity)
  /-- Deletes the one-time keys of a device or of all. -/
  | deletePools (identity : Identity) (device : Option Device)
  /-- Deletes all keys of an identity. -/
  | deleteAccount (identity : Identity)
  /-- Shows the configuration in use. -/
  | showConfig
deriving DecidableEq

/-- A command and the files that it works on. -/
structure Invocation where
  database : String
  config : Option String
  command : Command
deriving DecidableEq

/-- Whether an argument is read as an option and never as a value. -/
def isOption (argument : String) : Bool :=
  argument.startsWith "-" && argument ≠ "-"

/-- Why arguments come to no command. -/
inductive Refusal where
  /-- They fit none. -/
  | usage
  /-- They ask for help, and nothing before that is wrong. -/
  | help
deriving DecidableEq

/-- What follows the given beginning of an argument. -/
def after? (beginning argument : String) : Option String :=
  if beginning.toList.isPrefixOf argument.toList then
    some (String.ofList (argument.toList.drop beginning.length))
  else none

/-- Whether an argument asks for help. -/
def isHelp (argument : String) : Bool :=
  argument = "--help" || (after? "-h" argument).isSome

/-- The magnitude that a run of decimal digits stands for. -/
def magnitude? (digits : List Char) : Option Nat :=
  if digits.isEmpty || digits.any fun c => !c.isDigit then none
  else some (digits.foldl (fun n c => n * 10 + (c.toNat - 48)) 0)

/-- The device that a number with an optional sign names. -/
def device? (text : String) : Option Device :=
  let (negative, digits) :=
    match text.toList with
    | '-' :: rest => (true, rest)
    | '+' :: rest => (false, rest)
    | digits => (false, digits)
  match magnitude? digits with
  | none => none
  | some n => if 255 < n || (negative && n ≠ 0) then none else some ⟨UInt8.ofNat n⟩

/-- The identity that an operand names. -/
def identity? (text : String) : Option Identity :=
  (Identity.parse text).toOption

/-- The operands of a command that were read so far. -/
structure Operands where
  identity : Option Identity := none
  device : Option Device := none
deriving DecidableEq

namespace Operands

/-- Adds an operand that is no option. -/
def addIdentity (operands : Operands) (text : String) : Except Refusal Operands :=
  match operands.identity, identity? text with
  | none, some identity => .ok { operands with identity := some identity }
  | _, _ => .error .usage

/-- Adds a device. -/
def addDevice (operands : Operands) (text : String) : Except Refusal Operands :=
  match operands.device, device? text with
  | none, some device => .ok { operands with device := some device }
  | _, _ => .error .usage

/-- The device that is given within one argument. -/
def inlineDevice? (argument : String) : Option String :=
  match after? "--device=" argument with
  | some value => some value
  | none =>
    match after? "-d" argument with
    | none => none
    | some value => some ((after? "=" value).getD value)

/-- Reads operands; two hyphens alone end the options. -/
def read (takesDevice : Bool) (operands : Operands) : List String → Except Refusal Operands
  | [] => .ok operands
  | argument :: rest =>
    if argument = "--" then
      rest.foldlM addIdentity operands
    else if takesDevice ∧ (argument = "-d" ∨ argument = "--device") then
      match rest with
      | [] => .error .usage
      | value :: rest =>
        if isOption value then .error .usage
        else (operands.addDevice value).bind fun operands => read takesDevice operands rest
    else if isHelp argument then .error .help
    else if isOption argument then
      match takesDevice, inlineDevice? argument with
      | true, some value =>
        (operands.addDevice value).bind fun operands => read takesDevice operands rest
      | _, _ => .error .usage
    else (operands.addIdentity argument).bind fun operands => read takesDevice operands rest

/-- The identity, which must be given. -/
def required (operands : Operands) : Except Refusal Identity :=
  match operands.identity with
  | some identity => .ok identity
  | none => .error .usage

end Operands

/-- The names of commands. -/
def commandNames : List String :=
  ["count", "pq-devices", "delete-pools", "delete-account", "show-config", "help"]

/-- Reads a command and its operands. -/
def readCommand (name : String) (arguments : List String) : Except Refusal Command :=
  if name = "count" then do
    let operands ← Operands.read true {} arguments
    return .count (← operands.required) (operands.device.getD Device.primary)
  else if name = "pq-devices" then do
    let operands ← Operands.read false {} arguments
    return .pqDevices (← operands.required)
  else if name = "delete-pools" then do
    let operands ← Operands.read true {} arguments
    return .deletePools (← operands.required) operands.device
  else if name = "delete-account" then do
    let operands ← Operands.read false {} arguments
    return .deleteAccount (← operands.required)
  else if name = "show-config" then
    match arguments with
    | [] | ["--"] => .ok .showConfig
    | argument :: _ => .error (if isHelp argument then .help else .usage)
  else if name = "help" then
    -- Help on a command is asked for by the name of the command alone.
    .error (if arguments.all (· ∈ commandNames) && arguments.length ≤ 1 then .help else .usage)
  else .error .usage

/-- The files that were named so far. -/
structure Files where
  database : Option String := none
  config : Option String := none
deriving DecidableEq

namespace Files

/-- Names the database, once and not by an empty path. -/
def addDatabase (files : Files) (path : String) : Except Refusal Files :=
  if files.database.isSome || path.isEmpty then .error .usage
  else .ok { files with database := some path }

/-- Names the configuration, once and not by an empty path. -/
def addConfig (files : Files) (path : String) : Except Refusal Files :=
  if files.config.isSome || path.isEmpty then .error .usage
  else .ok { files with config := some path }

/-- Adds a command, for which a database must be named. -/
def addCommand (files : Files) (command : Command) : Except Refusal Invocation :=
  match files.database with
  | some database => .ok ⟨database, files.config, command⟩
  | none => .error .usage

/-- Reads the options before the command, then the command. -/
def read (files : Files) : List String → Except Refusal Invocation
  | [] => .error .usage
  | argument :: rest =>
    if argument = "--db" ∨ argument = "--config" then
      match rest with
      | [] => .error .usage
      | value :: rest =>
        if isOption value then .error .usage
        else
          let added := if argument = "--db" then files.addDatabase value else files.addConfig value
          added.bind fun files => read files rest
    else if isHelp argument then .error .help
    else
      match after? "--db=" argument, after? "--config=" argument with
      | some value, _ => (files.addDatabase value).bind fun files => read files rest
      | none, some value => (files.addConfig value).bind fun files => read files rest
      | none, none => (readCommand argument rest).bind files.addCommand

end Files

/-- Reads all arguments. -/
def interpret (arguments : List String) : Except Refusal Invocation :=
  Files.read {} arguments

/-- The invocation that arguments come to, if they come to one. -/
def parse (arguments : List String) : Option Invocation :=
  (interpret arguments).toOption

end KeyDispensary.Admin
