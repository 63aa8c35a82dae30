import KeyDispensary.Admin.Arguments
import KeyDispensary.Dispensary
import KeyDispensary.Store.OpenDatabase

/-!
The command line looks into a database of keys and clears parts of it. It reads its arguments, then the
configuration, then opens the database, and stops at the first of these that fails.
-/

namespace KeyDispensary.Admin

/--
What a run of the command line leaves: its exit code and what it printed.

Log lines are no part of it. What is printed is all that is printed when logging is off; otherwise lines
about the work come between, for instance when an opening makes the table of a database of version 0.
-/
structure Outcome where
  code : Nat
  out : String := ""
  err : String := ""
deriving DecidableEq

/-- How commands are asked for. -/
def summary : String :=
  "usage: --db PATH [--config PATH] COMMAND\n" ++
    "  count IDENTITY [-d N]\n" ++
    "  pq-devices IDENTITY\n" ++
    "  delete-pools IDENTITY [-d N]\n" ++
    "  delete-account IDENTITY\n" ++
    "  show-config\n"

/-- How arguments are answered that come to no command. -/
def answerTo : Refusal → Outcome
  | .usage => { code := 2, err := summary }
  | .help => { code := 0, out := summary }

/-- Indents the lines of a text after the first. -/
def indented (text : String) : String :=
  "\n    ".intercalate (text.splitOn "\n")

/-- The report of a failure, under what was being done if that is said. -/
def report (doing : Option String) (message : String) : String :=
  match doing with
  | none => s!"Error: {message}\n"
  | some doing => s!"Error: {doing}\n\nCaused by:\n    {indented message}\n"

/-- A failure while something was being done, after some lines were printed. -/
def failure (doing : Option String) (message : String) (out : String := "") : Outcome :=
  ⟨1, out, report doing message⟩

/-- The outcome of an operation that answers nothing. -/
def finished : Except KeyError Unit → Outcome
  | .ok () => { code := 0 }
  | .error error => failure none error.message

/-- The outcome of counting both pools. -/
def counted (ec pq : Nat) : Outcome where
  code := 0
  out := s!"ec: {ec}\npq: {pq}\n"

/-- The lines of devices. -/
def deviceLines (devices : List Device) : String :=
  String.join (devices.map fun device => s!"{device.id}\n")

/-- The outcome of a listing: the devices that were listed, also when it failed in the end. -/
def listed : Option Listing → Outcome
  | none => failure none "the listing does not end"
  | some ⟨devices, .failed error⟩ => failure none error.message (deviceLines devices)
  | some ⟨devices, _⟩ => { code := 0, out := deviceLines devices }

/-- Counts the pools of a device, the second only if the first was counted. -/
def countPools (dispensary : Dispensary) (identity : Identity) (device : Device) :
    Program Outcome :=
  (dispensary.ecPool.count identity device).bind fun
    | .error error => .done (failure none error.message)
    | .ok ec => (dispensary.pqPool.count identity device).map fun
      | .error error => failure none error.message
      | .ok pq => counted ec pq

/-- Carries out a command on a store. -/
def carryOut {σ : Type} [Store σ] (config : Config) (dispensary : Dispensary) (store : σ) :
    Command → Outcome × σ
  | .count identity device => (countPools dispensary identity device).run store
  | .pqDevices identity =>
    let (listing, store) := (dispensary.lastResort.list identity none).run store
    (listed listing, store)
  | .deletePools identity none => ((dispensary.deletePools identity).map finished).run store
  | .deletePools identity (some device) =>
    ((dispensary.deleteDevicePools identity device).map finished).run store
  | .deleteAccount identity =>
    ((dispensary.deleteAccount config.policy identity).map finished).run store
  | .showConfig => ({ code := 0, out := config.text ++ "\n" }, store)

/-- The configuration of an invocation, the usual one if none is named. -/
def configOf (disk : Disk) (invocation : Invocation) : Except KeyError Config :=
  match invocation.config with
  | none => .ok {}
  | some path => Config.load disk path

/-- Opens the database of an invocation and carries out its command there. -/
def onDatabase (config : Config) (invocation : Invocation) (disk : Disk) : Outcome × Disk :=
  match OpenDatabase.ofName disk invocation.database with
  | .error error =>
    (failure (some s!"opening {invocation.database}") error.message,
      OpenDatabase.refusedOn disk invocation.database)
  | .ok opened =>
    let disk := opened.keptOn disk
    match Dispensary.make config.tables with
    | .error error => (failure none error.message, disk)
    | .ok dispensary =>
      let (outcome, opened) := carryOut config dispensary opened invocation.command
      (outcome, opened.keptOn disk)

/-- The paths that an invocation names. -/
def paths (invocation : Invocation) : List Path :=
  ((DatabaseName.ofText? invocation.database).map DatabaseName.paths).getD [] ++
    (invocation.config.map Path.ofText).toList

/-- The places that the paths among arguments lead through. -/
def places (home : Place) (arguments : List String) : List Place :=
  match parse arguments with
  | none => []
  | some invocation => ((paths invocation).flatMap (Path.places home)).eraseDups

/-- Runs the command line. -/
def run (arguments : List String) (disk : Disk) : Outcome × Disk :=
  match interpret arguments with
  | .error refusal => (answerTo refusal, disk)
  | .ok invocation =>
    match configOf disk invocation with
    | .error error =>
      let path := invocation.config.getD ""
      (failure (some s!"loading config from {path}") error.message, disk)
    | .ok config =>
      if invocation.command = .showConfig then
        ({ code := 0, out := config.text ++ "\n" }, disk)
      else onDatabase config invocation disk

end KeyDispensary.Admin
