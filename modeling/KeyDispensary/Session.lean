import KeyDispensary.Admin
import KeyDispensary.Store.Memory
import KeyDispensary.Store.Probe

/-!
A session works on one dispensary: through a probe it asks a store that stands in memory, in a database
or in a database file, and beside it the store may be looked at, reopened or cleared from outside.
-/

namespace KeyDispensary

/-- Where the rows of a host stand. -/
inductive Source where
  | memory (memory : Memory)
  | database (database : Database)
  /-- A database file that is open. -/
  | file (place : Place)
deriving DecidableEq

/-- A disk, and a store that may stand on it. -/
structure Host where
  disk : Disk
  source : Source
deriving DecidableEq

namespace Host

/-- Answers a call; what changes in an open file is on the disk at once. -/
def perform (host : Host) (call : Call) : Reply call × Host :=
  match host.source with
  | .memory memory =>
    let (reply, memory) := memory.perform call
    (reply, { host with source := .memory memory })
  | .database database =>
    let (reply, database) := database.perform call
    (reply, { host with source := .database database })
  | .file place =>
    match host.disk.database place with
    | .error error => (.error error, host)
    | .ok file =>
      let (reply, database) := file.database.perform call
      (reply, { host with disk := host.disk.put place (.database { file with database := database }) })

/-- The number of rows. -/
def size (host : Host) : Nat :=
  match host.source with
  | .memory memory => memory.rows.size
  | .database database => database.size
  | .file place =>
    match host.disk.database place with
    | .error _ => 0
    | .ok file => file.database.size

instance : Store Host := ⟨perform, fun host => host.size + 1⟩

/-- Opens the database file at a place, which is held from then on. -/
def openFile (disk : Disk) (place : Place) : Except StoreError Host :=
  match disk.database place with
  | .error error => .error error
  | .ok file =>
    file.database.opened.map fun database =>
      let disk := disk.put place (.database ⟨database, .ahead⟩)
      ⟨{ disk with held := some ⟨place, file.database⟩ }, .file place⟩

end Host

/-- Where a session takes its policy from. -/
inductive PolicySource where
  /-- The policy of the session, which may change. -/
  | current
  /-- A policy of its own, which does not change. -/
  | fixed (policy : Policy)
deriving DecidableEq

/-- A session. -/
structure Session where
  probe : Probe Host
  dispensary : Dispensary
  /-- The policy that may be set and reloaded. -/
  current : Policy
  source : PolicySource
  /-- Lists of writes that were kept under names. -/
  kept : List (String × List Write) := []

namespace Session

variable {α π : Type}

/-- Starts a session on a host. -/
def start (host : Host) (tables : Tables) (policy : Policy) (isFixed : Bool)
    (faults : List ScriptedFault) : Except KeyError Session :=
  (Dispensary.make tables).map fun dispensary =>
    { probe := ⟨host, faults, []⟩
      dispensary := dispensary
      current := policy
      source := if isFixed then .fixed policy else .current }

/-- The policy in force. -/
def policy (session : Session) : Policy :=
  match session.source with
  | .current => session.current
  | .fixed policy => policy

/-- Sets the policy that may change. -/
def setPolicy (session : Session) (policy : Policy) : Session :=
  { session with current := policy }

/-- Sets the policy that a text gives, and leaves it as it is if the text gives none. -/
def reloadPolicy (session : Session) (text : String) : Except KeyError Policy × Session :=
  match Policy.parse text with
  | .error error => (.error error, session)
  | .ok policy => (.ok policy, session.setPolicy policy)

/-- Runs a program through the probe. -/
def ask (session : Session) (program : Program α) : α × Session :=
  let (answer, probe) := program.run session.probe
  (answer, { session with probe := probe })

/-- Runs a walk through the probe. -/
def walk (session : Session) (walk : Walk π α) : Option α × Session :=
  let (answer, probe) := walk.run session.probe
  (answer, { session with probe := probe })

/-- Asks the store itself, past the probe. -/
def direct (session : Session) (call : Call) : Reply call × Session :=
  let (reply, probe) := session.probe.pass call
  (reply, { session with probe := probe })

/-- Forgets the calls that were noted. -/
def forgetCalls (session : Session) : Session :=
  { session with probe := { session.probe with calls := [] } }

/-- Replaces the faults; all counts start again. -/
def setFaults (session : Session) (faults : List ScriptedFault) : Session :=
  { session with probe := { session.probe with faults := faults } }

/-- Works on other tables from now on, unless their names are unsound. -/
def setTables (session : Session) (tables : Tables) : Except KeyError Unit × Session :=
  match Dispensary.make tables with
  | .error error => (.error error, session)
  | .ok dispensary => (.ok (), { session with dispensary := dispensary })

/-- Keeps a list of writes under a name, in place of one kept before. -/
def keep (session : Session) (name : String) (writes : List Write) : Session :=
  { session with kept := (name, writes) :: session.kept }

/-- The writes that are kept under a name. -/
def keptWrites (session : Session) (name : String) : List Write :=
  (session.kept.lookup name).getD []

/-- The host behind the probe. -/
def host (session : Session) : Host :=
  session.probe.store

/-- Puts another host behind the probe. -/
def setHost (session : Session) (host : Host) : Session :=
  { session with probe := { session.probe with store := host } }

/-- Gives the database at a place another version. -/
def setVersion (disk : Disk) (place : Place) (version : Int) : Disk :=
  match disk.database place with
  | .error _ => disk
  | .ok file =>
    disk.put place (.database { file with database := file.database.withVersion version })

/--
Closes the database file at a place, may give it another version, and opens it again.

If it cannot be opened, the session goes on with a store in memory, and the file stays.
-/
def reopen (session : Session) (place : Place) (version : Option Int) :
    Except KeyError Unit × Session :=
  let closed := { session.host.disk with held := none }
  let disk := (version.map (setVersion closed place)).getD closed
  match Host.openFile disk place with
  | .error error => (.error (.store error), session.setHost ⟨disk, .memory Memory.empty⟩)
  | .ok host => (.ok (), session.setHost host)

/-- Changes the disk beside the session. -/
def changeDisk (session : Session) (change : Disk → Disk) : Session :=
  session.setHost { session.host with disk := change session.host.disk }

/-- Runs the command line beside the session, on the same disk. -/
def runCommandLine (session : Session) (arguments : List String) : Admin.Outcome × Session :=
  let (outcome, disk) := Admin.run arguments session.host.disk
  (outcome, session.changeDisk fun _ => disk)

/-- Takes one-time elliptic-curve keys as often as is said, one after another. -/
def takeEcTimes (session : Session) (identity : Identity) (device : Device) :
    Nat → List (Option (Except KeyError (Option EcKey))) × Session
  | 0 => ([], session)
  | times + 1 =>
    let (taken, session) := session.walk (session.dispensary.takeEc identity device)
    let (more, session) := session.takeEcTimes identity device times
    (taken :: more, session)

end Session

end KeyDispensary
