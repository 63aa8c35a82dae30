import KeyDispensary.Store.DatabaseName.Address
import KeyDispensary.Store.Disk

/-! Databases that are reached by their names and then opened. -/

namespace KeyDispensary

/-- A database that was reached by its name, with the way in which it is used. -/
structure OpenDatabase where
  database : Database
  /-- The place of its file, if a file holds it. -/
  place : Option Place
  journal : Journal
  access : Access
deriving DecidableEq

/-- Whether a call writes if it succeeds. -/
def Call.writes : Call → Bool
  | .get _ _ | .query _ | .count _ _ _ => false
  | .put _ _ | .delete _ _ | .replace _ _ _ _ => true
  | .transact writes => writes.any fun
    | .check _ _ _ => false
    | _ => true

namespace OpenDatabase

/-- The database of a file, used as its file is. -/
def ofFile (file : DatabaseFile) (place : Option Place) (access : Access) : OpenDatabase :=
  ⟨file.database, place, file.journal, access⟩

/-- The database of a file, where writes are to stand beside the file from now on. -/
def ofFileAhead (file : DatabaseFile) (place : Place) (access : Access) :
    Except StoreError OpenDatabase :=
  if access = .read ∧ file.journal = .behind then .error (.database .readOnly)
  else .ok (ofFile ⟨file.database, .ahead⟩ place access)

/-- The database in the file at a place, shared with others in the given way. -/
def ofPlace (disk : Disk) (place : Place) (access : Access) :
    Sharing → DatabaseFile → Except StoreError OpenDatabase
  | .guarded, file => ofFileAhead file place access
  | .alone, file =>
    if disk.holds place then .error (.database .locked) else ofFileAhead file place access
  | .unguarded, file =>
    if file.journal = .ahead then .error (.database .cannotOpen)
    else .ok (ofFile file place access)
  | .frozen, file => .ok (ofFile ⟨disk.settled place file.database, file.journal⟩ place .read)

/-- Whether the file at a place stands or may be made, and what gives it its permissions stands. -/
def isUsable (disk : Disk) (place : Place) (use : FileUse) : Bool :=
  (use.access = .make || (disk.get? place).isSome) &&
    use.permissionsOf.all fun path => disk.stands path

/-- The database in the file of a path. -/
def ofPath (disk : Disk) (path : Path) (use : FileUse) : Except StoreError OpenDatabase :=
  match disk.locate path with
  | .error error => .error error
  | .ok place =>
    if isUsable disk place use then
      match disk.database place with
      | .error error => .error error
      | .ok file => ofPlace disk place use.access use.sharing file
    else .error (.database .cannotOpen)

/-- The database of a name, whatever its version. -/
def reach (disk : Disk) (name : String) : Except StoreError OpenDatabase :=
  match DatabaseName.ofText? name with
  | none => .error (.database .cannotOpen)
  | some (.unfiled access) => .ok (ofFile DatabaseFile.fresh none access)
  | some (.filed path use) => ofPath disk path use

/-- Opens a database that was reached; one that may only be read must have been opened before. -/
def begun (reached : OpenDatabase) : Except StoreError OpenDatabase :=
  if reached.access = .read ∧ reached.database.version = 0 then .error (.database .readOnly)
  else reached.database.opened.map fun database => { reached with database := database }

/-- Opens the database of a name. -/
def ofName (disk : Disk) (name : String) : Except StoreError OpenDatabase :=
  (reach disk name).bind begun

/-- The disk with the database in its file, which is left as it is when it was only read. -/
def keptOn (opened : OpenDatabase) (disk : Disk) : Disk :=
  match opened.place with
  | none => disk
  | some place =>
    if opened.access = .read then disk
    else disk.put place (.database ⟨opened.database, opened.journal⟩)

/-- The disk after the database of a name was not opened; where writes stand was settled before. -/
def refusedOn (disk : Disk) (name : String) : Disk :=
  match reach disk name with
  | .error _ => disk
  | .ok reached => reached.keptOn disk

/-- Answers a call; a database that may only be read fails where it would have been written. -/
def perform (opened : OpenDatabase) (call : Call) : Reply call × OpenDatabase :=
  let (reply, database) := opened.database.perform call
  if opened.access = .read ∧ call.writes then
    match reply with
    | .error error => (.error error, opened)
    | .ok _ => (.error (.database .readOnly), opened)
  else (reply, { opened with database := database })

instance : Store OpenDatabase := ⟨perform, fun opened => Store.rounds opened.database⟩

end OpenDatabase

end KeyDispensary
