import KeyDispensary.Store.Database
import KeyDispensary.Store.Path
import KeyDispensary.Text.Utf8

/-! Files at their places: databases, texts and directories. -/

namespace KeyDispensary

/-- Where what is written to a database stands until the database is closed. -/
inductive Journal where
  /-- In its file; what was there before is kept beside it until the write is complete. -/
  | behind
  /-- Beside its file, which changes when the last one who has it open closes it. -/
  | ahead
deriving DecidableEq

/-- A database and how it is written. -/
structure DatabaseFile where
  database : Database
  journal : Journal
deriving DecidableEq

/-- An empty file, as a database. -/
def DatabaseFile.fresh : DatabaseFile := ⟨Database.fresh, .behind⟩

/-- What stands at a place. -/
inductive FileContent where
  | database (file : DatabaseFile)
  | bytes (content : Bytes)
  | directory
deriving DecidableEq

/-- Why a file cannot be read as text. -/
inductive ReadFault where
  | missing
  /-- The path goes on after a file. -/
  | notDirectory
  | directory
  | nameTooLong
  | notText
deriving DecidableEq

/-- What is said of a file that cannot be read. -/
def ReadFault.message : ReadFault → String
  | .missing => "No such file or directory (os error 2)"
  | .notDirectory => "Not a directory (os error 20)"
  | .directory => "Is a directory (os error 21)"
  | .nameTooLong => "File name too long (os error 36)"
  | .notText => "stream did not contain valid UTF-8"

/-- The most bytes that a name may have. -/
def nameLimit : Nat := 255

/-- The most bytes that a path may have. -/
def pathLimit : Nat := 4095

/-- The most bytes that a file kept beside a database adds to the name of the database. -/
def sideFileEnding : Nat := 8

/-- The most bytes that the path from the root to a file kept beside a database may have. -/
def sideFilePathLimit : Nat := 512

/-- A database that someone else has open. -/
structure HeldDatabase where
  place : Place
  /-- What its file holds, as it was opened. -/
  settled : Database
deriving DecidableEq

/-- Files at their places. -/
structure Disk where
  files : List (Place × FileContent)
  /-- Where paths start that do not start at the root. -/
  home : Place
  held : Option HeldDatabase := none
deriving DecidableEq

namespace Disk

/-- What stands at a place, if anything does; the root is a directory. -/
def get? (disk : Disk) (place : Place) : Option FileContent :=
  if place = [] then some .directory else disk.files.lookup place

/-- Removes what stands at a place. -/
def remove (disk : Disk) (place : Place) : Disk :=
  { disk with files := disk.files.filter fun file => file.1 ≠ place }

/-- Places content, instead of what stands there. -/
def put (disk : Disk) (place : Place) (content : FileContent) : Disk :=
  { disk with files := (place, content) :: (disk.remove place).files }

/-- Takes a step from a place where a directory must stand. -/
def step (disk : Disk) (place : Place) (step : Step) : Except ReadFault Place :=
  match disk.get? place with
  | none => .error .missing
  | some .directory =>
    match step with
    | .enter name => if nameLimit < name.length then .error .nameTooLong else .ok (step.next place)
    | _ => .ok (step.next place)
  | some _ => .error .notDirectory

/-- The place that a path leads to, through directories that stand. -/
def follow (disk : Disk) (path : Path) : Except ReadFault Place :=
  if path.content = [] then .error .missing
  else if pathLimit < path.content.length then .error .nameTooLong
  else path.steps.foldlM disk.step (path.start disk.home)

/-- Whether something stands where a path leads. -/
def stands (disk : Disk) (path : Path) : Bool :=
  match disk.follow path with
  | .error _ => false
  | .ok place => (disk.get? place).isSome

/-- The text of a file. -/
def readText (disk : Disk) (path : Path) : Except ReadFault String :=
  match disk.follow path with
  | .error fault => .error fault
  | .ok place =>
    match disk.get? place with
    | none => .error .missing
    | some .directory => .error .directory
    | some (.database _) => .error .notText
    | some (.bytes content) =>
      match Utf8.decode content with
      | .ok text => .ok text
      | .error _ => .error .notText

/--
Takes a step on the way to a database.

Directories need not stand on the way, since a later step may leave them again, but a file may not be
in the way, and a name must be one that could stand.
-/
def stepOver (disk : Disk) (place : Place) (step : Step) : Except StoreError Place :=
  match step with
  | .enter _ =>
    match disk.step place step with
    | .ok next => .ok next
    | .error .missing => .ok (step.next place)
    | .error _ => .error (.database .cannotOpen)
  | _ => .ok (step.next place)

/-- Whether the files kept beside a database can stand beside the given place. -/
def leavesRoom (place : Place) : Bool :=
  (place.getLast?.getD []).length + sideFileEnding ≤ nameLimit &&
    (Place.path place).content.length + sideFileEnding ≤ sideFilePathLimit

/-- The place of the database that a path leads to. -/
def locate (disk : Disk) (path : Path) : Except StoreError Place :=
  match path.steps.foldlM disk.stepOver (path.start disk.home) with
  | .error error => .error error
  | .ok place => if leavesRoom place then .ok place else .error (.database .cannotOpen)

/-- The database at a place, before it is opened; a missing file is an empty one. -/
def database (disk : Disk) (place : Place) : Except StoreError DatabaseFile :=
  match disk.get? place with
  | some (.database file) => .ok file
  | some (.bytes []) => .ok DatabaseFile.fresh
  | some (.bytes _) => .error (.database .notDatabase)
  | some .directory => .error (.database .cannotOpen)
  | none =>
    if disk.get? place.dropLast = some .directory then .ok DatabaseFile.fresh
    else .error (.database .cannotOpen)

/-- Whether someone else has the database at a place open. -/
def holds (disk : Disk) (place : Place) : Bool :=
  disk.held.any fun held => held.place = place

/-- What the file at a place holds of its database. -/
def settled (disk : Disk) (place : Place) (database : Database) : Database :=
  match disk.held with
  | some held => if held.place = place then held.settled else database
  | none => database

end Disk

end KeyDispensary
