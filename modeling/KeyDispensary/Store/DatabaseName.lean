import KeyDispensary.Store.Path

/-!
What the name of a database says: in which file the database is, if any file holds it, and how the file
is to be used.
-/

namespace KeyDispensary

/-- What may be done with a database. -/
inductive Access where
  | read
  | write
  /-- It may be written, and made where there is none. -/
  | make
deriving DecidableEq

/-- Whether what is asked is no more than what is granted. -/
def Access.allows : (granted asked : Access) → Bool
  | .make, _ => true
  | .write, asked => asked ≠ .make
  | .read, asked => asked = .read

/-- How a database file is shared with others. -/
inductive Sharing where
  /-- Others may use it at the same time. -/
  | guarded
  /-- No one else may have it open. -/
  | alone
  /-- Nobody is told that it is in use, so nothing can be written beside it. -/
  | unguarded
  /-- Nobody is expected to write it: the file is read as it is. -/
  | frozen
deriving DecidableEq

/-- How the file of a database is to be used. -/
structure FileUse where
  access : Access := .make
  sharing : Sharing := .guarded
  /-- A file whose permissions a new file gets. -/
  permissionsOf : Option Path := none
deriving DecidableEq

/-- The name of a database. -/
inductive DatabaseName where
  /-- A database that no file holds. -/
  | unfiled (access : Access)
  /-- The database in the file of a path. -/
  | filed (path : Path) (use : FileUse)
deriving DecidableEq

namespace DatabaseName

/-- The text that names a database that no file holds. -/
def unfiledText : Bytes := Bytes.ofText ":memory:"

/-- Whether a path stands for no file. -/
def isUnfiled (path : Bytes) : Bool :=
  path = [] || path = unfiledText

/-- The name of the database at a path. -/
def ofPath (path : Bytes) : DatabaseName :=
  if isUnfiled path then .unfiled .make else .filed ⟨path⟩ {}

/-- The paths that a name mentions. -/
def paths : DatabaseName → List Path
  | .unfiled _ => []
  | .filed path use => path :: use.permissionsOf.toList

end DatabaseName

end KeyDispensary
