import KeyDispensary.Admin
import KeyDispensary.Store.Image

/-!
The command line as a program: what stands at the places that its paths lead through is looked up first,
and files that it changed are written at the end.
-/

namespace KeyDispensary

/-- The number of the error that reading a directory fails with. -/
def directoryError : UInt32 := 21

/-- The text of the path to a place, if it has one. -/
def placeText? (place : Place) : Option String :=
  (Utf8.decode (Place.path place).content).toOption

/-- Looks up what stands under a path. -/
def lookUpFile (path : String) : IO (Option FileContent) := do
  try
    let content ← IO.FS.readBinFile path
    return some (FileContent.ofBytes content.toList)
  catch
    | .inappropriateType _ code _ =>
      return if code = directoryError then some .directory else none
    | _ => return none

/-- Looks up what stands at a place. -/
def lookUpPlace (place : Place) : IO (Option (Place × FileContent)) := do
  match placeText? place with
  | none => return none
  | some path => return (← lookUpFile path).map fun content => (place, content)

/-- Writes a file at a place. -/
def writePlace (place : Place) (content : Bytes) : IO Unit :=
  match placeText? place with
  | none => return
  | some path => IO.FS.writeBinFile path ⟨content.toArray⟩

end KeyDispensary

open KeyDispensary in
/-- Runs the command line with the arguments of the program. -/
def main (arguments : List String) : IO UInt32 := do
  let home := Path.place [] (Path.ofText (← IO.currentDir).toString)
  let places := Admin.places home arguments
  let found ← places.mapM lookUpPlace
  let disk : Disk := { files := found.filterMap id, home := home }
  let (outcome, after) := Admin.run arguments disk
  (disk.changes after places).forM fun (place, content) => writePlace place content
  IO.print outcome.out
  IO.eprint outcome.err
  return UInt32.ofNat outcome.code
