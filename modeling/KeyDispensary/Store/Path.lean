import KeyDispensary.Bytes
import KeyDispensary.Text.Cut

/-!
Paths and the places that they lead to. A path is cut at its slashes into steps, and the steps lead from
one place to the next; paths of different spellings may lead to one place.
-/

namespace KeyDispensary

/-- The names on the way from the root to a file or a directory; the root has none. -/
abbrev Place := List Bytes

/-- A step of a path. -/
inductive Step where
  /-- Stays in a directory. -/
  | stay
  /-- Leads from a directory to the one that holds it, and from the root to the root. -/
  | rise
  /-- Leads from a directory to what it holds under a name. -/
  | enter (name : Bytes)
deriving DecidableEq

namespace Step

/-- The name by which a directory stands for itself. -/
def selfName : Bytes := Bytes.ofText "."

/-- The name by which a directory stands for the one that holds it. -/
def parentName : Bytes := Bytes.ofText ".."

/-- The step that a piece of a path stands for; nothing between two slashes stays, as a dot does. -/
def ofPiece (piece : Bytes) : Step :=
  if piece = [] ∨ piece = selfName then .stay
  else if piece = parentName then .rise
  else .enter piece

/-- The place that a step leads to. -/
def next (place : Place) : Step → Place
  | .stay => place
  | .rise => place.dropLast
  | .enter name => place ++ [name]

end Step

/-- A path, by its bytes. -/
structure Path where
  content : Bytes
deriving DecidableEq

namespace Path

/-- The mark between the pieces of a path. -/
def slash : UInt8 := 47

/-- The path that a text spells. -/
def ofText (text : String) : Path :=
  ⟨Bytes.ofText text⟩

/-- The steps of a path. -/
def steps (path : Path) : List Step :=
  (cutAt slash path.content).map Step.ofPiece

/-- The place where the steps start: the root if the path begins with a slash. -/
def start (home : Place) (path : Path) : Place :=
  if path.content.head? = some slash then [] else home

/-- The place that a path leads to, whatever stands on the way. -/
def place (home : Place) (path : Path) : Place :=
  path.steps.foldl Step.next (path.start home)

/-- The places that steps lead through, with the first and the last. -/
def placesFrom (place : Place) : List Step → List Place
  | [] => [place]
  | step :: steps => place :: placesFrom (step.next place) steps

/-- The places that a path leads through. -/
def places (home : Place) (path : Path) : List Place :=
  placesFrom (path.start home) path.steps

end Path

namespace Place

/-- The path from the root to a place. -/
def path (place : Place) : Path :=
  ⟨Path.slash :: [Path.slash].intercalate place⟩

end Place

end KeyDispensary
