/-
  Copying and moving.

  Both put a node where its destination says: into the destination when that is a directory, and at
  the destination otherwise (`landing`).  Neither may put a node where it is or below itself, and
  neither replaces a directory by a file.  A copied directory is merged into one that has its place;
  a moved one replaces it, but only when it is empty, and never a file.
-/
import Userland.Tree.Basic

namespace Userland.Tree

/-! ## Where a node lands -/

/-- The place where the node at `source` lands when it is sent to `destination`. -/
def landingSteps (t : Tree) (source destination : List String) : Except Fault (List String) :=
  if t.isDirectoryAt destination then .ok (destination ++ source.getLast?.toList)
  else if t.isDirectoryAt destination.dropLast then .ok destination
  else .error (.notFound (Path.render destination))

/-- The path where the node at `source` lands when it is sent to `destination`. -/
def landing (t : Tree) (source destination : String) : Except Fault String :=
  (t.landingSteps (place source) (place destination)).map Path.render

/-! ## Complaints -/

def quoted (path : List String) : String := "'" ++ Path.render path ++ "'"

/-- The complaint about a source and a target that are one place. -/
def sameFile (source target : List String) : Fault :=
  .invalidArgument (quoted source ++ " and " ++ quoted target ++ " are the same file")

/-- The complaint about a file that would take the place of a directory. -/
def overDirectory (target : List String) : Fault :=
  .invalidArgument ("cannot overwrite directory " ++ quoted target ++ " with non-directory")

/-! ## Copying -/

/-- Copies the node at `source` to `destination`, stamped with the time, and answers where it
landed. -/
def copy (t : Tree) (source destination : String) (recursive : Bool) (now : Timestamp) :
    Except Fault (String × Tree) := do
  let steps := place source
  let node ← match t.find? steps with
    | some node => .ok node
    | none => .error (.notFound (Path.render steps))
  if node.isDirectory && !recursive then
    .error (.invalidArgument ("-r not specified; omitting directory " ++ quoted steps))
  else
    let target ← t.landingSteps steps (place destination)
    if target = steps then .error (sameFile steps target)
    else if steps.isPrefixOf target then
      .error (.invalidArgument
        ("cannot copy a directory, " ++ quoted steps ++ ", into itself, " ++ quoted target))
    else
      let stamped := node.modifiedAt now
      if t.isDirectoryAt target then
        if stamped.isDirectory then
          .ok (Path.render target, t.alter target fun existing => existing.merge stamped)
        else .error (overDirectory target)
      else .ok (Path.render target, t.put target stamped)

/-! ## Moving -/

/-- What stands against moving a node to a target that is taken by `existing`. -/
def moveConflict? (source target : List String) (movesDirectory : Bool) (existing : Node) :
    Option Fault :=
  match existing, movesDirectory with
  | .directory .., false => some (overDirectory target)
  | .directory _ entries, true =>
    if entries.isEmpty then none
    else some (.invalidArgument
      ("cannot move " ++ quoted source ++ " to " ++ quoted target ++ ": Directory not empty"))
  | .file .., true => some (.invalidArgument
      ("cannot overwrite non-directory " ++ quoted target ++ " with directory " ++ quoted source))
  | .file .., false => none

/-- Moves the node at `source` to `destination` and answers where it landed. -/
def move (t : Tree) (source destination : String) : Except Fault (String × Tree) := do
  let steps := place source
  if steps = [] then .error (.invalidArgument "cannot move '/'")
  else
    let node ← match t.find? steps with
      | some node => .ok node
      | none => .error (.notFound (Path.render steps))
    let target ← t.landingSteps steps (place destination)
    if target = steps then .error (sameFile steps target)
    else if steps.isPrefixOf target then
      .error (.invalidArgument
        ("cannot move " ++ quoted steps ++ " to a subdirectory of itself, " ++ quoted target))
    else match (t.find? target).bind (moveConflict? steps target node.isDirectory) with
      | some fault => .error fault
      | none => .ok (Path.render target, (t.drop steps).put target node)

end Userland.Tree
