/-
  The tree of files and directories under one root.

  A path is any text; it is read from the root, so that every spelling of a place does the same.
  Each operation either answers with the new tree or fails with a fault, and then the old tree is
  all there is: nothing is changed half-way.

  A fault of a look-up names the path as it was given, a fault of `write`, `remove` and
  `createDirectories` names the place in its one spelling.
-/
import Userland.Mode
import Userland.Node

namespace Userland

/-- A tree of nodes. -/
structure Tree where
  root : Node
  deriving Repr, Inhabited

namespace Tree

/-- A tree with nothing but its root. -/
def empty (now : Timestamp) : Tree :=
  ⟨.emptyDirectory "drwxr-xr-x" "root" "root" now⟩

/-! ## Places -/

/-- The steps from the root to the place that a path names. -/
def place (path : String) : List String := Path.steps "/" path

/-- The node at the end of some steps. -/
def find? (t : Tree) (steps : List String) : Option Node := t.root.find? steps

/-- The tree with the node at the end of some steps changed. -/
def alter (t : Tree) (steps : List String) (f : Node → Node) : Tree := ⟨t.root.alter f steps⟩

/-- Is a directory at the end of the steps? -/
def isDirectoryAt (t : Tree) (steps : List String) : Bool := (t.find? steps).any Node.isDirectory

/-- The tree with a node at the end of some steps, in the directory that holds the last of them. -/
def put (t : Tree) (steps : List String) (node : Node) : Tree :=
  match steps.getLast? with
  | none => t
  | some name => t.alter steps.dropLast fun dir => dir.mapEntries (Entries.put · name node)

/-- The tree with nothing at the end of some steps. -/
def drop (t : Tree) (steps : List String) : Tree :=
  match steps.getLast? with
  | none => t
  | some name => t.alter steps.dropLast fun dir => dir.mapEntries (Entries.remove · name)

/-! ## Looking -/

/-- The node at a path. -/
def get? (t : Tree) (path : String) : Option Node := t.find? (place path)

/-- Is there anything at the path? -/
def contains (t : Tree) (path : String) : Bool := (t.get? path).isSome

/-- Is a directory at the path? -/
def isDirectory (t : Tree) (path : String) : Bool := t.isDirectoryAt (place path)

/-- The node at a path, which has to be there. -/
def get (t : Tree) (path : String) : Except Fault Node :=
  match t.get? path with
  | some node => .ok node
  | none => .error (.notFound path)

/-- The entries of the directory at a path, in order. -/
def list (t : Tree) (path : String) : Except Fault (Entries Node) :=
  match t.get path with
  | .error fault => .error fault
  | .ok (.file ..) => .error (.notDirectory path)
  | .ok (.directory _ entries) => .ok entries

/-- The content of the file at a path. -/
def read (t : Tree) (path : String) : Except Fault String :=
  match t.get path with
  | .error fault => .error fault
  | .ok (.file _ content) => .ok content
  | .ok (.directory ..) => .error (.isDirectory path)

/-- The node at a path and everything below it, each with its path. -/
def walk (t : Tree) (path : String) : Except Fault (List (String × Node)) :=
  (t.get path).map (·.walk (Path.render (place path)))

/-! ## New entries -/

/-- Complains about a text that cannot name an entry. -/
def checkName (name : String) : Except Fault Unit :=
  if Path.IsName name then .ok () else .error (.invalidArgument ("invalid name '" ++ name ++ "'"))

/-- Puts a node under a name into the directory at `parent`, in place of what has the name. -/
def insert (t : Tree) (parent name : String) (node : Node) : Except Fault Tree := do
  checkName name
  let _ ← t.list parent
  return t.alter (place parent) (·.mapEntries (Entries.put · name node))

/-- The directory that a user makes. -/
def freshDirectory (owner : String) (now : Timestamp) : Node :=
  .emptyDirectory "drwxr-xr-x" owner owner now

/-- The file that a user makes. -/
def freshFile (owner : String) (now : Timestamp) (content : String) : Node :=
  .newFile "-rw-r--r--" owner owner now content

/-- Makes an empty directory under a name that is not taken. -/
def createDirectory (t : Tree) (parent name owner : String) (now : Timestamp) :
    Except Fault Tree := do
  checkName name
  let entries ← t.list parent
  if (Entries.get? entries name).isSome then .error (.alreadyExists name)
  else t.insert parent name (freshDirectory owner now)

/-- Makes an empty file under a name, in place of what has the name. -/
def createFile (t : Tree) (parent name owner : String) (now : Timestamp) : Except Fault Tree :=
  t.insert parent name (freshFile owner now "")

/-- Makes the directories that are missing on the way from `done` along the steps to come. -/
def createDirectoriesFrom (owner : String) (now : Timestamp) (done : List String) :
    List String → Tree → Except Fault Tree
  | [], t => .ok t
  | name :: rest, t =>
    let next := done ++ [name]
    match t.find? next with
    | some (.directory ..) => createDirectoriesFrom owner now next rest t
    | some (.file ..) => .error (.notDirectory (Path.render next))
    | none =>
      createDirectoriesFrom owner now next rest (t.put next (freshDirectory owner now))

/-- Makes the directory at a path and every missing one above it; those that are there stay as they
are, and a file in the way is a fault. -/
def createDirectories (t : Tree) (path owner : String) (now : Timestamp) : Except Fault Tree :=
  createDirectoriesFrom owner now [] (place path) t

/-! ## Changing what is there -/

/-- Gives the file at a path a new content, or makes a file with it. -/
def write (t : Tree) (path content owner : String) (now : Timestamp) : Except Fault Tree :=
  let spelled := Path.render (place path)
  match t.get? path with
  | some (.directory ..) => .error (.isDirectory spelled)
  | some (.file ..) =>
    .ok (t.alter (place path) fun node => (node.withContent content).modifiedAt now)
  | none =>
    t.insert (Path.parent spelled) (Path.fileName spelled) (freshFile owner now content)

/-- Sets the time of modification of the node at a path. -/
def touch (t : Tree) (path : String) (now : Timestamp) : Except Fault Tree := do
  let _ ← t.get path
  return t.alter (place path) (·.modifiedAt now)

/-- Gives the file that a path names in the directory `cwd` a new content; a directory and a place
with nothing in it stay as they are. -/
def setContent (t : Tree) (path cwd content : String) : Tree :=
  t.alter (place (Path.normalize cwd path)) (·.withContent content)

/-- Takes out the node at a path.  A directory is taken out only if that is asked for, and the root
never. -/
def remove (t : Tree) (path : String) (recursive : Bool) : Except Fault (Node × Tree) :=
  let steps := place path
  if steps = [] then
    .error (.invalidArgument "it is dangerous to operate recursively on '/'")
  else match t.find? steps with
    | none => .error (.notFound (Path.render steps))
    | some node =>
      if node.isDirectory && !recursive then .error (.isDirectory (Path.render steps))
      else .ok (node, t.drop steps)

/-- Applies a mode argument to the permissions of the node at a path. -/
def setPermissions (t : Tree) (path mode : String) : Except Fault Tree := do
  let node ← t.get path
  let bits ← Mode.change mode (Mode.ofText node.attributes.permissions)
  let permissions := Mode.text (if node.isDirectory then 'd' else '-') bits
  return t.alter (place path) (·.mapAttributes ({ · with permissions }))

/-- Gives the node at a path another owner, unless the name is empty, and another group, if one is
given. -/
def setOwner (t : Tree) (path owner : String) (group : Option String) : Except Fault Tree := do
  let _ ← t.get path
  return t.alter (place path) (·.mapAttributes fun a =>
    { a with
      owner := if owner = "" then a.owner else owner
      group := group.getD a.group })

end Tree

end Userland
