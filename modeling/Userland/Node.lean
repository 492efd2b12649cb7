/-
  Files and directories.

  A node carries attributes that are shown and changed but never enforced.  A directory holds
  further nodes under names, in the order in which they arrived.  `find?` goes down a list of names,
  `alter` changes the node at the end of one, `merge` lays one directory over another, and `walk`
  lists a node with everything below it.
-/
import Userland.Entries
import Userland.Path
import Userland.Timestamp

namespace Userland

/-- What is known of a node besides what it holds. -/
structure Attributes where
  /-- Ten characters, the kind of node first. -/
  permissions : String
  owner : String
  group : String
  size : Nat
  modified : Timestamp
  deriving DecidableEq, Repr, Inhabited

/-- The two kinds of node. -/
inductive NodeKind where
  | file
  | directory
  deriving DecidableEq, Repr

/-- A file or a directory. -/
inductive Node where
  | file (attributes : Attributes) (content : String)
  | directory (attributes : Attributes) (entries : List (String × Node))
  deriving Repr, Inhabited

namespace Node

/-! ## Making nodes -/

/-- The size that is shown for a directory. -/
def directorySize : Nat := 4096

/-- A directory with nothing in it. -/
def emptyDirectory (permissions owner group : String) (modified : Timestamp) : Node :=
  .directory ⟨permissions, owner, group, directorySize, modified⟩ []

/-- A file whose size is that of its content, in bytes. -/
def newFile (permissions owner group : String) (modified : Timestamp) (content : String) : Node :=
  .file ⟨permissions, owner, group, content.utf8ByteSize, modified⟩ content

/-! ## Looking at a node -/

def attributes : Node → Attributes
  | file a _ | directory a _ => a

def kind : Node → NodeKind
  | file .. => .file
  | directory .. => .directory

def isDirectory : Node → Bool
  | file .. => false
  | directory .. => true

def isFile (n : Node) : Bool := !n.isDirectory

/-- The text of a file. -/
def content? : Node → Option String
  | file _ content => some content
  | directory .. => none

/-- What a directory holds. -/
def entries? : Node → Option (Entries Node)
  | file .. => none
  | directory _ entries => some entries

/-- Is it a file that its owner may execute? -/
def isExecutable (n : Node) : Bool :=
  n.isFile && match n.attributes.permissions.toList[3]? with
    | some 'x' | some 's' => true
    | _ => false

/-! ## Changing a node -/

/-- The node with other attributes. -/
def mapAttributes (f : Attributes → Attributes) : Node → Node
  | file a content => file (f a) content
  | directory a entries => directory (f a) entries

/-- The node with another size to show. -/
def withSize (n : Node) (size : Nat) : Node :=
  n.mapAttributes ({ · with size })

/-- The node with another time of modification. -/
def modifiedAt (n : Node) (modified : Timestamp) : Node :=
  n.mapAttributes ({ · with modified })

/-- The file with another content, and with its size; a directory stays as it is. -/
def withContent (content : String) : Node → Node
  | file a _ => file { a with size := content.utf8ByteSize } content
  | directory a entries => directory a entries

/-- The directory with other entries; a file stays as it is. -/
def mapEntries (f : Entries Node → Entries Node) : Node → Node
  | file a content => file a content
  | directory a entries => directory a (f entries)

/-! ## Below a node -/

/-- The node that a list of names leads to. -/
def find? : Node → List String → Option Node
  | n, [] => some n
  | file .., _ :: _ => none
  | directory _ entries, name :: rest =>
    match Entries.get? entries name with
    | none => none
    | some child => child.find? rest

/-- Changes the node that a list of names leads to, if there is one. -/
def alter (f : Node → Node) : List String → Node → Node
  | [], n => f n
  | name :: rest, n => n.mapEntries fun entries => Entries.adjust entries name (alter f rest)

mutual

/-- Lays a directory over another one, which takes its time of modification: an entry that both
hold as a directory is merged in turn, any other entry takes the place of the one with its name or
goes to the end. -/
def merge : Node → Node → Node
  | file a content, incoming => file { a with modified := incoming.attributes.modified } content
  | directory a entries, file b _ => directory { a with modified := b.modified } entries
  | directory a entries, directory b more =>
    directory { a with modified := b.modified } (mergeEntries entries more)

/-- Lays the entries of a directory over those of another one. -/
def mergeEntries (entries : Entries Node) : List (String × Node) → Entries Node
  | [] => entries
  | (name, incoming) :: rest =>
    let node := match Entries.get? entries name with
      | some old =>
        if old.isDirectory && incoming.isDirectory then merge old incoming else incoming
      | none => incoming
    mergeEntries (Entries.put entries name node) rest

end

mutual

/-- The node and everything below it, each with its path, a directory before its entries. -/
def walk (path : String) : Node → List (String × Node)
  | file a content => [(path, file a content)]
  | directory a entries => (path, directory a entries) :: walkEntries path entries

/-- The entries of the directory at `path` and everything below them. -/
def walkEntries (path : String) : List (String × Node) → List (String × Node)
  | [] => []
  | (name, child) :: rest => walk (Path.normalize path name) child ++ walkEntries path rest

end

end Node

end Userland
