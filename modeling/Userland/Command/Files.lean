/-
  Commands on files and directories, those that search in them apart.

  The commands that take many operands describe what they do to one of them; the rest is the work of
  a batch.  An operand is checked and named in complaints as it was typed, and what is done depends
  only on the place that it means.
-/
import Userland.Command.Basic
import Userland.Command.Options

namespace Userland.Command

open Text

/-! ## Complaints -/

/-- The complaint that there is nothing at an operand. -/
def noSuchFile (action operand : String) : Fault :=
  .usage (action ++ " '" ++ operand ++ "': No such file or directory")

/-- Is the operand relative, and the working directory gone?  Then it can land nowhere. -/
def isAdrift (s : Scene) (t : Tree) (operand : String) : Bool :=
  !startsWith '/' operand && !startsWith '~' operand && !t.isDirectory s.session.path

/-! ## Listing -/

/-- The name of a node in a listing, with a mark for its kind if that is asked for. -/
def listingLabel (classify : Bool) (name : String) (node : Node) : String :=
  if !classify then name
  else if node.isDirectory then name ++ "/"
  else if node.isExecutable then name ++ "*"
  else name

/-- A line of a long listing, up to the name. -/
def listingColumns (a : Attributes) : String :=
  " ".intercalate
    [a.permissions, "1", a.owner, a.group, numberRight 8 a.size, a.modified.listingText]

/-- What a listing shows of a node: the entries of a directory, or a file itself. -/
def listingEntries (showHidden : Bool) (operand : String) : Node → List (String × Node)
  | .directory _ entries => entries.filter fun e => showHidden || !startsWith '.' e.1
  | node => [(operand, node)]

def ls : Command where
  name := "ls"
  usage := "ls [-laAF] [path]"
  description := "List directory contents"
  category := .fileOperations
  action := .report fun s arguments => do
    let o := Options.read arguments
    let operand := o.operands.head?.getD "."
    match s.node? operand with
    | none => .error (noSuchFile "cannot access" operand)
    | some node =>
      let entries := listingEntries (o.has 'a' || o.has 'A') operand node
      let label := fun e => listingLabel (o.has 'F') e.1 e.2
      if o.has 'l' then
        return .text (unlines (("total " ++ entries.length.repr) ::
          entries.map fun e => listingColumns e.2.attributes ++ " " ++ label e))
      else if entries.isEmpty then
        return .silent
      else
        return .text ("  ".intercalate (entries.map label))

/-! ## The working directory -/

def pwd : Command where
  name := "pwd"
  usage := "pwd"
  description := "Print working directory"
  category := .fileOperations
  action := .report fun s _ => .ok (.text s.session.path)

/-- Where `cd` is to go, and whether it says where that is. -/
def cdTarget (s : Session) : List String → Except Fault (String × Bool)
  | [] => .ok (s.home, false)
  | "-" :: _ =>
    match s.value? "OLDPWD" with
    | some previous => .ok (previous, true)
    | none => .error (.usage "OLDPWD not set")
  | operand :: _ => .ok (operand, false)

/-- The session after `cd`, and what it says. -/
def changeDirectory (s : Scene) (arguments : List String) : Except Fault (Output × Session) := do
  let (operand, echo) ← cdTarget s.session arguments
  let target := s.resolve operand
  match s.tree.get? target with
  | none => .error (.notFound operand)
  | some (.file ..) => .error (.notDirectory operand)
  | some (.directory ..) =>
    return (if echo then .text target else .silent, s.session.changeDirectory target)

def cd : Command where
  name := "cd"
  usage := "cd [dir]"
  description := "Change directory"
  category := .fileOperations
  action := .session fun s arguments =>
    match changeDirectory s arguments with
    | .ok (output, session) => (.ok output, session)
    | .error fault => (.error fault, s.session)

/-! ## New entries -/

/-- Makes the directory that an operand means. -/
def makeDirectory (s : Scene) (now : Timestamp) (parents : Bool) (t : Tree) (operand : String) :
    Except Fault (Option String × Tree) := do
  if isAdrift s t operand then
    .error (.permissionDenied ("cannot create directory '" ++ operand ++ "'"))
  else
    let path := s.resolve operand
    if parents then
      return (none, ← t.createDirectories path s.session.user now)
    else if t.contains path then .error (.alreadyExists operand)
    else if !t.isDirectory (Path.parent path) then
      .error (noSuchFile "cannot create directory" operand)
    else
      return (none,
        ← t.createDirectory (Path.parent path) (Path.fileName path) s.session.user now)

def mkdir : Command where
  name := "mkdir"
  usage := "mkdir [-p] <dir>..."
  description := "Create directory"
  category := .fileOperations
  action := .eachFile "mkdir" fun s arguments => do
    let o := Options.read arguments
    if o.operands.isEmpty then .error .missingOperand
    else return ⟨o.operands, makeDirectory s (← s.clock.now) (o.has 'p')⟩

/-- Stamps the node that an operand means, or makes an empty file there. -/
def touchFile (s : Scene) (now : Timestamp) (t : Tree) (operand : String) :
    Except Fault (Option String × Tree) := do
  if isAdrift s t operand then
    .error (.permissionDenied ("cannot touch '" ++ operand ++ "'"))
  else
    let path := s.resolve operand
    if t.contains path then return (none, ← t.touch path now)
    else if t.isDirectory (Path.parent path) then
      return (none, ← t.createFile (Path.parent path) (Path.fileName path) s.session.user now)
    else .error (noSuchFile "cannot touch" operand)

def touch : Command where
  name := "touch"
  usage := "touch <file>..."
  description := "Create file"
  category := .fileOperations
  action := .eachFile "touch" fun s arguments => do
    if arguments.isEmpty then .error .missingOperand
    else return ⟨arguments, touchFile s (← s.clock.now)⟩

/-! ## Contents -/

/-- The content of the file that an operand means. -/
def contentOf (s : Scene) (operand : String) : Except Fault String :=
  match s.node? operand with
  | none => .error (.notFound operand)
  | some (.directory ..) => .error (.isDirectory operand)
  | some (.file _ content) => .ok content

def cat : Command where
  name := "cat"
  usage := "cat <file>..."
  description := "Display file contents"
  category := .fileOperations
  action := .report fun s arguments =>
    if arguments.isEmpty then .error .missingOperand
    else (arguments.mapM (contentOf s)).map fun contents => .text (unlines contents)

/-! ## Copying and moving -/

/-- The source and the destination among the operands. -/
def sourceAndDestination : List String → Except Fault (String × String)
  | [] => .error (.usage "missing file operand")
  | [source] => .error (.usage ("missing destination file operand after '" ++ source ++ "'"))
  | source :: destination :: _ => .ok (source, destination)

/-- Where a node lands, spelled the way the destination was typed. -/
def shownTarget (destination meant target : String) : String :=
  if target = meant then destination
  else String.ofList (dropEndWhile (· = '/') destination.toList) ++ "/" ++ Path.fileName target

/-- Checks that a node can be sent to a destination, and answers both places.  `intoItself` words
the complaint about a node that would land below itself. -/
def checkTransfer (s : Scene) (source destination : String) (intoItself : String → String) :
    Except Fault (String × String) := do
  let start := s.resolve source
  if !s.tree.contains start then .error (noSuchFile "cannot stat" source)
  else
    let meant := s.resolve destination
    let target ← s.tree.landing start meant
    let shown := shownTarget destination meant target
    if target = start then
      .error (.invalidArgument ("'" ++ source ++ "' and '" ++ shown ++ "' are the same file"))
    else if Path.isWithin target start then .error (.invalidArgument (intoItself shown))
    else return (start, meant)

def cp : Command where
  name := "cp"
  usage := "cp [-r] <src> <dst>"
  description := "Copy file/directory"
  category := .fileOperations
  action := .files fun s arguments => do
    let o := Options.read arguments
    let (source, destination) ← sourceAndDestination o.operands
    let (start, meant) ← checkTransfer s source destination fun shown =>
      "cannot copy a directory, '" ++ source ++ "', into itself, '" ++ shown ++ "'"
    let recursive := o.has 'r' || o.has 'R' || o.has 'a'
    let (_, tree) ← s.tree.copy start meant recursive (← s.clock.now)
    return (.text ("cp: copied '" ++ source ++ "' to '" ++ destination ++ "'"), tree)

def mv : Command where
  name := "mv"
  usage := "mv <src> <dst>"
  description := "Move/rename file"
  category := .fileOperations
  action := .files fun s arguments => do
    let (source, destination) ← sourceAndDestination (Options.read arguments).operands
    let (start, meant) ← checkTransfer s source destination fun shown =>
      "cannot move '" ++ source ++ "' to a subdirectory of itself, '" ++ shown ++ "'"
    let (_, tree) ← s.tree.move start meant
    return (.text ("mv: moved '" ++ source ++ "' to '" ++ destination ++ "'"), tree)

/-! ## Removing -/

/-- Removes what an operand means. -/
def removeNode (s : Scene) (force recursive : Bool) (t : Tree) (operand : String) :
    Except Fault (Option String × Tree) :=
  let path := s.resolve operand
  match t.get? path with
  | none =>
    if force then .ok (none, t) else .error (noSuchFile "cannot remove" operand)
  | some node =>
    if node.isDirectory && !recursive then
      .error (.usage ("cannot remove '" ++ operand ++ "': Is a directory"))
    else (t.remove path recursive).map fun r => (some ("rm: removed '" ++ operand ++ "'"), r.2)

def rm : Command where
  name := "rm"
  usage := "rm [-rf] <path>..."
  description := "Remove file/directory"
  category := .fileOperations
  action := .eachFile "rm" fun s arguments =>
    let o := Options.read arguments
    if o.operands.isEmpty && !o.has 'f' then .error .missingOperand
    else .ok ⟨o.operands, removeNode s (o.has 'f') (o.has 'r' || o.has 'R')⟩

/-! ## Attributes -/

/-- A first argument and the operands after it, of which there has to be one. -/
def firstAndOperands : List String → Except Fault (String × List String)
  | first :: operand :: rest => .ok (first, operand :: rest)
  | _ => .error .missingOperand

/-- Changes attributes of the node that an operand means; `done` words the success. -/
def changeNode (s : Scene) (change : Tree → String → Except Fault Tree) (done : String → String)
    (t : Tree) (operand : String) : Except Fault (Option String × Tree) := do
  let path := s.resolve operand
  if !t.contains path then .error (noSuchFile "cannot access" operand)
  else return (some (done operand), ← change t path)

def chmod : Command where
  name := "chmod"
  usage := "chmod <mode> <file>..."
  description := "Change file permissions"
  category := .fileOperations
  action := .eachFile "chmod" fun s arguments => do
    let (mode, operands) ← firstAndOperands arguments
    let _ ← Mode.change mode 0
    return ⟨operands, changeNode s (·.setPermissions · mode) fun operand =>
      "chmod: changed permissions of '" ++ operand ++ "' to " ++ mode⟩

/-- The owner and the group that an argument gives; an empty group is none. -/
def ownerAndGroup (spec : String) : Except Fault (String × Option String) :=
  let (owner, group) := match cut? ':' spec with
    | some (owner, group) => (owner, if group = "" then none else some group)
    | none => (spec, none)
  if owner = "" ∧ group = none then .error (.invalidArgument ("invalid spec: '" ++ spec ++ "'"))
  else .ok (owner, group)

def chown : Command where
  name := "chown"
  usage := "chown <owner[:group]> <file>..."
  description := "Change file ownership"
  category := .fileOperations
  action := .eachFile "chown" fun s arguments => do
    let (spec, operands) ← firstAndOperands arguments
    let (owner, group) ← ownerAndGroup spec
    return ⟨operands, changeNode s (·.setOwner · owner group) fun operand =>
      "chown: changed ownership of '" ++ operand ++ "' to " ++ spec⟩

/-- The commands of this module. -/
def fileCommands : List Command :=
  [ls, pwd, cd, mkdir, touch, cat, cp, mv, rm, chmod, chown]

end Userland.Command
