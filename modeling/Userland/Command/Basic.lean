/-
  Commands, and what they may do.

  A command is run on a scene: a clock and a configuration, which no command changes, and a session,
  a tree and a package registry, of which each command may change one at most.  Which one is said by
  the kind of its action:

  * `report` only looks;
  * `files` changes the tree all at once or not at all;
  * `eachFile` goes through operands one by one, keeps what succeeds and tells what fails;
  * `packages` changes the package registry all at once or not at all;
  * `session` changes the session, and may do so even when it fails.
-/
import Userland.Package.Registry
import Userland.Session
import Userland.Tree.Transfer

namespace Userland

/-! ## Answers -/

/-- What a command answers. -/
inductive Output where
  | text (text : String)
  /-- Nothing to show. -/
  | silent
  /-- The terminal is to be cleared. -/
  | clear
  /-- The session is over. -/
  | exit
  /-- A program is to open a file. -/
  | editor (program file : String)
  deriving DecidableEq, Repr

/-- The text that a line-oriented terminal shows for an output. -/
def Output.render : Output → String
  | text t => t
  | silent | clear => ""
  | exit => "Goodbye!"
  | editor program _ => "Opening " ++ program ++ " editor..."

/-- Lines to show, or nothing if there are none. -/
def Output.ofLines (lines : List String) : Output :=
  if lines.isEmpty then .silent else .text (Text.unlines lines)

/-- A fault under the name of the command that met it. -/
structure Failure where
  command : String
  fault : Fault
  deriving DecidableEq, Repr

/-- The wording of a failure. -/
def Failure.message (f : Failure) : String :=
  match f.fault with
  | .unknownCommand _ => f.fault.message ++ "\nTry 'help' for available commands."
  | .unknownPackage _ => "E: " ++ f.fault.message
  | fault => (if fault.isAnswer then f.command else "Error") ++ ": " ++ fault.message

/-! ## Scenes -/

/-- Everything that one command sees. -/
structure Scene where
  clock : Clock
  config : Config
  session : Session
  tree : Tree
  packages : Packages

namespace Scene

/-- The place that an operand means. -/
def resolve (s : Scene) (operand : String) : String := s.session.resolve operand

/-- The node at the place that an operand means. -/
def node? (s : Scene) (operand : String) : Option Node := s.tree.get? (s.resolve operand)

end Scene

/-! ## One operand after the other -/

/-- Work on a tree that is done operand by operand: each either fails and changes nothing, or
changes the tree and may have a line to show. -/
structure Batch where
  operands : List String
  step : Tree → String → Except Fault (Option String × Tree)

/-- What a batch has shown so far: its lines, and the last fault among them. -/
structure Shown where
  lines : List String
  fault : Option Fault

namespace Batch

/-- Works through the operands.  A fault that is an answer becomes a line under the command's name,
and the rest of the operands still have their turn; any other fault ends the work. -/
def runFrom (command : String) (step : Tree → String → Except Fault (Option String × Tree)) :
    List String → Shown → Tree → Except Fault Shown × Tree
  | [], shown, t => (.ok shown, t)
  | operand :: rest, shown, t =>
    match step t operand with
    | .ok (line, t) =>
      runFrom command step rest { shown with lines := shown.lines ++ line.toList } t
    | .error fault =>
      if fault.isAnswer then
        runFrom command step rest
          ⟨shown.lines ++ [command ++ ": " ++ fault.message], some fault⟩ t
      else (.error fault, t)

/-- What is answered in the end: a fault that is the only thing to show is the command's own. -/
def conclude (shown : Shown) : Except Fault Output :=
  match shown.lines, shown.fault with
  | [_], some fault => .error fault
  | lines, _ => .ok (.ofLines lines)

/-- Does the work of a command on a tree. -/
def run (command : String) (b : Batch) (t : Tree) : Except Fault Output × Tree :=
  match runFrom command b.step b.operands ⟨[], none⟩ t with
  | (.ok shown, t) => (conclude shown, t)
  | (.error fault, t) => (.error fault, t)

end Batch

/-! ## Actions -/

/-- What a command does with its arguments. -/
inductive Action where
  | report (run : Scene → List String → Except Fault Output)
  | files (run : Scene → List String → Except Fault (Output × Tree))
  | eachFile (command : String) (plan : Scene → List String → Except Fault Batch)
  | packages (run : Scene → List String → Except Fault (Output × Packages))
  | session (run : Scene → List String → Except Fault Output × Session)

/-- Runs an action: what it answers, and the scene after it. -/
def Action.run (a : Action) (s : Scene) (arguments : List String) :
    Except Fault Output × Scene :=
  match a with
  | report run => (run s arguments, s)
  | files run =>
    match run s arguments with
    | .ok (output, after) => (.ok output, { s with tree := after })
    | .error fault => (.error fault, s)
  | eachFile command plan =>
    match plan s arguments with
    | .ok batch =>
      let (result, after) := batch.run command s.tree
      (result, { s with tree := after })
    | .error fault => (.error fault, s)
  | packages run =>
    match run s arguments with
    | .ok (output, registry) => (.ok output, { s with packages := registry })
    | .error fault => (.error fault, s)
  | session run =>
    let (result, after) := run s arguments
    (result, { s with session := after })

/-! ## Commands -/

/-- The sections that commands are listed under. -/
inductive Category where
  | fileOperations
  | systemInformation
  | network
  | packageManagement
  | systemControl
  | programming
  | utilities
  deriving DecidableEq, Repr

namespace Category

/-- All sections, in the order in which they are listed. -/
def all : List Category :=
  [fileOperations, systemInformation, network, packageManagement, systemControl, programming,
   utilities]

def title : Category → String
  | fileOperations => "File Operations"
  | systemInformation => "System Information"
  | network => "Network"
  | packageManagement => "Package Management"
  | systemControl => "System Control"
  | programming => "Programming"
  | utilities => "Utilities"

end Category

/-- What is said about a command. -/
structure Entry where
  name : String
  usage : String
  description : String
  category : Category := .utilities
  deriving DecidableEq, Repr

/-- A command: what is said about it and what it does. -/
structure Command extends Entry where
  action : Action

end Userland
