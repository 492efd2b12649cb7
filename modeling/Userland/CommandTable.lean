/-
  The command table and the dispatch of a line.

  A line has its variables expanded, is split into words and has an alias in the first place
  replaced once.  The first word then names what is run: a command of the shell itself, a command of
  the table, or a program in one of the program directories.  `sudo` runs the rest of the words as
  root and gives the session its user back, whatever comes of it.
-/
import Userland.Command.Builtin
import Userland.Line.Variables
import Userland.Line.Words

namespace Userland

open Text

/-- Commands under their names. -/
structure CommandTable where
  commands : Entries Command

namespace CommandTable

def empty : CommandTable := ⟨[]⟩

/-- Adds a command, in place of one with its name. -/
def register (t : CommandTable) (c : Command) : CommandTable :=
  ⟨Entries.put t.commands c.name c⟩

/-- Adds several commands. -/
def registerAll (t : CommandTable) (cs : List Command) : CommandTable := cs.foldl register t

/-! ## What is said about the commands -/

/-- The commands of the shell itself. -/
def builtins : List Entry :=
  [⟨"help", "help [command]", "Show this help message", .utilities⟩,
   ⟨"which", "which <cmd>", "Locate command", .utilities⟩,
   ⟨"history", "history [-c]", "Command history", .utilities⟩,
   ⟨"env", "env", "Environment variables", .utilities⟩,
   ⟨"export", "export NAME=value", "Set an environment variable", .utilities⟩,
   ⟨"alias", "alias [name='command']", "Command aliases", .utilities⟩,
   ⟨"unalias", "unalias <name>", "Remove a command alias", .utilities⟩,
   ⟨"sudo", "sudo <command>", "Run as superuser", .systemControl⟩]

/-- What is said about the commands of the table. -/
def registered (t : CommandTable) : List Entry := t.commands.map (·.2.toEntry)

/-- Is there a command of this name? -/
def contains (t : CommandTable) (name : String) : Bool :=
  (Entries.get? t.commands name).isSome || builtins.any (·.name = name)

/-- Entries in the order of their names; equal names stay in the order in which they are given. -/
def sortByName (es : List Entry) : List Entry := es.mergeSort fun a b => a.name ≤ b.name

/-- All commands by name: of one name, that of the table comes first. -/
def listing (t : CommandTable) : List Entry := sortByName (t.registered ++ builtins)

/-- The section of the help text on one category, if anything is in it. -/
def helpSection (entries : List Entry) (c : Category) : List String :=
  let inside := entries.filter (·.category = c)
  if inside.isEmpty then []
  else "" :: (c.title ++ ":") ::
    (sortByName inside).map fun e => "  " ++ alignLeft 32 e.usage ++ " - " ++ e.description

/-- The help text on one command. -/
def topicText (e : Entry) : String :=
  unlines [e.name ++ " (" ++ e.category.title ++ ")", "  " ++ e.description, "  Usage: " ++ e.usage]

/-- Explains one command, or lists all of them by category.  Of one name, the command of the shell
itself comes first. -/
def help (t : CommandTable) (arguments : List String) : Except Fault Output :=
  let entries := builtins ++ t.registered
  match arguments with
  | topic :: _ =>
    match entries.find? (·.name = topic) with
    | some e => .ok (.text (topicText e))
    | none => .error (.usage ("no help topics match '" ++ topic ++ "'"))
  | [] => .ok (.text (unlines
      ("Available commands:" :: Category.all.flatMap (helpSection entries)
        ++ ["", "Type 'help <command>' for details."])))

/-! ## Dispatch -/

/-- What a first word other than `sudo` stands for. -/
def action (t : CommandTable) (name : String) : Action :=
  match name with
  | "help" => .report fun _ => t.help
  | "which" => .report Command.locate
  | "history" => .session Command.history
  | "env" => .report Command.environment
  | "export" => .session Command.exportVariables
  | "alias" => .session Command.defineAlias
  | "unalias" => .session Command.unalias
  | name =>
    match Entries.get? t.commands name with
    | some command => command.action
    | none => .report (Command.runProgram name)

/-- The output of a command run as root, after the question for the password. -/
def afterPassword (user : String) (o : Output) : Output :=
  let question := "[sudo] password for " ++ user ++ ": (simulated)"
  match o with
  | .text text => .text (question ++ "\n" ++ text)
  | .silent => .text question
  | o => o

/-- Runs words: what comes of them, and the scene after it. -/
def dispatch (t : CommandTable) : List String → Scene → Except Failure Output × Scene
  | [], s => (.ok .silent, s)
  | name :: arguments, s =>
    if name = "sudo" then
      if arguments.isEmpty then (.error ⟨"sudo", .usage "missing command"⟩, s)
      else
        let user := s.session.user
        let (result, s) := t.dispatch arguments { s with session.user := "root" }
        (result.map (afterPassword user), { s with session.user := user })
    else
      let (result, s) := (t.action name).run s arguments
      (result.mapError (⟨name, ·⟩), s)

/-- Runs a line. -/
def execute (t : CommandTable) (line : String) (s : Scene) : Except Failure Output × Scene :=
  match Line.words (Line.expand s.session.environment line) with
  | .error fault => (.error ⟨"bash", fault⟩, s)
  | .ok words => t.dispatch (s.session.expandAlias words) s

end CommandTable

end Userland
