/-
  Commands that are part of the shell itself.

  They look at the session's own tables: its history, its variables and its aliases.  `help` and
  `sudo`, which need the command table, are with the dispatch.
-/
import Userland.Command.Basic

namespace Userland.Command

open Text

/-! ## Programs -/

/-- The directories in which a program is looked for when no command has its name. -/
def programDirectories : List String := ["/bin", "/usr/bin", "/usr/local/bin"]

/-- The first file of a name in some directories. -/
def findProgram? (t : Tree) (directories : List String) (name : String) : Option String :=
  if name = "" ∨ '/' ∈ name.toList then none
  else (directories.map (Path.normalize · name)).find? fun path => (t.get? path).any Node.isFile

/-- Runs a program that is no command. -/
def runProgram (name : String) (s : Scene) (arguments : List String) : Except Fault Output :=
  if (findProgram? s.tree programDirectories name).isSome then
    .ok (.text ("Executing " ++ name ++ " with args: " ++ " ".intercalate arguments
      ++ " (simulated)"))
  else .error (.unknownCommand name)

/-- Says where a program is. -/
def locate (s : Scene) (arguments : List String) : Except Fault Output :=
  match arguments with
  | [] => .error (.usage "missing command")
  | name :: _ =>
    let search := (s.session.value? "PATH").getD ""
    match findProgram? s.tree ((parts ':' search).filter (· ≠ "")) name with
    | some path => .ok (.text path)
    | none => .error (.usage ("no " ++ name ++ " in (" ++ search ++ ")"))

/-! ## History -/

/-- A line of the history with its number. -/
def historyLine (entry : String × Nat) : String := numberRight 5 entry.2 ++ "  " ++ entry.1

/-- Shows the history, or clears it. -/
def history (s : Scene) (arguments : List String) : Except Fault Output × Session :=
  if arguments.head? = some "-c" then (.ok .silent, { s.session with history := [] })
  else (.ok (.ofLines ((s.session.history.zipIdx 1).map historyLine)), s.session)

/-! ## Variables -/

/-- Shows the variables. -/
def environment (s : Scene) (_ : List String) : Except Fault Output :=
  .ok (.text (unlines (s.session.environment.map fun v => v.1 ++ "=" ++ v.2)))

/-- May a variable have this name?  ASCII letters, digits and underscores, and no digit first. -/
def isIdentifier (name : String) : Bool :=
  match name.toList with
  | [] => false
  | c :: cs => (c.isAlpha || c = '_') && cs.all fun c => c.isAlphanum || c = '_'

/-- Sets the variables that are given with a value, up to the first name that is none. -/
def setVariables (s : Session) : List String → Except Fault Output × Session
  | [] => (.ok .silent, s)
  | argument :: rest =>
    let (name, value) := match cut? '=' argument with
      | some (name, value) => (name, some value)
      | none => (argument, none)
    if isIdentifier name then setVariables (value.elim s (s.setVariable name)) rest
    else (.error (.usage ("`" ++ argument ++ "': not a valid identifier")), s)

/-- Sets variables, or shows them all. -/
def exportVariables (s : Scene) (arguments : List String) : Except Fault Output × Session :=
  if arguments.isEmpty then
    (.ok (.text (unlines (s.session.environment.map fun v =>
      "declare -x " ++ v.1 ++ "=\"" ++ v.2 ++ "\""))), s.session)
  else setVariables s.session arguments

/-! ## Aliases -/

/-- The definition of an alias. -/
def aliasLine (name meaning : String) : String := "alias " ++ name ++ "='" ++ meaning ++ "'"

/-- What stands between quotes: first single ones are taken off both ends, then double ones. -/
def unquoteAlias (value : String) : String :=
  String.ofList (stripWhile (· = '"') (stripWhile (· = '\'') (trim value).toList))

/-- The definition of the alias of a name. -/
def definitionOf (s : Session) (name : String) : Except Fault String :=
  match Entries.get? s.aliases name with
  | some meaning => .ok (aliasLine name meaning)
  | none => .error (.usage (name ++ ": not found"))

/-- Shows the definitions of some aliases. -/
def showAliases (s : Session) (names : List String) : Except Fault Output :=
  (names.mapM (definitionOf s)).map fun definitions => .text (unlines definitions)

/-- Defines an alias, or shows some of them or all. -/
def defineAlias (s : Scene) (arguments : List String) : Except Fault Output × Session :=
  let assignment := " ".intercalate arguments
  if arguments.isEmpty then
    (.ok (.text (unlines (s.session.aliases.map fun a => aliasLine a.1 a.2))), s.session)
  else match cut? '=' assignment with
    | none => (showAliases s.session arguments, s.session)
    | some (left, right) =>
      let name := trim left
      if name = "" ∨ '/' ∈ name.toList then
        (.error (.usage ("`" ++ assignment ++ "': invalid alias name")), s.session)
      else
        (.ok .silent,
          { s.session with aliases := Entries.put s.session.aliases name (unquoteAlias right) })

/-- Takes aliases away, up to the first name that is none. -/
def dropAliases (s : Session) : List String → Except Fault Output × Session
  | [] => (.ok .silent, s)
  | name :: rest =>
    if (Entries.get? s.aliases name).isSome then
      dropAliases { s with aliases := Entries.remove s.aliases name } rest
    else (.error (.usage (name ++ ": not found")), s)

/-- Takes some aliases away, or all. -/
def unalias (s : Scene) (arguments : List String) : Except Fault Output × Session :=
  match arguments with
  | [] => (.error (.usage "usage: unalias [-a] name [name ...]"), s.session)
  | "-a" :: _ => (.ok .silent, { s.session with aliases := [] })
  | names => dropAliases s.session names

end Userland.Command
