/-
  Interpreters, version control, editors and archives.

  A script is not run.  What it prints is read off its text: the string in each line that is nothing
  but one call of the printing function with one string.
-/
import Userland.Command.Options
import Userland.Command.Basic

namespace Userland.Command

open Text

/-! ## Scripts -/

/-- The characters between a beginning and a last one. -/
def between? (beginning : List Char) (last : Char) (cs : List Char) : Option (List Char) := do
  let rest ← beginning.isPrefixOf? cs
  if rest.getLast? = some last then some rest.dropLast else none

def isQuote (c : Char) : Bool := c = '"' || c = '\'' || c = '`'

/-- The characters between two of the same quote. -/
def unquote? : List Char → Option (List Char)
  | q :: rest => if isQuote q then between? [q] q (q :: rest) else none
  | [] => none

/-- The string in a line that is nothing but a call with one string. -/
def literalCall? (call : String) (line : String) : Option String :=
  let bare := dropEndWhile (· = ';') (stripWhile isBlank line.toList)
  ((between? (call.toList ++ ['(']) ')' bare).bind unquote?).map String.ofList

/-- The strings that the lines of a script print. -/
def literalCalls (call source : String) : List String :=
  (lines source).filterMap (literalCall? call)

/-- An interpreter of scripts under one of its names: it reads the strings printed by `call`, greets
when there is no script, and words its complaints about one that is not there or a directory. -/
def interpreter (name usage description call : String) (banner : List String)
    (missing directory : String → String → String) : Command where
  name := name
  usage := usage
  description := description
  category := .programming
  action := .report fun s arguments =>
    match firstOperand? arguments with
    | none => .ok (.text (unlines banner))
    | some script =>
      let path := s.resolve script
      match s.tree.get? path with
      | none => .error (.usage (missing script path))
      | some (.directory ..) => .error (.usage (directory script path))
      | some (.file _ source) => .ok (.ofLines (literalCalls call source))

/-- The Python interpreter under one of its names. -/
def pythonNamed (name : String) : Command :=
  interpreter name "python3 [file]" "Run Python script" "print"
    ["Python 3.9.2 (default, Feb 28 2021, 17:03:44)",
     "[GCC 10.2.1 20210110] on linux",
     "Type \"help\", \"copyright\", \"credits\" or \"license\" for more information.",
     ">>> (Interactive mode not available in web terminal)"]
    (fun script _ => "can't open file '" ++ script ++ "': [Errno 2] No such file or directory")
    (fun script _ => "can't find '__main__' module in '" ++ script ++ "'")

def python : Command := pythonNamed "python"
def python3 : Command := pythonNamed "python3"

def node : Command :=
  interpreter "node" "node [file]" "Run Node.js script" "console.log"
    ["Welcome to Node.js v16.14.0.",
     "Type \".help\" for more information.",
     "> (Interactive mode not available in web terminal)"]
    (fun _ path => "Cannot find module '" ++ path ++ "'")
    (fun _ path => "Cannot find module '" ++ path ++ "'")

/-! ## Version control -/

def gitUsage : String :=
  unlines
    ["usage: git [--version] [--help] [-C <path>] [-c <name>=<value>]",
     "           [--exec-path[=<path>]] [--html-path] [--man-path] [--info-path]",
     "           [-p | --paginate | -P | --no-pager] [--no-replace-objects] [--bare]",
     "           [--git-dir=<path>] [--work-tree=<path>] [--namespace=<name>]",
     "           <command> [<args>]"]

def git : Command where
  name := "git"
  usage := "git <status|log|branch|version>"
  description := "Git version control"
  category := .programming
  action := .report fun s arguments =>
    match arguments with
    | [] => .ok (.text gitUsage)
    | sub :: _ =>
      match sub with
      | "status" => .ok (.text "On branch main\nnothing to commit, working tree clean")
      | "log" => s.clock.now.map fun now => .text (unlines
        ["commit abc123def456 (HEAD -> main)",
         "Author: Wisnu Hidayat <wisnu@example.com>",
         "Date:   " ++ now.dateText,
         "",
         "    Initial commit"])
      | "branch" => .ok (.text "* main")
      | "version" | "--version" => .ok (.text "git version 2.34.1")
      | other => .error (.usage
        ("'" ++ other ++ "' is not a git command. See 'git --help'."))

/-! ## Editors and archives -/

/-- An editor. -/
def editorNamed (name : String) : Command where
  name := name
  usage := name ++ " [file]"
  description := "Text editors"
  category := .programming
  action := .report fun s arguments =>
    .ok (.editor name (s.resolve ((firstOperand? arguments).getD "untitled.txt")))

def nano : Command := editorNamed "nano"
def vim : Command := editorNamed "vim"

def tar : Command where
  name := "tar"
  usage := "tar <options...>"
  description := "Archive files"
  action := .report fun _ arguments =>
    if arguments.isEmpty then .error (.usage "missing operation")
    else .ok (.text
      ("tar: archive operation simulated with options: " ++ " ".intercalate arguments))

/-- The commands of this module. -/
def programmingCommands : List Command := [python, python3, node, git, nano, vim, tar]

end Userland.Command
