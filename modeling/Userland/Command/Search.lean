/-
  Commands that search: `find` among paths, `grep` among lines.
-/
import Userland.Command.Files
import Userland.Glob

namespace Userland.Command

open Text

/-! ## Finding paths -/

/-- What `find` looks for. -/
structure Wanted where
  name : Option String := none
  kind : Option NodeKind := none

/-- Reads predicates, each with its value; of several of one kind the last one counts. -/
def Wanted.read (w : Wanted) : List String → Except Fault Wanted
  | [] => .ok w
  | [predicate] => .error (.usage ("missing argument to `" ++ predicate ++ "'"))
  | "-name" :: pattern :: rest => read { w with name := some pattern } rest
  | "-type" :: value :: rest =>
    match value with
    | "f" => read { w with kind := some .file } rest
    | "d" => read { w with kind := some .directory } rest
    | other => .error (.usage ("Unknown argument to -type: " ++ other))
  | other :: _ :: _ => .error (.usage ("unknown predicate `" ++ other ++ "'"))

/-- Is the node at a path wanted? -/
def Wanted.admits (w : Wanted) (path : String) (node : Node) : Bool :=
  w.kind.all (· = node.kind) && w.name.all fun pattern => Glob.isMatch pattern (Path.fileName path)

/-- A path below `root`, spelled from the start operand that means `root`. -/
def spelledFrom (start root path : String) : String :=
  let below := ((after? root path).getD path).toList.dropWhile (· = '/')
  if below.isEmpty then start
  else start ++ (if endsWith '/' start then "" else "/") ++ String.ofList below

/-- The start operand and the predicates. -/
def startAndPredicates : List String → String × List String
  | [] => (".", [])
  | first :: rest => if isOption first then (".", first :: rest) else (first, rest)

def find : Command where
  name := "find"
  usage := "find [path] [-name pattern] [-type f|d]"
  description := "Find files and directories"
  category := .fileOperations
  action := .report fun s arguments => do
    let (start, predicates) := startAndPredicates arguments
    let wanted ← ({} : Wanted).read predicates
    let root := s.resolve start
    match s.tree.walk root with
    | .error _ => .error (.usage ("'" ++ start ++ "': No such file or directory"))
    | .ok nodes =>
      return .ofLines ((nodes.filter fun n => wanted.admits n.1 n.2).map fun n =>
        spelledFrom start root n.1)

/-! ## Finding lines -/

/-- How `grep` selects and shows lines. -/
structure LineFilter where
  pattern : String
  ignoreCase : Bool
  invert : Bool
  count : Bool
  number : Bool

/-- Does the filter select a line? -/
def LineFilter.selects (f : LineFilter) (line : String) : Bool :=
  let hit :=
    if f.ignoreCase then contains (lower f.pattern) (lower line) else contains f.pattern line
  hit != f.invert

/-- The lines of a content that are selected, each with its number. -/
def LineFilter.selected (f : LineFilter) (content : String) : List (String × Nat) :=
  ((lines content).zipIdx 1).filter fun l => f.selects l.1

/-- What is shown for one file: a line for each selected one, or their number. -/
def LineFilter.shown (f : LineFilter) (label content : String) : List String :=
  let selected := f.selected content
  if f.count then [label ++ selected.length.repr]
  else selected.map fun l =>
    label ++ (if f.number then l.2.repr ++ ":" else "") ++ l.1

/-- Searches files for lines. -/
def searchLines (s : Scene) (arguments : List String) : Except Fault Output :=
  let o := Options.read arguments
  match o.operands with
  | [] => .error (.usage "missing pattern")
  | [_] => .error (.usage "no input files")
  | pattern :: files => do
    let f : LineFilter := ⟨pattern, o.has 'i', o.has 'v', o.has 'c', o.has 'n'⟩
    let shown ← files.mapM fun file => do
      let content ← contentOf s file
      return f.shown (if files.length > 1 then file ++ ":" else "") content
    return .ofLines shown.flatten

/-- The search under one of its names. -/
def grepNamed (name : String) : Command where
  name := name
  usage := name ++ " [-incv] <pattern> <file>..."
  description := "Search text patterns"
  category := .fileOperations
  action := .report searchLines

def grep : Command := grepNamed "grep"
def egrep : Command := grepNamed "egrep"
def fgrep : Command := grepNamed "fgrep"

/-- The commands of this module. -/
def searchCommands : List Command := [find, grep, egrep, fgrep]

end Userland.Command
