/-
  Machines.

  A machine is what all its sessions share: the commands, the tree, the packages, the clock and the
  configuration.  A session belongs to whoever types and is handed over with each line.

  `execute` runs a line.  Whatever comes of it, the session afterwards agrees with itself about the
  working directory and remembers the line; a blank line does nothing at all.
-/
import Userland.Command.Stock
import Userland.Package.Catalog
import Userland.Tree.Stock

namespace Userland

structure Machine where
  commands : CommandTable
  tree : Tree
  packages : Packages
  clock : Clock
  config : Config

namespace Machine

open Text

/-- A machine that has just been started. -/
def boot (c : Config) (clock : Clock) : Except Fault Machine := do
  let tree ← Tree.stock c (← clock.now)
  return { commands := .stock, tree, packages := .stock, clock, config := c }

/-- A new session of the configured user. -/
def newSession (m : Machine) : Session := .ofConfig m.config

/-! ## Running lines -/

/-- What a command sees of the machine and a session. -/
def scene (m : Machine) (s : Session) : Scene :=
  ⟨m.clock, m.config, s, m.tree, m.packages⟩

/-- The machine after a command. -/
def keep (m : Machine) (after : Scene) : Machine :=
  { m with tree := after.tree, packages := after.packages }

/-- Runs a line: the output, and the machine and the session after it. -/
def execute (m : Machine) (line : String) (s : Session) : Output × Machine × Session :=
  let line := trim line
  if line = "" then (.silent, m, s)
  else
    let (result, after) := m.commands.execute line (m.scene s)
    let output := match result with
      | .ok output => output
      | .error failure => .text failure.message
    (output, m.keep after, after.session.syncPath.record line)

/-- Runs a line, and answers the text that a terminal shows for its output. -/
def interpret (m : Machine) (line : String) (s : Session) : String × Machine × Session :=
  let (output, after) := m.execute line s
  (output.render, after)

/-! ## What is shown -/

/-- The entries of a directory, hidden ones included, with their kinds. -/
def listDirectory (m : Machine) (path : String) : Except Fault (List (String × NodeKind)) :=
  (m.tree.list path).map fun entries => entries.map fun e => (e.1, e.2.kind)

/-- The text before the place where a line is typed. -/
def prompt (m : Machine) (s : Session) : String :=
  s.user ++ "@" ++ m.config.hostname ++ ":" ++ s.displayPath
    ++ (if s.user = "root" then "# " else "$ ")

/-- The text that greets the user. -/
def banner (m : Machine) : String := m.config.banner

end Machine

end Userland
