/-
  Sessions.

  A session is what one user's terminal remembers: the working directory, the user, the lines typed
  so far, the variables, the aliases, and whether the user has left.  It also says what a path on a
  command line means (`resolve`), how the working directory is shown (`displayPath`) and what an
  alias stands for (`expandAlias`).
-/
import Userland.Config
import Userland.Entries
import Userland.Path
import Userland.Text.Blank

namespace Userland

/-- The state of one terminal. -/
structure Session where
  /-- The working directory. -/
  path : String
  user : String
  /-- The lines typed so far, the oldest first. -/
  history : List String
  environment : Entries String
  aliases : Entries String
  loggedOut : Bool
  deriving Repr, Inhabited

namespace Session

open Text

/-! ## A new session -/

/-- The aliases that every session starts with. -/
def stockAliases : Entries String :=
  [("ll", "ls -la"),
   ("la", "ls -A"),
   ("l", "ls -CF"),
   ("grep", "grep --color=auto"),
   ("fgrep", "fgrep --color=auto"),
   ("egrep", "egrep --color=auto")]

/-- The variables that a session starts with. -/
def stockVariables (c : Config) : Entries String :=
  [("HOME", c.home),
   ("USER", c.user),
   ("PATH", "/usr/local/sbin:/usr/local/bin:/usr/sbin:/usr/bin:/sbin:/bin"),
   ("SHELL", "/bin/bash"),
   ("TERM", "xterm-256color"),
   ("LANG", "en_US.UTF-8"),
   ("PWD", c.home)]

/-- A session of the configured user, in the home directory. -/
def ofConfig (c : Config) : Session where
  path := c.home
  user := c.user
  history := []
  environment := stockVariables c
  aliases := stockAliases
  loggedOut := false

/-! ## Variables -/

def value? (s : Session) (name : String) : Option String := Entries.get? s.environment name

def setVariable (s : Session) (name value : String) : Session :=
  { s with environment := Entries.put s.environment name value }

/-- The home directory that the session goes by; the root if none is set. -/
def home (s : Session) : String := (s.value? "HOME").getD "/"

/-! ## The working directory -/

/-- Makes the variable for the working directory say what it is. -/
def syncPath (s : Session) : Session := s.setVariable "PWD" s.path

/-- Goes to a directory and remembers the one before it. -/
def changeDirectory (s : Session) (target : String) : Session :=
  (({ s with path := target }).setVariable "OLDPWD" s.path).syncPath

/-- A path with the tilde at its beginning replaced by the home directory. -/
def expandTilde (s : Session) (argument : String) : String :=
  if argument = "~" then s.home
  else match after? "~/" argument with
    | some rest => s.home ++ "/" ++ rest
    | none => argument

/-- The place that a path on a command line means. -/
def resolve (s : Session) (argument : String) : String :=
  Path.normalize s.path (s.expandTilde argument)

/-- The working directory as it is shown, with a tilde for the home directory. -/
def displayPath (s : Session) : String :=
  if s.home = "/" then s.path
  else if s.path = s.home then "~"
  else match after? s.home s.path with
    | some rest => if startsWith '/' rest then "~" ++ rest else s.path
    | none => s.path

/-! ## Lines -/

/-- Remembers a line that was typed. -/
def record (s : Session) (line : String) : Session := { s with history := s.history ++ [line] }

/-! ## Aliases -/

/-- The words of a line with an alias in the first place replaced, once, by what it stands for. -/
def expandAlias (s : Session) : List String → List String
  | [] => []
  | first :: rest =>
    match Entries.get? s.aliases first with
    | some meaning => words meaning ++ rest
    | none => first :: rest

end Session

end Userland
