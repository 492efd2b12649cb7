/-
  Commands about the session and its user, and those that only talk to the terminal.
-/
import Userland.Command.Options
import Userland.Command.Basic

namespace Userland.Command

open Text

/-! ## Who is here -/

/-- The groups that every user is in, with their numbers. -/
def supplementaryGroups : List (Nat × String) :=
  [(4, "adm"), (24, "cdrom"), (27, "sudo"), (30, "dip"), (46, "plugdev"), (120, "lpadmin"),
   (131, "lxd"), (132, "sambashare")]

/-- A number with its name. -/
def numbered (number : Nat) (name : String) : String := number.repr ++ "(" ++ name ++ ")"

def whoami : Command where
  name := "whoami"
  usage := "whoami"
  description := "Display current user"
  category := .systemInformation
  action := .report fun s _ => .ok (.text s.session.user)

def id : Command where
  name := "id"
  usage := "id [user]"
  description := "User ID information"
  category := .systemInformation
  action := .report fun s arguments =>
    let user := arguments.head?.getD s.session.user
    let own := numbered (if user = "root" then 0 else 1000) user
    let groups := own :: supplementaryGroups.map fun g => numbered g.1 g.2
    .ok (.text ("uid=" ++ own ++ " gid=" ++ own ++ " groups=" ++ ",".intercalate groups))

def groups : Command where
  name := "groups"
  usage := "groups [user]"
  description := "User groups"
  category := .systemInformation
  action := .report fun s arguments =>
    let user := arguments.head?.getD s.session.user
    .ok (.text (" ".intercalate (user :: supplementaryGroups.map (·.2))))

/-- The list of logins under one of its names. -/
def whoNamed (name : String) : Command where
  name := name
  usage := name
  description := "Logged in users"
  category := .systemInformation
  action := .report fun s _ => do
    let now ← s.clock.now
    return .text (unlines
      ["USER     TTY      FROM             LOGIN@   IDLE   JCPU   PCPU WHAT",
       alignLeft 8 s.session.user ++ " pts/0    " ++ alignLeft 16 s.config.system.network.ip ++ " "
         ++ alignLeft 8 now.minuteText ++ " 0.00s  0.01s  0.00s w"])

def w : Command := whoNamed "w"
def who : Command := whoNamed "who"

def hostname : Command where
  name := "hostname"
  usage := "hostname"
  description := "Show system hostname"
  category := .systemInformation
  action := .report fun s _ => .ok (.text s.config.hostname)

def su : Command where
  name := "su"
  usage := "su [user]"
  description := "Switch user"
  category := .systemControl
  action := .report fun _ arguments =>
    let user := (firstOperand? arguments).getD "root"
    if user = "root" then .error (.usage "Authentication required (simulated)")
    else .ok (.text ("su: switched to user " ++ user ++ " (simulated)"))

/-! ## The terminal -/

def date : Command where
  name := "date"
  usage := "date"
  description := "Display current date and time"
  category := .systemInformation
  action := .report fun s _ => s.clock.now.map fun now => .text now.longText

def echo : Command where
  name := "echo"
  usage := "echo [text...]"
  description := "Display text"
  action := .report fun _ arguments => .ok (.text (" ".intercalate arguments))

def clear : Command where
  name := "clear"
  usage := "clear"
  description := "Clear terminal"
  action := .report fun _ _ => .ok .clear

/-- The end of a session under one of its names. -/
def exitNamed (name : String) : Command where
  name := name
  usage := name
  description := "Exit terminal"
  action := .session fun s _ => (.ok .exit, { s.session with loggedOut := true })

def exit : Command := exitNamed "exit"
def logout : Command := exitNamed "logout"

/-! ## Manual pages -/

/-- The manual page for a topic. -/
def manualPage (topic : String) (now : Timestamp) : String :=
  unlines
    ["Manual page for " ++ topic ++ ":",
     "",
     "NAME",
     "       " ++ topic ++ " - Linux command",
     "",
     "SYNOPSIS",
     "       " ++ topic ++ " [OPTION]... [FILE]...",
     "",
     "DESCRIPTION",
     "       This is a simulated manual page for " ++ topic ++ ".",
     "       In a real Linux system, this would show detailed documentation.",
     "",
     "SEE ALSO",
     "       help(1), info(1)",
     "",
     "Linux Desktop Clone                    " ++ now.dateText ++ "                    "
       ++ upper topic ++ "(1)"]

def man : Command where
  name := "man"
  usage := "man <cmd>"
  description := "Manual pages"
  action := .report fun s arguments =>
    match arguments with
    | [] => .error (.usage "missing command")
    | topic :: _ => s.clock.now.map fun now => .text (manualPage topic now)

/-- The commands of this module. -/
def userCommands : List Command :=
  [whoami, date, echo, clear, exit, logout, su, id, groups, w, who, hostname, man]

end Userland.Command
