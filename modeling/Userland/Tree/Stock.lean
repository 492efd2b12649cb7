/-
  The tree that a new machine starts with.

  It depends on the configuration in four places: the home directory of the user, the user table,
  the host table and the system log.  What belongs to the user or to the current run is stamped
  with the time of the start, all the rest with the day on which the system was made.
-/
import Userland.Config
import Userland.Tree.Basic

namespace Userland.Tree

open Text

/-! ## Kinds of nodes -/

/-- The day on which the system was made. -/
def made : Timestamp := .ofDate 2024 1 1

/-- A directory with given entries. -/
def holding (permissions owner : String) (stamp : Timestamp) (entries : Entries Node) : Node :=
  (Node.emptyDirectory permissions owner owner stamp).mapEntries fun _ => entries

/-- A directory of the system. -/
def systemDirectory (entries : Entries Node) (stamp : Timestamp := made) : Node :=
  holding "drwxr-xr-x" "root" stamp entries

/-- A directory of a user. -/
def userDirectory (user : String) (now : Timestamp) (entries : Entries Node) : Node :=
  holding "drwxr-xr-x" user now entries

/-- A file of a user that is said to have some size. -/
def userFile (user : String) (now : Timestamp) (size : Nat) (content : String) : Node :=
  (Node.newFile "-rw-r--r--" user user now content).withSize size

/-- A program of a user. -/
def userProgram (user : String) (now : Timestamp) (size : Nat) (content : String) : Node :=
  (Node.newFile "-rwxr-xr-x" user user now content).withSize size

/-- A program of the system. -/
def systemProgram (size : Nat) (content : String) : Node := userProgram "root" made size content

/-- A file of the system. -/
def systemFile (size : Nat) (content : String) : Node := userFile "root" made size content

/-! ## The home directory -/

def readme : String := unlines
  ["Welcome to Linux Desktop Clone!",
   "Created by Wisnu Hidayat",
   "",
   "This is a fully functional Linux desktop environment simulation with advanced features:",
   "- Complete filesystem simulation",
   "- Process management",
   "- Package manager",
   "- Network tools",
   "- System monitoring",
   "",
   "Enjoy exploring!"]

def website : String := unlines
  ["<!DOCTYPE html>",
   "<html>",
   "<head>",
   "    <title>My Project</title>",
   "</head>",
   "<body>",
   "    <h1>Hello World!</h1>",
   "    <p>This is my web project.</p>",
   "</body>",
   "</html>"]

def script : String := unlines
  ["#!/usr/bin/env python3",
   "",
   "def main():",
   "    print(\"Hello from Python!\")",
   "    print(\"Linux Desktop Clone\")",
   "",
   "if __name__ == \"__main__\":",
   "    main()"]

def shellSettings : String := unlines
  ["# ~/.bashrc: executed by bash(1) for non-login shells",
   "",
   "# User specific aliases and functions",
   "alias ll=\"ls -la\"",
   "alias la=\"ls -A\"",
   "alias l=\"ls -CF\"",
   "",
   "# Custom prompt",
   "PS1=\"\\u@\\h:\\w\\$ \"",
   "",
   "# History settings",
   "HISTSIZE=1000",
   "HISTFILESIZE=2000",
   "",
   "echo \"Welcome to Linux Desktop Clone Terminal!\""]

def loginSettings : String := unlines
  ["# ~/.profile: executed by the command interpreter for login shells",
   "",
   "# Set PATH",
   "PATH=\"$HOME/bin:$HOME/.local/bin:$PATH\"",
   "export PATH",
   "",
   "# Default editor",
   "export EDITOR=nano",
   "",
   "# Load .bashrc if it exists",
   "if [ -f \"$HOME/.bashrc\" ]; then",
   ". \"$HOME/.bashrc\"",
   "fi"]

/-- What a user finds at home. -/
def homeEntries (user : String) (now : Timestamp) : Entries Node :=
  let file := userFile user now
  let directory := userDirectory user now
  [("Documents", directory
     [("readme.txt", file 156 readme),
      ("projects", directory
        [("website.html", file 245 website),
         ("script.py", userProgram user now 89 script)])]),
   ("Downloads", directory
     [("linux-manual.pdf", file 2048576 "PDF: Linux System Administration Manual")]),
   ("Pictures", directory
     [("wallpaper.jpg", file 1024768 "JPEG Image: Desktop Wallpaper"),
      ("screenshot.png", file 512384 "PNG Image: Desktop Screenshot")]),
   ("Music", directory []),
   ("Videos", directory []),
   ("Desktop", directory []),
   (".bashrc", file 1024 shellSettings),
   (".profile", file 512 loginSettings)]

/-! ## The rest of the system -/

/-- The user table. -/
def userTable (c : Config) : String := unlines
  ["root:x:0:0:root:/root:/bin/bash",
   c.user ++ ":x:1000:1000:Wisnu Hidayat,,,:" ++ c.home ++ ":/bin/bash",
   "nobody:x:65534:65534:nobody:/nonexistent:/usr/sbin/nologin"]

/-- The host table. -/
def hostTable (c : Config) : String := unlines
  ["127.0.0.1\tlocalhost",
   "127.0.1.1\t" ++ c.hostname,
   "",
   "# IPv6",
   "::1\tip6-localhost ip6-loopback",
   "fe00::0\tip6-localnet",
   "ff00::0\tip6-mcastprefix",
   "ff02::1\tip6-allnodes",
   "ff02::2\tip6-allrouters"]

def release : String := unlines
  ["PRETTY_NAME=\"Linux Desktop Clone 22.04 LTS\"",
   "NAME=\"Linux Desktop Clone\"",
   "VERSION_ID=\"22.04\"",
   "VERSION=\"22.04 (Jammy Jellyfish)\"",
   "VERSION_CODENAME=jammy",
   "ID=linux-clone",
   "ID_LIKE=debian",
   "HOME_URL=\"https://linux-clone.com/\"",
   "SUPPORT_URL=\"https://help.linux-clone.com/\"",
   "BUG_REPORT_URL=\"https://bugs.linux-clone.com/\""]

/-- What the log says about the start. -/
def startMessages (c : Config) : List String :=
  ["systemd[1]: Started Linux Desktop Clone.",
   "kernel: Linux Desktop Clone initialized",
   "NetworkManager: device (" ++ c.system.network.interface ++ "): state change: activated",
   "systemd[1]: Reached target Graphical Interface."]

/-- The system log after the start. -/
def systemLog (c : Config) (now : Timestamp) : String :=
  unlines ((startMessages c).map fun message =>
    " ".intercalate [now.isoText, c.hostname, message])

/-- What stands in the root besides the home directories. -/
def systemEntries (c : Config) (now : Timestamp) : Entries Node :=
  [("usr", systemDirectory
     [("bin", systemDirectory
        [("python3", systemProgram 14328 "Python 3.9.2 interpreter"),
         ("node", systemProgram 32768 "Node.js runtime"),
         ("git", systemProgram 2048 "Git version control"),
         ("nano", systemProgram 245760 "Nano text editor"),
         ("vim", systemProgram 3096576 "Vim text editor")]),
      ("lib", systemDirectory []),
      ("share", systemDirectory [("applications", systemDirectory [])])]),
   ("etc", systemDirectory
     [("passwd", systemFile 1024 (userTable c)),
      ("hosts", systemFile 256 (hostTable c)),
      ("os-release", systemFile 512 release)]),
   ("var", systemDirectory
     [("log", systemDirectory
        [("syslog",
          (Node.newFile "-rw-r--r--" "syslog" "adm" now (systemLog c now)).withSize 8192)] now),
      ("cache", systemDirectory [] now)]),
   ("tmp", holding "drwxrwxrwt" "root" now []),
   ("bin", systemDirectory
     [("bash", systemProgram 1183448 "Bash shell"),
      ("ls", systemProgram 147176 "List directory contents"),
      ("cat", systemProgram 43816 "Concatenate files"),
      ("grep", systemProgram 232472 "Search text patterns")]),
   ("proc", (holding "dr-xr-xr-x" "root" now []).withSize 0),
   ("sys", (holding "dr-xr-xr-x" "root" now []).withSize 0)]

/-! ## The whole tree -/

/-- The tree of a machine that is started at some time.  A user whose home directory has no proper
name has no place in it. -/
def stock (c : Config) (now : Timestamp) : Except Fault Tree := do
  let t ← (empty made).insert "/" "home" (systemDirectory [] (.ofDate 2024 1 15))
  let t ← t.createDirectories c.home "root" now
  let t ← t.insert (Path.parent c.home) (Path.fileName c.home)
    (userDirectory c.user now (homeEntries c.user now))
  let t ← if t.contains "/home/root" then pure t
    else t.insert "/home" "root" (holding "drwx------" "root" made [])
  (systemEntries c now).foldlM (fun t e => t.insert "/" e.1 e.2) t

end Userland.Tree
