/-
  Packages and which of them are installed.

  The catalog is fixed: its order, names, versions and descriptions never change.  Installing and
  removing turn the mark of one package on and off, refreshing the package lists changes only the
  time of the last refresh.  The transcripts are written as the package manager prints them.
-/
import Userland.Text.Case
import Userland.Text.Column
import Userland.Text.Lines
import Userland.Timestamp

namespace Userland

/-- A package of the catalog. -/
structure Package where
  name : String
  version : String
  description : String
  installed : Bool
  deriving DecidableEq, Repr, Inhabited

/-- The catalog with its marks, and the time of the last refresh. -/
structure Packages where
  catalog : List Package
  lastUpdate : Timestamp
  deriving Repr, Inhabited

namespace Packages

open Text

/-- A catalog before the first refresh. -/
def ofCatalog (catalog : List Package) : Packages := ⟨catalog, .ofDate 2024 1 1⟩

/-! ## Looking -/

/-- The package of a name. -/
def find? (ps : Packages) (name : String) : Option Package :=
  ps.catalog.find? (·.name = name)

def find (ps : Packages) (name : String) : Except Fault Package :=
  match ps.find? name with
  | some p => .ok p
  | none => .error (.unknownPackage name)

def isInstalled (ps : Packages) (name : String) : Bool :=
  (ps.find? name).any (·.installed)

/-- The number of packages that are installed. -/
def installedCount (ps : Packages) : Nat :=
  ps.catalog.countP (·.installed)

/-! ## Changing -/

/-- Changes the first package of a name in a catalog. -/
def changeFirst (name : String) (f : Package → Package) : List Package → List Package
  | [] => []
  | p :: rest => if p.name = name then f p :: rest else p :: changeFirst name f rest

/-- The packages with the mark of one of them set or taken away. -/
def mark (ps : Packages) (name : String) (installed : Bool) : Packages :=
  { ps with catalog := changeFirst name ({ · with installed }) ps.catalog }

/-! ## Transcripts -/

/-- What the package manager prints before it acts. -/
def preamble : List String :=
  ["Reading package lists... Done",
   "Building dependency tree... Done",
   "Reading state information... Done"]

def installTranscript (name version : String) : String :=
  unlines (preamble ++
    ["The following NEW packages will be installed:",
     "  " ++ name,
     "0 upgraded, 1 newly installed, 0 to remove and 0 not upgraded.",
     "Need to get 1,234 kB of archives.",
     "After this operation, 5,678 kB of additional disk space will be used.",
     "Get:1 http://archive.ubuntu.com/ubuntu jammy/main amd64 " ++ name ++ " amd64 " ++ version
       ++ " [1,234 kB]",
     "Fetched 1,234 kB in 1s (1,234 kB/s)",
     "Selecting previously unselected package " ++ name ++ ".",
     "(Reading database ... 123456 files and directories currently installed.)",
     "Preparing to unpack .../" ++ name ++ "_" ++ version ++ "_amd64.deb ...",
     "Unpacking " ++ name ++ " (" ++ version ++ ") ...",
     "Setting up " ++ name ++ " (" ++ version ++ ") ...",
     "Processing triggers for man-db (2.10.2-1) ..."])

def removeTranscript (name version : String) : String :=
  unlines (preamble ++
    ["The following packages will be REMOVED:",
     "  " ++ name,
     "0 upgraded, 0 newly installed, 1 to remove and 0 not upgraded.",
     "After this operation, 5,678 kB disk space will be freed.",
     "(Reading database ... 123456 files and directories currently installed.)",
     "Removing " ++ name ++ " (" ++ version ++ ") ...",
     "Processing triggers for man-db (2.10.2-1) ..."])

def updateTranscript : String :=
  unlines
    ["Hit:1 http://archive.ubuntu.com/ubuntu jammy InRelease",
     "Get:2 http://archive.ubuntu.com/ubuntu jammy-updates InRelease [119 kB]",
     "Get:3 http://archive.ubuntu.com/ubuntu jammy-backports InRelease [107 kB]",
     "Get:4 http://security.ubuntu.com/ubuntu jammy-security InRelease [110 kB]",
     "Fetched 336 kB in 2s (168 kB/s)",
     "Reading package lists... Done"]

def upgradeTranscript : String :=
  unlines (preamble ++
    ["Calculating upgrade... Done",
     "0 upgraded, 0 newly installed, 0 to remove and 0 not upgraded."])

/-- The usage of the package manager. -/
def help : String :=
  unlines
    ["apt 2.4.8 (amd64)",
     "Usage: apt [options] command",
     "",
     "apt is a commandline package manager and provides commands for",
     "searching and managing as well as querying information about packages.",
     "It provides the same functionality as the specialized APT tools,",
     "like apt-get and apt-cache, but enables options more suitable for",
     "interactive use by default.",
     "",
     "Most used commands:",
     "list - list packages based on package names",
     "search - search in package descriptions",
     "show - show package details",
     "install - install packages",
     "remove - remove packages",
     "update - update list of available packages",
     "upgrade - upgrade the system by installing/upgrading packages"]

/-! ## Operations -/

/-- Refreshes the package lists. -/
def update (ps : Packages) (now : Timestamp) : String × Packages :=
  (updateTranscript, { ps with lastUpdate := now })

/-- Installs a package; one that is installed stays as it is. -/
def install (ps : Packages) (name : String) : Except Fault (String × Packages) := do
  let p ← ps.find name
  if p.installed then
    return (name ++ " is already the newest version (" ++ p.version ++ ").", ps)
  else
    return (installTranscript name p.version, ps.mark name true)

/-- Removes a package; one that is not installed stays as it is. -/
def remove (ps : Packages) (name : String) : Except Fault (String × Packages) := do
  let p ← ps.find name
  if p.installed then
    return (removeTranscript name p.version, ps.mark name false)
  else
    return ("Package '" ++ name ++ "' is not installed, so not removed", ps)

/-- The packages that have the term in their name or description, whatever its case. -/
def search (ps : Packages) (term : String) : String :=
  let needle := lower term
  let hits := ps.catalog.filter fun p =>
    contains needle (lower p.name) || contains needle (lower p.description)
  if hits.isEmpty then "No packages found matching '" ++ term ++ "'"
  else unlines (hits.map fun p =>
    p.name ++ "/" ++ p.version ++ " - " ++ p.description
      ++ if p.installed then " [installed]" else "")

/-- The catalog as a table, or what is installed of it. -/
def list (ps : Packages) (installedOnly : Bool) : String :=
  unlines ((ps.catalog.filter fun p => !installedOnly || p.installed).map fun p =>
    (if p.installed then "ii" else "un") ++ "  " ++ alignLeft 20 p.name ++ " "
      ++ alignLeft 15 p.version ++ " " ++ p.description)

/-- The full record of a package. -/
def record (p : Package) : String :=
  unlines
    ["Package: " ++ p.name,
     "Version: " ++ p.version,
     "Priority: optional",
     "Architecture: amd64",
     "Depends: libc6 (>= 2.34)",
     "Installed-Size: 5678",
     "Maintainer: Ubuntu Developers <ubuntu-devel-discuss@lists.ubuntu.com>",
     "Description: " ++ p.description,
     " This is a simulated package description for " ++ p.name ++ ".",
     " It provides functionality for " ++ lower p.description ++ ".",
     "Homepage: https://example.com/" ++ p.name]

/-- The full record of the package of a name. -/
def recordOf (ps : Packages) (name : String) : Except Fault String :=
  (ps.find name).map record

end Packages

end Userland
