/-
  The package manager.

  Several packages are installed or removed together: unless all of their names are in the catalog,
  nothing is done.
-/
import Userland.Command.Options
import Userland.Command.Basic

namespace Userland.Command

open Text

/-- Applies an operation to each package in turn; what each says, and the packages after all. -/
def forPackages (operation : Packages → String → Except Fault (String × Packages)) :
    List String → Packages → Except Fault (List String × Packages)
  | [], ps => .ok ([], ps)
  | name :: rest, ps => do
    let (said, ps) ← operation ps name
    let (others, ps) ← forPackages operation rest ps
    return (said :: others, ps)

/-- Installs or removes packages, all or none. -/
def changePackages (operation : Packages → String → Except Fault (String × Packages))
    (names : List String) (ps : Packages) : Except Fault (Output × Packages) :=
  if names.isEmpty then .ok (.text "E: Missing package name", ps)
  else match names.find? fun name => (ps.find? name).isNone with
    | some missing => .error (.unknownPackage missing)
    | none => (forPackages operation names ps).map fun r => (.text (unlines r.1), r.2)

/-- The record of the first package that is named. -/
def packageRecord (ps : Packages) : List String → String
  | [] => "E: Missing package name"
  | name :: _ =>
    match ps.recordOf name with
    | .ok record => record
    | .error _ => "N: Unable to locate package " ++ name

/-- The package manager. -/
def managePackages (s : Scene) (arguments : List String) : Except Fault (Output × Packages) :=
  let o := Options.read arguments
  let say := fun text => .ok (.text text, s.packages)
  match o.operands with
  | [] => say Packages.help
  | operation :: names =>
    match operation with
    | "update" => s.clock.now.map fun now =>
      let (said, ps) := s.packages.update now
      (.text said, ps)
    | "upgrade" => say Packages.upgradeTranscript
    | "install" => changePackages Packages.install names s.packages
    | "remove" => changePackages Packages.remove names s.packages
    | "search" => say ((names.head?.map s.packages.search).getD "E: Missing search term")
    | "list" => say ("Listing... Done\n" ++ s.packages.list (o.hasLong "installed"))
    | "show" => say (packageRecord s.packages names)
    | other => say ("E: Invalid operation " ++ other)

def apt : Command where
  name := "apt"
  usage := "apt <update|upgrade|install|remove|search|list|show> [pkg]"
  description := "Package manager"
  category := .packageManagement
  action := .packages managePackages

def aptGet : Command where
  name := "apt-get"
  usage := "apt-get <update|upgrade|install|remove> [pkg]"
  description := "Package manager"
  category := .packageManagement
  action := .packages managePackages

/-- The commands of this module. -/
def packageCommands : List Command := [apt, aptGet]

end Userland.Command
