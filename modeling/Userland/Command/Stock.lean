/-
  The commands that every machine has.
-/
import Userland.Command.Apt
import Userland.Command.Machine
import Userland.Command.Network
import Userland.Command.Programming
import Userland.Command.Search
import Userland.Command.Users
import Userland.CommandTable

namespace Userland

/-- The stock commands, those of one subject together. -/
def Command.stock : List Command :=
  Command.fileCommands ++ Command.searchCommands ++ Command.userCommands
    ++ Command.machineCommands ++ Command.networkCommands ++ Command.packageCommands
    ++ Command.programmingCommands

/-- The table of the stock commands. -/
def CommandTable.stock : CommandTable := CommandTable.empty.registerAll Command.stock

end Userland
