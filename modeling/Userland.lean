import Userland.Main
import Userland.Proofs.Entries
import Userland.Proofs.Text
import Userland.Proofs.Path
import Userland.Proofs.Fault
import Userland.Proofs.Node.Find
import Userland.Proofs.Node.Proper
import Userland.Proofs.Node.Merge
import Userland.Proofs.Node.Walk
import Userland.Proofs.Tree.Place
import Userland.Proofs.Tree.Outcome
import Userland.Proofs.Tree.InPlace
import Userland.Proofs.Tree.Reachable
import Userland.Proofs.Tree.Move
import Userland.Proofs.Tree.Copy
import Userland.Proofs.Tree.Destination
import Userland.Proofs.Tree.Inside
import Userland.Proofs.Tree.Walk
import Userland.Proofs.Scene
import Userland.Proofs.Command.Batch
import Userland.Proofs.Command.Operands
import Userland.Proofs.Command.Frame
import Userland.Proofs.Line.Dollars
import Userland.Proofs.Line.Quote
import Userland.Proofs.Command.InPlace
import Userland.Proofs.Command.Atomic
import Userland.Proofs.Config
import Userland.Proofs.Session
import Userland.Proofs.Line.Split
import Userland.Proofs.Line.Words
import Userland.Proofs.Line.Escape
import Userland.Proofs.Line.Value
import Userland.Proofs.Alias
import Userland.Proofs.Packages
import Userland.Proofs.Glob
import Userland.Proofs.Glob.Indices
import Userland.Proofs.Calendar
import Userland.Proofs.Timestamp
import Userland.Proofs.History
import Userland.Proofs.Command.Creation
import Userland.Proofs.Boot
import Userland.Proofs.Command.Reachable
import Userland.Proofs.Machine
import Userland.Proofs.Command.Search
import Userland.Proofs.Mode
import Userland.Proofs.Mode.Mask
import Userland.Proofs.Mode.Text
import Userland.Proofs.Tree.Permissions
import Userland.Proofs.Tree.Write
import Userland.Proofs.Tree.Remove
import Userland.Proofs.Tree.Directories
import Userland.Proofs.Command.Packages
import Userland.Proofs.Command.Sudo
import Userland.Proofs.Tree.CopyAgain
import Userland.Proofs.Command.Export
import Userland.Proofs.Command.Alias
import Userland.Proofs.Command.Download
import Userland.Proofs.Command.Adrift
import Userland.Proofs.WorkingDirectory
import Userland.Proofs.Command.Spelling
import Userland.Proofs.Command.LineSearch
import Userland.Proofs.Path.Canonical
import Userland.Proofs.Path.Compose
import Userland.Proofs.Text.Case
import Userland.Proofs.Text.CaseTable
import Userland.Proofs.Command.Script
import Userland.Proofs.Command.Help
import Userland.Proofs.Command.IgnoreCase
