/-
  Network commands.  There is no network: hosts always answer, and a download is a file that says
  where it is said to come from.
-/
import Userland.Command.Options
import Userland.Command.Basic

namespace Userland.Command

open Text

/-! ## Interfaces and hosts -/

/-- The description of the interfaces under one of its names. -/
def interfacesNamed (name : String) : Command where
  name := name
  usage := name
  description := "Network interface info"
  category := .network
  action := .report fun s _ =>
    let network := s.config.system.network
    .ok (.text (unlines
      [network.interface ++ ": flags=4163<UP,BROADCAST,RUNNING,MULTICAST>  mtu 1500",
       "        inet " ++ network.ip ++ "  netmask 255.255.255.0  broadcast 192.168.1.255",
       "        inet6 fe80::a00:27ff:fe4e:66a1  prefixlen 64  scopeid 0x20<link>",
       "        ether 08:00:27:4e:66:a1  txqueuelen 1000  (Ethernet)",
       "        RX packets 1234  bytes 123456 (120.5 KiB)",
       "        RX errors 0  dropped 0  overruns 0  frame 0",
       "        TX packets 567  bytes 56789 (55.4 KiB)",
       "        TX errors 0  dropped 0 overruns 0  carrier 0  collisions 0",
       "",
       "lo: flags=73<UP,LOOPBACK,RUNNING>  mtu 65536",
       "        inet 127.0.0.1  netmask 255.0.0.0",
       "        inet6 ::1  prefixlen 128  scopeid 0x10<host>",
       "        loop  txqueuelen 1000  (Local Loopback)"]))

def ifconfig : Command := interfacesNamed "ifconfig"
def ip : Command := interfacesNamed "ip"

def ping : Command where
  name := "ping"
  usage := "ping <host>"
  description := "Ping network host"
  category := .network
  action := .report fun _ arguments =>
    match firstOperand? arguments.reverse with
    | none => .error (.usage "missing host operand")
    | some host => .ok (.text (unlines
      ["PING " ++ host ++ " (192.168.1.1) 56(84) bytes of data.",
       "64 bytes from " ++ host ++ ": icmp_seq=1 ttl=64 time=1.23 ms",
       "64 bytes from " ++ host ++ ": icmp_seq=2 ttl=64 time=1.45 ms",
       "64 bytes from " ++ host ++ ": icmp_seq=3 ttl=64 time=1.12 ms",
       "--- " ++ host ++ " ping statistics ---",
       "3 packets transmitted, 3 received, 0% packet loss, time 2003ms",
       "rtt min/avg/max/mdev = 1.120/1.267/1.450/0.140 ms"]))

/-! ## Downloads -/

/-- The characters after the first occurrence of `mark`, if there is one. -/
def afterMark? (mark : List Char) : List Char → Option (List Char)
  | [] => if mark.isEmpty then some [] else none
  | c :: cs =>
    match mark.isPrefixOf? (c :: cs) with
    | some rest => some rest
    | none => afterMark? mark cs

/-- The name under which an address is saved: the last part of its path, or a stock name when the
path has none. -/
def remoteName (url : String) : String :=
  let address := (afterMark? "://".toList url.toList).getD url.toList
  let place := address.takeWhile fun c => c ≠ '?' && c ≠ '#'
  match cut? '/' (String.ofList place) with
  | some (_, path) =>
    if path = "" ∨ endsWith '/' path then "index.html" else Path.fileName path
  | none => "index.html"

/-- The address among the arguments: the last one that is neither an option nor the file that
follows `-o`. -/
def lastAddress? (found : Option String) : List String → Option String
  | [] => found
  | "-o" :: rest => lastAddress? found (rest.drop 1)
  | argument :: rest => lastAddress? (if isOption argument then found else some argument) rest
  termination_by arguments => arguments.length
  decreasing_by all_goals (simp only [List.length_drop, List.length_cons]; omega)

/-- The argument after the first `-o`. -/
def afterOutputOption? (arguments : List String) : Option String :=
  (arguments.dropWhile (· ≠ "-o"))[1]?

/-- The file that `curl` saves to, if it saves at all. -/
def curlTarget? (arguments : List String) (url : String) : Option String :=
  if arguments.contains "-o" then afterOutputOption? arguments
  else if arguments.contains "-O" then some (remoteName url)
  else none

/-- Downloads from the address among the arguments, and saves to the file that `target?` names. -/
def download (name : String) (target? : List String → String → Option String) (s : Scene)
    (arguments : List String) : Except Fault (Output × Tree) :=
  match lastAddress? none arguments with
  | none => .error (.usage "missing URL")
  | some url =>
    let progress :=
      [name ++ ": downloading from " ++ url ++ "...", name ++ ": download completed (simulated)"]
    match target? arguments url with
    | none => .ok (.text (unlines progress), s.tree)
    | some target =>
      let path := s.resolve target
      if !s.tree.isDirectory (Path.parent path) then .error (.notFound target)
      else do
        let now ← s.clock.now
        let body := "<!-- " ++ url ++ " (simulated download) -->"
        let tree ← s.tree.write path body s.session.user now
        return (.text (unlines (progress ++
          [name ++ ": saved '" ++ Path.fileName path ++ "'"])), tree)

def wget : Command where
  name := "wget"
  usage := "wget <url>"
  description := "Download files"
  category := .network
  action := .files (download "wget" fun _ url => some (remoteName url))

def curl : Command where
  name := "curl"
  usage := "curl [-o file] [-O] <url>"
  description := "Download files"
  category := .network
  action := .files (download "curl" curlTarget?)

/-- The commands of this module. -/
def networkCommands : List Command := [ifconfig, ip, ping, wget, curl]

end Userland.Command
