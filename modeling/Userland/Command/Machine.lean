/-
  Commands about the machine: its processes, its resources, its hardware and its services.

  The process table, the disks and the load are fixed; the rest comes from the configuration, the
  clock, the package registry and the system log.
-/
import Userland.Command.Options
import Userland.Command.Basic

namespace Userland.Command

open Text

/-! ## Processes -/

/-- A row of the process table. -/
structure Process where
  number : Nat
  terminal : String
  hours : String
  minutes : String
  name : String
  /-- Does it belong to the configured user, and not to root? -/
  ofUser : Bool

def processes : List Process :=
  [⟨1, "?", "00", "00:01", "systemd", false⟩,
   ⟨2, "?", "00", "00:00", "[kthreadd]", false⟩,
   ⟨100, "tty1", "00", "00:00", "login", false⟩,
   ⟨1000, "pts/0", "00", "00:00", "bash", true⟩,
   ⟨1001, "pts/0", "00", "00:00", "terminal", true⟩]

/-- The row with owners and resources. -/
def Process.longRow (user : String) (p : Process) : String :=
  alignLeft 10 (if p.ofUser then user else "root") ++ " " ++ numberRight 5 p.number
    ++ "  0.0  0.1  21292  5180 " ++ alignLeft 8 p.terminal ++ " S    00:00   " ++ p.minutes ++ " "
    ++ p.name

/-- The row without them. -/
def Process.shortRow (p : Process) : String :=
  numberRight 4 p.number ++ " " ++ alignLeft 8 p.terminal ++ " " ++ p.hours ++ ":" ++ p.minutes
    ++ " " ++ p.name

/-- Does an argument ask for owners, by a letter after its dashes? -/
def asksForOwners (argument : String) : Bool :=
  (argument.toList.dropWhile (· = '-')).contains 'u'

def ps : Command where
  name := "ps"
  usage := "ps [aux]"
  description := "Running processes"
  category := .systemInformation
  action := .report fun s arguments =>
    .ok (.text (unlines (
      if arguments.any asksForOwners then
        "USER         PID %CPU %MEM    VSZ   RSS TTY      STAT START   TIME COMMAND" ::
          processes.map (·.longRow s.config.user)
      else "PID  TTY      TIME     CMD" :: processes.map (·.shortRow))))

/-- The load of the machine, which never changes. -/
def loadAverage : String := "load average: 0.15, 0.10, 0.05"

/-- Hours and minutes of some seconds. -/
def hoursAndMinutes (seconds : Nat) : String :=
  (seconds / 3600).repr ++ ":" ++ zeroPadded 2 (seconds % 3600 / 60)

def top : Command where
  name := "top"
  usage := "top"
  description := "System monitor"
  category := .systemInformation
  action := .report fun s _ => do
    let now ← s.clock.now
    let uptime ← s.clock.uptime
    let memory := s.config.system.memory
    let user := alignLeft 9 s.config.user
    return .text (unlines
      ["top - " ++ now.clockText ++ " up " ++ hoursAndMinutes uptime ++ ", 1 user, " ++ loadAverage,
       "",
       "Tasks: 5 total, 1 running, 4 sleeping, 0 stopped, 0 zombie",
       "%Cpu(s): 2.3 us, 1.2 sy, 0.0 ni, 96.5 id, 0.0 wa, 0.0 hi, 0.0 si, 0.0 st",
       "MiB Mem: " ++ memory.total.repr ++ " total, " ++ memory.free.repr ++ " free, "
         ++ memory.used.repr ++ " used, 0 buff/cache",
       "",
       "PID USER      PR  NI    VIRT    RES    SHR S  %CPU  %MEM     TIME+ COMMAND",
       "    1 root      20   0  169364  13584   8716 S   0.0   0.2   0:01.23 systemd",
       " 1000 " ++ user ++ " 20   0   21292   5180   3264 S   0.0   0.1   0:00.05 bash",
       " 1001 " ++ user ++ " 20   0   12345   2048   1024 R   2.3   0.0   0:00.01 terminal"])

def kill : Command where
  name := "kill"
  usage := "kill [-signal] <pid>"
  description := "Kill process"
  action := .report fun _ arguments =>
    match (Options.read arguments).operands with
    | [] => .error (.usage "missing process ID")
    | target :: _ =>
      match readNumeral? UInt32.size target with
      | none =>
        .error (.invalidArgument (target ++ ": arguments must be process or job IDs"))
      | some number =>
        if processes.any (·.number = number) then
          .ok (.text ("kill: terminated process " ++ number.repr))
        else .error (.usage ("(" ++ number.repr ++ ") - No such process"))

/-! ## Resources -/

def df : Command where
  name := "df"
  usage := "df"
  description := "Disk usage"
  category := .systemInformation
  action := .report fun _ _ => .ok (.text (unlines
    ["Filesystem     1K-blocks    Used Available Use% Mounted on",
     "/dev/sda1       20971520 8388608  11534336  43% /",
     "tmpfs            4194304       0   4194304   0% /dev/shm",
     "tmpfs            4194304    1024   4193280   1% /run",
     "/dev/sda2       10485760 2097152   7864320  22% /home"]))

def free : Command where
  name := "free"
  usage := "free"
  description := "Memory usage"
  category := .systemInformation
  action := .report fun s _ =>
    let memory := s.config.system.memory
    let columns := fun numbers => String.join (numbers.map (numberRight 12))
    .ok (.text (unlines
      ["              total        used        free      shared  buff/cache   available",
       "Mem:" ++ numberRight 15 memory.total
         ++ columns [memory.used, memory.free, 0, 0, memory.free],
       "Swap:" ++ numberRight 14 0 ++ columns [0, 0]]))

def uptime : Command where
  name := "uptime"
  usage := "uptime"
  description := "System uptime"
  category := .systemInformation
  action := .report fun s _ => do
    let now ← s.clock.now
    let seconds ← s.clock.uptime
    return .text (" " ++ now.clockText ++ " up " ++ (seconds / 86400).repr ++ " days, "
      ++ hoursAndMinutes (seconds % 86400) ++ ", 1 user, " ++ loadAverage)

/-! ## Kernel and hardware -/

def uname : Command where
  name := "uname"
  usage := "uname [-a] [-s] [-n] [-r] [-m]"
  description := "System information"
  category := .systemInformation
  action := .report fun s arguments => do
    let o := Options.read arguments
    let system := s.config.system
    if o.has 'a' then
      let now ← s.clock.now
      return .text (" ".intercalate
        [system.kernel, s.config.hostname, system.kernel, "#1 SMP", now.dateText,
         system.architecture, system.architecture, system.architecture, "GNU/Linux"])
    else
      let fields := [('s', "Linux"), ('n', s.config.hostname), ('r', system.kernel),
        ('m', system.architecture)]
      let asked := (fields.filter fun f => o.has f.1).map (·.2)
      return .text (" ".intercalate (if asked.isEmpty then ["Linux"] else asked))

def lscpu : Command where
  name := "lscpu"
  usage := "lscpu"
  description := "CPU information"
  category := .systemInformation
  action := .report fun s _ =>
    let system := s.config.system
    let cores := system.cpu.cores
    let rows :=
      [("Architecture", system.architecture),
       ("CPU op-mode(s)", "32-bit, 64-bit"),
       ("Byte Order", "Little Endian"),
       ("Address sizes", "39 bits physical, 48 bits virtual"),
       ("CPU(s)", cores.repr),
       ("On-line CPU(s) list", "0-" ++ (cores - 1).repr),
       ("Thread(s) per core", "1"),
       ("Core(s) per socket", cores.repr),
       ("Socket(s)", "1"),
       ("Vendor ID", "GenuineIntel"),
       ("CPU family", "6"),
       ("Model", "142"),
       ("Model name", system.cpu.model),
       ("Stepping", "10"),
       ("CPU MHz", "2400.000"),
       ("BogoMIPS", "4800.00"),
       ("Hypervisor vendor", "Microsoft"),
       ("Virtualization type", "full")]
    .ok (.text (unlines (rows.map fun r => alignLeft 33 (r.1 ++ ":") ++ r.2)))

def lsblk : Command where
  name := "lsblk"
  usage := "lsblk"
  description := "Block devices"
  category := .systemInformation
  action := .report fun _ _ => .ok (.text (unlines
    ["NAME   MAJ:MIN RM  SIZE RO TYPE MOUNTPOINT",
     "sda      8:0    0   20G  0 disk ",
     "├─sda1   8:1    0   19G  0 part /",
     "└─sda2   8:2    0    1G  0 part [SWAP]",
     "sr0     11:0    1 1024M  0 rom"]))

def mount : Command where
  name := "mount"
  usage := "mount"
  description := "Mounted filesystems"
  category := .systemInformation
  action := .report fun _ _ => .ok (.text (unlines
    ["/dev/sda1 on / type ext4 (rw,relatime,errors=remount-ro)",
     "proc on /proc type proc (rw,nosuid,nodev,noexec,relatime)",
     "sysfs on /sys type sysfs (rw,nosuid,nodev,noexec,relatime)",
     "tmpfs on /dev/shm type tmpfs (rw,nosuid,nodev)",
     "tmpfs on /run type tmpfs (rw,nosuid,nodev,noexec,relatime,size=819200k,mode=755)"]))

/-! ## The overview with a logo -/

def logo : List String :=
  ["        _,met$$$$$gg.",
   "     ,g$$$$$$$$$$$$$$$P.",
   "   ,g$$P\"     \"\"\"Y$$.\".",
   "  ,$$P'              `$$$.",
   " ',$$P       ,ggs.     `$$b:",
   " `d$$'     ,$P\"'   .    $$$",
   "  $$P      d$'     ,    $$P",
   "  $$:      $$.   -    ,d$$'",
   "  $$;      Y$b._   _,d$P'",
   "  Y$$.    `.`\"Y$$$$P\"'",
   "  `$$b      \"-.__",
   "   `Y$$",
   "    `Y$$.",
   "      `$$b.",
   "        `Y$$b.",
   "           `\"Y$b._",
   "               `\"\"\""]

/-- The lines of the logo with lines of text beside the first of them. -/
def besideLogo : List String → List String → List String
  | art :: logo, line :: info => (alignLeft 31 art ++ line) :: besideLogo logo info
  | logo, _ => logo

def neofetch : Command where
  name := "neofetch"
  usage := "neofetch"
  description := "Display system information"
  action := .report fun s _ => do
    let seconds ← s.clock.uptime
    let system := s.config.system
    let title := s.session.user ++ "@" ++ s.config.hostname
    return .text (unlines (besideLogo logo
      [title,
       "".pushn '-' title.utf8ByteSize,
       "OS: Linux Desktop Clone 22.04 LTS",
       "Host: " ++ s.config.hostname,
       "Kernel: " ++ system.kernel,
       "Uptime: " ++ (seconds / 3600).repr ++ " hours, " ++ (seconds % 3600 / 60).repr ++ " mins",
       "Packages: " ++ s.packages.installedCount.repr ++ " (apt)",
       "Shell: bash 5.1.16",
       "CPU: " ++ system.cpu.model ++ " (" ++ system.cpu.cores.repr ++ ")",
       "Memory: " ++ system.memory.used.repr ++ "MiB / " ++ system.memory.total.repr ++ "MiB",
       "Created by: Wisnu Hidayat"]))

/-! ## Services and their log -/

/-- Takes an ending off a text, as often as it is there. -/
def dropEndings (ending cs : List Char) : List Char :=
  match ending.isPrefixOf? cs with
  | none => cs
  | some rest => if rest.length < cs.length then dropEndings ending rest else cs
  termination_by cs.length

/-- The name of a service without its unit endings. -/
def serviceName (s : String) : String :=
  String.ofList (dropEndings ".service".toList.reverse s.toList.reverse).reverse

/-- What is said when a service has been acted upon. -/
def serviceVerb? : String → Option String
  | "start" => some "Started"
  | "stop" => some "Stopped"
  | "restart" => some "Restarted"
  | "enable" => some "Enabled"
  | "disable" => some "Disabled"
  | _ => none

def systemctl : Command where
  name := "systemctl"
  usage := "systemctl <action> <service>"
  description := "Control services"
  category := .systemControl
  action := .report fun s arguments =>
    match arguments with
    | [] => .error (.usage "missing action")
    | "status" :: rest =>
      let service := (rest.head?.map serviceName).getD "unknown"
      s.clock.now.map fun now => .text (unlines
        ["● " ++ service ++ ".service - " ++ service ++ " service",
         "   Loaded: loaded (/lib/systemd/system/" ++ service ++ ".service; enabled)",
         "   Active: active (running) since " ++ now.dateText])
    | verb :: rest =>
      match serviceVerb? verb with
      | some done =>
        .ok (.text (done ++ " " ++ (rest.head?.map serviceName).getD "unknown" ++ ".service"))
      | none => .error (.usage ("unknown operation '" ++ verb ++ "'"))

/-- The number of log lines that is asked for, if one is. -/
def logLimit : List String → Except Fault (Option Nat)
  | "-n" :: count :: _ =>
    match readNumeral? UInt64.size count with
    | some n => .ok (some n)
    | none => .error (.invalidArgument ("invalid number of lines: '" ++ count ++ "'"))
  | _ => .ok none

def journalctl : Command where
  name := "journalctl"
  usage := "journalctl [-n lines]"
  description := "View system logs"
  category := .systemControl
  action := .report fun s arguments => do
    let limit ← logLimit arguments
    match s.tree.read "/var/log/syslog" with
    | .error _ => return .text "No journal files were found."
    | .ok log =>
      let entries := lines log
      let now ← s.clock.now
      return .text (unlines (("-- Logs begin at " ++ now.dateText ++ " --") ::
        entries.drop (entries.length - limit.getD entries.length)))

/-- The commands of this module. -/
def machineCommands : List Command :=
  [ps, top, kill, df, free, uname, uptime, lscpu, lsblk, mount, neofetch, systemctl, journalctl]

end Userland.Command
