/-
  The configuration of a machine.

  Everything has a stock value, and a TOML document replaces some of them; keys that are not known
  are passed over.  A group of settings may be written as a table, by name, or as an array, by
  position; a moment names none of them.  A configuration that a machine cannot run with is refused
  (`Config.problem?`).
-/
import Userland.Fault
import Userland.Toml.Document
import Userland.Text.Lines

namespace Userland

/-! ## The settings -/

/-- Memory figures, in MiB. -/
structure Memory where
  total : Nat := 8192
  used : Nat := 2048
  free : Nat := 6144
  deriving DecidableEq, Repr, Inhabited

structure Processor where
  cores : Nat := 4
  model : String := "Virtual CPU @ 2.4GHz"
  deriving DecidableEq, Repr, Inhabited

structure Network where
  interface : String := "eth0"
  ip : String := "192.168.1.100"
  deriving DecidableEq, Repr, Inhabited

/-- The hardware and the kernel. -/
structure System where
  kernel : String := "Linux Desktop Clone 5.15.0"
  architecture : String := "x86_64"
  memory : Memory := {}
  cpu : Processor := {}
  network : Network := {}
  deriving DecidableEq, Repr, Inhabited

structure Config where
  /-- The user who is logged in. -/
  user : String := "wisnu"
  hostname : String := "linux-clone"
  /-- The text that greets the user. -/
  banner : String := "Linux Desktop Clone Terminal v2.0\nCreated by Wisnu Hidayat"
  system : System := {}
  deriving DecidableEq, Repr, Inhabited

namespace Config

/-- The home directory of the user. -/
def home (c : Config) : String :=
  if c.user = "root" then "/root" else "/home/" ++ c.user

/-- Why a machine cannot run with the configuration. -/
def problem? (c : Config) : Option String :=
  if c.user = "" ∨ c.user = "." ∨ c.user = ".." ∨ '/' ∈ c.user.toList then
    some ("invalid user name: '" ++ c.user ++ "'")
  else if c.hostname = "" then some "hostname must not be empty"
  else if c.system.cpu.cores = 0 then some "cpu.cores must be at least 1"
  else none

end Config

/-! ## Reading the settings -/

namespace Settings

open Toml (Value)

/-- The settings of a group that a value gives: by name in a table, by position in an array. -/
def ofValue (names : List String) : Value → Option (Entries Value)
  | .table entries => some entries
  | .array items => some (names.zip items)
  | .moment _ => some []
  | _ => none

/-- A setting: its stock value if it is not given, and a refusal if it has the wrong type. -/
def get {α : Type} (given : Entries Value) (name : String) (read : Value → Option α) (stock : α) :
    Option α :=
  match Entries.get? given name with
  | none => some stock
  | some v => read v

def text : Value → Option String
  | .string s => some s
  | _ => none

/-- A number that is not negative and below a bound. -/
def number (bound : Nat) : Value → Option Nat
  | .integer n => if 0 ≤ n ∧ n < bound then some n.toNat else none
  | _ => none

def memory (v : Value) : Option Memory := do
  let given ← ofValue ["total", "used", "free"] v
  let stock : Memory := {}
  return {
    total := ← get given "total" (number UInt64.size) stock.total
    used := ← get given "used" (number UInt64.size) stock.used
    free := ← get given "free" (number UInt64.size) stock.free }

def processor (v : Value) : Option Processor := do
  let given ← ofValue ["cores", "model"] v
  let stock : Processor := {}
  return {
    cores := ← get given "cores" (number UInt32.size) stock.cores
    model := ← get given "model" text stock.model }

def network (v : Value) : Option Network := do
  let given ← ofValue ["interface", "ip"] v
  let stock : Network := {}
  return {
    interface := ← get given "interface" text stock.interface
    ip := ← get given "ip" text stock.ip }

def system (v : Value) : Option System := do
  let given ← ofValue ["kernel", "architecture", "memory", "cpu", "network"] v
  let stock : System := {}
  return {
    kernel := ← get given "kernel" text stock.kernel
    architecture := ← get given "architecture" text stock.architecture
    memory := ← get given "memory" memory stock.memory
    cpu := ← get given "cpu" processor stock.cpu
    network := ← get given "network" network stock.network }

def config (given : Entries Value) : Option Config := do
  let stock : Config := {}
  return {
    user := ← get given "user" text stock.user
    hostname := ← get given "hostname" text stock.hostname
    banner := ← get given "banner" text stock.banner
    system := ← get given "system" system stock.system }

end Settings

/-- The configuration that a TOML document describes. -/
def Config.ofToml (source : String) : Except Fault Config :=
  match (Toml.parse? source).bind Settings.config with
  | none => .error .malformed
  | some c =>
    match c.problem? with
    | some reason => .error (.badConfig reason)
    | none => .ok c

end Userland
