/-
  The command line: a terminal on the host's standard input and output.

  The configuration file is the first argument, or else what the environment names; without one,
  and with one that cannot be used, the stock configuration holds.
-/
import Userland.Terminal
import Std.Time.DateTime.Timestamp

namespace Userland.Main

/-- The variable of the host that may name a configuration file. -/
def configVariable : String := "USERLAND_CONFIG"

/-- The configuration that the host asks for. -/
def loadConfig (arguments : List String) : IO Config := do
  let named ← IO.getEnv configVariable
  match arguments.head?.or named with
  | none => return {}
  | some path =>
    try
      let source ← IO.FS.readFile path
      return (Config.ofToml source).toOption.getD {}
    catch _ => return {}

/-- The clock of the host; the machine was started at a given reading of its stopwatch. -/
def hostClock (started : Nat) : IO Clock := do
  let now ← Std.Time.Timestamp.now
  let stopwatch ← IO.monoMsNow
  return .showing (.ofUnixSeconds now.toSecondsSinceUnixEpoch.toInt.toNat)
    ((stopwatch - started) / 1000)

/-- Writes a text so that it is seen at once. -/
def say (text : String) : IO Unit := do
  let out ← IO.getStdout
  out.putStr text
  out.flush

/-- A line as it was read, without its terminator. -/
def withoutTerminator (line : String) : String :=
  ((Text.lines line).head?).getD ""

/-- Prompts for lines and answers them. -/
partial def converse (started : Nat) (t : Terminal) : IO Unit := do
  say t.prompt
  let line ← (← IO.getStdin).getLine
  if line = "" then say Terminal.farewell
  else
    let clock ← hostClock started
    let (text, after) := { t with machine.clock := clock }.answer (withoutTerminator line)
    say text
    unless after.isOver do converse started after

end Userland.Main

open Userland Userland.Main in
/-- Runs a terminal until its session is over; the exit code tells whether it could be started. -/
def main (arguments : List String) : IO UInt32 := do
  let started ← IO.monoMsNow
  let c ← loadConfig arguments
  match Terminal.start c (← hostClock started) with
  | .error fault =>
    IO.eprintln ("Error: " ++ fault.message)
    return 1
  | .ok t =>
    say t.greeting
    converse started t
    return 0
