/-
  A terminal: one machine, one session, and what is written in answer to the lines that are typed.

  The terminal greets, then prompts for one line after the other, until the session is over or the
  lines are.  `dialogue` is all of that for lines that are known beforehand.
-/
import Userland.Machine

namespace Userland

structure Terminal where
  machine : Machine
  session : Session

namespace Terminal

open Text

/-- A terminal on a machine that has just been started. -/
def start (c : Config) (clock : Clock) : Except Fault Terminal :=
  (Machine.boot c clock).map fun machine => ⟨machine, machine.newSession⟩

/-- What is written first. -/
def greeting (t : Terminal) : String := t.machine.banner ++ "\n\n"

/-- What is written before a line is typed. -/
def prompt (t : Terminal) : String := t.machine.prompt t.session

/-- What is written for an output.  A cleared terminal greets again. -/
def shown (t : Terminal) : Output → String
  | .silent => ""
  | .clear => "\x1b[2J\x1b[H" ++ t.greeting
  | output => output.render ++ "\n"

/-- What is written in answer to a line, and the terminal after it. -/
def answer (t : Terminal) (line : String) : String × Terminal :=
  let (output, machine, session) := t.machine.execute line t.session
  let after : Terminal := ⟨machine, session⟩
  (after.shown output, after)

/-- Is the session over? -/
def isOver (t : Terminal) : Bool := t.session.loggedOut

/-- What is written when the lines end before the session does. -/
def farewell : String := "\n"

/-- Everything that is written after the greeting when some lines are typed. -/
def answers (t : Terminal) : List String → String
  | [] => t.prompt ++ farewell
  | line :: rest =>
    let (text, after) := t.answer line
    t.prompt ++ text ++ if after.isOver then "" else after.answers rest

/-- Everything that is written when some lines are typed. -/
def dialogue (t : Terminal) (typed : List String) : String := t.greeting ++ t.answers typed

end Terminal

end Userland
