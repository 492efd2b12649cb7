/-
  Options and operands among the arguments of a command.

  An argument that begins with a dash gives options: one per character after a single dash, one in
  words after two, without what follows an equals sign.  A single dash is an operand, and two dashes
  make everything after them operands.
-/
import Userland.Text.Lines

namespace Userland

/-- The arguments of a command, sorted out. -/
structure Options where
  short : List Char
  long : List String
  operands : List String
  deriving DecidableEq, Repr

namespace Options

open Text

/-- No arguments. -/
def none : Options := ⟨[], [], []⟩

/-- Sorts out one argument before two dashes. -/
def add (o : Options) (argument : String) : Options :=
  if argument = "-" ∨ !startsWith '-' argument then
    { o with operands := o.operands ++ [argument] }
  else match after? "--" argument with
    | some long => { o with long := o.long ++ [(cut? '=' long).elim long (·.1)] }
    | .none => { o with short := o.short ++ argument.toList.drop 1 }

/-- Sorts out arguments, after those that are sorted out already. -/
def readFrom (o : Options) : List String → Options
  | [] => o
  | argument :: rest =>
    if argument = "--" then { o with operands := o.operands ++ rest }
    else readFrom (o.add argument) rest

/-- Sorts out the arguments of a command. -/
def read (arguments : List String) : Options := readFrom none arguments

/-- Is an option given by its letter? -/
def has (o : Options) (c : Char) : Bool := o.short.contains c

/-- Is an option given in words? -/
def hasLong (o : Options) (name : String) : Bool := o.long.contains name

example : read ["-la", "--color=auto", "x", "--", "-y"] = ⟨['l', 'a'], ["color"], ["x", "-y"]⟩ := by
  decide

end Options

/-- Does an argument look like an option? -/
def isOption (argument : String) : Bool := Text.startsWith '-' argument

/-- The first argument that is not an option. -/
def firstOperand? (arguments : List String) : Option String :=
  arguments.find? fun a => !isOption a

end Userland
