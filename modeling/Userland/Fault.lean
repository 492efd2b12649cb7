/-
  What can go wrong, and how it is worded.

  A fault is a cause with what it is about; `Fault.message` is its wording.  Most faults are
  answers of a command to its user; a bad configuration, a failing host and a malformed
  configuration text are faults of the machine itself (`Fault.isAnswer`).
-/

namespace Userland

/-- A cause of failure. -/
inductive Fault where
  /-- Nothing is at that path. -/
  | notFound (what : String)
  /-- A directory of that name cannot be made, since something has the name. -/
  | alreadyExists (name : String)
  /-- A file was wanted and a directory is there. -/
  | isDirectory (what : String)
  /-- A directory was wanted and a file is there. -/
  | notDirectory (what : String)
  /-- The command was given nothing to work on. -/
  | missingOperand
  /-- The command was used in a way that it explains itself. -/
  | usage (explanation : String)
  /-- No command and no program has that name. -/
  | unknownCommand (name : String)
  /-- What was tried is not allowed here. -/
  | permissionDenied (action : String)
  /-- The catalog has no package of that name. -/
  | unknownPackage (name : String)
  /-- An argument that has no meaning, explained in full. -/
  | invalidArgument (explanation : String)
  /-- The machine cannot run with this configuration. -/
  | badConfig (reason : String)
  /-- The host failed to deliver a file. -/
  | hostFailure (reason : String)
  /-- The configuration text is not well formed, or a value has the wrong type. -/
  | malformed
  deriving DecidableEq, Repr

namespace Fault

/-- The wording of a fault. -/
def message : Fault → String
  | notFound what => what ++ ": No such file or directory"
  | alreadyExists name => "cannot create directory '" ++ name ++ "': File exists"
  | isDirectory what => what ++ ": Is a directory"
  | notDirectory what => what ++ ": Not a directory"
  | missingOperand => "missing operand"
  | usage explanation => explanation
  | unknownCommand name => name ++ ": command not found"
  | permissionDenied action => action ++ ": Permission denied"
  | unknownPackage name => "Unable to locate package " ++ name
  | invalidArgument explanation => explanation
  | badConfig reason => "config error: " ++ reason
  | hostFailure reason => "I/O error: " ++ reason
  | malformed => "TOML parse error: malformed document"

/-- Is the fault a command's answer to its user, rather than a failure of the machine? -/
def isAnswer : Fault → Bool
  | badConfig _ | hostFailure _ | malformed => false
  | _ => true

end Fault

end Userland
