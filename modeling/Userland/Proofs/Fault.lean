/-
  Steps that may fail, and how the faults of work on files are worded.

  1. *Program.*  Every operation on a tree is a sequence of steps that may fail, and the first fault
     ends it.  The command that asked for it shows the fault to the user.

  2. *Specification.*  A failure is shown as the name of the command and the wording of its fault,
     unless the fault is a failure of the machine itself or has a wording of its own
     (`Fault.isPlain`).  Work on a tree never meets one of these: each operation fails plainly or
     not at all (`FailsPlainly`).

  3. *The crux.*  The reason is the same for all operations, so that it is told once for a sequence
     of steps (`FailsPlainly.bind`) and the operations only name their own faults.  Which faults
     these are is said at each of them below.
-/
import Userland.Command.Basic

namespace Userland

/-! ## Sequences of steps -/

/-- A sequence of two steps succeeds when both do. -/
theorem bind_eq_ok_iff {α β : Type} {x : Except Fault α} {f : α → Except Fault β} {b : β} :
    x >>= f = .ok b ↔ ∃ a, x = .ok a ∧ f a = .ok b := by
  cases x with
  | error fault => simp [bind, Except.bind]
  | ok a => simp [bind, Except.bind]

/-! ## Plain faults -/

/-- Is the fault an answer that is shown under the name of the command, and nothing more? -/
def Fault.isPlain : Fault → Bool
  | .unknownCommand _ | .unknownPackage _ | .badConfig _ | .hostFailure _ | .malformed => false
  | _ => true

/-- A plain fault is an answer and no failure of the machine. -/
theorem Fault.isAnswer_of_isPlain {fault : Fault} (h : fault.isPlain = true) :
    fault.isAnswer = true := by
  cases fault <;> first | rfl | cases h

/-- Of a plain fault the user sees the name of the command and the wording. -/
theorem Failure.message_of_isPlain {command : String} {fault : Fault}
    (h : fault.isPlain = true) :
    Failure.message ⟨command, fault⟩ = command ++ ": " ++ fault.message := by
  cases fault <;> first | rfl | cases h

/-- If this fails, then with a plain fault. -/
def FailsPlainly {α : Type} (x : Except Fault α) : Prop :=
  ∀ fault, x = .error fault → fault.isPlain = true

namespace FailsPlainly

variable {α β : Type}

/-- What succeeds does not fail. -/
theorem ok (a : α) : FailsPlainly (.ok a) := by
  intro fault h
  cases h

/-- A failure is plain if its fault is. -/
theorem error {fault : Fault} (h : fault.isPlain = true) :
    FailsPlainly (.error fault : Except Fault α) := by
  intro fault' h'
  cases h'
  exact h

/-- A sequence fails plainly if its first step does, and the second on every result of it. -/
theorem bind {x : Except Fault α} {f : α → Except Fault β} (hx : FailsPlainly x)
    (hf : ∀ a, FailsPlainly (f a)) : FailsPlainly (x >>= f) := by
  cases x with
  | error fault => exact error (hx fault rfl)
  | ok a => exact hf a

end FailsPlainly

/-! ## Work on a tree -/

/-- A mode that cannot be read is refused plainly. -/
theorem Mode.change_failsPlainly (mode : String) (bits : Nat) :
    FailsPlainly (Mode.change mode bits) := by
  rw [Mode.change]
  split
  · exact .ok _
  · exact .error rfl

namespace Tree

open FailsPlainly

variable (t : Tree) (path parent name owner : String) (now : Timestamp)

/-- Nothing at the path. -/
theorem get_failsPlainly : FailsPlainly (t.get path) := by
  rw [get]
  split
  · exact ok _
  · exact error rfl

/-- Nothing at the path, or a file. -/
theorem list_failsPlainly : FailsPlainly (t.list path) := by
  rw [list]
  split
  · next fault hget => exact error (get_failsPlainly t path fault hget)
  · exact error rfl
  · exact ok _

/-- Not a name of an entry. -/
theorem checkName_failsPlainly : FailsPlainly (checkName name) := by
  rw [checkName]
  split
  · exact ok _
  · exact error rfl

/-- The name is checked first, and then the directory. -/
theorem insert_failsPlainly (node : Node) : FailsPlainly (t.insert parent name node) :=
  bind (checkName_failsPlainly name) fun _ => bind (list_failsPlainly t parent) fun _ => ok _

/-- Besides what `insert` refuses, a name that is taken. -/
theorem createDirectory_failsPlainly :
    FailsPlainly (t.createDirectory parent name owner now) := by
  refine bind (checkName_failsPlainly name) fun _ => bind (list_failsPlainly t parent) fun es => ?_
  split
  · exact error rfl
  · exact insert_failsPlainly t parent name _

/-- It is an `insert`, which may take the place of an entry. -/
theorem createFile_failsPlainly : FailsPlainly (t.createFile parent name owner now) :=
  insert_failsPlainly t parent name _

/-- Each level fails on a file in the way, and on nothing else. -/
theorem createDirectoriesFrom_failsPlainly (done rest : List String) :
    FailsPlainly (createDirectoriesFrom owner now done rest t) := by
  induction rest generalizing t done with
  | nil => exact ok _
  | cons name rest ih =>
    rw [createDirectoriesFrom]
    split
    · exact ih t _
    · exact error rfl
    · exact ih _ _

/-- All levels, from the root on. -/
theorem createDirectories_failsPlainly : FailsPlainly (t.createDirectories path owner now) :=
  createDirectoriesFrom_failsPlainly t owner now [] (place path)

/-- It fails only where nothing is. -/
theorem touch_failsPlainly : FailsPlainly (t.touch path now) :=
  bind (get_failsPlainly t path) fun _ => ok _

/-- The root, nothing at the path, and a directory that needs `recursive`. -/
theorem remove_failsPlainly (recursive : Bool) : FailsPlainly (t.remove path recursive) := by
  rw [remove]
  split
  · exact error rfl
  · split
    · exact error rfl
    · split
      · exact error rfl
      · exact ok _

/-- Nothing at the path, and a mode that cannot be read. -/
theorem setPermissions_failsPlainly (mode : String) : FailsPlainly (t.setPermissions path mode) :=
  bind (get_failsPlainly t path) fun _ => bind (Mode.change_failsPlainly mode _) fun _ => ok _

/-- It fails only where nothing is. -/
theorem setOwner_failsPlainly (group : Option String) :
    FailsPlainly (t.setOwner path owner group) :=
  bind (get_failsPlainly t path) fun _ => ok _

end Tree

end Userland
