/-
  Failures that change nothing.

  A command checks before it changes, so that when it fails the scene is the one from before.  Seven
  commands are apart, since they work operand by operand and keep what succeeded before the failure
  (`operandCommands`).  Their failures are answers to the user: what a step on one operand can meet
  is a plain fault, and the clock, which can fail the machine itself, is read before the first
  operand.

  So a line that failed left everything as it was if its command is none of the seven, and also
  if the machine itself failed (`Atomic`).  The step is one action of the table
  (`action_atomic`), the run is the dispatch with any number of `sudo` before it
  (`dispatch_atomic`): the user that `sudo` puts aside is the user that it gives back.

  That an action of the table fails as a whole is what its kind says.  That the machine, which works
  in place, does so too is the equality of the two (`executeInPlace_eq`).
-/
import Userland.Proofs.Command.InPlace
import Userland.Proofs.Command.Operands

namespace Userland

/-- The commands that work operand by operand. -/
def operandCommands : List String :=
  ["mkdir", "touch", "rm", "chmod", "chown", "export", "unalias"]

/-- A failure left the scene as it was, if it is one of the machine, and if `whole` holds. -/
def Atomic {α ε : Type} (isAnswer : ε → Bool) (whole : Prop) (s : Scene)
    (result : Except ε α × Scene) : Prop :=
  ∀ failure, result.1 = .error failure → isAnswer failure = false ∨ whole → result.2 = s

namespace Atomic

variable {α ε : Type} {isAnswer : ε → Bool} {whole : Prop} {s : Scene}
  {result : Except ε α × Scene}

theorem of_same (h : ∀ failure, result.1 = .error failure → result.2 = s) :
    Atomic isAnswer whole s result :=
  fun failure hfailure _ => h failure hfailure

/-- It is enough that only answers fail, where nothing is promised for them. -/
theorem of_answer (h : ∀ failure, result.1 = .error failure → isAnswer failure = true)
    (hwhole : ¬ whole) : Atomic isAnswer whole s result := by
  rintro failure hfailure (hmachine | hholds)
  · rw [h failure hfailure] at hmachine
    cases hmachine
  · exact absurd hholds hwhole

theorem mono {whole' : Prop} (h : Atomic isAnswer whole s result) (himp : whole' → whole) :
    Atomic isAnswer whole' s result :=
  fun failure hfailure hexcuse => h failure hfailure (hexcuse.imp_right himp)

/-- A fault under the name of its command. -/
theorem named {result : Except Fault α × Scene} (h : Atomic Fault.isAnswer whole s result)
    (name : String) :
    Atomic (·.fault.isAnswer) whole s (result.1.mapError (Failure.mk name), result.2) := by
  obtain ⟨_ | fault, after⟩ := result
  · intro failure hfailure
    cases hfailure
    exact h _ rfl
  · exact .of_same fun _ hfailure => by cases hfailure

/-- What was done as root, given back to the user. -/
theorem asRoot (h : Atomic isAnswer whole { s with session.user := "root" } result) (f : α → α) :
    Atomic isAnswer whole s (result.1.map f, { result.2 with session.user := s.session.user }) := by
  obtain ⟨failure | output, after⟩ := result
  · intro failure' hfailure hexcuse
    cases hfailure
    have hsame : after = { s with session.user := "root" } := h failure rfl hexcuse
    rw [hsame]
  · exact .of_same fun _ hfailure => by cases hfailure

end Atomic

/-! ## Work operand by operand -/

namespace Batch

variable {command : String} {shown : Shown}

/-- What a batch complains of at its end is a plain fault. -/
theorem conclude_failsPlainly (h : Shown.Sound command shown) : FailsPlainly (conclude shown) := by
  obtain ⟨lines, fault⟩ := shown
  cases fault with
  | none =>
    rw [conclude_of_no_fault]
    exact .ok _
  | some fault =>
    obtain ⟨hplain, -⟩ := h fault rfl
    match lines with
    | [] => exact .ok _
    | [_] => exact .error hplain
    | _ :: _ :: _ => exact .ok _

/-- A batch whose steps fail plainly does so too. -/
theorem run_failsPlainly (command : String) {b : Batch} (hstep : Telling b.step) (t : Tree) :
    FailsPlainly (b.run command t).1 := by
  have hnothing : Shown.Sound command ⟨[], none⟩ := by
    intro fault hfault
    cases hfault
  obtain ⟨last, hrun, hsound⟩ := runFrom_inTurn hstep b.operands hnothing t
  rw [run, hrun]
  exact conclude_failsPlainly hsound

end Batch

namespace Command

variable (s : Scene) (arguments : List String)

/-- An assignment without an identifier is refused plainly. -/
theorem setVariables_failsPlainly (session : Session) :
    FailsPlainly (setVariables session arguments).1 := by
  induction arguments generalizing session with
  | nil => exact .ok _
  | cons argument rest ih =>
    rw [setVariables]
    split
    split
    · exact ih _
    · exact .error rfl

/-- An unknown alias is refused plainly. -/
theorem dropAliases_failsPlainly (session : Session) :
    FailsPlainly (dropAliases session arguments).1 := by
  induction arguments generalizing session with
  | nil => exact .ok _
  | cons name rest ih =>
    rw [dropAliases]
    split
    · exact ih _
    · exact .error rfl

/-- `export` fails on assignments only. -/
theorem exportVariables_failsPlainly : FailsPlainly (exportVariables s arguments).1 := by
  rw [exportVariables]
  split
  · exact .ok _
  · exact setVariables_failsPlainly arguments s.session

/-- `unalias` fails on unknown aliases, and without operands. -/
theorem unalias_failsPlainly : FailsPlainly (unalias s arguments).1 := by
  unfold unalias
  split
  · exact .error rfl
  · exact .ok _
  · exact dropAliases_failsPlainly arguments s.session

/-- `alias` changes the session only where it succeeds. -/
theorem defineAlias_ok_or_same :
    (∃ output, (defineAlias s arguments).1 = .ok output) ∨
      (defineAlias s arguments).2 = s.session := by
  rw [defineAlias]
  extract_lets assignment
  split
  · exact .inr rfl
  split
  · exact .inr rfl
  · extract_lets name
    split
    · exact .inr rfl
    · exact .inl ⟨_, rfl⟩

theorem history_ok : ∃ output, (history s arguments).1 = .ok output := by
  rw [history]
  split
  · exact ⟨_, rfl⟩
  · exact ⟨_, rfl⟩

end Command

/-! ## Actions of the table -/

/-- Does the action work operand by operand? -/
def Action.isEachFile : Action → Bool
  | .eachFile .. => true
  | _ => false

section

variable (s : Scene) (arguments : List String) {whole : Prop}

/-- An action that works on the whole of its arguments, and not on the session. -/
theorem Action.run_atomic {a : Action} (hsession : a.kind ≠ .session)
    (heach : a.isEachFile = false) : Atomic Fault.isAnswer whole s (a.run s arguments) := by
  refine .of_same ?_
  cases a with
  | report run => exact fun _ _ => rfl
  | files run =>
    rw [Action.run]
    cases run s arguments with
    | ok result => exact fun _ h => by cases h
    | error fault => exact fun _ _ => rfl
  | eachFile command plan => cases heach
  | packages run =>
    rw [Action.run]
    cases run s arguments with
    | ok result => exact fun _ h => by cases h
    | error fault => exact fun _ _ => rfl
  | session run => exact absurd rfl hsession

variable {s arguments}

/-- An action that works operand by operand fails before the first of them, or with an answer. -/
theorem Action.eachFile_atomic {command : String} {plan : Scene → List String → Except Fault Batch}
    (hplan : ∀ batch, plan s arguments = .ok batch → Batch.Telling batch.step) (hwhole : ¬ whole) :
    Atomic Fault.isAnswer whole s ((Action.eachFile command plan).run s arguments) := by
  rw [Action.run]
  cases hbatch : plan s arguments with
  | error fault => exact .of_same fun _ _ => rfl
  | ok batch =>
    have hplain := Batch.run_failsPlainly command (hplan batch hbatch) s.tree
    exact .of_answer (fun fault hfault => Fault.isAnswer_of_isPlain (hplain fault hfault)) hwhole

/-- An action on the session that leaves it as it was when it fails. -/
theorem Action.session_atomic {run : Scene → List String → Except Fault Output × Session}
    (hrun : (∃ output, (run s arguments).1 = .ok output) ∨ (run s arguments).2 = s.session) :
    Atomic Fault.isAnswer whole s ((Action.session run).run s arguments) := by
  refine .of_same fun fault hfault => ?_
  have herror : (run s arguments).1 = .error fault := hfault
  rcases hrun with ⟨output, hok⟩ | hsame
  · rw [hok] at herror
    cases herror
  · show { s with session := (run s arguments).2 } = s
    rw [hsame]

/-- An action on the session that fails with an answer. -/
theorem Action.session_atomic_of_failsPlainly
    {run : Scene → List String → Except Fault Output × Session}
    (hrun : FailsPlainly (run s arguments).1) (hwhole : ¬ whole) :
    Atomic Fault.isAnswer whole s ((Action.session run).run s arguments) :=
  .of_answer (fun fault hfault => Fault.isAnswer_of_isPlain (hrun fault hfault)) hwhole

end

namespace Command

variable (s : Scene) (arguments : List String)

/-- These five go through operands, and no other command of the table. -/
theorem stock_isEachFile : stock.filter (·.action.isEachFile) = [mkdir, touch, rm, chmod, chown] :=
  rfl

/-- The five commands of the table that work operand by operand. -/
theorem eachFile_atomic {c : Command} (h : c ∈ [mkdir, touch, rm, chmod, chown]) :
    Atomic Fault.isAnswer (c.name ∉ operandCommands) s (c.action.run s arguments) := by
  obtain ⟨plan, haction, hsteps⟩ := OperandCommand.isStep_of_planned h
  have hlisted : ∀ c ∈ [mkdir, touch, rm, chmod, chown], c.name ∈ operandCommands := by decide
  rw [haction]
  exact Action.eachFile_atomic (fun batch hbatch => (hsteps s arguments batch hbatch).telling)
    fun hnot => hnot (hlisted c h)

/-- The three commands of the table that work on the session. -/
theorem session_atomic {c : Command} (h : c ∈ [cd, exit, logout]) :
    Atomic Fault.isAnswer (c.name ∉ operandCommands) s (c.action.run s arguments) := by
  simp only [List.mem_cons, List.not_mem_nil, or_false] at h
  rcases h with rfl | rfl | rfl
  · refine Action.session_atomic ?_
    cases changeDirectory s arguments with
    | ok result => exact .inl ⟨result.1, rfl⟩
    | error fault => exact .inr rfl
  · exact .of_same fun _ h => by cases h
  · exact .of_same fun _ h => by cases h

/-- Only a command on operands may leave something behind when it fails, and then with an answer. -/
theorem run_atomic {c : Command} (h : c ∈ stock) :
    Atomic Fault.isAnswer (c.name ∉ operandCommands) s (c.action.run s arguments) := by
  by_cases hsession : c.action.kind = .session
  · refine session_atomic s arguments ?_
    rw [← stock_session]
    exact List.mem_filter.mpr ⟨h, decide_eq_true hsession⟩
  cases heach : c.action.isEachFile with
  | true =>
    refine eachFile_atomic s arguments ?_
    rw [← stock_isEachFile]
    exact List.mem_filter.mpr ⟨h, heach⟩
  | false => exact Action.run_atomic s arguments hsession heach

end Command

/-! ## Words and lines -/

namespace CommandTable

variable (s : Scene)

/-- **The step.**  Whatever a word other than `sudo` stands for. -/
theorem action_atomic (name : String) (arguments : List String) :
    Atomic Fault.isAnswer (name ∉ operandCommands) s ((stock.action name).run s arguments) := by
  -- the seven commands of the shell itself in their order, then those of the table
  unfold action
  split
  · exact .of_same fun _ _ => rfl
  · exact .of_same fun _ _ => rfl
  · exact Action.session_atomic (.inl (Command.history_ok s arguments))
  · exact .of_same fun _ _ => rfl
  · exact Action.session_atomic_of_failsPlainly
      (Command.exportVariables_failsPlainly s arguments) (by decide)
  · exact Action.session_atomic (Command.defineAlias_ok_or_same s arguments)
  · exact Action.session_atomic_of_failsPlainly
      (Command.unalias_failsPlainly s arguments) (by decide)
  · split
    · next command hget =>
      obtain ⟨hmem, rfl⟩ := mem_of_get?_stock hget
      exact Command.run_atomic s arguments hmem
    · exact .of_same fun _ _ => rfl

/-- **The run.**  Words with any number of `sudo` before the command. -/
theorem dispatch_atomic (words : List String) :
    Atomic (·.fault.isAnswer) (∀ name ∈ operandCommands, commandOf? words ≠ some name) s
      (stock.dispatch words s) := by
  -- on the words, and for every scene: `sudo` hands the rest of them on under another user
  induction words generalizing s with
  | nil => exact .of_same fun _ h => by cases h
  | cons name rest ih =>
    rw [dispatch]
    split
    · next hsudo =>
      split
      · exact .of_same fun _ _ => rfl
      · rw [hsudo, commandOf?_sudo]
        exact (ih { s with session.user := "root" }).asRoot (afterPassword s.session.user)
    · next hsudo =>
      rw [commandOf?_of_ne hsudo]
      refine ((action_atomic s name rest).named name).mono ?_
      exact fun hnone hmem => hnone name hmem rfl

/-- The command that counts is the one behind aliases and `sudo`. -/
theorem execute_atomic (line : String) :
    Atomic (·.fault.isAnswer) (∀ name ∈ operandCommands, commandWord? s.session line ≠ some name) s
      (stock.execute line s) := by
  rw [execute, commandWord?]
  cases Line.words (Line.expand s.session.environment line) with
  | ok words => exact dispatch_atomic s (s.session.expandAlias words)
  | error fault => exact .of_same fun _ _ => rfl

variable {s}

/-- A line done in place comes to what the table makes of it.  If it failed, and the failure is one
of the machine or the command of the line is none of those that work operand by operand, nothing has
changed: neither the tree nor the packages nor anything in the session. -/
theorem executeInPlace_failure (h : Tree.Reachable s.tree) (line : String) :
    executeInPlace line s = stock.execute line s ∧
      ∀ failure after, executeInPlace line s = (.error failure, after) →
        (failure.fault.isAnswer = false ∨
          ∀ name ∈ operandCommands, commandWord? s.session line ≠ some name) →
        after = s := by
  have hsame := executeInPlace_eq h.wellFormed line
  refine ⟨hsame, fun failure after hfailed hexcuse => ?_⟩
  rw [hsame] at hfailed
  have hatomic := execute_atomic s line failure (by rw [hfailed]) hexcuse
  rw [hfailed] at hatomic
  exact hatomic

/-- A scene on a machine whose clock has stopped. -/
def stoppedScene : Scene := { sampleScene with clock := .failing "no time" }

/-- Root cannot touch a file without a clock, and of two packages one is not known. -/
theorem sample_executeInPlace_failure :
    let touched := executeInPlace "sudo touch /src/d/x /new" stoppedScene
    let installed := executeInPlace "apt install htop nosuch" stoppedScene
    Tree.Reachable stoppedScene.tree ∧
      touched.1 = .error ⟨"touch", .badConfig "no time"⟩ ∧ touched.2 = stoppedScene ∧
      installed.1 = .error ⟨"apt", .unknownPackage "nosuch"⟩ ∧ installed.2 = stoppedScene := by
  have htouch : (executeInPlace "sudo touch /src/d/x /new" stoppedScene).1 =
      .error ⟨"touch", .badConfig "no time"⟩ := by decide +kernel
  have hinstall : (executeInPlace "apt install htop nosuch" stoppedScene).1 =
      .error ⟨"apt", .unknownPackage "nosuch"⟩ := by decide +kernel
  have hword : commandWord? stoppedScene.session "apt install htop nosuch" = some "apt" := by
    decide +kernel
  refine ⟨Tree.reachable_sample, htouch, ?_, hinstall, ?_⟩
  · exact (executeInPlace_failure Tree.reachable_sample "sudo touch /src/d/x /new").2 _ _
      (Prod.ext htouch rfl) (.inl rfl)
  · refine (executeInPlace_failure Tree.reachable_sample "apt install htop nosuch").2 _ _
      (Prod.ext hinstall rfl) (.inr ?_)
    rw [hword]
    decide

end CommandTable

end Userland
