/-
  A command on many operands is the same command on each of them in turn.

  `mkdir`, `touch`, `rm`, `chmod` and `chown` take operands after their options, their mode or their
  owner (`OperandCommand`).  One run on all the operands leaves the scene that runs on the operands
  one by one leave, and shows the lines that these show (`dispatch_oneByOne`).  An earlier operand
  may make, change or remove what a later one names; this is no trouble, since in both ways of
  running them an operand meets the tree that the ones before it left.

  Three facts carry the proof: what stands before the operands is read apart from them
  (`Options.read_append`), the step for an operand looks at the session and not at the tree of the
  scene (`OperandCommand.step`), and a batch shows its operands in turn (`Batch.run_inTurn`).
-/
import Userland.Command.Stock
import Userland.Proofs.Command.Batch
import Userland.Proofs.Scene

namespace Userland

/-! ## Options before operands -/

/-- Does an argument give options?  Dashes alone do not. -/
def givesOptions (argument : String) : Bool :=
  isOption argument && argument ≠ "-" && argument ≠ "--"

/-- Arguments that give options. -/
abbrev Flags : Type := { arguments : List String // ∀ a ∈ arguments, givesOptions a = true }

namespace Options

variable {arguments operands : List String}

/-- An argument that gives options adds no operand. -/
theorem add_option {argument : String} (h : givesOptions argument = true) (o : Options) :
    argument ≠ "--" ∧ (o.add argument).operands = o.operands := by
  simp only [givesOptions, isOption, Bool.and_eq_true, decide_eq_true_eq] at h
  obtain ⟨⟨hdash, hone⟩, htwo⟩ := h
  refine ⟨htwo, ?_⟩
  have hoption : ¬ (argument = "-" ∨ (!Text.startsWith '-' argument) = true) := by
    simp [hone, hdash]
  rw [add, if_neg hoption]
  split <;> rfl

/-- An argument that is no option is one more operand, and changes no option. -/
theorem add_operand {argument : String} (h : isOption argument = false) (o : Options) :
    argument ≠ "--" ∧ o.add argument = { o with operands := o.operands ++ [argument] } := by
  refine ⟨?_, ?_⟩
  · rintro rfl
    cases h
  · have hoperand : argument = "-" ∨ (!Text.startsWith '-' argument) = true := by
      rw [isOption] at h
      exact .inr (by rw [h]; rfl)
    rw [add, if_pos hoperand]

/-- Operands are taken over as they are. -/
theorem readFrom_operands (h : ∀ a ∈ operands, isOption a = false) (o : Options) :
    readFrom o operands = { o with operands := o.operands ++ operands } := by
  induction operands generalizing o with
  | nil => rw [readFrom, List.append_nil]
  | cons operand rest ih =>
    obtain ⟨hdashes, hadd⟩ := add_operand (h operand List.mem_cons_self) o
    rw [readFrom, if_neg hdashes, hadd, ih fun a ha => h a (List.mem_cons_of_mem _ ha)]
    simp only [List.append_assoc, List.singleton_append]

/-- Operands after options are the operands, and the options are read as if they stood alone. -/
theorem readFrom_append (harguments : ∀ a ∈ arguments, givesOptions a = true)
    (hoperands : ∀ a ∈ operands, isOption a = false) (o : Options) :
    readFrom o (arguments ++ operands) =
      { readFrom o arguments with operands := o.operands ++ operands } := by
  induction arguments generalizing o with
  | nil => exact readFrom_operands hoperands o
  | cons argument rest ih =>
    obtain ⟨hdashes, hadd⟩ := add_option (harguments argument List.mem_cons_self) o
    rw [List.cons_append, readFrom, readFrom, if_neg hdashes, if_neg hdashes,
      ih fun a ha => harguments a (List.mem_cons_of_mem _ ha), hadd]

theorem read_append (flags : Flags) (h : ∀ a ∈ operands, isOption a = false) :
    read (flags.1 ++ operands) = { read flags.1 with operands := operands } :=
  readFrom_append flags.2 h none

end Options

/-! ## Runs one by one -/

/-- Runs the words with one operand after the other: the texts that are shown, and the scene after
the last run. -/
def CommandTable.oneByOne (table : CommandTable) (words : List String) :
    List String → Scene → List String × Scene
  | [], s => ([], s)
  | operand :: rest, s =>
    let (result, after) := table.dispatch (words ++ [operand]) s
    let (texts, final) := table.oneByOne words rest after
    (shownText result :: texts, final)

/-! ## The commands -/

/-- A command that works through operands, with what it is given before them. -/
inductive OperandCommand where
  | mkdir (flags : Flags)
  | touch
  | rm (flags : Flags)
  | chmod (mode : String)
  | chown (spec : String)

/-- The fault of a failure. -/
def fault? {α : Type} : Except Fault α → Option Fault
  | .ok _ => none
  | .error fault => some fault

namespace OperandCommand

open Command

def name : OperandCommand → String
  | mkdir _ => "mkdir"
  | touch => "touch"
  | rm _ => "rm"
  | chmod _ => "chmod"
  | chown _ => "chown"

/-- The arguments before the operands. -/
def given : OperandCommand → List String
  | mkdir flags | rm flags => flags.1
  | touch => []
  | chmod mode => [mode]
  | chown spec => [spec]

/-- The words before the operands. -/
def words (c : OperandCommand) : List String := c.name :: c.given

/-- The complaint about a mode that is none, or about an owner that is none. -/
def refusal? : OperandCommand → Option Fault
  | chmod mode => fault? (Mode.change mode 0)
  | chown spec => fault? (ownerAndGroup spec)
  | _ => none

/-- What is done for one operand. -/
def step (c : OperandCommand) (s : Scene) (now : Timestamp) : Batch.Step :=
  match c with
  | mkdir flags => makeDirectory s now ((Options.read flags.1).has 'p')
  | touch => touchFile s now
  | rm flags => removeNode s ((Options.read flags.1).has 'f')
      ((Options.read flags.1).has 'r' || (Options.read flags.1).has 'R')
  | chmod mode => changeNode s (·.setPermissions · mode) fun operand =>
      "chmod: changed permissions of '" ++ operand ++ "' to " ++ mode
  | chown spec => fun t operand => do
      let (owner, group) ← ownerAndGroup spec
      changeNode s (·.setOwner · owner group) (fun operand =>
        "chown: changed ownership of '" ++ operand ++ "' to " ++ spec) t operand

variable {c : OperandCommand} {s : Scene} {now : Timestamp} {operands : List String}

/-- The tree of the scene makes no difference to the step; the tree that is worked on does. -/
theorem step_withTree (t : Tree) : c.step { s with tree := t } now = c.step s now := by
  have hresolve : ({ s with tree := t } : Scene).resolve = s.resolve := rfl
  cases c with
  | rm flags =>
    unfold step removeNode
    rw [hresolve]
  | _ => rfl

/-! ## The steps fail plainly and tell what they do -/

variable (t : Tree) (operand : String)

theorem makeDirectory_tells (parents : Bool) :
    Batch.Tells (makeDirectory s now parents t operand) := by
  rw [makeDirectory]
  extract_lets path
  split
  · exact .error rfl
  split
  · exact .bind (t.createDirectories_failsPlainly _ _ _) fun t' => .silent t'
  split
  · exact .error rfl
  split
  · exact .error rfl
  · exact .bind (t.createDirectory_failsPlainly _ _ _ _) fun t' => .silent t'

theorem touchFile_tells : Batch.Tells (touchFile s now t operand) := by
  rw [touchFile]
  extract_lets path
  split
  · exact .error rfl
  split
  · exact .bind (t.touch_failsPlainly _ _) fun t' => .silent t'
  split
  · exact .bind (t.createFile_failsPlainly _ _ _ _) fun t' => .silent t'
  · exact .error rfl

/-- What is removed is told of; with `force` what is missing is passed over without a word. -/
theorem removeNode_tells (force recursive : Bool) :
    Batch.Tells (removeNode s force recursive t operand) := by
  -- rewriting with the equation of the definition would have Lean evaluate the removal
  unfold removeNode
  extract_lets path
  split
  · split
    · exact .silent t
    · exact .error rfl
  · split
    · exact .error rfl
    · cases hremove : t.remove path recursive with
      | error fault => exact .error (t.remove_failsPlainly _ recursive fault hremove)
      | ok removed => exact .line (by simp) removed.2

/-- A change tells of itself, if it has something to tell, and fails plainly if the call does. -/
theorem changeNode_tells {change : Tree → String → Except Fault Tree} {done : String → String}
    (hchange : ∀ t path, FailsPlainly (change t path)) (hdone : done operand ≠ "") :
    Batch.Tells (changeNode s change done t operand) := by
  rw [changeNode]
  split
  · exact .error rfl
  · exact .bind (hchange t _) fun t' => .line hdone t'

theorem ownerAndGroup_failsPlainly (spec : String) : FailsPlainly (ownerAndGroup spec) := by
  rw [ownerAndGroup]
  split
  split
  · exact .error rfl
  · exact .ok _

/-- The steps of the five commands, each with all that it may have been told before the operands. -/
inductive IsStep (s : Scene) : Batch.Step → Prop
  | makeDirectory (now : Timestamp) (parents : Bool) : IsStep s (makeDirectory s now parents)
  | touchFile (now : Timestamp) : IsStep s (touchFile s now)
  | removeNode (force recursive : Bool) : IsStep s (removeNode s force recursive)
  | changeMode (mode : String) :
      IsStep s (changeNode s (·.setPermissions · mode) fun operand =>
        "chmod: changed permissions of '" ++ operand ++ "' to " ++ mode)
  | changeOwner (spec owner : String) (group : Option String) :
      IsStep s (changeNode s (·.setOwner · owner group) fun operand =>
        "chown: changed ownership of '" ++ operand ++ "' to " ++ spec)

/-- Whatever a step was told, it fails plainly, and its lines show. -/
theorem IsStep.telling {step : Batch.Step} (h : IsStep s step) : Batch.Telling step := by
  intro t operand
  cases h with
  | makeDirectory now parents => exact makeDirectory_tells t operand parents
  | touchFile now => exact touchFile_tells t operand
  | removeNode force recursive => exact removeNode_tells t operand force recursive
  | changeMode mode =>
    have hdone : "chmod: changed permissions of '" ++ operand ++ "' to " ++ mode ≠ "" := by simp
    exact changeNode_tells t operand (fun t path => t.setPermissions_failsPlainly path mode) hdone
  | changeOwner spec owner group =>
    have hdone : "chown: changed ownership of '" ++ operand ++ "' to " ++ spec ≠ "" := by simp
    exact changeNode_tells t operand
      (fun t path => t.setOwner_failsPlainly path owner group) hdone

/-- Whatever the arguments of such a command are, it is refused or takes one of the steps. -/
theorem isStep_of_planned {command : Command}
    (h : command ∈ [Command.mkdir, Command.touch, Command.rm, Command.chmod, Command.chown]) :
    ∃ plan, command.action = .eachFile command.name plan ∧
      ∀ s arguments batch, plan s arguments = .ok batch → IsStep s batch.step := by
  simp only [List.mem_cons, List.not_mem_nil, or_false] at h
  -- in each case the step is that of the plan, whatever it has read from the arguments
  rcases h with rfl | rfl | rfl | rfl | rfl
  · refine ⟨_, rfl, fun s arguments batch hbatch => ?_⟩
    extract_lets o at hbatch
    split at hbatch
    · cases hbatch
    obtain ⟨now, -, hdone⟩ := bind_eq_ok_iff.mp hbatch
    cases hdone
    exact .makeDirectory now _
  · refine ⟨_, rfl, fun s arguments batch hbatch => ?_⟩
    split at hbatch
    · cases hbatch
    obtain ⟨now, -, hdone⟩ := bind_eq_ok_iff.mp hbatch
    cases hdone
    exact .touchFile now
  · refine ⟨_, rfl, fun s arguments batch hbatch => ?_⟩
    extract_lets o at hbatch
    split at hbatch
    · cases hbatch
    cases hbatch
    dsimp only
    exact .removeNode _ _
  · refine ⟨_, rfl, fun s arguments batch hbatch => ?_⟩
    obtain ⟨⟨mode, operands⟩, -, hchange⟩ := bind_eq_ok_iff.mp hbatch
    simp only at hchange
    obtain ⟨bits, -, hdone⟩ := bind_eq_ok_iff.mp hchange
    cases hdone
    dsimp only
    exact .changeMode mode
  · refine ⟨_, rfl, fun s arguments batch hbatch => ?_⟩
    obtain ⟨⟨spec, operands⟩, -, hchange⟩ := bind_eq_ok_iff.mp hbatch
    simp only at hchange
    obtain ⟨⟨owner, group⟩, -, hdone⟩ := bind_eq_ok_iff.mp hchange
    cases hdone
    dsimp only
    exact .changeOwner spec owner group

/-- The step of each of the five commands fails plainly and shows its lines. -/
theorem step_telling (c : OperandCommand) : Batch.Telling (c.step s now) := by
  intro t operand
  cases c with
  | mkdir flags => exact (IsStep.makeDirectory now _).telling t operand
  | touch => exact (IsStep.touchFile now).telling t operand
  -- in the next two, with the step out of sight Lean would evaluate the call that it makes
  | rm flags =>
    rw [step]
    exact (IsStep.removeNode _ _).telling t operand
  | chmod mode =>
    rw [step]
    exact (IsStep.changeMode mode).telling t operand
  | chown spec =>
    refine .bind (ownerAndGroup_failsPlainly spec) fun (owner, group) => ?_
    exact (IsStep.changeOwner spec owner group).telling t operand

/-! ## The dispatch -/

/-- The work of the command: the operands with the step for each, unless it is refused. -/
theorem planned (c : OperandCommand) :
    ∃ plan, CommandTable.stock.action c.name = .eachFile c.name plan ∧
      ∀ s now operand rest, s.clock.now = .ok now →
        (∀ o ∈ operand :: rest, isOption o = false) →
        plan s (c.given ++ operand :: rest) =
          match c.refusal? with
          | some fault => .error fault
          | none => .ok ⟨operand :: rest, c.step s now⟩ := by
  -- in each case the plan is the one that the table has for the name
  cases c with
  | mkdir flags =>
    refine ⟨_, rfl, fun s now operand rest hclock hplain => ?_⟩
    rw [given, Options.read_append flags hplain, hclock]
    rfl
  | touch =>
    refine ⟨_, rfl, fun s now operand rest hclock hplain => ?_⟩
    rw [given, List.nil_append, hclock]
    rfl
  | rm flags =>
    refine ⟨_, rfl, fun s now operand rest hclock hplain => ?_⟩
    rw [given, Options.read_append flags hplain]
    rfl
  | chmod mode =>
    refine ⟨_, rfl, fun s now operand rest hclock hplain => ?_⟩
    have hfirst : firstAndOperands ((chmod mode).given ++ operand :: rest) =
        .ok (mode, operand :: rest) := rfl
    simp only [hfirst, refusal?, bind, Except.bind]
    cases Mode.change mode 0 <;> rfl
  | chown spec =>
    refine ⟨_, rfl, fun s now operand rest hclock hplain => ?_⟩
    have hfirst : firstAndOperands ((chown spec).given ++ operand :: rest) =
        .ok (spec, operand :: rest) := rfl
    simp only [hfirst, refusal?, step, bind, Except.bind]
    cases ownerAndGroup spec <;> rfl

/-- The command on some operands: what it answers, and the scene after it. -/
theorem dispatch_words (c : OperandCommand) (hclock : s.clock.now = .ok now)
    (hsome : operands ≠ []) (hplain : ∀ o ∈ operands, isOption o = false) :
    CommandTable.stock.dispatch (c.words ++ operands) s =
      match c.refusal? with
      | some fault => (.error ⟨c.name, fault⟩, s)
      | none =>
        let (result, t) := Batch.run c.name ⟨operands, c.step s now⟩ s.tree
        (result.mapError (⟨c.name, ·⟩), { s with tree := t }) := by
  obtain ⟨operand, rest, rfl⟩ := List.exists_cons_of_ne_nil hsome
  obtain ⟨plan, haction, hplan⟩ := c.planned
  have hname : c.name ≠ "sudo" := by cases c <;> simp [name]
  rw [words, List.cons_append, CommandTable.dispatch, if_neg hname, haction, Action.run,
    hplan s now operand rest hclock hplain]
  cases c.refusal? <;> rfl

/-! ## Together and one by one -/

/-- A single run shows the line of its operand, or nothing. -/
theorem shownText_single (command : String) {step : Batch.Step} (hstep : Batch.Telling step)
    (operand : String) (t : Tree) :
    let run := Batch.run command ⟨[operand], step⟩ t
    [shownText (run.1.mapError (⟨command, ·⟩))].filter (· ≠ "") =
        (Batch.line? command (step t operand)).toList ∧
      run.2 = Batch.treeAfter t (step t operand) := by
  intro run
  obtain ⟨htext, htree⟩ := Batch.run_inTurn command hstep [operand] t
  refine ⟨?_, htree⟩
  rw [htext]
  simp only [Batch.inTurn, List.append_nil]
  cases hline : Batch.line? command (step t operand) with
  | none => rfl
  | some line =>
    have hshows : line ≠ "" := (hstep t operand).shows hline
    rw [Option.toList_some, Text.unlines_singleton]
    exact List.filter_eq_self.mpr (by simpa using hshows)

/-- The runs one by one do what a batch does for its operands in turn. -/
theorem oneByOne_inTurn (c : OperandCommand) (hclock : s.clock.now = .ok now)
    (haccepts : c.refusal? = none) (hplain : ∀ o ∈ operands, isOption o = false) (t : Tree) :
    let apart := CommandTable.stock.oneByOne c.words operands { s with tree := t }
    let turns := Batch.inTurn c.name (c.step s now) operands t
    apart.1.filter (· ≠ "") = turns.1 ∧ apart.2 = { s with tree := turns.2 } := by
  -- on the operands, and for every tree: the rest of them meet the one that the first run leaves
  induction operands generalizing t with
  | nil => exact ⟨rfl, rfl⟩
  | cons operand rest ih =>
    have hsingle : ∀ o ∈ [operand], isOption o = false := by
      intro o ho
      exact hplain o (List.mem_cons.mpr (.inl (List.mem_singleton.mp ho)))
    have hrun := c.dispatch_words (s := { s with tree := t }) hclock
      (List.cons_ne_nil operand []) hsingle
    simp only [haccepts, step_withTree] at hrun
    have hstep : Batch.Telling (c.step s now) := c.step_telling
    obtain ⟨htext, htree⟩ := shownText_single c.name hstep operand t
    obtain ⟨htexts, hscene⟩ := ih (fun o ho => hplain o (List.mem_cons_of_mem _ ho))
      (Batch.treeAfter t (c.step s now t operand))
    simp only [CommandTable.oneByOne, Batch.inTurn, hrun, htree]
    refine ⟨?_, hscene⟩
    rw [← htext, ← htexts, ← List.filter_append, List.singleton_append]

/-- One run on all the operands leaves the scene of the runs one by one, and shows their texts that
are not empty.  A mode or an owner that is none is refused once, and nothing changes. -/
theorem dispatch_oneByOne (c : OperandCommand) (hclock : s.clock.now = .ok now)
    (hsome : operands ≠ []) (hplain : ∀ o ∈ operands, isOption o = false) :
    let together := CommandTable.stock.dispatch (c.words ++ operands) s
    let apart := CommandTable.stock.oneByOne c.words operands s
    match c.refusal? with
    | some fault => together = (.error ⟨c.name, fault⟩, s)
    | none => together.2 = apart.2 ∧
        shownText together.1 = Text.unlines (apart.1.filter (· ≠ "")) := by
  intro together apart
  have hrun := c.dispatch_words hclock hsome hplain
  cases hrefusal : c.refusal? with
  | some fault =>
    rw [hrefusal] at hrun
    exact hrun
  | none =>
    simp only [hrefusal] at hrun
    -- both are what the operands have to say in turn
    have hstep : Batch.Telling (c.step s now) := c.step_telling
    obtain ⟨htext, htree⟩ := Batch.run_inTurn c.name hstep operands s.tree
    obtain ⟨htexts, hscene⟩ := c.oneByOne_inTurn hclock hrefusal hplain s.tree
    refine ⟨?_, ?_⟩
    · simp only [together, hrun, htree]
      exact hscene.symm
    · simp only [together, hrun, htext]
      rw [htexts]

/-- `rm -r -f`. -/
def sampleRemoval : OperandCommand := .rm ⟨["-r", "-f"], by decide⟩

/-- `/src/d` is removed, so that there is no `/src/d/x` after it; `/nowhere` was never there. -/
theorem sample_dispatch_oneByOne :
    let operands := ["/src/d", "/src/d/x", "/nowhere", "/dst"]
    let together := CommandTable.stock.dispatch (sampleRemoval.words ++ operands) sampleScene
    let apart := CommandTable.stock.oneByOne sampleRemoval.words operands sampleScene
    sampleScene.clock.now = .ok Tree.noon ∧ operands ≠ [] ∧
      (∀ o ∈ operands, isOption o = false) ∧
      together.2 = apart.2 ∧
      shownText together.1 = Text.unlines (apart.1.filter (· ≠ "")) :=
  ⟨rfl, by decide, by decide,
    sampleRemoval.dispatch_oneByOne rfl (by decide) (by decide)⟩

end OperandCommand

end Userland
