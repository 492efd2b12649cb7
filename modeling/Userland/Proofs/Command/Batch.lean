/-
  A batch is its operands in turn.

  While a batch runs it gathers lines, and remembers the last fault; at the end a fault that has the
  only line is the command's own.  To a reader of the terminal none of this shows: what is shown is
  the lines, one under the other (`shownText_conclude`), since the failure of the command is worded
  as the line would have been.  The crux is the invariant of the run, `Shown.Sound`: the remembered
  fault has its line among the lines.  With it a run is read off its operands one by one
  (`run_inTurn`).

  All this is for steps whose lines show and whose faults are plain (`Telling`).
-/
import Userland.Proofs.Fault
import Userland.CommandTable
import Userland.Proofs.Text

namespace Userland

/-- The text that is shown for what comes of a command. -/
def shownText : Except Failure Output → String
  | .ok output => output.render
  | .error failure => failure.message

namespace Batch

/-- What is done for one operand. -/
abbrev Step := Tree → String → Except Fault (Option String × Tree)

/-! ## One operand -/

/-- The line for an operand: the one of its success, if it has one, or that of its fault. -/
def line? (command : String) : Except Fault (Option String × Tree) → Option String
  | .ok (line, _) => line
  | .error fault => some (command ++ ": " ++ fault.message)

/-- The tree after an operand. -/
def treeAfter (t : Tree) : Except Fault (Option String × Tree) → Tree
  | .ok (_, t') => t'
  | .error _ => t

/-- The lines for some operands in turn, and the tree after the last of them. -/
def inTurn (command : String) (step : Step) : List String → Tree → List String × Tree
  | [], t => ([], t)
  | operand :: rest, t =>
    let result := step t operand
    let (lines, final) := inTurn command step rest (treeAfter t result)
    ((line? command result).toList ++ lines, final)

/-- The lines for the first operand stand before those of the others. -/
theorem lines_inTurn_cons (command : String) (step : Step) (operand : String)
    (rest : List String) (t : Tree) :
    (inTurn command step (operand :: rest) t).1 =
      (line? command (step t operand)).toList ++
        (inTurn command step rest (treeAfter t (step t operand))).1 := rfl

/-- Each operand has one line at most. -/
theorem length_inTurn_le (command : String) (step : Step) (operands : List String)
    (t : Tree) : (inTurn command step operands t).1.length ≤ operands.length := by
  induction operands generalizing t with
  | nil => exact Nat.le_refl _
  | cons operand rest ih =>
    have hrest := ih (treeAfter t (step t operand))
    have hline : (line? command (step t operand)).toList.length ≤ 1 := by
      cases line? command (step t operand) <;> simp
    rw [lines_inTurn_cons, List.length_append, List.length_cons]
    omega

/-- What comes of an operand fails plainly, and a line of its success is not empty. -/
structure Tells (x : Except Fault (Option String × Tree)) : Prop where
  fails : FailsPlainly x
  line_ne : ∀ line t, x = .ok (some line, t) → line ≠ ""

namespace Tells

variable {α : Type}

theorem error {fault : Fault} (h : fault.isPlain = true) : Tells (.error fault) := by
  refine ⟨FailsPlainly.error h, fun line t hx => ?_⟩
  cases hx

theorem silent (t : Tree) : Tells (.ok (none, t)) := by
  refine ⟨FailsPlainly.ok _, fun line t' hx => ?_⟩
  cases hx

theorem line {told : String} (h : told ≠ "") (t : Tree) : Tells (.ok (some told, t)) := by
  refine ⟨FailsPlainly.ok _, fun line t' hx => ?_⟩
  cases hx
  exact h

/-- A step that first looks for something fails plainly if it is not found. -/
theorem bind {x : Except Fault α} {f : α → Except Fault (Option String × Tree)}
    (hx : FailsPlainly x) (hf : ∀ a, Tells (f a)) : Tells (x >>= f) := by
  cases x with
  | error fault => exact error (hx fault rfl)
  | ok a => exact hf a

/-- A line shows. -/
theorem shows {command shown : String} {x : Except Fault (Option String × Tree)} (h : Tells x)
    (hline : line? command x = some shown) : shown ≠ "" := by
  cases x with
  | ok result =>
    obtain ⟨told, t'⟩ := result
    have htold : told = some shown := hline
    exact h.line_ne shown t' (htold ▸ rfl)
  | error fault =>
    have hworded : command ++ ": " ++ fault.message = shown := Option.some.inj hline
    intro hempty
    rw [← hworded] at hempty
    simp at hempty

end Tells

/-- A step that fails plainly, and whose lines show. -/
def Telling (step : Step) : Prop :=
  ∀ t operand, Tells (step t operand)

variable {command : String} {step : Step} {shown : Shown}

/-! ## The run -/

/-- The fault that is remembered has its line. -/
def Shown.Sound (command : String) (shown : Shown) : Prop :=
  ∀ fault, shown.fault = some fault →
    fault.isPlain = true ∧ command ++ ": " ++ fault.message ∈ shown.lines

/-- From any lines that are shown already, the run adds what the operands have to say, in their
order, and leaves the tree of the last of them. -/
theorem runFrom_inTurn (hstep : Telling step) (operands : List String)
    (hshown : Shown.Sound command shown) (t : Tree) :
    ∃ fault,
      runFrom command step operands shown t =
        (.ok ⟨shown.lines ++ (inTurn command step operands t).1, fault⟩,
          (inTurn command step operands t).2) ∧
      Shown.Sound command ⟨shown.lines ++ (inTurn command step operands t).1, fault⟩ := by
  -- on the operands, for every tree and for all lines that are shown by then
  induction operands generalizing shown t with
  | nil =>
    refine ⟨shown.fault, ?_, ?_⟩
    · simp only [runFrom, inTurn, List.append_nil]
    · simpa only [inTurn, List.append_nil] using hshown
  | cons operand rest ih =>
    cases hresult : step t operand with
    | ok result =>
      obtain ⟨told, t'⟩ := result
      have hmore : Shown.Sound command ⟨shown.lines ++ told.toList, shown.fault⟩ := by
        intro fault hfault
        obtain ⟨hplain, hline⟩ := hshown fault hfault
        exact ⟨hplain, List.mem_append_left _ hline⟩
      obtain ⟨fault, hrun, hsound⟩ := ih hmore t'
      refine ⟨fault, ?_, ?_⟩
      · simpa only [runFrom, inTurn, hresult, line?, treeAfter, List.append_assoc] using hrun
      · simpa only [inTurn, hresult, line?, treeAfter, List.append_assoc] using hsound
    | error fault =>
      have hplain := (hstep t operand).fails fault hresult
      have hmore : Shown.Sound command
          ⟨shown.lines ++ [command ++ ": " ++ fault.message], some fault⟩ := by
        intro fault' hfault'
        -- only the last fault is kept, and its line is the last one shown
        have hsame : fault = fault' := Option.some.inj hfault'
        rw [← hsame]
        exact ⟨hplain, List.mem_append_right _ (List.mem_singleton.mpr rfl)⟩
      obtain ⟨fault', hrun, hsound⟩ := ih hmore t
      have hanswer : fault.isAnswer = true := Fault.isAnswer_of_isPlain hplain
      refine ⟨fault', ?_, ?_⟩
      · simpa only [runFrom, inTurn, hresult, line?, treeAfter, hanswer, if_true,
          Option.toList_some, List.append_assoc] using hrun
      · simpa only [inTurn, hresult, line?, treeAfter, Option.toList_some, List.append_assoc]
          using hsound

theorem render_ofLines (lines : List String) :
    (Output.ofLines lines).render = Text.unlines lines := by
  rw [Output.ofLines]
  cases lines with
  | nil => rfl
  | cons line rest => rfl

theorem conclude_of_no_fault (lines : List String) :
    conclude ⟨lines, none⟩ = .ok (.ofLines lines) := by
  match lines with
  | [] => rfl
  | [_] => rfl
  | _ :: _ :: _ => rfl

/-- Whether the last fault is the command's own or one of several lines, the lines are shown. -/
theorem shownText_conclude (h : Shown.Sound command shown) :
    shownText ((conclude shown).mapError (⟨command, ·⟩)) = Text.unlines shown.lines := by
  obtain ⟨lines, fault⟩ := shown
  cases fault with
  | none =>
    rw [conclude_of_no_fault]
    exact render_ofLines lines
  | some fault =>
    obtain ⟨hplain, hline⟩ := h fault rfl
    match lines with
    | [] => cases hline
    | [line] =>
      -- the only line is that of the fault
      have hsame : command ++ ": " ++ fault.message = line := List.mem_singleton.mp hline
      rw [Text.unlines_singleton, ← hsame]
      exact Failure.message_of_isPlain hplain
    | line :: line' :: rest => exact render_ofLines (line :: line' :: rest)

/-- What a batch shows and leaves behind is what its operands show and leave behind in turn. -/
theorem run_inTurn (command : String) (hstep : Telling step) (operands : List String) (t : Tree) :
    shownText ((run command ⟨operands, step⟩ t).1.mapError (⟨command, ·⟩)) =
        Text.unlines (inTurn command step operands t).1 ∧
      (run command ⟨operands, step⟩ t).2 = (inTurn command step operands t).2 := by
  have hnothing : Shown.Sound command ⟨[], none⟩ := by
    intro fault hfault
    cases hfault
  obtain ⟨fault, hrun, hsound⟩ := runFrom_inTurn hstep operands hnothing t
  rw [run, hrun]
  exact ⟨shownText_conclude hsound, rfl⟩

end Batch

end Userland
