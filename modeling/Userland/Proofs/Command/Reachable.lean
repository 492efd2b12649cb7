/-
  Commands work on the tree by its calls, and in no other way.

  1. *Program.*  Nine commands work on the tree.  Four of them make one call, with what they have
     read from their arguments; the other five make one for each operand, and none for an operand
     that they refuse.  All other commands leave the tree as it is.

  2. *Specification.*  If calls lead to the tree of a scene (`Tree.Reachable`), they lead to the
     tree after every line, whether the line succeeds or fails (`execute_reachable`).  So whatever
     holds of the trees that calls lead to holds on a machine at all times.

  3. *The crux.*  A command that succeeds has the tree of a call that succeeded, which is read off
     its steps by inversion; one that fails has the tree from before, or the trees of the operands
     that came first.  The five commands have their steps in common (`IsStep`), so that the run of a
     batch is shown once, by induction on the operands.
-/
import Userland.Proofs.Command.Operands
import Userland.Proofs.Command.Frame

open Userland.Tree (Reachable)

namespace Userland

/-! ## Operand by operand -/

namespace OperandCommand

open Command

variable {s : Scene} {t t' : Tree} {operand : String} {line : Option String}

/-- What one call makes of the tree, with a line for the user. -/
theorem reachable_of_call (ht : Reachable t) (c : Tree.Change) (hnone : c.node? = none)
    {shown : Option String}
    (hdone : (c.whole t >>= fun after => pure (shown, after)) = .ok (line, t')) :
    Reachable t' := by
  obtain ⟨after, hafter, hsame⟩ := bind_eq_ok_iff.mp hdone
  cases hsame
  exact ht.of_nodeless c hafter hnone

theorem makeDirectory_reachable {now : Timestamp} {parents : Bool} (ht : Reachable t)
    (hdone : makeDirectory s now parents t operand = .ok (line, t')) : Reachable t' := by
  rw [makeDirectory] at hdone
  extract_lets path at hdone
  split at hdone
  · cases hdone
  split at hdone
  · exact reachable_of_call ht (.createDirectories path s.session.user now) rfl hdone
  split at hdone
  · cases hdone
  split at hdone
  · cases hdone
  · exact reachable_of_call ht (.createDirectory _ _ s.session.user now) rfl hdone

theorem touchFile_reachable {now : Timestamp} (ht : Reachable t)
    (hdone : touchFile s now t operand = .ok (line, t')) : Reachable t' := by
  rw [touchFile] at hdone
  extract_lets path at hdone
  split at hdone
  · cases hdone
  split at hdone
  · exact reachable_of_call ht (.touch path now) rfl hdone
  split at hdone
  · exact reachable_of_call ht (.createFile _ _ s.session.user now) rfl hdone
  · cases hdone

/-- What is not there, and need not be, takes no call. -/
theorem removeNode_reachable {force recursive : Bool} (ht : Reachable t)
    (hdone : removeNode s force recursive t operand = .ok (line, t')) : Reachable t' := by
  unfold removeNode at hdone
  extract_lets path at hdone
  split at hdone
  · split at hdone
    · cases hdone
      exact ht
    · cases hdone
  · split at hdone
    · cases hdone
    · cases hremove : t.remove path recursive with
      | error fault =>
        rw [hremove] at hdone
        cases hdone
      | ok removed =>
        rw [hremove] at hdone
        cases hdone
        exact ht.remove hremove

/-- The change of a node is one call, which is given the path that the operand stands for. -/
theorem changeNode_reachable {change : Tree → String → Except Fault Tree}
    {done : String → String} (ht : Reachable t) (c : String → Tree.Change)
    (hcall : ∀ path, change t path = (c path).whole t) (hnone : ∀ path, (c path).node? = none)
    (hdone : changeNode s change done t operand = .ok (line, t')) : Reachable t' := by
  rw [changeNode, hcall] at hdone
  split at hdone
  · cases hdone
  · exact reachable_of_call ht (c _) (hnone _) hdone

/-- **The step.**  An operand that succeeds leaves the tree as it was, or the tree of a call. -/
theorem IsStep.reachable {step : Batch.Step} (h : IsStep s step) (ht : Reachable t)
    (hdone : step t operand = .ok (line, t')) : Reachable t' := by
  cases h with
  | makeDirectory now parents => exact makeDirectory_reachable ht hdone
  | touchFile now => exact touchFile_reachable ht hdone
  | removeNode force recursive => exact removeNode_reachable ht hdone
  | changeMode mode =>
    exact changeNode_reachable ht (.setPermissions · mode) (fun _ => rfl) (fun _ => rfl) hdone
  | changeOwner spec owner group =>
    exact changeNode_reachable ht (.setOwner · owner group) (fun _ => rfl) (fun _ => rfl) hdone

end OperandCommand

namespace Batch

variable {command : String} {step : Step} {t : Tree}

/-- **The run.**  A batch leaves a tree that calls lead to if each of its steps does. -/
theorem runFrom_reachable
    (hstep : ∀ t operand line t', Reachable t → step t operand = .ok (line, t') → Reachable t')
    (operands : List String) (shown : Shown) (ht : Reachable t) :
    Reachable (runFrom command step operands shown t).2 := by
  induction operands generalizing shown t with
  | nil => exact ht
  | cons operand rest ih =>
    rw [runFrom]
    cases hresult : step t operand with
    | ok result => exact ih _ (hstep t operand result.1 result.2 ht hresult)
    | error fault =>
      dsimp only
      split
      · exact ih _ ht
      · exact ht

theorem run_reachable {b : Batch}
    (hstep : ∀ t operand line t', Reachable t → b.step t operand = .ok (line, t') → Reachable t')
    (ht : Reachable t) : Reachable (b.run command t).2 := by
  have hrun : Reachable (runFrom command b.step b.operands ⟨[], none⟩ t).2 :=
    runFrom_reachable hstep b.operands ⟨[], none⟩ ht
  rw [run]
  split
  · next shown after heq => rwa [heq] at hrun
  · next fault after heq => rwa [heq] at hrun

end Batch

/-! ## The commands on the tree -/

namespace Command

variable {s : Scene} {arguments : List String}

/-- A command that makes one call, if what it answers on success is a tree of calls. -/
theorem files_reachable {run : Scene → List String → Except Fault (Output × Tree)}
    (h : Reachable s.tree)
    (hrun : ∀ output t, run s arguments = .ok (output, t) → Reachable t) :
    Reachable ((Action.files run).run s arguments).2.tree := by
  rw [Action.run]
  cases hresult : run s arguments with
  | ok result => exact hrun result.1 result.2 hresult
  | error fault => exact h

theorem cp_reachable (h : Reachable s.tree) : Reachable (cp.action.run s arguments).2.tree := by
  refine files_reachable h fun output t hdone => ?_
  obtain ⟨⟨source, destination⟩, -, hdone⟩ := bind_eq_ok_iff.mp hdone
  obtain ⟨⟨start, meant⟩, -, hdone⟩ := bind_eq_ok_iff.mp hdone
  obtain ⟨now, -, hdone⟩ := bind_eq_ok_iff.mp hdone
  obtain ⟨⟨target, copied⟩, hcopy, hsame⟩ := bind_eq_ok_iff.mp hdone
  cases hsame
  exact h.copy hcopy

theorem mv_reachable (h : Reachable s.tree) : Reachable (mv.action.run s arguments).2.tree := by
  refine files_reachable h fun output t hdone => ?_
  obtain ⟨⟨source, destination⟩, -, hdone⟩ := bind_eq_ok_iff.mp hdone
  obtain ⟨⟨start, meant⟩, -, hdone⟩ := bind_eq_ok_iff.mp hdone
  obtain ⟨⟨target, moved⟩, hmove, hsame⟩ := bind_eq_ok_iff.mp hdone
  cases hsame
  exact h.move hmove

/-- A download makes no call if it saves nothing. -/
theorem download_reachable (h : Reachable s.tree) (command : String)
    (target? : List String → String → Option String) :
    Reachable ((Action.files (download command target?)).run s arguments).2.tree := by
  refine files_reachable h fun output t hdone => ?_
  rw [download] at hdone
  split at hdone
  · cases hdone
  next url hurl =>
  extract_lets progress at hdone
  split at hdone
  · cases hdone
    exact h
  next target htarget =>
  extract_lets path at hdone
  split at hdone
  · cases hdone
  · obtain ⟨now, -, hdone⟩ := bind_eq_ok_iff.mp hdone
    obtain ⟨written, hwrite, hsame⟩ := bind_eq_ok_iff.mp hdone
    cases hsame
    exact h.write hwrite

/-- The five commands on operands make one call for each of them, or none. -/
theorem eachFile_reachable {c : Command} (hc : c ∈ [mkdir, touch, rm, chmod, chown])
    (h : Reachable s.tree) : Reachable (c.action.run s arguments).2.tree := by
  obtain ⟨plan, haction, hsteps⟩ := OperandCommand.isStep_of_planned hc
  rw [haction, Action.run]
  cases hbatch : plan s arguments with
  | error fault => exact h
  | ok batch =>
    have hstep := hsteps s arguments batch hbatch
    exact Batch.run_reachable (fun t operand line t' ht hdone => hstep.reachable ht hdone) h

end Command

/-! ## Words and lines -/

namespace CommandTable

variable {s : Scene}

/-- Nine commands work on the tree, by calls; under any other name it stays as it is. -/
theorem action_reachable (h : Reachable s.tree) (name : String) (arguments : List String) :
    Reachable ((stock.action name).run s arguments).2.tree := by
  by_cases hname : name ∈ Part.tree.commands
  · simp only [Part.commands, List.mem_cons, List.not_mem_nil, or_false] at hname
    rcases hname with rfl | rfl | rfl | rfl | rfl | rfl | rfl | rfl | rfl
    · exact Command.eachFile_reachable (c := Command.mkdir) (by simp) h
    · exact Command.eachFile_reachable (c := Command.touch) (by simp) h
    · exact Command.cp_reachable h
    · exact Command.mv_reachable h
    · exact Command.eachFile_reachable (c := Command.rm) (by simp) h
    · exact Command.eachFile_reachable (c := Command.chmod) (by simp) h
    · exact Command.eachFile_reachable (c := Command.chown) (by simp) h
    · exact Command.download_reachable h "wget" _
    · exact Command.download_reachable h "curl" _
  · have hsame : ((stock.action name).run s arguments).2.tree = s.tree :=
      (action_sameBut s arguments name).parts .tree hname
    rw [hsame]
    exact h

/-- With any number of `sudo` in front. -/
theorem dispatch_reachable (h : Reachable s.tree) (words : List String) :
    Reachable (stock.dispatch words s).2.tree := by
  -- on the words, and for every scene with such a tree: `sudo` changes only the user in it
  induction words generalizing s with
  | nil => exact h
  | cons name rest ih =>
    rw [dispatch]
    split
    · split
      · exact h
      · exact ih (s := { s with session.user := "root" }) h
    · exact action_reachable h name rest

/-- Whatever the line is, and whether it succeeds or fails. -/
theorem execute_reachable (h : Reachable s.tree) (line : String) :
    Reachable (stock.execute line s).2.tree := by
  rw [execute]
  cases Line.words (Line.expand s.session.environment line) with
  | error fault => exact h
  | ok words => exact dispatch_reachable h (s.session.expandAlias words)

end CommandTable

end Userland
