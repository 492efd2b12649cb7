/-
  How an operand is spelled makes no difference.

  1. *Program.*  The commands that change the tree name an operand in their complaints as it was
     typed, and do their work at the place that it means.

  2. *Specification.*  Two runs of one command whose options, mode or owner are the same, and whose
     operands mean the same places one by one, both succeed or both fail, and leave the same scene
     (`PathCommand.dispatch_same_places`).  The working directory has to be there for the sake of
     `mkdir` and `touch`: without it they refuse relative operands, and no absolute ones.

  3. *The crux.*  Take the words away from what comes of an operand, and what is left depends on the
     place (`Batch.Blind`): whether a line is shown, or a fault, and the tree.  The number of lines
     and whether there was a fault decide in the end whether the command fails, so that the run
     needs nothing else of its steps.  `mkdir` and `touch` keep every directory, the working
     directory too, so that no operand after the first is refused for want of it.
-/
import Userland.Proofs.Command.Adrift
import Userland.Proofs.Scene
import Userland.Proofs.Tree.Directories

namespace Userland

/-! ## Results that are alike -/

/-- Whether a run succeeds, and what is there after it. -/
def outcome {ε α β : Type} (run : Except ε α × β) : Bool × β := (run.1.isOk, run.2)

/-- The outcome forgets who failed, and how. -/
theorem outcome_mapError {ε ε' α β : Type} (f : ε → ε') (result : Except ε α) (after : β) :
    outcome (result.mapError f, after) = outcome (result, after) := by
  cases result <;> rfl

/-- Two results that are there and agree, or two faults, whatever their words. -/
inductive Alike {α β : Type} (agree : α → β → Prop) : Except Fault α → Except Fault β → Prop where
  | ok {a : α} {b : β} (h : agree a b) : Alike agree (.ok a) (.ok b)
  | error {fault fault' : Fault} (h : fault.isAnswer = fault'.isAnswer) :
      Alike agree (.error fault) (.error fault')

namespace Alike

variable {α β γ δ : Type} {agree : α → β → Prop} {agree' : γ → δ → Prop}

theorem refl {agree : α → α → Prop} (h : ∀ a, agree a a) (x : Except Fault α) :
    Alike agree x x := by
  cases x with
  | ok a => exact .ok (h a)
  | error fault => exact .error rfl

/-- Steps that are alike make sequences that are alike. -/
theorem bind {x : Except Fault α} {y : Except Fault β} {f : α → Except Fault γ}
    {g : β → Except Fault δ} (h : Alike agree x y)
    (hrest : ∀ a b, agree a b → Alike agree' (f a) (g b)) : Alike agree' (x >>= f) (y >>= g) := by
  cases h with
  | ok h => exact hrest _ _ h
  | error h => exact .error h

/-- One result, and what is made of it in two ways. -/
theorem bind_same {x : Except Fault α} {f : α → Except Fault γ} {g : α → Except Fault δ}
    (hrest : ∀ a, Alike agree' (f a) (g a)) : Alike agree' (x >>= f) (x >>= g) := by
  cases x with
  | ok a => exact hrest a
  | error fault => exact .error rfl

end Alike

/-! ## Batches -/

namespace Batch

/-- What two operands come to agrees: a line is shown for both or for neither, and the same tree is
left. -/
def Agree (turn turn' : Option String × Tree) : Prop :=
  turn.1.isSome = turn'.1.isSome ∧ turn.2 = turn'.2

theorem Agree.refl (turn : Option String × Tree) : Agree turn turn := ⟨rfl, rfl⟩

/-- A step keeps what it relies on, and does the same for operands that mean the same. -/
structure Blind (means : String → String) (relies : Tree → Prop) (step : Step) : Prop where
  kept : ∀ {t operand line t'}, relies t → step t operand = .ok (line, t') → relies t'
  alike : ∀ {t operand operand'}, relies t → means operand = means operand' →
    Alike Agree (step t operand) (step t operand')

/-- How many lines there are so far, and whether there was a fault. -/
def tally (shown : Shown) : Nat × Bool := (shown.lines.length, shown.fault.isSome)

/-- Whether a batch fails in the end depends on the tally only. -/
theorem isOk_conclude (shown : Shown) :
    (conclude shown).isOk = decide (tally shown ≠ (1, true)) := by
  obtain ⟨lines, fault⟩ := shown
  cases fault with
  | none =>
    rw [conclude_of_no_fault]
    simp [tally, Except.toBool]
  | some fault =>
    match lines with
    | [] => rfl
    | [_] => rfl
    | _ :: _ :: _ => simp [tally, conclude, Except.toBool]

variable {means : String → String} {relies : Tree → Prop} {step : Step}
  {operands operands' : List String} {shown shown' : Shown} {t : Tree}

/-- Two runs over operands that mean the same, one by one, tally the same. -/
theorem runFrom_alike (command : String) (hstep : Blind means relies step)
    (hmean : operands.map means = operands'.map means) (hrelies : relies t)
    (htally : tally shown = tally shown') :
    Alike (tally · = tally ·) (runFrom command step operands shown t).1
        (runFrom command step operands' shown' t).1 ∧
      (runFrom command step operands shown t).2 = (runFrom command step operands' shown' t).2 := by
  -- on the operands, and for all that has been shown: the rest of them meet the same tree
  induction operands generalizing operands' shown shown' t with
  | nil =>
    obtain rfl : operands' = [] := List.map_eq_nil_iff.mp hmean.symm
    exact ⟨.ok htally, rfl⟩
  | cons operand rest ih =>
    obtain ⟨operand', rest', rfl, hfirst, hrest⟩ := List.map_eq_cons_iff.mp hmean.symm
    obtain ⟨hlength, hfault⟩ := Prod.mk.inj htally
    have halike := hstep.alike hrelies hfirst.symm
    rw [runFrom, runFrom]
    generalize hturn : step t operand = turn at halike ⊢
    generalize step t operand' = turn' at halike ⊢
    cases halike with
    | @ok turn turn' hagree =>
      obtain ⟨line, after⟩ := turn
      obtain ⟨line', after'⟩ := turn'
      obtain ⟨hline, rfl⟩ : line.isSome = line'.isSome ∧ after = after' := hagree
      have hlines : line.toList.length = line'.toList.length := by
        rw [Option.length_toList, Option.length_toList, hline]
      refine ih hrest.symm (hstep.kept hrelies hturn) (Prod.ext ?_ hfault)
      simp only [tally, List.length_append, hlength, hlines]
    | error hanswer =>
      simp only [hanswer]
      split
      · refine ih hrest.symm hrelies (Prod.ext ?_ rfl)
        simp only [tally, List.length_append, hlength, List.length_singleton]
      · exact ⟨.error hanswer, rfl⟩

/-- Two batches over operands that mean the same, one by one, come out the same. -/
theorem outcome_run {command : String} (hstep : Blind means relies step)
    (hmean : operands.map means = operands'.map means) (hrelies : relies t) :
    outcome (run command ⟨operands, step⟩ t) = outcome (run command ⟨operands', step⟩ t) := by
  have hstart : tally ⟨[], none⟩ = tally ⟨[], none⟩ := rfl
  obtain ⟨halike, htree⟩ := runFrom_alike command hstep hmean hrelies hstart
  rw [run, run]
  generalize runFrom command step operands ⟨[], none⟩ t = done at halike htree ⊢
  generalize runFrom command step operands' ⟨[], none⟩ t = done' at halike htree ⊢
  obtain ⟨result, after⟩ := done
  obtain ⟨result', after'⟩ := done'
  obtain rfl : after = after' := htree
  cases halike with
  | ok htally => simp only [outcome, isOk_conclude, htally]
  | error h => rfl

end Batch

/-! ## Steps -/

namespace Command

open Batch (Blind Agree)

variable {s : Scene} {t t' : Tree} {operand operand' : String} {line : Option String}
  {now : Timestamp}

/-- The tree has the working directory. -/
def HasDirectory (s : Scene) (t : Tree) : Prop := t.isDirectory s.session.path = true

/-- In a directory that is there no operand is denied. -/
theorem not_isAdrift (h : HasDirectory s t) (operand : String) : isAdrift s t operand = false := by
  rw [isAdrift, h]
  simp

/-- An operand of `mkdir` makes directories and unmakes none. -/
theorem keepsDirectories_makeDirectory {parents : Bool}
    (h : makeDirectory s now parents t operand = .ok (line, t')) : t.KeepsDirectories t' := by
  rw [makeDirectory] at h
  split at h
  · cases h
  dsimp only at h
  split at h
  · obtain ⟨made, hmade, hdone⟩ := bind_eq_ok_iff.mp h
    cases hdone
    exact Tree.keepsDirectories_createDirectories hmade
  split at h
  · cases h
  split at h
  · cases h
  · obtain ⟨made, hmade, hdone⟩ := bind_eq_ok_iff.mp h
    cases hdone
    obtain ⟨-, -, hfree, hput⟩ := Tree.createDirectory_eq_ok_iff.mp hmade
    rw [hput]
    exact Tree.keepsDirectories_put hfree _

/-- Two operands that mean one path are made alike. -/
theorem blind_makeDirectory (parents : Bool) :
    Blind s.resolve (HasDirectory s) (makeDirectory s now parents) where
  kept hcwd hstep := keepsDirectories_makeDirectory hstep _ hcwd
  alike {t operand operand'} hcwd hmean := by
    simp only [makeDirectory, not_isAdrift hcwd, Bool.false_eq_true, if_false, hmean]
    split
    · exact .refl Agree.refl _
    split
    · exact .error rfl
    split
    · exact .error rfl
    · exact .refl Agree.refl _

theorem keepsDirectories_touchFile
    (h : touchFile s now t operand = .ok (line, t')) : t.KeepsDirectories t' := by
  obtain ⟨steps, hcanonical, hpath⟩ := s.resolve_eq_render operand
  rw [touchFile, hpath] at h
  split at h
  · cases h
  dsimp only at h
  split at h
  · obtain ⟨made, hmade, hdone⟩ := bind_eq_ok_iff.mp h
    cases hdone
    obtain ⟨-, rfl⟩ := Tree.touch_eq_ok_iff.mp hmade
    exact Tree.keepsDirectories_mapAttributes t _ _
  · next hfree =>
    split at h
    · next hdirectory =>
      rw [Tree.isDirectory, Path.parent_render hcanonical, Tree.place_render hcanonical.dropLast]
        at hdirectory
      rw [Tree.contains, Tree.get?_eq, Tree.place_render hcanonical, Bool.not_eq_true,
        Option.isSome_eq_false_iff, Option.isNone_iff_eq_none] at hfree
      have hne : steps ≠ [] := Tree.ne_nil_of_find?_eq_none hfree
      rw [Tree.createFile, Tree.insert_render hcanonical hne hdirectory] at h
      cases h
      exact Tree.keepsDirectories_put hfree _
    · cases h

theorem blind_touchFile : Blind s.resolve (HasDirectory s) (touchFile s now) where
  kept hcwd hstep := keepsDirectories_touchFile hstep _ hcwd
  alike {t operand operand'} hcwd hmean := by
    simp only [touchFile, not_isAdrift hcwd, Bool.false_eq_true, if_false, hmean]
    split
    · exact .refl Agree.refl _
    split
    · exact .refl Agree.refl _
    · exact .error rfl

theorem blind_removeNode (force recursive : Bool) :
    Blind s.resolve (fun _ => True) (removeNode s force recursive) where
  kept _ _ := trivial
  alike {t operand operand'} _ hmean := by
    unfold removeNode
    rw [hmean]
    dsimp only
    split
    · split
      · exact .refl Agree.refl _
      · exact .error rfl
    split
    · exact .error rfl
    · cases t.remove (s.resolve operand') recursive with
      | ok removed => exact .ok ⟨rfl, rfl⟩
      | error fault => exact .error rfl

theorem blind_changeNode (change : Tree → String → Except Fault Tree) (done : String → String) :
    Blind s.resolve (fun _ => True) (changeNode s change done) where
  kept _ _ := trivial
  alike {t operand operand'} _ hmean := by
    rw [changeNode, changeNode, hmean]
    split
    · exact .error rfl
    · exact .bind_same fun t' => .ok ⟨rfl, rfl⟩

/-! ## Sources and destinations -/

variable {operands operands' : List String}

/-- Of operands that mean the same there are enough or too few, and the first two mean the same. -/
theorem sourceAndDestination_alike (hmean : operands.map s.resolve = operands'.map s.resolve) :
    Alike (fun places places' => s.resolve places.1 = s.resolve places'.1 ∧
        s.resolve places.2 = s.resolve places'.2)
      (sourceAndDestination operands) (sourceAndDestination operands') := by
  match operands, operands' with
  | [], [] => exact .error rfl
  | [_], [_] => exact .error rfl
  | source :: destination :: _, source' :: destination' :: _ =>
    simp only [List.map_cons, List.cons.injEq] at hmean
    exact .ok ⟨hmean.1, hmean.2.1⟩
  | [], _ :: _ => cases hmean
  | _ :: _, [] => cases hmean
  | [_], _ :: _ :: _ => simp at hmean
  | _ :: _ :: _, [_] => simp at hmean

/-- Whether a node can be sent, and from where to where, depends on the places. -/
theorem checkTransfer_alike {source source' destination destination' : String}
    (hsource : s.resolve source = s.resolve source')
    (hdestination : s.resolve destination = s.resolve destination')
    (intoItself intoItself' : String → String) :
    Alike (· = ·) (checkTransfer s source destination intoItself)
      (checkTransfer s source' destination' intoItself') := by
  rw [checkTransfer, checkTransfer, hsource, hdestination]
  split
  · exact .error rfl
  · refine .bind_same fun target => ?_
    dsimp only
    split
    · exact .error rfl
    split
    · exact .error rfl
    · exact .ok rfl

end Command

/-! ## Actions -/

namespace Action

variable {s : Scene} {arguments arguments' : List String}

/-- Commands on the tree come to the same if their trees do. -/
theorem outcome_files {run : Scene → List String → Except Fault (Output × Tree)}
    (h : Alike (fun done done' => done.2 = done'.2) (run s arguments) (run s arguments')) :
    outcome ((files run).run s arguments) = outcome ((files run).run s arguments') := by
  simp only [Action.run]
  generalize run s arguments = done at h ⊢
  generalize run s arguments' = done' at h ⊢
  cases h with
  | ok htree => simp only [outcome, htree]; rfl
  | error h => rfl

/-- Commands on operands come to the same if their batches do. -/
theorem outcome_eachFile {command : String} {plan : Scene → List String → Except Fault Batch}
    (h : Alike (fun b b' => outcome (b.run command s.tree) = outcome (b'.run command s.tree))
      (plan s arguments) (plan s arguments')) :
    outcome ((eachFile command plan).run s arguments) =
      outcome ((eachFile command plan).run s arguments') := by
  simp only [Action.run]
  generalize plan s arguments = planned at h ⊢
  generalize plan s arguments' = planned' at h ⊢
  cases h with
  | ok hrun =>
    obtain ⟨hok, htree⟩ := Prod.mk.inj hrun
    simp only [outcome, hok, htree]
  | error h => rfl

end Action

/-! ## The commands -/

/-- A command that changes what is at the places that its operands mean. -/
inductive PathCommand where
  | mkdir
  | touch
  | cp
  | mv
  | rm
  | chmod
  | chown

namespace PathCommand

open Command

def name : PathCommand → String
  | mkdir => "mkdir"
  | touch => "touch"
  | cp => "cp"
  | mv => "mv"
  | rm => "rm"
  | chmod => "chmod"
  | chown => "chown"

/-- The arguments that are paths. -/
def paths (c : PathCommand) (arguments : List String) : List String :=
  match c with
  | mkdir | cp | mv | rm => (Options.read arguments).operands
  | touch => arguments
  | chmod | chown => arguments.tail

/-- Apart from the paths, the command is given the same: the same letters as options, or the same
mode or owner. -/
def SameGiven (c : PathCommand) (arguments arguments' : List String) : Prop :=
  match c with
  | mkdir | cp | mv | rm =>
    ∀ letter, (Options.read arguments).has letter = (Options.read arguments').has letter
  | touch => True
  | chmod | chown => arguments.head? = arguments'.head?

variable {c : PathCommand} {s : Scene} {arguments arguments' : List String}

/-- A mode or an owner, and then paths, of which there has to be one. -/
theorem firstAndOperands_alike (hfirst : arguments.head? = arguments'.head?)
    (hpaths : arguments.tail.map s.resolve = arguments'.tail.map s.resolve) :
    Alike (fun sorted sorted' => sorted.1 = sorted'.1 ∧
        sorted.2.map s.resolve = sorted'.2.map s.resolve)
      (firstAndOperands arguments) (firstAndOperands arguments') := by
  match arguments, arguments' with
  | [], [] => exact .error rfl
  | [_], [_] => exact .error rfl
  | first :: operand :: rest, first' :: operand' :: rest' =>
    exact .ok ⟨Option.some.inj hfirst, hpaths⟩
  | [], _ :: _ => cases hfirst
  | _ :: _, [] => cases hfirst
  | [_], _ :: _ :: _ => cases hpaths
  | _ :: _ :: _, [_] => cases hpaths

theorem isEmpty_alike {operands operands' : List String}
    (hmean : operands.map s.resolve = operands'.map s.resolve) :
    operands.isEmpty = operands'.isEmpty := by
  rw [← List.isEmpty_map (f := s.resolve), hmean, List.isEmpty_map]

/-- What is done depends on what the command is given and on the places that its operands mean. -/
theorem outcome_action (hcwd : s.tree.isDirectory s.session.path = true)
    (hgiven : c.SameGiven arguments arguments')
    (hpaths : (c.paths arguments).map s.resolve = (c.paths arguments').map s.resolve) :
    outcome ((CommandTable.stock.action c.name).run s arguments) =
      outcome ((CommandTable.stock.action c.name).run s arguments') := by
  -- the arguments are read alike, up to the operands; then the steps look at their paths only
  cases c with
  | mkdir =>
    simp only [SameGiven, paths] at hgiven hpaths
    refine Action.outcome_eachFile ?_
    dsimp only
    rw [isEmpty_alike hpaths, hgiven 'p']
    split
    · exact .error rfl
    · refine .bind_same fun now => .ok ?_
      exact Batch.outcome_run (blind_makeDirectory _) hpaths hcwd
  | touch =>
    simp only [paths] at hpaths
    refine Action.outcome_eachFile ?_
    rw [isEmpty_alike hpaths]
    split
    · exact .error rfl
    · refine .bind_same fun now => .ok ?_
      exact Batch.outcome_run blind_touchFile hpaths hcwd
  | cp =>
    refine Action.outcome_files (.bind (sourceAndDestination_alike hpaths) fun ends ends' h => ?_)
    refine .bind (checkTransfer_alike h.1 h.2 _ _) fun places places' h => ?_
    obtain rfl : places = places' := h
    dsimp only
    rw [hgiven 'r', hgiven 'R', hgiven 'a']
    exact .bind_same fun now => .bind_same fun copied => .ok rfl
  | mv =>
    refine Action.outcome_files (.bind (sourceAndDestination_alike hpaths) fun ends ends' h => ?_)
    refine .bind (checkTransfer_alike h.1 h.2 _ _) fun places places' h => ?_
    obtain rfl : places = places' := h
    exact .bind_same fun moved => .ok rfl
  | rm =>
    simp only [SameGiven, paths] at hgiven hpaths
    refine Action.outcome_eachFile ?_
    dsimp only
    rw [isEmpty_alike hpaths, hgiven 'f', hgiven 'r', hgiven 'R']
    split
    · exact .error rfl
    · exact .ok (Batch.outcome_run (blind_removeNode _ _) hpaths trivial)
  | chmod =>
    refine Action.outcome_eachFile (.bind (firstAndOperands_alike hgiven hpaths) ?_)
    rintro ⟨mode, operands⟩ ⟨mode', operands'⟩ ⟨hmode, hoperands⟩
    obtain rfl : mode = mode' := hmode
    refine .bind_same fun bits => .ok ?_
    exact Batch.outcome_run (blind_changeNode _ _) hoperands trivial
  | chown =>
    refine Action.outcome_eachFile (.bind (firstAndOperands_alike hgiven hpaths) ?_)
    rintro ⟨spec, operands⟩ ⟨spec', operands'⟩ ⟨hspec, hoperands⟩
    obtain rfl : spec = spec' := hspec
    refine .bind_same fun owned => .ok ?_
    exact Batch.outcome_run (blind_changeNode _ _) hoperands trivial

/-- While the working directory is there, two runs of a command that is given the same, on operands
that mean the same places one by one, both succeed or both fail, and leave the same scene. -/
theorem dispatch_same_places (hcwd : s.tree.isDirectory s.session.path = true)
    (hgiven : c.SameGiven arguments arguments')
    (hpaths : (c.paths arguments).map s.resolve = (c.paths arguments').map s.resolve) :
    let run := CommandTable.stock.dispatch (c.name :: arguments) s
    let run' := CommandTable.stock.dispatch (c.name :: arguments') s
    run.1.isOk = run'.1.isOk ∧ run.2 = run'.2 := by
  intro run run'
  have hname : c.name ≠ "sudo" := by cases c <;> simp [name]
  have hall : outcome run = outcome run' := by
    simp only [run, run', CommandTable.dispatch, if_neg hname, outcome_mapError]
    exact outcome_action hcwd hgiven hpaths
  exact Prod.mk.inj hall

/-- A session at work in `/src`, whose home directory has a long spelling. -/
def spellingScene : Scene :=
  { sampleScene with
    session :=
      ({ sampleScene.session with path := "/src" } : Session).setVariable "HOME" "/dst/../src/d" }

/-- Two directories are made, whether their places are spelled from home, from the root or from the
working directory. -/
theorem sample_dispatch_same_places :
    let arguments := ["-p", "~/e/../n", "//src/m"]
    let arguments' := ["d/n", "-p", "../src/m"]
    let run := CommandTable.stock.dispatch (mkdir.name :: arguments) spellingScene
    let run' := CommandTable.stock.dispatch (mkdir.name :: arguments') spellingScene
    spellingScene.tree.isDirectory spellingScene.session.path = true ∧
      mkdir.SameGiven arguments arguments' ∧
      (mkdir.paths arguments).map spellingScene.resolve =
        (mkdir.paths arguments').map spellingScene.resolve ∧
      run.1.isOk = run'.1.isOk ∧ run.2 = run'.2 := by
  intro arguments arguments' run run'
  have hcwd : spellingScene.tree.isDirectory spellingScene.session.path = true := by
    decide +kernel
  have hgiven : mkdir.SameGiven arguments arguments' := fun letter => rfl
  have hpaths : (mkdir.paths arguments).map spellingScene.resolve =
      (mkdir.paths arguments').map spellingScene.resolve := by
    decide +kernel
  exact ⟨hcwd, hgiven, hpaths, dispatch_same_places hcwd hgiven hpaths⟩

end PathCommand

end Userland
