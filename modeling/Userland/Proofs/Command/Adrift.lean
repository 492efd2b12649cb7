/-
  New entries while the working directory is gone.

  1. *Program.*  `mkdir` and `touch` refuse an operand for want of permission when it is relative
     and the working directory has been removed (`Command.isAdrift`).  They take any operand that
     begins with a tilde for one that is not relative.

  2. *Specification.*  Without the working directory, relative operands are all refused, one after
     the other, and nothing changes, exactly if none of them begins with a tilde
     (`OperandCommand.Maker.dispatch_adrift`).  Only a tilde alone or before a slash stands for the
     home directory, so that `~x` is read in the working directory like any other name, and `mkdir`
     with `-p` makes the directory again.

  3. *The crux.*  What an operand that begins with a tilde comes to is never shown as a refusal: it
     is shown as nothing, or in words that end otherwise (`line?_step_ne_denialLine`).  Up to the
     first such operand the tree is the same, and after it there are too few operands left to make
     up for a line that is missing (`inTurn_denied_iff`).
-/
import Userland.Proofs.Command.Operands
import Userland.Proofs.Session

namespace Userland

open Text

/-- The last character of a text is that of its last part. -/
theorem Text.getLast?_append {text more : String} {c : Char} (h : more.toList.getLast? = some c) :
    (text ++ more).toList.getLast? = some c := by
  rw [String.toList_append, List.getLast?_append, h]
  rfl

/-! ## One operand -/

/-- An operand means a place in its one spelling. -/
theorem Scene.resolve_eq_render (s : Scene) (operand : String) :
    ∃ steps, Path.Canonical steps ∧ s.resolve operand = Path.render steps :=
  ⟨_, Path.canonical_steps s.session.path (s.session.expandTilde operand), rfl⟩

namespace Command

/-- The operand is read in the working directory. -/
def IsRelative (operand : String) : Prop :=
  startsWith '/' operand = false ∧ operand ≠ "~" ∧ after? "~/" operand = none

instance (operand : String) : Decidable (IsRelative operand) :=
  inferInstanceAs (Decidable (_ ∧ _))

theorem IsRelative.resolve {operand : String} (h : IsRelative operand) (s : Scene) :
    s.resolve operand = Path.normalize s.session.path operand := by
  rw [Scene.resolve, Session.resolve, Session.expandTilde, if_neg h.2.1, h.2.2]

variable {s : Scene} {t : Tree} {now : Timestamp} {operand : String}

/-- Without the working directory, a relative operand is taken for one unless it begins with a
tilde. -/
theorem isAdrift_eq (hgone : t.isDirectory s.session.path = false)
    (hrelative : IsRelative operand) : isAdrift s t operand = !startsWith '~' operand := by
  rw [isAdrift, hrelative.1, hgone]
  simp

/-- What `mkdir` and `touch` complain about apart from permissions: something is there already,
something is missing, or a file is on the way. -/
def ComplainsOf (action operand : String) (fault : Fault) : Prop :=
  fault = .alreadyExists operand ∨ fault = noSuchFile action operand ∨
    ∃ path, fault = .notDirectory path

/-- An operand that is not refused is worked on in silence, or complained of. -/
theorem makeDirectory_cases (hadrift : isAdrift s t operand = false) (parents : Bool) :
    (∃ t', makeDirectory s now parents t operand = .ok (none, t')) ∨
      ∃ fault, ComplainsOf "cannot create directory" operand fault ∧
        makeDirectory s now parents t operand = .error fault := by
  obtain ⟨steps, hcanonical, hpath⟩ := s.resolve_eq_render operand
  rw [makeDirectory, if_neg (by simp [hadrift]), hpath]
  -- with the directories above, only a file can be in the way
  cases parents with
  | true =>
    rw [if_pos rfl, Tree.createDirectories]
    rcases Tree.createDirectoriesFrom_cases s.session.user now [] (Tree.place (Path.render steps)) t
      with ⟨t', hok⟩ | ⟨path, herror⟩
    · rw [hok]
      exact .inl ⟨t', rfl⟩
    · rw [herror]
      exact .inr ⟨_, .inr (.inr ⟨path, rfl⟩), rfl⟩
  | false =>
    rw [if_neg (by decide), Tree.contains, Tree.get?_eq, Tree.isDirectory,
      Path.parent_render hcanonical, Tree.place_render hcanonical,
      Tree.place_render hcanonical.dropLast, ← Path.parent_render hcanonical]
    split
    · exact .inr ⟨_, .inl rfl, rfl⟩
    split
    · exact .inr ⟨_, .inr (.inl rfl), rfl⟩
    · next hfree hdirectory =>
      rw [Tree.createDirectory_render hcanonical (by simpa using hfree) (by simpa using hdirectory)]
      exact .inl ⟨_, rfl⟩

/-- What is not refused for the working directory is done, or complained of as any operand. -/
theorem touchFile_cases (hadrift : isAdrift s t operand = false) :
    (∃ t', touchFile s now t operand = .ok (none, t')) ∨
      ∃ fault, ComplainsOf "cannot touch" operand fault ∧
        touchFile s now t operand = .error fault := by
  obtain ⟨steps, hcanonical, hpath⟩ := s.resolve_eq_render operand
  rw [touchFile, if_neg (by simp [hadrift]), hpath]
  dsimp only
  split
  · next hthere =>
    rw [Tree.touch_eq_ok_iff.mpr ⟨hthere, rfl⟩]
    exact .inl ⟨_, rfl⟩
  split
  · next hfree hdirectory =>
    rw [Tree.isDirectory, Path.parent_render hcanonical, Tree.place_render hcanonical.dropLast]
      at hdirectory
    rw [Tree.contains, Tree.get?_eq, Tree.place_render hcanonical] at hfree
    -- the root is there, so that what is missing has a name
    have hne : steps ≠ [] := Tree.ne_nil_of_find?_eq_none (by simpa using hfree)
    rw [Tree.createFile, Tree.insert_render hcanonical hne hdirectory]
    exact .inl ⟨_, rfl⟩
  · exact .inr ⟨_, .inr (.inl rfl), rfl⟩

end Command

/-! ## The commands -/

namespace OperandCommand

/-- A command that makes new entries. -/
inductive Maker where
  | mkdir (flags : Flags)
  | touch

namespace Maker

open Command

def command : Maker → OperandCommand
  | mkdir flags => .mkdir flags
  | touch => .touch

/-- What the command says that it cannot do. -/
def action : Maker → String
  | mkdir _ => "cannot create directory"
  | touch => "cannot touch"

/-- The refusal of an operand. -/
def denial (m : Maker) (operand : String) : Fault :=
  .permissionDenied (m.action ++ " '" ++ operand ++ "'")

/-- The line that is shown for it. -/
def denialLine (m : Maker) (operand : String) : String :=
  m.command.name ++ ": " ++ (m.denial operand).message

/-- The argument is an operand of the command wherever it stands. -/
def Takes (m : Maker) (operand : String) : Prop :=
  match m with
  | mkdir _ => isOption operand = false
  | touch => True

variable {m : Maker} {s : Scene} {t : Tree} {now : Timestamp} {operand : String}
  {operands : List String}

/-- In a directory that is gone, a relative operand is denied. -/
theorem step_of_adrift (h : isAdrift s t operand = true) :
    m.command.step s now t operand = .error (m.denial operand) := by
  cases m with
  | mkdir flags =>
    simp only [command, step, makeDirectory, h, if_true]
    rfl
  | touch =>
    simp only [command, step, touchFile, h, if_true]
    rfl

/-- Anywhere else it is done, or complained of. -/
theorem step_cases (m : Maker) (now : Timestamp) (h : isAdrift s t operand = false) :
    (∃ t', m.command.step s now t operand = .ok (none, t')) ∨
      ∃ fault, ComplainsOf m.action operand fault ∧
        m.command.step s now t operand = .error fault := by
  cases m with
  | mkdir flags => exact makeDirectory_cases h _
  | touch => exact touchFile_cases h

/-- The complaint about a denial ends in the word for it. -/
theorem getLast?_denialLine (m : Maker) (operand : String) :
    (m.denialLine operand).toList.getLast? = some 'd' := by
  have hend : ": Permission denied".toList.getLast? = some 'd' := by decide
  exact getLast?_append (getLast?_append hend)

/-- The complaints end in other words. -/
theorem getLast?_complaint {fault : Fault} (h : ComplainsOf m.action operand fault) :
    ∃ c, fault.message.toList.getLast? = some c ∧ c ≠ 'd' := by
  rcases h with rfl | rfl | ⟨path, rfl⟩
  · have hend : "': File exists".toList.getLast? = some 's' := by decide
    exact ⟨'s', getLast?_append hend, by decide⟩
  · have hend : "': No such file or directory".toList.getLast? = some 'y' := by decide
    exact ⟨'y', getLast?_append hend, by decide⟩
  · have hend : ": Not a directory".toList.getLast? = some 'y' := by decide
    exact ⟨'y', getLast?_append hend, by decide⟩

/-- What is not refused does not show as a refusal. -/
theorem line?_step_ne_denialLine (m : Maker) (now : Timestamp)
    (h : isAdrift s t operand = false) :
    Batch.line? m.command.name (m.command.step s now t operand) ≠ some (m.denialLine operand) := by
  rcases step_cases m now h with ⟨t', hok⟩ | ⟨fault, hfault, herror⟩
  · rw [hok]
    rintro ⟨⟩
  · obtain ⟨c, hlast, hc⟩ := getLast?_complaint hfault
    rw [herror, Batch.line?]
    intro hsame
    have hend := getLast?_denialLine m operand
    rw [← Option.some.inj hsame, getLast?_append hlast] at hend
    exact hc (Option.some.inj hend)

/-! ## All operands -/

/-- While every operand is refused, the tree stays as it is. -/
theorem inTurn_of_adrift (h : ∀ o ∈ operands, isAdrift s t o = true) :
    Batch.inTurn m.command.name (m.command.step s now) operands t =
      (operands.map m.denialLine, t) := by
  induction operands with
  | nil => rfl
  | cons operand rest ih =>
    obtain ⟨hfirst, hrest⟩ := List.forall_mem_cons.mp h
    simp only [Batch.inTurn, step_of_adrift hfirst, Batch.treeAfter, ih hrest]
    rfl

/-- The lines are those of refusals exactly if every operand is refused on the tree as it is. -/
theorem inTurn_denied_iff :
    (Batch.inTurn m.command.name (m.command.step s now) operands t).1 =
      operands.map m.denialLine ↔ ∀ o ∈ operands, isAdrift s t o = true := by
  refine ⟨fun h => ?_, fun h => by rw [inTurn_of_adrift h]⟩
  induction operands with
  | nil => exact fun _ ho => absurd ho List.not_mem_nil
  | cons operand rest ih =>
    rw [Batch.lines_inTurn_cons, List.map_cons] at h
    cases hadrift : isAdrift s t operand with
    | true =>
      rw [step_of_adrift hadrift] at h
      exact List.forall_mem_cons.mpr ⟨hadrift, ih (List.cons.inj h).2⟩
    | false =>
      have hother := line?_step_ne_denialLine m now hadrift
      cases hline : Batch.line? m.command.name (m.command.step s now t operand) with
      | some line =>
        rw [hline] at h hother
        exact absurd (congrArg some (List.cons.inj h).1) hother
      | none =>
        -- the rest of the operands would have to show one line more than there are of them
        have hshort := Batch.length_inTurn_le m.command.name (m.command.step s now) rest
          (Batch.treeAfter t (m.command.step s now t operand))
        have hlength := congrArg List.length h
        rw [hline, Option.toList_none, List.nil_append, List.length_cons, List.length_map]
          at hlength
        omega

/-! ## The dispatch -/

/-- The work of the command, as long as it has a clock. -/
theorem planned (m : Maker) :
    ∃ plan, CommandTable.stock.action m.command.name = .eachFile m.command.name plan ∧
      ∀ s operand rest, (∀ o ∈ operand :: rest, m.Takes o) →
        plan s (m.command.given ++ operand :: rest) =
          s.clock.now.map fun now => ⟨operand :: rest, m.command.step s now⟩ := by
  cases m with
  | mkdir flags =>
    refine ⟨_, rfl, fun s operand rest htakes => ?_⟩
    rw [command, given, Options.read_append flags htakes]
    cases s.clock.now <;> rfl
  | touch =>
    refine ⟨_, rfl, fun s operand rest _ => ?_⟩
    rw [command, given, List.nil_append]
    cases s.clock.now <;> rfl

theorem dispatch_maker (m : Maker) (hsome : operands ≠ [])
    (htakes : ∀ o ∈ operands, m.Takes o) :
    CommandTable.stock.dispatch (m.command.words ++ operands) s =
      match s.clock.now with
      | .error fault => (.error ⟨m.command.name, fault⟩, s)
      | .ok now =>
        let (result, t) := Batch.run m.command.name ⟨operands, m.command.step s now⟩ s.tree
        (result.mapError (⟨m.command.name, ·⟩), { s with tree := t }) := by
  obtain ⟨operand, rest, rfl⟩ := List.exists_cons_of_ne_nil hsome
  obtain ⟨plan, haction, hplan⟩ := m.planned
  have hname : m.command.name ≠ "sudo" := by cases m <;> simp [command, name]
  rw [words, List.cons_append, CommandTable.dispatch, if_neg hname, haction, Action.run,
    hplan s operand rest htakes]
  cases s.clock.now <;> rfl

/-- The working directory has been removed, and all operands are read in it.  Unless the clock
fails, each operand has its turn, and what they show is a refusal of each exactly if none of them
begins with a tilde; then nothing has changed. -/
theorem dispatch_adrift (m : Maker) (hgone : s.tree.isDirectory s.session.path = false)
    (hsome : operands ≠ []) (hrelative : ∀ o ∈ operands, IsRelative o)
    (htakes : ∀ o ∈ operands, m.Takes o) :
    let done := CommandTable.stock.dispatch (m.command.words ++ operands) s
    (∀ o ∈ operands, s.resolve o = Path.normalize s.session.path o) ∧
      match s.clock.now with
      | .error fault => done = (.error ⟨m.command.name, fault⟩, s)
      | .ok now =>
        let turns := Batch.inTurn m.command.name (m.command.step s now) operands s.tree
        shownText done.1 = unlines turns.1 ∧ done.2 = { s with tree := turns.2 } ∧
          (turns.1 = operands.map m.denialLine ↔
            ∀ o ∈ operands, startsWith '~' o = false) ∧
          ((∀ o ∈ operands, startsWith '~' o = false) → done.2 = s) := by
  intro done
  -- the check looks at the first character of a relative operand, and at no more
  have hadrift : (∀ o ∈ operands, isAdrift s s.tree o = true) ↔
      ∀ o ∈ operands, startsWith '~' o = false := by
    refine forall₂_congr fun o ho => ?_
    rw [isAdrift_eq hgone (hrelative o ho), Bool.not_eq_true']
  have hdispatch := m.dispatch_maker (s := s) hsome htakes
  refine ⟨fun o ho => (hrelative o ho).resolve s, ?_⟩
  cases hclock : s.clock.now with
  | error fault =>
    rw [hclock] at hdispatch
    exact hdispatch
  | ok now =>
    rw [hclock] at hdispatch
    obtain ⟨htext, htree⟩ := Batch.run_inTurn m.command.name m.command.step_telling operands s.tree
    have hdone : done.2 = { s with
        tree := (Batch.inTurn m.command.name (m.command.step s now) operands s.tree).2 } := by
      rw [← htree]
      exact congrArg Prod.snd hdispatch
    refine ⟨(congrArg (shownText ·.1) hdispatch).trans htext, hdone, ?_, fun hnone => ?_⟩
    · rw [inTurn_denied_iff, hadrift]
    · rw [hdone, inTurn_of_adrift (hadrift.mpr hnone)]

/-- `mkdir -p`. -/
def sampleMaker : Maker := .mkdir ⟨["-p"], by decide⟩

/-- The home directory is not in the tree, and all three ways out of it are refused. -/
theorem sample_dispatch_adrift :
    let operands := ["x", "a/~b", "../src"]
    let done := CommandTable.stock.dispatch (sampleMaker.command.words ++ operands) sampleScene
    sampleScene.tree.isDirectory sampleScene.session.path = false ∧ operands ≠ [] ∧
      (∀ o ∈ operands, IsRelative o) ∧ (∀ o ∈ operands, sampleMaker.Takes o) ∧
      (∀ o ∈ operands, startsWith '~' o = false) ∧ done.2 = sampleScene ∧
      shownText done.1 = unlines (operands.map sampleMaker.denialLine) := by
  have hgone : sampleScene.tree.isDirectory sampleScene.session.path = false := by decide +kernel
  have hrelative : ∀ o ∈ ["x", "a/~b", "../src"], IsRelative o := by decide
  have htakes : ∀ o ∈ ["x", "a/~b", "../src"], isOption o = false := by decide
  have hnone : ∀ o ∈ ["x", "a/~b", "../src"], startsWith '~' o = false := by decide
  obtain ⟨-, htext, -, hlines, hsame⟩ :=
    sampleMaker.dispatch_adrift hgone (by decide) hrelative htakes
  exact ⟨hgone, by decide, hrelative, htakes, hnone, hsame hnone,
    htext.trans (congrArg unlines (hlines.mpr hnone))⟩

/-- A name that begins with a tilde is not refused, and brings the working directory back. -/
theorem mkdir_brings_directory_back :
    (Machine.boot Machine.sampleConfig (.showing Tree.noon 60)).toOption.map (fun m =>
      let (m, s) := m.run m.newSession [.line "mkdir d", .line "cd d", .line "rm -r /home/ann/d"]
      let (output, after, _) := m.execute "mkdir -p ~x" s
      (m.tree.isDirectory s.path, output, after.tree.isDirectory s.path)) =
        some (false, .silent, true) := by
  decide +kernel

end Maker

end OperandCommand

end Userland
