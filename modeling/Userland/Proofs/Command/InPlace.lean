/-
  The commands done in place.

  The table tells of a command that it changes the tree or the packages as a whole or not at all.
  On a machine there is one scene, and a command works on it step by step: it checks its operands,
  reads the clock, has the tree make, copy or move something in place, marks one package after the
  other; and `sudo` writes root into the session and its user back afterwards.  Here the commands
  of more than one step are written so (`Work`), and where a step fails the scene stays as it stands
  then.

  On a well-formed tree both tell the same of every line, of its answer and of the scene after it
  (`executeInPlace_eq`).  What may fail comes before the first change, and after it nothing does:
  the tree fails before it changes by its own laws (`Tree.copyInPlace_eq` and the like), directories
  are made on a tree that stays well-formed from operand to operand, and marking a package makes no
  package unknown.
-/
import Userland.Proofs.Command.Batch
import Userland.Proofs.Command.Frame
import Userland.Proofs.Packages

namespace Userland

/-! ## Work -/

/-- Work on a scene, step by step: what it comes to, and the scene as it stands then. -/
abbrev Work : Type → Type := ExceptT Fault (StateM Scene)

/-- What comes of a change that is made as a whole or not at all. -/
def Scene.wholly {α σ : Type} (s : Scene) (put : σ → Scene) :
    Except Fault (α × σ) → Except Fault α × Scene
  | .ok (answer, after) => (.ok answer, put after)
  | .error fault => (.error fault, s)

namespace Work

variable {α β : Type}

/-- Does the work on a scene. -/
def on (w : Work α) (s : Scene) : Except Fault α × Scene := w.run.run s

/-- A check, which changes nothing. -/
def check (x : Except Fault α) : Work α := ExceptT.mk (pure x)

/-- A step on the tree there is. -/
def onTree (step : Tree → Except Fault α × Tree) : Work α :=
  ExceptT.mk fun s => let (result, t) := step s.tree; (result, { s with tree := t })

/-- A change of the packages as a whole. -/
def onPackages (change : Packages → Except Fault (α × Packages)) : Work α :=
  ExceptT.mk fun s => s.wholly (fun ps => { s with packages := ps }) (change s.packages)

/-- What an action of the table does. -/
def ofAction (a : Action) (arguments : List String) : Work Output :=
  ExceptT.mk fun s => a.run s arguments

/-- The second step runs on what the first leaves, and not at all if that fails. -/
theorem on_bind (w : Work α) (f : α → Work β) (s : Scene) :
    (w >>= f).on s = match w.on s with
      | (.ok a, after) => (f a).on after
      | (.error fault, after) => (.error fault, after) := by
  show (match w.on s with | (result, after) => ExceptT.bindCont f result after) = _
  rcases w.on s with ⟨_ | _, after⟩ <;> rfl

theorem onTree_on (step : Tree → Except Fault α × Tree) (s : Scene) :
    (onTree step).on s = ((step s.tree).1, { s with tree := (step s.tree).2 }) := rfl

theorem get_bind (f : Scene → Work β) (s : Scene) : (get >>= f).on s = (f s).on s := rfl

theorem check_ok_bind (a : α) (f : α → Work β) (s : Scene) :
    (check (.ok a) >>= f).on s = (f a).on s := rfl

variable {s : Scene} {σ : Type} {put : σ → Scene}

/-- Work that begins with a check comes to a change as a whole if the rest of it does. -/
theorem check_bind {x : Except Fault α} {f : α → Work β} {g : α → Except Fault (β × σ)}
    (hrest : ∀ a, (f a).on s = s.wholly put (g a)) :
    (check x >>= f).on s = s.wholly put (x >>= g) := by
  cases x with
  | error fault => rfl
  | ok a => exact hrest a

/-- So does work that ends with a step that changes the tree as a whole. -/
theorem onTree_bind {step : Tree → Except Fault α × Tree} {whole : Except Fault (α × Tree)}
    (hstep : step s.tree = s.tree.atOnce whole) (answer : α → β) :
    (onTree step >>= fun a => pure (answer a)).on s =
      s.wholly (fun t => { s with tree := t })
        (whole >>= fun (a, t) => pure (answer a, t)) := by
  rw [on_bind, onTree_on, hstep]
  cases whole <;> rfl

/-- A single change of the tree, done as a whole or not at all, is a sequence of plain steps. -/
theorem onTree_atOnceUnit_bind (change : Tree → Except Fault Tree) (answer : β) :
    (onTree (fun t => t.atOnceUnit (change t)) >>= fun _ => pure answer).on s =
      s.wholly (fun t => { s with tree := t }) (change s.tree >>= fun t => pure (answer, t)) := by
  rw [on_bind, onTree_on]
  cases change s.tree <;> rfl

end Work

/-- A plain command on the tree is done as a whole or not at all. -/
theorem Action.run_files (run : Scene → List String → Except Fault (Output × Tree)) (s : Scene)
    (arguments : List String) :
    (Action.files run).run s arguments =
      s.wholly (fun t => { s with tree := t }) (run s arguments) := by
  rw [Action.run]
  cases run s arguments <;> rfl

theorem Action.run_packages (run : Scene → List String → Except Fault (Output × Packages))
    (s : Scene) (arguments : List String) :
    (Action.packages run).run s arguments =
      s.wholly (fun ps => { s with packages := ps }) (run s arguments) := by
  rw [Action.run]
  cases run s arguments <;> rfl

namespace Batch

/-! ## Operands in place -/

variable (command : String)

/-- Works through operands on one tree, which a failing step leaves as it stands. -/
def runInPlaceFrom (step : Tree → String → Except Fault (Option String) × Tree) :
    List String → Shown → Tree → Except Fault Shown × Tree
  | [], shown, t => (.ok shown, t)
  | operand :: rest, shown, t =>
    match step t operand with
    | (.ok line, t) =>
      runInPlaceFrom step rest { shown with lines := shown.lines ++ line.toList } t
    | (.error fault, t) =>
      if fault.isAnswer then
        runInPlaceFrom step rest
          ⟨shown.lines ++ [command ++ ": " ++ fault.message], some fault⟩ t
      else (.error fault, t)

/-- Does the work of a command in place. -/
def runInPlace (operands : List String)
    (step : Tree → String → Except Fault (Option String) × Tree) (t : Tree) :
    Except Fault Output × Tree :=
  match runInPlaceFrom command step operands ⟨[], none⟩ t with
  | (.ok shown, t) => (conclude shown, t)
  | (.error fault, t) => (.error fault, t)

variable {inPlace : Tree → String → Except Fault (Option String) × Tree} {step : Step}

/-- Steps that do in place what is done as a whole, and keep the tree well-formed, do so for all
operands in turn. -/
theorem runInPlaceFrom_eq
    (hstep : ∀ t operand, t.WellFormed → inPlace t operand = t.atOnce (step t operand))
    (hkeeps : ∀ t operand line t', t.WellFormed → step t operand = .ok (line, t') →
      t'.WellFormed)
    (operands : List String) (shown : Shown) {t : Tree} (ht : t.WellFormed) :
    runInPlaceFrom command inPlace operands shown t = runFrom command step operands shown t := by
  induction operands generalizing shown t with
  | nil => rfl
  | cons operand rest ih =>
    rw [runInPlaceFrom, runFrom, hstep t operand ht]
    cases hresult : step t operand with
    | ok result =>
      exact ih _ (hkeeps t operand result.1 result.2 ht hresult)
    | error fault =>
      simp only [Tree.atOnce, ih _ ht]

end Batch

namespace Command

open Work

variable {s : Scene} (arguments : List String)

/-! ## Copying, moving and downloading -/

/-- Copies in place, after all that can be refused. -/
def copying : Work Output := do
  let s ← get
  let o := Options.read arguments
  let (source, destination) ← check (sourceAndDestination o.operands)
  let (start, meant) ← check (checkTransfer s source destination fun shown =>
    "cannot copy a directory, '" ++ source ++ "', into itself, '" ++ shown ++ "'")
  let recursive := o.has 'r' || o.has 'R' || o.has 'a'
  let now ← check s.clock.now
  let _ ← onTree (·.copyInPlace start meant recursive now)
  return .text ("cp: copied '" ++ source ++ "' to '" ++ destination ++ "'")

/-- Moves in place, after all that can be refused. -/
def moving : Work Output := do
  let s ← get
  let (source, destination) ← check (sourceAndDestination (Options.read arguments).operands)
  let (start, meant) ← check (checkTransfer s source destination fun shown =>
    "cannot move '" ++ source ++ "' to a subdirectory of itself, '" ++ shown ++ "'")
  let _ ← onTree (·.moveInPlace start meant)
  return .text ("mv: moved '" ++ source ++ "' to '" ++ destination ++ "'")

/-- Downloads, and writes the file in place. -/
def downloading (name : String) (target? : List String → String → Option String) : Work Output := do
  let s ← get
  match lastAddress? none arguments with
  | none => throw (.usage "missing URL")
  | some url =>
    let progress :=
      [name ++ ": downloading from " ++ url ++ "...", name ++ ": download completed (simulated)"]
    match target? arguments url with
    | none => return .text (Text.unlines progress)
    | some target =>
      let path := s.resolve target
      if !s.tree.isDirectory (Path.parent path) then throw (.notFound target)
      else
        let now ← check s.clock.now
        let body := "<!-- " ++ url ++ " (simulated download) -->"
        onTree fun t => t.atOnceUnit (t.write path body s.session.user now)
        return .text (Text.unlines
          (progress ++ [name ++ ": saved '" ++ Path.fileName path ++ "'"]))

theorem copying_on (h : s.tree.WellFormed) :
    (copying arguments).on s = cp.action.run s arguments := by
  rw [copying, get_bind, cp]
  refine Eq.trans ?_ (Action.run_files _ s arguments).symm
  refine check_bind ?_
  rintro ⟨source, destination⟩
  refine check_bind ?_
  rintro ⟨start, meant⟩
  refine check_bind fun now => ?_
  exact onTree_bind (Tree.copyInPlace_eq h start meant _ now) _

theorem moving_on (h : s.tree.WellFormed) :
    (moving arguments).on s = mv.action.run s arguments := by
  rw [moving, get_bind, mv]
  refine Eq.trans ?_ (Action.run_files _ s arguments).symm
  refine check_bind ?_
  rintro ⟨source, destination⟩
  refine check_bind ?_
  rintro ⟨start, meant⟩
  exact onTree_bind (Tree.moveInPlace_eq h start meant) _

theorem downloading_on (name : String) (target? : List String → String → Option String) :
    (downloading arguments name target?).on s =
      (Action.files (download name target?)).run s arguments := by
  rw [downloading, Action.run_files, download, get_bind]
  cases lastAddress? none arguments with
  | none => rfl
  | some url =>
    simp only
    cases target? arguments url with
    | none => rfl
    | some target =>
      simp only
      split
      · rfl
      · refine check_bind fun now => ?_
        exact onTree_atOnceUnit_bind _ _

/-! ## Making directories -/

/-- Makes the directory that an operand means, and those above it on the way. -/
def makingDirectory (s : Scene) (now : Timestamp) (parents : Bool) (t : Tree) (operand : String) :
    Except Fault (Option String) × Tree :=
  if isAdrift s t operand then
    (.error (.permissionDenied ("cannot create directory '" ++ operand ++ "'")), t)
  else if parents then
    let (result, t) := t.createDirectoriesInPlace (s.resolve operand) s.session.user now
    (result.map fun _ => none, t)
  else t.atOnce (makeDirectory s now false t operand)

/-- One operand is done as a whole or not at all, also with the directories above it. -/
theorem makingDirectory_eq {t : Tree} (ht : t.WellFormed) (now : Timestamp) (parents : Bool)
    (operand : String) :
    makingDirectory s now parents t operand = t.atOnce (makeDirectory s now parents t operand) := by
  cases parents with
  | false =>
    rw [makingDirectory]
    split
    · next hadrift =>
      rw [makeDirectory, if_pos hadrift]
      rfl
    · rfl
  | true =>
    rw [makingDirectory, if_pos rfl, Tree.createDirectoriesInPlace_eq ht, makeDirectory]
    split
    · rfl
    · extract_lets path
      rw [if_pos rfl]
      cases t.createDirectories path s.session.user now <;> rfl

/-- An operand leaves a well-formed tree for the next. -/
theorem wellFormed_of_makeDirectory {t t' : Tree} (ht : t.WellFormed) {now : Timestamp}
    {parents : Bool} {operand : String} {line : Option String}
    (h : makeDirectory s now parents t operand = .ok (line, t')) : t'.WellFormed := by
  rw [makeDirectory] at h
  extract_lets path at h
  split at h
  · cases h
  split at h
  · obtain ⟨made, hmade, hdone⟩ := bind_eq_ok_iff.mp h
    cases hdone
    exact ht.createDirectoriesFrom Path.canonical_nil (Tree.canonical_place path) hmade
  split at h
  · cases h
  split at h
  · cases h
  · obtain ⟨made, hmade, hdone⟩ := bind_eq_ok_iff.mp h
    cases hdone
    exact ht.createDirectory hmade

/-- Makes the directories of the operands, in place and in turn. -/
def makingDirectories : Work Output := do
  let s ← get
  let o := Options.read arguments
  if o.operands.isEmpty then throw .missingOperand
  else
    let now ← check s.clock.now
    onTree (Batch.runInPlace "mkdir" o.operands (makingDirectory s now (o.has 'p')))

/-- The batch does what the table has under the name. -/
theorem makingDirectories_on (h : s.tree.WellFormed) :
    (makingDirectories arguments).on s = mkdir.action.run s arguments := by
  rw [makingDirectories, get_bind]
  simp only [mkdir, Action.run]
  split
  · rfl
  · cases s.clock.now with
    | error fault => rfl
    | ok now =>
      have hrun := Batch.runInPlaceFrom_eq "mkdir"
        (fun t operand ht =>
          makingDirectory_eq (s := s) ht now ((Options.read arguments).has 'p') operand)
        (fun t operand line t' ht hmade => wellFormed_of_makeDirectory ht hmade)
        (Options.read arguments).operands ⟨[], none⟩ h
      rw [check_ok_bind, onTree_on, Batch.runInPlace, hrun]
      rfl

end Command

/-! ## Packages -/

namespace Packages

/-- Such an operation never fails on a package that is known, and makes no package unknown. -/
def Sure (operation : Packages → String → Except Fault (String × Packages)) : Prop :=
  ∀ ps name, (ps.find? name).isSome = true →
    ∃ said ps', operation ps name = .ok (said, ps') ∧
      ∀ other, (ps'.find? other).isSome = (ps.find? other).isSome

theorem isSome_find?_mark (ps : Packages) (name : String) (installed : Bool) (other : String) :
    ((ps.mark name installed).find? other).isSome = (ps.find? other).isSome := by
  rw [Bool.eq_iff_iff, isSome_find?_iff, isSome_find?_iff, names_mark]

/-- What only marks cannot fail on a known package. -/
theorem Marks.sure {operation : Packages → String → Except Fault (String × Packages)}
    {installed : Bool} (h : Marks operation installed) : Sure operation := by
  intro ps name hknown
  obtain ⟨said, hsaid⟩ := h ps name (isSome_find?_iff.mp hknown)
  exact ⟨said, ps.mark name installed, hsaid, isSome_find?_mark ps name installed⟩

end Packages

namespace Command

open Work

variable {s : Scene} (arguments : List String)

/-- Applies an operation to each package in turn; each is done before the next is looked at. -/
def eachPackage (operation : Packages → String → Except Fault (String × Packages)) :
    List String → Work (List String)
  | [] => return []
  | name :: rest => do
    let said ← onPackages (operation · name)
    let others ← eachPackage operation rest
    return said :: others

/-- Marks packages one by one, after all of them are known. -/
def changingPackages (operation : Packages → String → Except Fault (String × Packages))
    (names : List String) : Work Output := do
  if names.isEmpty then return .text "E: Missing package name"
  else
    let s ← get
    match names.find? fun name => (s.packages.find? name).isNone with
    | some missing => throw (.unknownPackage missing)
    | none =>
      let said ← eachPackage operation names
      return .text (Text.unlines said)

/-- The package manager; all but three of its operations only look. -/
def managingPackages : Work Output := do
  let s ← get
  match (Options.read arguments).operands with
  | "update" :: _ =>
    let now ← check s.clock.now
    let said ← onPackages fun ps => .ok (ps.update now)
    return .text said
  | "install" :: names => changingPackages Packages.install names
  | "remove" :: names => changingPackages Packages.remove names
  | _ => check ((managePackages s arguments).map (·.1))

variable {operation : Packages → String → Except Fault (String × Packages)} {names : List String}

/-- Once all names are known, nothing fails on the way. -/
theorem eachPackage_on (hsure : Packages.Sure operation)
    (hknown : ∀ name ∈ names, (s.packages.find? name).isSome = true) :
    ∃ said ps', forPackages operation names s.packages = .ok (said, ps') ∧
      (eachPackage operation names).on s = (.ok said, { s with packages := ps' }) := by
  -- on the names, for every scene: the first of them leaves other packages to the rest
  induction names generalizing s with
  | nil => exact ⟨[], s.packages, rfl, rfl⟩
  | cons name rest ih =>
    obtain ⟨said, ps', hdone, hsame⟩ := hsure s.packages name (hknown name List.mem_cons_self)
    have hrest : ∀ other ∈ rest, (ps'.find? other).isSome = true := by
      intro other hother
      rw [hsame other]
      exact hknown other (List.mem_cons_of_mem name hother)
    obtain ⟨others, after, hothers, hon⟩ := ih (s := { s with packages := ps' }) hrest
    refine ⟨said :: others, after, ?_, ?_⟩
    · simp only [forPackages, hdone, bind, Except.bind, hothers]
      rfl
    · have hfirst : (onPackages (operation · name)).on s =
          (.ok said, { s with packages := ps' }) := by
        show s.wholly _ (operation s.packages name) = _
        rw [hdone]
        rfl
      rw [eachPackage, on_bind, hfirst]
      simp only
      rw [on_bind, hon]
      rfl

/-- Since they stay known, no mark fails. -/
theorem changingPackages_on (hsure : Packages.Sure operation) (names : List String) :
    (changingPackages operation names).on s =
      s.wholly (fun ps => { s with packages := ps })
        (changePackages operation names s.packages) := by
  rw [changingPackages, changePackages]
  split
  · rfl
  rw [get_bind]
  cases hmissing : names.find? fun name => (s.packages.find? name).isNone with
  | some missing => rfl
  | none =>
    have hknown : ∀ name ∈ names, (s.packages.find? name).isSome = true := by
      intro name hname
      have hnot := List.find?_eq_none.mp hmissing name hname
      rw [Option.isNone_iff_eq_none] at hnot
      exact Option.isSome_iff_ne_none.mpr hnot
    obtain ⟨said, ps', hall, hon⟩ := eachPackage_on hsure hknown
    simp only [on_bind, hon, hall]
    rfl

theorem managingPackages_on :
    (managingPackages arguments).on s = (Action.packages managePackages).run s arguments := by
  rw [managingPackages, Action.run_packages, get_bind]
  generalize hwhole : managePackages s arguments = whole
  rw [managePackages] at hwhole
  cases hoperands : (Options.read arguments).operands with
  | nil =>
    rw [hoperands] at hwhole
    subst hwhole
    rfl
  | cons operation names =>
    simp only [hoperands] at hwhole
    -- the operations in the order in which the table looks for them
    split at hwhole
    · subst hwhole
      cases s.clock.now <;> rfl
    · subst hwhole
      rfl
    · subst hwhole
      exact changingPackages_on Packages.marks_install.sure names
    · subst hwhole
      exact changingPackages_on Packages.marks_remove.sure names
    · subst hwhole
      rfl
    · subst hwhole
      rfl
    · subst hwhole
      rfl
    · next hupdate hupgrade hinstall hremove hsearch hlist hshow =>
      subst hwhole
      split
      · next heq =>
        cases heq
        exact absurd rfl hupdate
      · next heq =>
        cases heq
        exact absurd rfl hinstall
      · next heq =>
        cases heq
        exact absurd rfl hremove
      · rfl

end Command

/-! ## Lines -/

namespace CommandTable

open Command Work

/-- What a word other than `sudo` stands for, done in place. -/
def work (name : String) (arguments : List String) : Work Output :=
  match name with
  | "mkdir" => makingDirectories arguments
  | "cp" => copying arguments
  | "mv" => moving arguments
  | "wget" => downloading arguments "wget" fun _ url => some (remoteName url)
  | "curl" => downloading arguments "curl" curlTarget?
  | "apt" => managingPackages arguments
  | "apt-get" => managingPackages arguments
  | name => ofAction (stock.action name) arguments

/-- Runs words in place.  `sudo` makes the user of the session root, and the user again when the
rest has come to its end or failed. -/
def dispatchInPlace : List String → Scene → Except Failure Output × Scene
  | [], s => (.ok .silent, s)
  | name :: arguments, s =>
    if name = "sudo" then
      if arguments.isEmpty then (.error ⟨"sudo", .usage "missing command"⟩, s)
      else
        let user := s.session.user
        let (result, s) := dispatchInPlace arguments { s with session.user := "root" }
        (result.map (afterPassword user), { s with session.user := user })
    else
      let (result, s) := (work name arguments).on s
      (result.mapError (⟨name, ·⟩), s)

/-- Runs a line in place. -/
def executeInPlace (line : String) (s : Scene) : Except Failure Output × Scene :=
  match Line.words (Line.expand s.session.environment line) with
  | .error fault => (.error ⟨"bash", fault⟩, s)
  | .ok words => dispatchInPlace (s.session.expandAlias words) s

variable {s : Scene}

/-- Whatever the command, its work does what the table has under the name. -/
theorem work_on (h : s.tree.WellFormed) (name : String) (arguments : List String) :
    (work name arguments).on s = (stock.action name).run s arguments := by
  unfold work
  split
  · exact makingDirectories_on arguments h
  · exact copying_on arguments h
  · exact moving_on arguments h
  · exact downloading_on arguments "wget" _
  · exact downloading_on arguments "curl" _
  · exact managingPackages_on arguments
  · exact managingPackages_on arguments
  · rfl

/-- Words that are run in place come to the same as on the table. -/
theorem dispatchInPlace_eq (h : s.tree.WellFormed) (words : List String) :
    dispatchInPlace words s = stock.dispatch words s := by
  -- on the words, and for every scene with such a tree: `sudo` changes only the user in it
  induction words generalizing s with
  | nil => rfl
  | cons name rest ih =>
    have hroot := ih (s := { s with session.user := "root" }) h
    rw [dispatchInPlace, dispatch, work_on h, hroot]

/-- On a well-formed tree a line that is done in place answers what the table makes of it, and
leaves the same scene. -/
theorem executeInPlace_eq (h : s.tree.WellFormed) (line : String) :
    executeInPlace line s = stock.execute line s := by
  rw [executeInPlace, execute]
  cases Line.words (Line.expand s.session.environment line) with
  | error fault => rfl
  | ok words => exact dispatchInPlace_eq h (s.session.expandAlias words)

end CommandTable

end Userland
