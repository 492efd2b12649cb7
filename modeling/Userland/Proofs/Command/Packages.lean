/-
  Several packages at once.

  1. *Program.*  The package manager is given names to install, or to remove.  It first looks for a
     name that the catalog does not have, and only if there is none does it go through the names,
     one after the other, each package being marked before the next name is looked up.

  2. *Specification.*  If a name is not known, the first such name is complained about and nothing
     has changed.  Otherwise the packages that are named have the mark and all others are what they
     were (`Marked`), and it does not matter in which order they were named nor how often.

  3. *The crux.*  Marking one name after the other comes to marking a set of names at once
     (`markEach_mark`), since a mark is the same whenever it is set; and no mark makes a name
     unknown, so that nothing fails once the first one is set.
-/
import Userland.Proofs.Command.InPlace

namespace Userland

namespace Packages

variable {ps : Packages} {name : String} {names names' : List String} {installed : Bool}
  {catalog : List Package}

/-! ## Marks for several names -/

/-- A catalog with the mark of the first package of each name set or taken away. -/
def markFirsts (installed : Bool) (names : List String) : List Package → List Package
  | [] => []
  | p :: rest =>
    (if p.name ∈ names then { p with installed } else p) ::
      markFirsts installed (names.filter (· ≠ p.name)) rest

/-- The packages with the marks of several of them set or taken away. -/
def markEach (ps : Packages) (names : List String) (installed : Bool) : Packages :=
  { ps with catalog := markFirsts installed names ps.catalog }

theorem markFirsts_nil (installed : Bool) (catalog : List Package) :
    markFirsts installed [] catalog = catalog := by
  induction catalog with
  | nil => rfl
  | cons p rest ih => rw [markFirsts, if_neg List.not_mem_nil, List.filter_nil, ih]

/-- Only which names there are counts. -/
theorem markFirsts_congr (h : ∀ name, name ∈ names ↔ name ∈ names') :
    markFirsts installed names catalog = markFirsts installed names' catalog := by
  induction catalog generalizing names names' with
  | nil => rfl
  | cons p rest ih =>
    have hrest : ∀ name, name ∈ names.filter (· ≠ p.name) ↔ name ∈ names'.filter (· ≠ p.name) := by
      intro name
      rw [List.mem_filter, List.mem_filter, h]
    rw [markFirsts, markFirsts, ih hrest]
    simp only [h]

/-- A name that has its mark already is one name more. -/
theorem markFirsts_changeFirst (installed : Bool) (name : String) (names : List String)
    (catalog : List Package) :
    markFirsts installed names (changeFirst name ({ · with installed }) catalog) =
      markFirsts installed (name :: names) catalog := by
  induction catalog generalizing names with
  | nil => rfl
  | cons p rest ih =>
    by_cases hname : p.name = name
    · rw [changeFirst, if_pos hname, markFirsts, markFirsts, hname, if_pos List.mem_cons_self,
        List.filter_cons_of_neg (by simp)]
      simp only [ite_self]
    · have hmem : p.name ∈ name :: names ↔ p.name ∈ names :=
        ⟨fun h => (List.mem_cons.mp h).resolve_left hname, List.mem_cons_of_mem name⟩
      rw [changeFirst, if_neg hname, markFirsts, markFirsts, ih,
        List.filter_cons_of_pos (by simp [Ne.symm hname])]
      simp only [hmem]

theorem markEach_nil (ps : Packages) (installed : Bool) : ps.markEach [] installed = ps :=
  congrArg (Packages.mk · ps.lastUpdate) (markFirsts_nil installed ps.catalog)

theorem markEach_mark (ps : Packages) (name : String) (names : List String) (installed : Bool) :
    (ps.mark name installed).markEach names installed = ps.markEach (name :: names) installed :=
  congrArg (Packages.mk · ps.lastUpdate)
    (markFirsts_changeFirst installed name names ps.catalog)

/-- Only which names there are counts, not their order and not how often. -/
theorem markEach_congr (h : ∀ name, name ∈ names ↔ name ∈ names') :
    ps.markEach names installed = ps.markEach names' installed :=
  congrArg (Packages.mk · ps.lastUpdate) (markFirsts_congr h)

/-! ## What several marks change -/

/-- The packages after some of them have been installed, or removed. -/
structure Marked (ps : Packages) (names : List String) (installed : Bool) (after : Packages) :
    Prop where
  /-- The order, the names, the versions and the descriptions are those of the catalog. -/
  labels : after.labels = ps.labels
  /-- What is named is installed, or is not. -/
  named : ∀ name ∈ names, after.isInstalled name = installed
  /-- Every other package is what it was; also one that is not found by its name, because another
  one of the name comes before it. -/
  others : ∀ i p, ps.catalog[i]? = some p →
    p.name ∉ names ∨ p.name ∈ (ps.catalog.take i).map (·.name) → after.catalog[i]? = some p
  lastUpdate : after.lastUpdate = ps.lastUpdate

theorem labels_markEach (ps : Packages) (names : List String) (installed : Bool) :
    (ps.markEach names installed).labels = ps.labels := by
  induction names generalizing ps with
  | nil => rw [markEach_nil]
  | cons name rest ih => rw [← markEach_mark, ih, labels_mark]

/-- Names that are known stay so when one of them is marked. -/
theorem known_mark {rest : List String} (hknown : ∀ other ∈ name :: rest, other ∈ ps.names)
    (installed : Bool) : ∀ other ∈ rest, other ∈ (ps.mark name installed).names := by
  intro other hother
  rw [names_mark]
  exact hknown other (List.mem_cons_of_mem name hother)

/-- Known names get the mark, all others keep theirs. -/
theorem isInstalled_markEach (hknown : ∀ name ∈ names, name ∈ ps.names) (installed : Bool)
    (other : String) :
    (ps.markEach names installed).isInstalled other =
      if other ∈ names then installed else ps.isInstalled other := by
  induction names generalizing ps with
  | nil => rw [markEach_nil, if_neg List.not_mem_nil]
  | cons name rest ih =>
    rw [← markEach_mark, ih (known_mark hknown installed),
      isInstalled_mark installed (hknown name List.mem_cons_self)]
    by_cases hname : other = name
    · rw [if_pos hname, ite_self, if_pos (List.mem_cons.mpr (.inl hname))]
    · simp only [List.mem_cons, hname, false_or, if_false]

/-- A package is left alone if it has no such name, or another of its name comes before it. -/
theorem getElem?_markFirsts {i : Nat} {p : Package} (hp : catalog[i]? = some p)
    (hother : p.name ∉ names ∨ p.name ∈ (catalog.take i).map (·.name)) :
    (markFirsts installed names catalog)[i]? = some p := by
  -- along the catalog: a name that has been met is not looked for any more
  induction catalog generalizing names i with
  | nil => cases hp
  | cons q rest ih =>
    rw [markFirsts]
    cases i with
    | zero =>
      obtain rfl := Option.some.inj hp
      have hnot : q.name ∉ names := hother.resolve_right List.not_mem_nil
      rw [if_neg hnot]
      rfl
    | succ i =>
      refine ih hp ?_
      rw [List.take_succ_cons, List.map_cons, List.mem_cons] at hother
      rcases hother with hnot | hfirst | hbefore
      · exact .inl fun hmem => hnot (List.mem_of_mem_filter hmem)
      · exact .inl (by simp [hfirst])
      · exact .inr hbefore

/-- The marks for some known names have done all of it. -/
theorem marked_markEach (hknown : ∀ name ∈ names, name ∈ ps.names) (installed : Bool) :
    Marked ps names installed (ps.markEach names installed) where
  labels := labels_markEach ps names installed
  named name hname := by rw [isInstalled_markEach hknown, if_pos hname]
  others _ _ hp hother := getElem?_markFirsts hp hother
  lastUpdate := rfl

end Packages

namespace Command

open Packages

/-! ## One name after the other -/

variable {operation : Packages → String → Except Fault (String × Packages)} {installed : Bool}
  {names : List String} {ps : Packages}

/-- Once all names are known, all of them are marked. -/
theorem forPackages_of_known (hmarks : Marks operation installed)
    (hknown : ∀ name ∈ names, name ∈ ps.names) :
    ∃ said, forPackages operation names ps = .ok (said, ps.markEach names installed) := by
  induction names generalizing ps with
  | nil => exact ⟨[], by rw [forPackages, markEach_nil]⟩
  | cons name rest ih =>
    obtain ⟨said, hsaid⟩ := hmarks ps name (hknown name List.mem_cons_self)
    obtain ⟨others, hothers⟩ := ih (known_mark hknown installed)
    refine ⟨said :: others, ?_⟩
    simp only [forPackages, hsaid, bind, Except.bind, hothers, markEach_mark]
    rfl

/-- On known names the command succeeds, and marks them all. -/
theorem changePackages_of_known (hmarks : Marks operation installed) (hne : names ≠ [])
    (hknown : ∀ name ∈ names, name ∈ ps.names) :
    ∃ said, changePackages operation names ps =
      .ok (.text said, ps.markEach names installed) := by
  obtain ⟨said, hall⟩ := forPackages_of_known hmarks hknown
  have hnone : names.find? (fun name => (ps.find? name).isNone) = none := by
    refine List.find?_eq_none.mpr fun name hname => ?_
    rw [Bool.not_eq_true, Option.isNone_eq_false_iff, isSome_find?_iff]
    exact hknown name hname
  refine ⟨Text.unlines said, ?_⟩
  rw [changePackages, if_neg (by simpa using hne), hnone]
  simp only [hall]
  rfl

/-- The first name that is not known is what the complaint is about. -/
theorem changePackages_of_unknown
    (operation : Packages → String → Except Fault (String × Packages))
    (hunknown : ∃ name ∈ names, name ∉ ps.names) :
    ∃ before missing rest, names = before ++ missing :: rest ∧
      (∀ name ∈ before, name ∈ ps.names) ∧ missing ∉ ps.names ∧
      changePackages operation names ps = .error (.unknownPackage missing) := by
  obtain ⟨name, hname, hnot⟩ := hunknown
  have hsome : (names.find? fun name => (ps.find? name).isNone).isSome = true := by
    refine List.find?_isSome.mpr ⟨name, hname, ?_⟩
    rw [Option.isNone_iff_eq_none, find?_eq_none hnot]
  obtain ⟨missing, hmissing⟩ := Option.isSome_iff_exists.mp hsome
  obtain ⟨hno, before, rest, hsplit, hbefore⟩ := List.find?_eq_some_iff_append.mp hmissing
  refine ⟨before, missing, rest, hsplit, fun known hmem => ?_, fun hmem => ?_, ?_⟩
  · have hthere := hbefore known hmem
    rwa [Bool.not_eq_true', Option.isNone_eq_false_iff, isSome_find?_iff] at hthere
  · rw [← isSome_find?_iff, Option.isNone_iff_eq_none.mp hno] at hmem
    cases hmem
  · rw [changePackages, if_neg (by simpa using List.ne_nil_of_mem hname), hmissing]

end Command

/-! ## The package manager -/

namespace CommandTable

open Command Packages

variable {command operation : String} {installed : Bool} {arguments names : List String}

/-- The operations that set marks or take them away. -/
def markOperations : List (String × Bool) := [("install", true), ("remove", false)]

/-- Under both of its names the package manager is the same command. -/
theorem packageManager_spec (hcommand : command ∈ ["apt", "apt-get"]) :
    command ≠ "sudo" ∧ stock.action command = .packages managePackages ∧
      ∀ arguments, work command arguments = managingPackages arguments := by
  simp only [List.mem_cons, List.not_mem_nil, or_false] at hcommand
  rcases hcommand with rfl | rfl
  · exact ⟨by decide, rfl, fun _ => rfl⟩
  · exact ⟨by decide, rfl, fun _ => rfl⟩

/-- The package manager does in place what the table tells of it. -/
theorem dispatchInPlace_packages (hcommand : command ∈ ["apt", "apt-get"]) (arguments : List String)
    (s : Scene) :
    dispatchInPlace (command :: arguments) s =
      match managePackages s arguments with
      | .ok (output, after) => (.ok output, { s with packages := after })
      | .error fault => (.error ⟨command, fault⟩, s) := by
  obtain ⟨hne, -, hwork⟩ := packageManager_spec hcommand
  rw [dispatchInPlace, if_neg hne, hwork, managingPackages_on, Action.run]
  cases managePackages s arguments <;> rfl

/-- Both names of the package manager run the program in place. -/
theorem dispatch_packages (hcommand : command ∈ ["apt", "apt-get"]) (arguments : List String)
    (s : Scene) :
    stock.dispatch (command :: arguments) s = dispatchInPlace (command :: arguments) s := by
  obtain ⟨hne, haction, hwork⟩ := packageManager_spec hcommand
  rw [dispatch, dispatchInPlace, if_neg hne, if_neg hne, hwork, managingPackages_on, haction]

/-- What one of the operations does with its names, whatever else is said. -/
theorem managePackages_of_operation (hoperation : (operation, installed) ∈ markOperations) :
    ∃ change, Marks change installed ∧ ∀ s arguments names,
      (Options.read arguments).operands = operation :: names →
        managePackages s arguments = changePackages change names s.packages := by
  have hboth : operation = "install" ∧ installed = true ∨
      operation = "remove" ∧ installed = false := by
    simpa [markOperations] using hoperation
  rcases hboth with ⟨rfl, rfl⟩ | ⟨rfl, rfl⟩
  · refine ⟨install, marks_install, fun s arguments names harguments => ?_⟩
    rw [managePackages, harguments]
    rfl
  · refine ⟨remove, marks_remove, fun s arguments names harguments => ?_⟩
    rw [managePackages, harguments]
    rfl

/-- Packages are installed or removed all or none.  If the catalog does not have all that is named,
the complaint is about the first name that it does not have, and nothing has changed.  Otherwise
each package that is named is installed, or is not any more, and nothing else is different; and any
other list of the same names, in whatever order and however often, leaves the same. -/
theorem dispatch_packages_all_or_none (s : Scene) (hcommand : command ∈ ["apt", "apt-get"])
    (hoperation : (operation, installed) ∈ markOperations)
    (harguments : (Options.read arguments).operands = operation :: names) (hnames : names ≠ []) :
    stock.dispatch (command :: arguments) s = dispatchInPlace (command :: arguments) s ∧
      ((∃ name ∈ names, name ∉ s.packages.names) →
        ∃ before missing rest, names = before ++ missing :: rest ∧
          (∀ name ∈ before, name ∈ s.packages.names) ∧ missing ∉ s.packages.names ∧
          dispatchInPlace (command :: arguments) s =
            (.error ⟨command, .unknownPackage missing⟩, s)) ∧
      ((∀ name ∈ names, name ∈ s.packages.names) →
        ∃ said after,
          dispatchInPlace (command :: arguments) s =
            (.ok (.text said), { s with packages := after }) ∧
          Marked s.packages names installed after ∧
          ∀ arguments' names', (Options.read arguments').operands = operation :: names' →
            (∀ name, name ∈ names' ↔ name ∈ names) →
              ∃ said', dispatchInPlace (command :: arguments') s =
                (.ok (.text said'), { s with packages := after })) := by
  obtain ⟨change, hmarks, hmanage⟩ := managePackages_of_operation hoperation
  -- done on any such arguments, if all of their names are known
  have hdone : ∀ arguments names, (Options.read arguments).operands = operation :: names →
      names ≠ [] → (∀ name ∈ names, name ∈ s.packages.names) →
        ∃ said, dispatchInPlace (command :: arguments) s =
          (.ok (.text said), { s with packages := s.packages.markEach names installed }) := by
    intro arguments names harguments hnames hknown
    obtain ⟨said, hchange⟩ := changePackages_of_known hmarks hnames hknown
    refine ⟨said, ?_⟩
    rw [dispatchInPlace_packages hcommand, hmanage s arguments names harguments, hchange]
  refine ⟨dispatch_packages hcommand arguments s, fun hunknown => ?_, fun hknown => ?_⟩
  · obtain ⟨before, missing, rest, hsplit, hbefore, hmissing, hchange⟩ :=
      changePackages_of_unknown change hunknown
    refine ⟨before, missing, rest, hsplit, hbefore, hmissing, ?_⟩
    rw [dispatchInPlace_packages hcommand, hmanage s arguments names harguments, hchange]
  · obtain ⟨said, hsaid⟩ := hdone arguments names harguments hnames hknown
    refine ⟨said, _, hsaid, marked_markEach hknown installed, ?_⟩
    intro arguments' names' harguments' hsame
    have hnames' : names' ≠ [] := by
      obtain ⟨name, hname⟩ := List.exists_mem_of_ne_nil names hnames
      exact List.ne_nil_of_mem ((hsame name).mpr hname)
    obtain ⟨said', hsaid'⟩ := hdone arguments' names' harguments' hnames'
      fun name hname => hknown name ((hsame name).mp hname)
    exact ⟨said', by rw [hsaid', markEach_congr hsame]⟩

/-- Of two packages to install one is not known; and two that are known are removed, one of them
twice. -/
theorem sample_dispatch_packages :
    (Options.read ["install", "-y", "htop", "nosuch"]).operands = ["install", "htop", "nosuch"] ∧
      (∃ missing, missing ∉ sampleScene.packages.names ∧
        dispatchInPlace ["apt", "install", "-y", "htop", "nosuch"] sampleScene =
          (.error ⟨"apt", .unknownPackage missing⟩, sampleScene)) ∧
      ∃ said after,
        dispatchInPlace ["apt-get", "remove", "git", "zip", "git"] sampleScene =
          (.ok (.text said), { sampleScene with packages := after }) ∧
        Marked sampleScene.packages ["git", "zip", "git"] false after ∧
        ∃ said', dispatchInPlace ["apt-get", "remove", "zip", "git"] sampleScene =
          (.ok (.text said'), { sampleScene with packages := after }) := by
  have hinstall : (Options.read ["install", "-y", "htop", "nosuch"]).operands =
      ["install", "htop", "nosuch"] := by decide
  have hremove : (Options.read ["remove", "git", "zip", "git"]).operands =
      ["remove", "git", "zip", "git"] := by decide
  have hunknown : ∃ name ∈ ["htop", "nosuch"], name ∉ sampleScene.packages.names := by decide
  have hknown : ∀ name ∈ ["git", "zip", "git"], name ∈ sampleScene.packages.names := by decide
  have hapt : "apt" ∈ ["apt", "apt-get"] := by decide
  have haptGet : "apt-get" ∈ ["apt", "apt-get"] := by decide
  have hsets : ("install", true) ∈ markOperations := by decide
  have hclears : ("remove", false) ∈ markOperations := by decide
  obtain ⟨-, hfails, -⟩ :=
    dispatch_packages_all_or_none sampleScene hapt hsets hinstall (by decide)
  obtain ⟨-, -, hdone⟩ :=
    dispatch_packages_all_or_none sampleScene haptGet hclears hremove (by decide)
  obtain ⟨before, missing, rest, -, -, hmissing, hfailed⟩ := hfails hunknown
  obtain ⟨said, after, hsaid, hmarked, hsame⟩ := hdone hknown
  refine ⟨hinstall, ⟨missing, hmissing, hfailed⟩, said, after, hsaid, hmarked, ?_⟩
  exact hsame ["remove", "zip", "git"] ["zip", "git"] (by decide) (by simp)

end CommandTable

end Userland
