/-
  What the commands leave alone.

  Of the parts of a scene that can change at all (`Part`) each command changes its own at most, and
  a line changes those of its command: the one whose name is left when variables are expanded, the
  line is split, its alias is replaced and every `sudo` before it is dropped
  (`CommandTable.commandWord?`).  The clock, the configuration and the user are never others, not
  even where `sudo` has a command run as root (`execute_sameBut`).

  The kind of an action says which part it may touch, so that the commands of the table need not be
  looked at one by one: it is enough to list those that work on the tree or on the packages, and the
  few of the table and of the shell itself that change the session are told what they change.
-/
import Userland.Command.Stock
import Userland.Proofs.Entries
import Userland.Proofs.Fault
import Userland.Proofs.Scene

namespace Userland

open Scene (SameBut)

namespace Part

/-- The commands that may change the part. -/
def commands : Part → List String
  | tree => ["mkdir", "touch", "cp", "mv", "rm", "chmod", "chown", "wget", "curl"]
  | packages => ["apt", "apt-get"]
  | path => ["cd"]
  | history => ["history"]
  | environment => ["cd", "export"]
  | aliases => ["alias", "unalias"]
  | loggedOut => ["exit", "logout"]

end Part

/-! ## The kind of an action -/

/-- The kinds of actions, by what they work on. -/
inductive Kind where
  | report
  | tree
  | packages
  | session
  deriving DecidableEq

/-- A command that goes through operands works on the tree, as one that makes a single call does. -/
def Action.kind : Action → Kind
  | .report _ => .report
  | .files _ | .eachFile .. => .tree
  | .packages _ => .packages
  | .session _ => .session

/-- May an action of the kind change the part? -/
def Kind.mayChange : Kind → Part → Prop
  | .report, _ => False
  | .tree, part => part = .tree
  | .packages, part => part = .packages
  | .session, part => part ≠ .tree ∧ part ≠ .packages

variable (s : Scene) (arguments : List String)

/-- An action that is not on the session changes what its kind says. -/
theorem Action.run_sameBut {a : Action} (h : a.kind ≠ .session) :
    SameBut a.kind.mayChange s (a.run s arguments).2 := by
  -- each kind of action has its own part of the scene, and gives back the rest
  cases a with
  | report run => exact .refl _ s
  | files run =>
    rw [Action.run]
    cases run s arguments with
    | ok result => exact SameBut.withTree s result.2
    | error fault => exact .refl _ s
  | eachFile command plan =>
    rw [Action.run]
    cases plan s arguments with
    | ok batch => exact SameBut.withTree s (batch.run command s.tree).2
    | error fault => exact .refl _ s
  | packages run =>
    rw [Action.run]
    cases run s arguments with
    | ok result => exact SameBut.withPackages s result.2
    | error fault => exact .refl _ s
  | session run => exact absurd rfl h

/-! ## Commands on the session -/

namespace Command

theorem history_effect :
    ∃ lines, (history s arguments).2 = { s.session with history := lines } := by
  rw [history]
  split
  · exact ⟨[], rfl⟩
  · exact ⟨s.session.history, rfl⟩

theorem setVariables_effect (session : Session) :
    ∃ values, (setVariables session arguments).2 = { session with environment := values } := by
  induction arguments generalizing session with
  | nil => exact ⟨session.environment, rfl⟩
  | cons argument rest ih =>
    rw [setVariables]
    split
    split
    · next name value _ _ =>
      obtain ⟨values, h⟩ := ih (value.elim session (session.setVariable name))
      refine ⟨values, ?_⟩
      rw [h]
      cases value <;> rfl
    · exact ⟨session.environment, rfl⟩

theorem exportVariables_effect :
    ∃ values, (exportVariables s arguments).2 = { s.session with environment := values } := by
  rw [exportVariables]
  split
  · exact ⟨s.session.environment, rfl⟩
  · exact setVariables_effect arguments s.session

theorem defineAlias_effect :
    ∃ aliases, (defineAlias s arguments).2 = { s.session with aliases := aliases } := by
  rw [defineAlias]
  extract_lets assignment
  split
  · exact ⟨s.session.aliases, rfl⟩
  split
  · exact ⟨s.session.aliases, rfl⟩
  · extract_lets name
    split
    · exact ⟨s.session.aliases, rfl⟩
    · exact ⟨_, rfl⟩

theorem dropAliases_effect (session : Session) :
    ∃ aliases, (dropAliases session arguments).2 = { session with aliases := aliases } := by
  induction arguments generalizing session with
  | nil => exact ⟨session.aliases, rfl⟩
  | cons name rest ih =>
    rw [dropAliases]
    split
    · obtain ⟨aliases, h⟩ := ih { session with aliases := Entries.remove session.aliases name }
      exact ⟨aliases, h⟩
    · exact ⟨session.aliases, rfl⟩

theorem unalias_effect :
    ∃ aliases, (unalias s arguments).2 = { s.session with aliases := aliases } := by
  unfold unalias
  split
  · exact ⟨s.session.aliases, rfl⟩
  · exact ⟨[], rfl⟩
  · exact dropAliases_effect arguments s.session

/-- `cd` may change the working directory and the variables that follow it. -/
theorem changeDirectory_effect {result : Output × Session}
    (h : changeDirectory s arguments = .ok result) :
    ∃ path values,
      result.2 = { s.session with path := path, environment := values } := by
  obtain ⟨⟨operand, echo⟩, -, hrest⟩ := bind_eq_ok_iff.mp h
  simp only at hrest
  split at hrest
  · cases hrest
  · cases hrest
  · cases hrest
    exact ⟨_, _, rfl⟩

end Command

/-! ## The commands of the table -/

namespace Command

/-- `cd` leaves all parts of the scene that do not name it. -/
theorem cd_sameBut : SameBut ("cd" ∈ ·.commands) s (cd.action.run s arguments).2 := by
  simp only [cd, Action.run]
  cases hcd : changeDirectory s arguments with
  | error fault => exact .refl _ s
  | ok result =>
    obtain ⟨path, values, hresult⟩ := changeDirectory_effect s arguments hcd
    simp only [hresult]
    exact SameBut.withSession s rfl (.inl (by decide)) (.inr rfl) (.inl (by decide)) (.inr rfl)
      (.inr rfl)

/-- To leave a shell is to leave all else as it is. -/
theorem exitNamed_sameBut {name : String} (h : name ∈ Part.loggedOut.commands) :
    SameBut (name ∈ ·.commands) s ((exitNamed name).action.run s arguments).2 :=
  SameBut.withSession s rfl (.inr rfl) (.inr rfl) (.inr rfl) (.inr rfl) (.inl h)

/-- The commands of the table that work on the tree are the ones that the part names. -/
theorem name_mem_of_tree :
    ∀ c ∈ stock, c.action.kind = .tree → c.name ∈ Part.tree.commands := by
  decide

theorem name_mem_of_packages :
    ∀ c ∈ stock, c.action.kind = .packages → c.name ∈ Part.packages.commands := by
  decide

/-- Only these commands of the table work on the session. -/
theorem stock_session : stock.filter (·.action.kind = .session) = [cd, exit, logout] := rfl

/-- A part that a stock command may change by its kind has the command in its list. -/
theorem mem_commands_of_mayChange {c : Command} (h : c ∈ stock) (hkind : c.action.kind ≠ .session)
    {part : Part} (hpart : c.action.kind.mayChange part) : c.name ∈ part.commands := by
  cases hc : c.action.kind with
  | report =>
    rw [hc] at hpart
    exact hpart.elim
  | tree =>
    rw [hc] at hpart
    obtain rfl : part = .tree := hpart
    exact name_mem_of_tree c h hc
  | packages =>
    rw [hc] at hpart
    obtain rfl : part = .packages := hpart
    exact name_mem_of_packages c h hc
  | session => exact absurd hc hkind

/-- A stock command changes only parts that have it in their list. -/
theorem run_sameBut {c : Command} (h : c ∈ stock) :
    SameBut (c.name ∈ ·.commands) s (c.action.run s arguments).2 := by
  by_cases hkind : c.action.kind = .session
  · have hmem : c ∈ stock.filter (·.action.kind = .session) :=
      List.mem_filter.mpr ⟨h, decide_eq_true hkind⟩
    rw [stock_session] at hmem
    simp only [List.mem_cons, List.not_mem_nil, or_false] at hmem
    rcases hmem with rfl | rfl | rfl
    · exact cd_sameBut s arguments
    · exact exitNamed_sameBut s arguments (by decide)
    · exact exitNamed_sameBut s arguments (by decide)
  · exact (c.action.run_sameBut s arguments hkind).mono fun part hpart =>
      mem_commands_of_mayChange h hkind hpart

end Command

/-! ## The dispatch -/

namespace CommandTable

/-- A command that is found in a table of some commands is one of them, under its name. -/
theorem mem_of_get?_registerAll {cs : List Command} {table : CommandTable} {name : String}
    {c : Command} (h : Entries.get? (table.registerAll cs).commands name = some c) :
    (c ∈ cs ∧ c.name = name) ∨ Entries.get? table.commands name = some c := by
  induction cs generalizing table with
  | nil => exact .inr h
  | cons first rest ih =>
    rcases ih h with ⟨hmem, hname⟩ | hfirst
    · exact .inl ⟨List.mem_cons_of_mem _ hmem, hname⟩
    by_cases hname : name = first.name
    · rw [register, hname, Entries.get?_put_self] at hfirst
      obtain rfl := Option.some.inj hfirst
      exact .inl ⟨List.mem_cons_self, hname.symm⟩
    · rw [register, Entries.get?_put_of_ne hname] at hfirst
      exact .inr hfirst

/-- What the table has under a name is a command of the stock, with this name. -/
theorem mem_of_get?_stock {name : String} {c : Command}
    (h : Entries.get? stock.commands name = some c) : c ∈ Command.stock ∧ c.name = name := by
  rcases mem_of_get?_registerAll h with hmem | hnone
  · exact hmem
  · cases hnone

/-- Whatever a word other than `sudo` stands for changes only parts that have it in their list. -/
theorem action_sameBut (name : String) :
    SameBut (name ∈ ·.commands) s ((stock.action name).run s arguments).2 := by
  -- the seven commands of the shell itself in their order, then those of the table
  unfold action
  split
  · exact .refl _ s
  · exact .refl _ s
  · obtain ⟨lines, h⟩ := Command.history_effect s arguments
    simp only [Action.run, h]
    exact SameBut.withSession s rfl (.inr rfl) (.inl (by decide)) (.inr rfl) (.inr rfl) (.inr rfl)
  · exact .refl _ s
  · obtain ⟨values, h⟩ := Command.exportVariables_effect s arguments
    simp only [Action.run, h]
    exact SameBut.withSession s rfl (.inr rfl) (.inr rfl) (.inl (by decide)) (.inr rfl) (.inr rfl)
  · obtain ⟨aliases, h⟩ := Command.defineAlias_effect s arguments
    simp only [Action.run, h]
    exact SameBut.withSession s rfl (.inr rfl) (.inr rfl) (.inr rfl) (.inl (by decide)) (.inr rfl)
  · obtain ⟨aliases, h⟩ := Command.unalias_effect s arguments
    simp only [Action.run, h]
    exact SameBut.withSession s rfl (.inr rfl) (.inr rfl) (.inr rfl) (.inl (by decide)) (.inr rfl)
  · split
    · next command hget =>
      obtain ⟨hmem, rfl⟩ := mem_of_get?_stock hget
      exact Command.run_sameBut s arguments hmem
    · exact .refl _ s

/-- The word that is left of some words when every `sudo` before it is dropped. -/
def commandOf? (words : List String) : Option String := (words.dropWhile (· = "sudo")).head?

theorem commandOf?_sudo (words : List String) :
    commandOf? ("sudo" :: words) = commandOf? words := by
  rw [commandOf?, List.dropWhile_cons_of_pos (by simp), commandOf?]

theorem commandOf?_of_ne {name : String} (h : name ≠ "sudo") (words : List String) :
    commandOf? (name :: words) = some name := by
  rw [commandOf?, List.dropWhile_cons_of_neg (by simp [h]), List.head?_cons]

/-- Running words changes only parts that have the command in their list. -/
theorem dispatch_sameBut (words : List String) :
    SameBut (fun part => ∃ name ∈ part.commands, commandOf? words = some name) s
      (stock.dispatch words s).2 := by
  -- on the words, and for every scene: `sudo` hands the rest of them on under another user
  induction words generalizing s with
  | nil => exact .refl _ s
  | cons name rest ih =>
    rw [dispatch]
    split
    · next hsudo =>
      split
      · exact .refl _ s
      · rw [hsudo, commandOf?_sudo]
        exact (ih { s with session.user := "root" }).asRoot
    · next hsudo =>
      rw [commandOf?_of_ne hsudo]
      exact (action_sameBut s rest name).mono fun part hpart => ⟨name, hpart, rfl⟩

/-! ## Lines -/

/-- The command that a line comes down to in a session. -/
def commandWord? (session : Session) (line : String) : Option String :=
  match Line.words (Line.expand session.environment line) with
  | .ok words => commandOf? (session.expandAlias words)
  | .error _ => none

/-- Every command that may change something is known. -/
theorem contains_of_mem_commands :
    ∀ part : Part, ∀ name ∈ part.commands, stock.contains name = true := by
  rintro (_ | _ | _ | _ | _ | _ | _) <;> decide

/-- A line changes only parts that have its command in their list. -/
theorem execute_sameBut (line : String) :
    SameBut (fun part => ∃ name ∈ part.commands, commandWord? s.session line = some name) s
      (stock.execute line s).2 := by
  rw [execute, commandWord?]
  cases Line.words (Line.expand s.session.environment line) with
  | ok words => exact dispatch_sameBut s (s.session.expandAlias words)
  | error fault => exact .refl _ s

/-- Whether it succeeds or fails, a line changes only parts that have its command in their list, and
a command that is not known changes nothing. -/
theorem execute_confined (line : String) :
    let after := (stock.execute line s).2
    let word? := commandWord? s.session line
    SameBut (fun part => ∃ name ∈ part.commands, word? = some name) s after ∧
      ∀ name, word? = some name → stock.contains name = false → after = s := by
  intro after word?
  have hafter := execute_sameBut s line
  refine ⟨hafter, fun name hword hunknown => hafter.eq ?_⟩
  rintro part ⟨known, hmem, hknown⟩
  obtain rfl : name = known := Option.some.inj (hword.symm.trans hknown)
  rw [contains_of_mem_commands part name hmem] at hunknown
  cases hunknown

/-- An unknown command, twice under `sudo`. -/
theorem sample_execute_confined :
    let line := "sudo sudo nosuch $HOME"
    commandWord? sampleScene.session line = some "nosuch" ∧ stock.contains "nosuch" = false ∧
      (stock.execute line sampleScene).2 = sampleScene :=
  have hword : commandWord? sampleScene.session "sudo sudo nosuch $HOME" = some "nosuch" := by
    decide +kernel
  have hunknown : stock.contains "nosuch" = false := by decide
  ⟨hword, hunknown, (execute_confined sampleScene _).2 "nosuch" hword hunknown⟩

end CommandTable

end Userland
