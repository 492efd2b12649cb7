/-
  What a session is at every time.

  1. *Program.*  A machine runs lines for a session (`Machine.execute`), and between two lines time
     passes and other sessions work on the machine (`Event`, `Machine.run`).

  2. *Specification* (`Session.Sound`).  The working directory is absolute and has its one
     spelling, and the variable for it agrees; the user is the configured one; variables have
     identifiers for names, aliases have names without slashes, and the history holds lines without
     blanks around them.

  3. *The crux.*  A line may make the session disagree with itself, for a while: `export PWD=x` sets
     the variable, and under `sudo` the user is root.  What every command keeps is less
     (`Session.Tidy`), and the end of the line makes up for the rest: `sudo` gives the user back,
     and the machine sets the variable and remembers the line.  The working directory changes only
     by `cd`, which goes to normalized paths, whatever `HOME` and `OLDPWD` have been set to.
-/
import Mathlib.Data.List.DropRight
import Userland.Machine
import Userland.Proofs.Command.Frame
import Userland.Proofs.Config
import Userland.Proofs.Entries

namespace Userland

open Text

/-! ## Names and lines -/

/-- A letter of the Latin alphabet, or an underscore. -/
def IsLetter (c : Char) : Prop := 'A' ≤ c ∧ c ≤ 'Z' ∨ 'a' ≤ c ∧ c ≤ 'z' ∨ c = '_'

/-- Letters and digits, and no digit first. -/
def IsIdentifier (name : String) : Prop :=
  ∃ c cs, name.toList = c :: cs ∧ IsLetter c ∧ ∀ d ∈ cs, IsLetter d ∨ '0' ≤ d ∧ d ≤ '9'

/-- Neither the first nor the last character is blank. -/
def Trimmed (line : String) : Prop :=
  (∀ c ∈ line.toList.head?, isBlank c = false) ∧ ∀ c ∈ line.toList.getLast?, isBlank c = false

/-- The letters of the specification are those that the program asks for. -/
theorem isLetter_iff {c : Char} : IsLetter c ↔ c.isAlpha = true ∨ c = '_' := by
  have hranges : c.isAlpha =
      (decide ('A' ≤ c ∧ c ≤ 'Z') || decide ('a' ≤ c) && decide (c ≤ 'z')) := rfl
  simp only [IsLetter, hranges, Bool.or_eq_true, Bool.and_eq_true, decide_eq_true_eq, or_assoc]

/-- What `export` lets through is an identifier. -/
theorem isIdentifier_of_command {name : String} (h : Command.isIdentifier name = true) :
    IsIdentifier name := by
  rw [Command.isIdentifier] at h
  split at h
  · cases h
  · next c cs hchars =>
    simp only [Bool.and_eq_true, Bool.or_eq_true, decide_eq_true_eq, List.all_eq_true,
      Char.isAlphanum] at h
    refine ⟨c, cs, hchars, isLetter_iff.mpr h.1, fun d hd => ?_⟩
    rcases h.2 d hd with (halpha | hdigit) | hunderscore
    · exact .inl (isLetter_iff.mpr (.inl halpha))
    · simp only [Char.isDigit, Bool.and_eq_true, decide_eq_true_eq] at hdigit
      exact .inr hdigit
    · exact .inl (isLetter_iff.mpr (.inr hunderscore))

theorem isIdentifier_iff {name : String} :
    Command.isIdentifier name = true ↔ IsIdentifier name := by
  refine ⟨isIdentifier_of_command, ?_⟩
  rintro ⟨c, cs, hchars, hletter, hmore⟩
  simp only [Command.isIdentifier, hchars, Bool.and_eq_true, Bool.or_eq_true, decide_eq_true_eq,
    List.all_eq_true, Char.isAlphanum]
  refine ⟨isLetter_iff.mp hletter, fun d hd => ?_⟩
  rcases hmore d hd with hletter | hdigit
  · exact (isLetter_iff.mp hletter).imp_left .inl
  · have hisDigit : d.isDigit = true := by
      simp only [Char.isDigit, Bool.and_eq_true, decide_eq_true_eq]
      exact hdigit
    exact .inl (.inr hisDigit)

theorem isIdentifier_pwd : IsIdentifier "PWD" := isIdentifier_of_command (by decide)

theorem isIdentifier_oldpwd : IsIdentifier "OLDPWD" := isIdentifier_of_command (by decide)

/-- After trimming there are no blanks at the ends. -/
theorem trimmed_trim (line : String) : Trimmed (trim line) := by
  have hstrip : (trim line).toList = (line.toList.dropWhile isBlank).rdropWhile isBlank := by
    rw [trim, String.toList_ofList]
    rfl
  rw [Trimmed, hstrip]
  constructor
  · intro c hc
    -- what is left has the first character of what the first cut left
    obtain ⟨more, hmore⟩ := List.rdropWhile_prefix isBlank (line.toList.dropWhile isBlank)
    have hhead : c ∈ (line.toList.dropWhile isBlank).head? := by
      rw [← hmore]
      exact List.mem_head?_append_of_mem_head? hc
    have hnot := List.head?_dropWhile_not isBlank line.toList
    rw [hhead] at hnot
    exact hnot
  · intro c hc
    obtain ⟨hne, rfl⟩ := List.mem_getLast?_eq_getLast hc
    have hnot := List.rdropWhile_last_not isBlank (line.toList.dropWhile isBlank) hne
    exact Bool.eq_false_iff.mpr hnot

/-- Only blanks are trimmed away whole. -/
theorem Text.trim_eq_empty_iff {line : String} :
    trim line = "" ↔ ∀ c ∈ line.toList, isBlank c = true := by
  rw [trim, String.ofList_eq_empty_iff]
  have hstrip : stripWhile isBlank line.toList = [] ↔
      ∀ c ∈ line.toList.dropWhile isBlank, isBlank c = true := List.rdropWhile_eq_nil_iff
  rw [hstrip]
  refine ⟨fun h c hc => ?_, fun h c hc => h c ((List.dropWhile_sublist _).subset hc)⟩
  rw [← List.takeWhile_append_dropWhile (p := isBlank) (l := line.toList)] at hc
  exact (List.mem_append.mp hc).elim List.mem_takeWhile_imp (h c)

/-! ## What a path on a command line means -/

namespace Session

variable (s : Session)

/-- Without a slash in it, only a single tilde is the home directory. -/
theorem expandTilde_of_no_slash {text : String} (hslash : '/' ∉ text.toList)
    (hne : text ≠ "~") : s.expandTilde text = text := by
  have hnone : after? "~/" text = none := by
    rw [Option.eq_none_iff_forall_ne_some]
    intro rest hrest
    rw [Path.after?_eq_some_iff] at hrest
    refine hslash ?_
    rw [hrest, String.toList_append]
    exact List.mem_append_left _ (by decide)
  rw [expandTilde, if_neg hne, hnone]

/-- A part without slashes leads one step on, or back, or nowhere. -/
theorem resolve_part {part : String} (hslash : '/' ∉ part.toList) (hne : part ≠ "~") :
    s.resolve part = Path.render (Path.walk (Path.steps "/" s.path) part) := by
  rw [resolve, s.expandTilde_of_no_slash hslash hne, Path.normalize, Path.steps_part s.path hslash]

/-- A tilde alone is the home directory. -/
theorem expandTilde_home : s.expandTilde "~" = s.home := if_pos rfl

/-- A tilde with a slash stands for the home directory, and the slash is kept. -/
theorem expandTilde_below_home (rest : String) :
    s.expandTilde ("~/" ++ rest) = s.home ++ "/" ++ rest := by
  have hne : "~/" ++ rest ≠ "~" := by
    intro h
    have hlist := congrArg String.toList h
    rw [String.toList_append] at hlist
    exact absurd (congrArg List.length hlist) (by simp)
  rw [expandTilde, if_neg hne, Path.after?_eq_some_iff.mpr rfl]

/-- A text that does not begin with the tilde of the home directory is taken as it is, whatever
stands behind it. -/
theorem expandTilde_plain_append {start : String} (hsome : start ≠ "") (hhome : start ≠ "~")
    (hbelow : ∀ rest, start ≠ "~/" ++ rest) (b : String) :
    s.expandTilde (start ++ b) = start ++ b := by
  obtain ⟨c, cs, hstart⟩ :=
    List.exists_cons_of_ne_nil fun h => hsome (String.toList_eq_nil_iff.mp h)
  have hchars : (start ++ b).toList = c :: (cs ++ b.toList) := by
    rw [String.toList_append, hstart, List.cons_append]
  -- a tilde alone would be all of `start`
  have halone : ¬ (c = '~' ∧ cs = []) := by
    rintro ⟨rfl, rfl⟩
    exact hhome (String.toList_inj.mp hstart)
  have hne : start ++ b ≠ "~" := by
    intro h
    rw [h] at hchars
    obtain ⟨hc, hrest⟩ := List.cons.inj hchars
    exact halone ⟨hc.symm, (List.append_eq_nil_iff.mp hrest.symm).1⟩
  have hafter : after? "~/" (start ++ b) = none := by
    refine Option.eq_none_iff_forall_ne_some.mpr fun rest h => ?_
    rw [Path.after?_eq_some_iff] at h
    have htilde : "~/".toList = ['~', '/'] := rfl
    rw [h, String.toList_append, htilde, List.cons_append] at hchars
    obtain ⟨hc, hrest⟩ := List.cons.inj hchars
    cases cs with
    | nil => exact halone ⟨hc.symm, rfl⟩
    | cons d ds =>
      obtain ⟨hd, -⟩ := List.cons.inj hrest
      refine hbelow (String.ofList ds) (String.toList_inj.mp ?_)
      rw [hstart, ← hc, ← hd, String.toList_append, htilde, String.toList_ofList]
      rfl
  rw [expandTilde, if_neg hne, hafter]

end Session

/-! ## What commands keep -/

/-- What every command keeps of a session. -/
structure Session.Tidy (s : Session) : Prop where
  /-- The working directory is told from the root on. -/
  absolute : startsWith '/' s.path = true
  /-- It is in its one spelling. -/
  normalized : Path.normalize "/" s.path = s.path
  /-- Only identifiers can be expanded on a line. -/
  identifiers : ∀ name ∈ Entries.names s.environment, IsIdentifier name
  /-- Neither nothing nor a text with a slash is a name of an alias. -/
  aliases : ∀ name ∈ Entries.names s.aliases, name ≠ "" ∧ '/' ∉ name.toList
  /-- Lines are remembered as they were run. -/
  history : ∀ line ∈ s.history, line ≠ "" ∧ Trimmed line

namespace Session.Tidy

variable {s : Session}

/-- A variable may get any value, as long as its name is an identifier. -/
theorem setVariable (h : s.Tidy) {name : String} (hname : IsIdentifier name) (value : String) :
    (s.setVariable name value).Tidy := by
  refine { h with identifiers := fun other hother => ?_ }
  rcases Entries.mem_names_put.mp hother with rfl | hold
  · exact hname
  · exact h.identifiers other hold

/-- The working directory may be written into its variable at any time. -/
theorem syncPath (h : s.Tidy) : s.syncPath.Tidy := h.setVariable isIdentifier_pwd s.path

/-- Any text may be gone to, since it is normalized first. -/
theorem changeDirectory (h : s.Tidy) (cwd input : String) :
    (s.changeDirectory (Path.normalize cwd input)).Tidy := by
  have hmoved : ({ s with path := Path.normalize cwd input } : Session).Tidy :=
    { h with
      absolute := Path.startsWith_render _
      normalized := Path.normalize_normalize "/" cwd input }
  exact (hmoved.setVariable isIdentifier_oldpwd s.path).syncPath

/-- A line may be remembered if it is trimmed and not blank. -/
theorem record (h : s.Tidy) {line : String} (hline : line ≠ "" ∧ Trimmed line) :
    (s.record line).Tidy := by
  refine { h with history := fun other hother => ?_ }
  rcases List.mem_append.mp hother with hold | hnew
  · exact h.history other hold
  · rw [List.mem_singleton.mp hnew]
    exact hline

/-- Who the user is makes no difference. -/
theorem withUser (h : s.Tidy) (user : String) : ({ s with user := user } : Session).Tidy :=
  { h with }

end Session.Tidy

namespace Command

variable {s : Scene} (arguments : List String)

theorem history_tidy (h : s.session.Tidy) : (history s arguments).2.Tidy := by
  rw [history]
  split
  · exact { h with history := fun _ hmem => by cases hmem }
  · exact h

/-- The assignments that come before one that is refused are made, each under an identifier. -/
theorem setVariables_tidy {session : Session} (h : session.Tidy) :
    (setVariables session arguments).2.Tidy := by
  induction arguments generalizing session with
  | nil => exact h
  | cons argument rest ih =>
    rw [setVariables]
    split
    next name value _ =>
    split
    · next hname =>
      -- a name without a value is only checked
      refine ih ?_
      cases value with
      | none => exact h
      | some value => exact h.setVariable (isIdentifier_of_command hname) value
    · exact h

/-- Without arguments `export` only lists. -/
theorem exportVariables_tidy (h : s.session.Tidy) : (exportVariables s arguments).2.Tidy := by
  rw [exportVariables]
  split
  · exact h
  · exact setVariables_tidy arguments h

/-- A name is checked before it becomes an alias. -/
theorem defineAlias_tidy (h : s.session.Tidy) : (defineAlias s arguments).2.Tidy := by
  rw [defineAlias]
  extract_lets assignment
  split
  · exact h
  split
  · exact h
  · extract_lets name
    split
    · exact h
    · next hname =>
      refine { h with aliases := fun other hother => ?_ }
      rcases Entries.mem_names_put.mp hother with rfl | hold
      · exact not_or.mp hname
      · exact h.aliases other hold

/-- The aliases that come before one that is unknown are dropped. -/
theorem dropAliases_tidy {session : Session} (h : session.Tidy) :
    (dropAliases session arguments).2.Tidy := by
  induction arguments generalizing session with
  | nil => exact h
  | cons name rest ih =>
    rw [dropAliases]
    split
    · refine ih { h with aliases := fun other hother => ?_ }
      exact h.aliases other (Entries.mem_names_of_mem_names_remove hother)
    · exact h

theorem unalias_tidy (h : s.session.Tidy) : (unalias s arguments).2.Tidy := by
  unfold unalias
  split
  · exact h
  · exact { h with aliases := fun _ hmem => by cases hmem }
  · exact dropAliases_tidy arguments h

/-- Wherever `cd` goes, it goes to a normalized path. -/
theorem cd_tidy (h : s.session.Tidy) : (cd.action.run s arguments).2.session.Tidy := by
  simp only [cd, Action.run]
  cases hcd : changeDirectory s arguments with
  | error fault => exact h
  | ok result =>
    obtain ⟨⟨operand, echo⟩, -, hrest⟩ := bind_eq_ok_iff.mp hcd
    simp only at hrest
    split at hrest
    · cases hrest
    · cases hrest
    · cases hrest
      exact h.changeDirectory s.session.path (s.session.expandTilde operand)

end Command

/-! ## Words and lines -/

namespace CommandTable

variable {s : Scene}

/-- Five commands work on the session; all others leave every part of it that is checked here. -/
theorem action_tidy (h : s.session.Tidy) (name : String) (arguments : List String) :
    ((stock.action name).run s arguments).2.session.Tidy := by
  by_cases hname : name ∈ ["cd", "history", "export", "alias", "unalias"]
  · simp only [List.mem_cons, List.not_mem_nil, or_false] at hname
    rcases hname with rfl | rfl | rfl | rfl | rfl
    · exact Command.cd_tidy arguments h
    · exact Command.history_tidy arguments h
    · exact Command.exportVariables_tidy arguments h
    · exact Command.defineAlias_tidy arguments h
    · exact Command.unalias_tidy arguments h
  · -- of the four parts that are asked about, each is changed by some of the five commands only
    have hsame := action_sameBut s arguments name
    simp only [List.mem_cons, List.not_mem_nil, or_false, not_or] at hname
    have hpath := hsame.parts .path (by simp [Part.commands, hname])
    have henvironment := hsame.parts .environment (by simp [Part.commands, hname])
    have haliases := hsame.parts .aliases (by simp [Part.commands, hname])
    have hhistory := hsame.parts .history (by simp [Part.commands, hname])
    simp only [Part.Same] at hpath henvironment haliases hhistory
    constructor
    · rw [hpath]
      exact h.absolute
    · rw [hpath]
      exact h.normalized
    · rw [henvironment]
      exact h.identifiers
    · rw [haliases]
      exact h.aliases
    · rw [hhistory]
      exact h.history

/-- With any number of `sudo` in front. -/
theorem dispatch_tidy (h : s.session.Tidy) (words : List String) :
    (stock.dispatch words s).2.session.Tidy := by
  -- on the words, and for every scene: `sudo` hands the rest of them on under another user
  induction words generalizing s with
  | nil => exact h
  | cons name rest ih =>
    rw [dispatch]
    split
    · split
      · exact h
      · exact (ih (s := { s with session.user := "root" }) (h.withUser "root")).withUser _
    · exact action_tidy h name rest

/-- Whatever the line is, and also if it fails. -/
theorem execute_tidy (h : s.session.Tidy) (line : String) :
    (stock.execute line s).2.session.Tidy := by
  rw [execute]
  cases Line.words (Line.expand s.session.environment line) with
  | error fault => exact h
  | ok words => exact dispatch_tidy h (s.session.expandAlias words)

end CommandTable

/-! ## Runs -/

/-- What a session is at every time. -/
structure Session.Sound (c : Config) (s : Session) : Prop extends Session.Tidy s where
  /-- The variable agrees with the working directory. -/
  pwd : s.value? "PWD" = some s.path
  /-- No `sudo` outlasts its line. -/
  user : s.user = c.user

/-- A new session is sound. -/
theorem Session.sound_ofConfig {c : Config} (h : Path.IsName c.user) :
    (Session.ofConfig c).Sound c := by
  have hhome := c.home_eq_render
  constructor
  · constructor
    · show startsWith '/' c.home = true
      rw [hhome]
      exact Path.startsWith_render c.homeSteps
    · show Path.normalize "/" c.home = c.home
      rw [hhome, Path.normalize, Path.steps_render "/" (Config.canonical_homeSteps h)]
    · intro name hname
      refine isIdentifier_of_command ?_
      have hnames : name ∈ ["HOME", "USER", "PATH", "SHELL", "TERM", "LANG", "PWD"] := hname
      -- the variables that a session starts with have fixed names
      have hall : ∀ known ∈ ["HOME", "USER", "PATH", "SHELL", "TERM", "LANG", "PWD"],
          Command.isIdentifier known = true := by decide
      exact hall name hnames
    · show ∀ name ∈ Entries.names stockAliases, _
      decide
    · intro line hline
      cases hline
  · rfl
  · rfl

/-- What happens while a session is in use. -/
inductive Event where
  /-- A line is typed. -/
  | line (text : String)
  /-- Time passes, and others change the tree and the packages. -/
  | meanwhile (tree : Tree) (packages : Packages) (clock : Clock)

namespace Machine

/-- The machine and the session after an event. -/
def step (m : Machine) (s : Session) : Event → Machine × Session
  | .line text => (m.execute text s).2
  | .meanwhile tree packages clock => ({ m with tree, packages, clock }, s)

/-- The machine and the session after some events. -/
def run (m : Machine) (s : Session) : List Event → Machine × Session
  | [] => (m, s)
  | event :: rest => (m.step s event).1.run (m.step s event).2 rest

variable {c : Config} {m : Machine} {s : Session}

/-- A line that is run leaves the session sound: its variable is set, its line remembered. -/
theorem execute_sound (hm : m.commands = .stock) (h : s.Sound c) (line : String) :
    (m.execute line s).2.2.Sound c := by
  rw [execute, hm]
  split
  · exact h
  · next hline =>
    have htidy := CommandTable.execute_tidy (s := m.scene s) h.toTidy (trim line)
    have huser := (CommandTable.execute_sameBut (m.scene s) (trim line)).user
    generalize CommandTable.stock.execute (trim line) (m.scene s) = done at htidy huser ⊢
    obtain ⟨result, after⟩ := done
    -- the variable for the working directory may be wrong in `after`, and is set here
    have hsynced : after.session.syncPath.Tidy := Session.Tidy.syncPath htidy
    exact ⟨hsynced.record ⟨hline, trimmed_trim line⟩, Entries.get?_put_self _ _ _,
      huser.trans h.user⟩

/-- A line does not change which commands there are. -/
theorem execute_commands (m : Machine) (line : String) (s : Session) :
    (m.execute line s).2.1.commands = m.commands := by
  rw [execute]
  split <;> rfl

/-- No event changes which commands there are. -/
theorem step_commands (m : Machine) (s : Session) (event : Event) :
    (m.step s event).1.commands = m.commands := by
  cases event with
  | line text => exact execute_commands m text s
  | meanwhile tree packages clock => rfl

/-- **The step.**  Every event leaves the session sound; what others do does not reach it. -/
theorem step_sound (hm : m.commands = .stock) (h : s.Sound c) (event : Event) :
    (m.step s event).1.commands = .stock ∧ (m.step s event).2.Sound c := by
  refine ⟨(step_commands m s event).trans hm, ?_⟩
  cases event with
  | line text => exact execute_sound hm h text
  | meanwhile tree packages clock => exact h

/-- **The run.**  On a machine with the stock commands. -/
theorem run_sound (hm : m.commands = .stock) (h : s.Sound c) (events : List Event) :
    (m.run s events).2.Sound c := by
  induction events generalizing m s with
  | nil => exact h
  | cons event rest ih =>
    obtain ⟨hcommands, hsound⟩ := step_sound hm h event
    exact ih hcommands hsound

/-- A machine that has been started has the stock commands and the configuration it was given. -/
theorem commands_of_boot {clock : Clock} (h : boot c clock = .ok m) :
    m.commands = .stock ∧ m.config = c := by
  obtain ⟨now, -, hrest⟩ := bind_eq_ok_iff.mp h
  obtain ⟨tree, -, hdone⟩ := bind_eq_ok_iff.mp hrest
  cases hdone
  exact ⟨rfl, rfl⟩

/-- A machine that has been started has the stock commands and gives out sound sessions. -/
theorem sound_of_boot {clock : Clock} (hconfig : c.problem? = none)
    (hboot : boot c clock = .ok m) : m.commands = .stock ∧ m.newSession.Sound c := by
  obtain ⟨hcommands, hconfigured⟩ := commands_of_boot hboot
  refine ⟨hcommands, ?_⟩
  rw [newSession, hconfigured]
  exact Session.sound_ofConfig (Config.isName_user hconfig)

/-- A session that has been in use for a while is sound. -/
theorem sound_of_run {clock : Clock} (hconfig : c.problem? = none)
    (hboot : boot c clock = .ok m) {events : List Event} {now : Machine}
    (hrun : m.run m.newSession events = (now, s)) : s.Sound c := by
  obtain ⟨hcommands, hnew⟩ := sound_of_boot hconfig hboot
  have hall := run_sound hcommands hnew events
  rwa [hrun] at hall

/-- On a machine with any configuration that has no problem, a session is sound at every time,
whatever lines are typed and whatever happens to the machine meanwhile. -/
theorem newSession_sound {clock : Clock} (hconfig : c.problem? = none)
    (hboot : boot c clock = .ok m) (events : List Event) :
    (m.run m.newSession events).2.Sound c := by
  obtain ⟨hcommands, hnew⟩ := sound_of_boot hconfig hboot
  exact run_sound hcommands hnew events

/-- Lines that work against the session. -/
def sampleEvents : List Event :=
  [.line "export PWD=/nowhere HOME=../ann/./ OLDPWD=x//..", .line " cd -  ", .line "cd ~/../..",
    .meanwhile (.empty Tree.noon) .stock (.failing "no time"), .line "sudo sudo cd",
    .line "alias ' 'a b' '='x'", .line "export 1x=y", .line "", .line "history -c"]

def sampleConfig : Config := { user := "ann" }

/-- A session of this machine after these lines. -/
theorem sample_newSession_sound :
    sampleConfig.problem? = none ∧
      ∃ m, boot sampleConfig (.showing Tree.noon 60) = .ok m ∧
        (m.run m.newSession sampleEvents).2.Sound sampleConfig := by
  have hconfig : sampleConfig.problem? = none := by decide
  have hboots : (boot sampleConfig (.showing Tree.noon 60)).toOption.isSome = true := by
    decide +kernel
  refine ⟨hconfig, ?_⟩
  cases hboot : boot sampleConfig (.showing Tree.noon 60) with
  | error fault =>
    rw [hboot] at hboots
    cases hboots
  | ok m => exact ⟨m, rfl, newSession_sound hconfig hboot sampleEvents⟩

end Machine

end Userland
