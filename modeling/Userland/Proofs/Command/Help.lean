/-
  The commands in the help text and in the list of all commands.

  1. *Program.*  `register` keeps one command for each name.  `help` and the list take the commands
     of the table as they come, with those of the shell itself before or after them, and sort them
     by name; `help` does so for each category alone.

  2. *Specification.*  For the commands that some registrations leave, in whatever order the table
     hands them out (`Holds`), the answers are the same.  All commands are mentioned by name, under
     each name the one that was registered last and the one of the shell itself, side by side and in
     a fixed order, and no others (`Listed`, `help_and_listing_of_holds`).  What is listed is what
     is run: the words that the shell takes before it asks the table are those that it lists as its
     own (`dispatchToTable_iff`), and a word that is not in the list is looked for among the
     programs (`dispatch_of_not_contains`).

  3. *The crux.*  What a table holds under one name does not depend on its order
     (`filter_registered`), and the sort keeps the entries of one name in the order in which they
     are given (`filter_sortByName`).  A list in the order of its names is determined by the entries
     that it has under each name (`Listed.unique`).
-/
import Mathlib.Data.List.Perm.Basic
import Userland.CommandTable
import Userland.Proofs.Entries
import Userland.Proofs.Scene

namespace Userland

open Text

namespace CommandTable

/-! ## Entries in the order of their names -/

/-- Entries in the order of their names, with given ones under each name, side by side. -/
structure Listed (entriesOf : String → List Entry) (shown : List Entry) : Prop where
  sorted : shown.Pairwise fun a b => a.name ≤ b.name
  entries : ∀ name, shown.filter (·.name = name) = entriesOf name
  together : ∀ name, entriesOf name <:+: shown

variable {entries entries' shown shown' : List Entry} {entriesOf : String → List Entry}

/-- In a sorted list the entries of a name that none comes before stand first. -/
theorem filter_prefix_of_sorted (h : shown.Pairwise fun a b => a.name ≤ b.name) {name : String}
    (hle : ∀ e ∈ shown, name ≤ e.name) : shown.filter (·.name = name) <+: shown := by
  induction shown with
  | nil => exact List.nil_prefix
  | cons first rest ih =>
    obtain ⟨hfirst, hrest⟩ := List.pairwise_cons.mp h
    obtain ⟨hname, hle⟩ := List.forall_mem_cons.mp hle
    by_cases hsame : first.name = name
    · rw [List.filter_cons_of_pos (by simpa using hsame)]
      exact List.cons_prefix_cons.mpr ⟨rfl, ih hrest hle⟩
    · -- the names only go up from here
      have hnone : (first :: rest).filter (·.name = name) = [] := by
        rw [List.filter_eq_nil_iff]
        intro e he hmem
        have heq : e.name = name := of_decide_eq_true hmem
        rcases List.mem_cons.mp he with rfl | he
        · exact hsame heq
        · exact hsame (String.le_antisymm (heq ▸ hfirst e he) hname)
      rw [hnone]
      exact List.nil_prefix

/-- In the order of names, the entries of one name stand side by side. -/
theorem filter_infix_of_sorted (h : shown.Pairwise fun a b => a.name ≤ b.name) (name : String) :
    shown.filter (·.name = name) <:+: shown := by
  induction shown with
  | nil => exact List.nil_infix
  | cons first rest ih =>
    obtain ⟨hfirst, hrest⟩ := List.pairwise_cons.mp h
    by_cases hname : first.name = name
    · have hle : ∀ e ∈ first :: rest, name ≤ e.name :=
        List.forall_mem_cons.mpr ⟨hname ▸ String.le_refl _, fun e he => hname ▸ hfirst e he⟩
      exact (filter_prefix_of_sorted h hle).isInfix
    · rw [List.filter_cons_of_neg (by simpa using hname)]
      exact (ih hrest).trans (List.suffix_cons first rest).isInfix

/-- Lists with the same entries under each name have the same entries. -/
theorem mem_iff_of_filter_eq
    (hsame : ∀ name, shown.filter (·.name = name) = shown'.filter (·.name = name)) (e : Entry) :
    e ∈ shown ↔ e ∈ shown' := by
  have hself : e ∈ shown.filter (·.name = e.name) ↔ e ∈ shown'.filter (·.name = e.name) := by
    rw [hsame]
  simpa using hself

/-- The first of a list in the order of names has the least name. -/
theorem name_le_of_mem {first e : Entry} {rest : List Entry}
    (h : (first :: rest).Pairwise fun a b => a.name ≤ b.name) (he : e ∈ first :: rest) :
    first.name ≤ e.name := by
  rcases List.mem_cons.mp he with rfl | he
  · exact String.le_refl _
  · exact (List.pairwise_cons.mp h).1 e he

/-- A list in the order of names is determined by its entries of each name. -/
theorem eq_of_sorted_of_filter_eq (h : shown.Pairwise fun a b => a.name ≤ b.name)
    (h' : shown'.Pairwise fun a b => a.name ≤ b.name)
    (hsame : ∀ name, shown.filter (·.name = name) = shown'.filter (·.name = name)) :
    shown = shown' := by
  induction shown generalizing shown' with
  | nil =>
    have hnone : ∀ e, e ∉ shown' := fun e he =>
      List.not_mem_nil ((mem_iff_of_filter_eq hsame e).mpr he)
    exact (List.eq_nil_iff_forall_not_mem.mpr hnone).symm
  | cons first rest ih =>
    have hmem := mem_iff_of_filter_eq hsame
    cases shown' with
    | nil => exact absurd ((hmem first).mp List.mem_cons_self) List.not_mem_nil
    | cons first' rest' =>
      -- neither first entry comes before the other
      have hle : first.name ≤ first'.name := name_le_of_mem h ((hmem first').mpr List.mem_cons_self)
      have hge : first'.name ≤ first.name := name_le_of_mem h' ((hmem first).mp List.mem_cons_self)
      have hname : first'.name = first.name := String.le_antisymm hge hle
      -- under the name that both have, the first entries are the same
      have hheads := hsame first.name
      rw [List.filter_cons_of_pos (by simp), List.filter_cons_of_pos (by simp [hname]),
        List.cons.injEq] at hheads
      obtain ⟨rfl, htail⟩ := hheads
      refine congrArg (first :: ·)
        (ih (List.pairwise_cons.mp h).2 (List.pairwise_cons.mp h').2 fun name => ?_)
      have hboth := hsame name
      by_cases heq : first.name = name
      · rwa [← heq]
      · rwa [List.filter_cons_of_neg (by simpa using heq),
          List.filter_cons_of_neg (by simpa using heq)] at hboth

/-- Order and entries under each name leave no choice. -/
theorem Listed.unique (h : Listed entriesOf shown) (h' : Listed entriesOf shown') :
    shown = shown' :=
  eq_of_sorted_of_filter_eq h.sorted h'.sorted fun name =>
    (h.entries name).trans (h'.entries name).symm

/-! ## The sort -/

theorem sortByName_perm (entries : List Entry) : (sortByName entries).Perm entries :=
  List.mergeSort_perm entries _

theorem name_le_trans (a b c : Entry) (hab : decide (a.name ≤ b.name) = true)
    (hbc : decide (b.name ≤ c.name) = true) : decide (a.name ≤ c.name) = true :=
  decide_eq_true (String.le_trans (of_decide_eq_true hab) (of_decide_eq_true hbc))

theorem name_le_total (a b : Entry) :
    (decide (a.name ≤ b.name) || decide (b.name ≤ a.name)) = true := by
  simpa using String.le_total a.name b.name

theorem sortByName_sorted (entries : List Entry) :
    (sortByName entries).Pairwise fun a b => a.name ≤ b.name :=
  (List.pairwise_mergeSort name_le_trans name_le_total entries).imp of_decide_eq_true

/-- The sort leaves the entries of one name in their order. -/
theorem filter_sortByName (entries : List Entry) (name : String) :
    (sortByName entries).filter (·.name = name) = entries.filter (·.name = name) := by
  have hties : (entries.filter (·.name = name)).Pairwise
      fun a b => decide (a.name ≤ b.name) = true := by
    refine List.pairwise_of_forall_mem_list fun a ha b hb => ?_
    have ha' : a.name = name := of_decide_eq_true (List.mem_filter.mp ha).2
    have hb' : b.name = name := of_decide_eq_true (List.mem_filter.mp hb).2
    rw [ha', hb']
    exact decide_eq_true (String.le_refl name)
  have hkept : (entries.filter (·.name = name)).Sublist (sortByName entries) :=
    List.sublist_mergeSort name_le_trans name_le_total hties List.filter_sublist
  have hfiltered := hkept.filter (·.name = name)
  rw [List.filter_filter] at hfiltered
  simp only [Bool.and_self] at hfiltered
  exact (hfiltered.eq_of_length ((sortByName_perm entries).filter _).length_eq.symm).symm

/-- The sort is stable: entries of one name keep their order. -/
theorem listed_sortByName (entries : List Entry) :
    Listed (fun name => entries.filter (·.name = name)) (sortByName entries) where
  sorted := sortByName_sorted entries
  entries := filter_sortByName entries
  together name := by
    rw [← filter_sortByName]
    exact filter_infix_of_sorted (sortByName_sorted entries) name

/-! ## What a table holds under a name -/

/-- Each command is in the table under its own name, and once. -/
structure Keyed (t : CommandTable) : Prop where
  named : ∀ e ∈ t.commands, e.2.name = e.1
  distinct : (Entries.names t.commands).Nodup

/-- The table holds what registering some commands one after the other leaves, in some order. -/
def Holds (t : CommandTable) (cs : List Command) : Prop :=
  t.commands.Perm (empty.registerAll cs).commands

/-- The command of a name that was given last. -/
def lastNamed (cs : List Command) (name : String) : Option Command :=
  (cs.filter (·.name = name)).getLast?

variable {t t' : CommandTable} {cs : List Command} {name : String}

/-- **The step.** -/
theorem Keyed.register (h : Keyed t) (c : Command) : Keyed (t.register c) where
  named e he := by
    rcases Entries.mem_put he with rfl | he
    · rfl
    · exact h.named e he
  distinct := Entries.nodup_names_put h.distinct c.name c

/-- Registration goes by the name, one after the other. -/
theorem Keyed.registerAll (h : Keyed t) (cs : List Command) : Keyed (t.registerAll cs) := by
  induction cs generalizing t with
  | nil => exact h
  | cons c rest ih => exact ih (h.register c)

/-- Under each name the table holds what was registered last under it. -/
theorem get?_registerAll (t : CommandTable) (cs : List Command) (name : String) :
    Entries.get? (t.registerAll cs).commands name =
      (lastNamed cs name).or (Entries.get? t.commands name) := by
  induction cs generalizing t with
  | nil => rfl
  | cons c rest ih =>
    refine (ih (t.register c)).trans ?_
    rw [lastNamed, lastNamed, CommandTable.register]
    by_cases hname : c.name = name
    · rw [List.filter_cons_of_pos (by simpa using hname), List.getLast?_cons, hname,
        Entries.get?_put_self]
      cases (rest.filter (·.name = name)).getLast? <;> rfl
    · rw [List.filter_cons_of_neg (by simpa using hname), Entries.get?_put_of_ne (Ne.symm hname)]

theorem keyed_empty : Keyed empty :=
  ⟨fun _ he => absurd he List.not_mem_nil, List.nodup_nil⟩

theorem Holds.keyed (h : Holds t cs) : Keyed t := by
  have hkeyed := keyed_empty.registerAll cs
  exact ⟨fun e he => hkeyed.named e (h.mem_iff.mp he),
    (h.map Prod.fst).nodup_iff.mpr hkeyed.distinct⟩

/-- Under each name, the table holds the command that was registered last. -/
theorem Holds.get?_eq (h : Holds t cs) (name : String) :
    Entries.get? t.commands name = lastNamed cs name := by
  have hkeyed := keyed_empty.registerAll cs
  have hlast := get?_registerAll empty cs name
  rw [show Entries.get? empty.commands name = none from rfl, Option.or_none] at hlast
  rw [← hlast]
  ext c
  constructor
  · intro hc
    exact Entries.get?_of_mem hkeyed.distinct (h.mem_iff.mp (Entries.mem_of_get? hc))
  · intro hc
    exact Entries.get?_of_mem h.keyed.distinct (h.mem_iff.mpr (Entries.mem_of_get? hc))

/-- What is said about the commands of a name is said of the one that the table holds. -/
theorem Keyed.filter_registered (h : Keyed t) (name : String) :
    t.registered.filter (·.name = name) =
      ((Entries.get? t.commands name).map (·.toEntry)).toList := by
  obtain ⟨commands⟩ := t
  obtain ⟨hnamed, hdistinct⟩ := h
  change (commands.map (·.2.toEntry)).filter (·.name = name) = _
  -- names differ, so that under each of them there is one command at most
  induction commands with
  | nil => rfl
  | cons e rest ih =>
    obtain ⟨hfirst, hnamed⟩ := List.forall_mem_cons.mp hnamed
    obtain ⟨hfresh, hdistinct⟩ := List.nodup_cons.mp hdistinct
    have hrest := ih hnamed hdistinct
    rw [List.map_cons, Entries.get?]
    by_cases hname : e.1 = name
    · have hnone : Entries.get? rest name = none := Entries.get?_eq_none_iff.mpr (hname ▸ hfresh)
      change _ = ((Entries.get? rest name).map (·.toEntry)).toList at hrest
      rw [hnone] at hrest
      rw [if_pos hname, List.filter_cons_of_pos (by simp [hfirst, hname]), hrest]
      rfl
    · rw [if_neg hname, List.filter_cons_of_neg (by simp [hfirst, hname])]
      exact hrest

/-! ## What is said under a name -/

/-- What is said of a name that commands were registered under: that of the last of them. -/
def ofTable (cs : List Command) (name : String) : List Entry :=
  ((lastNamed cs name).map (·.toEntry)).toList

/-- What is said of a name of the shell itself. -/
def ofShell (name : String) : List Entry := builtins.filter (·.name = name)

/-- Under each name the table says what the command says that it holds there. -/
theorem Holds.filter_registered (h : Holds t cs) (name : String) :
    t.registered.filter (·.name = name) = ofTable cs name := by
  rw [h.keyed.filter_registered, h.get?_eq, ofTable]

/-- In the help the shell has its say under a name first, and then the table. -/
theorem Holds.filter_help (h : Holds t cs) (name : String) :
    (builtins ++ t.registered).filter (·.name = name) = ofShell name ++ ofTable cs name := by
  rw [List.filter_append, h.filter_registered, ofShell]

/-- In the listing both are sorted, and what the shell says comes after. -/
theorem Holds.listed_listing (h : Holds t cs) :
    Listed (fun name => ofTable cs name ++ ofShell name) t.listing := by
  have hlisted := listed_sortByName (t.registered ++ builtins)
  simp only [List.filter_append, h.filter_registered] at hlisted
  exact hlisted

/-! ## The help text -/

/-- The entries of one category, in the order of their names. -/
def inCategory (t : CommandTable) (c : Category) : List Entry :=
  sortByName ((builtins ++ t.registered).filter (·.category = c))

/-- Each section of the help is sorted, and has the entries of its category. -/
theorem Holds.listed_inCategory (h : Holds t cs) (c : Category) :
    Listed (fun name => (ofShell name ++ ofTable cs name).filter (·.category = c))
      (t.inCategory c) := by
  have hlisted := listed_sortByName ((builtins ++ t.registered).filter (·.category = c))
  simp only [List.filter_comm (fun e : Entry => decide (e.name = _)), h.filter_help] at hlisted
  exact hlisted

/-- A section of the help text: the title and one row for each entry, or nothing at all. -/
def sectionRows (c : Category) (shown : List Entry) : List String :=
  if shown = [] then []
  else "" :: (c.title ++ ":") ::
    shown.map fun e => "  " ++ alignLeft 32 e.usage ++ " - " ++ e.description

/-- The help text with some entries shown under each category. -/
def helpText (shown : Category → List Entry) : String :=
  unlines ("Available commands:" :: (Category.all.flatMap fun c => sectionRows c (shown c))
    ++ ["", "Type 'help <command>' for details."])

theorem helpSection_eq (t : CommandTable) (c : Category) :
    helpSection (builtins ++ t.registered) c = sectionRows c (t.inCategory c) := by
  have hempty : t.inCategory c = [] ↔
      ((builtins ++ t.registered).filter (·.category = c)).isEmpty = true := by
    rw [List.isEmpty_iff, inCategory, ← List.length_eq_zero_iff, (sortByName_perm _).length_eq,
      List.length_eq_zero_iff]
  rw [helpSection, sectionRows]
  simp only [hempty]
  rfl

theorem help_nil (t : CommandTable) : t.help [] = .ok (.text (helpText t.inCategory)) := by
  rw [help, helpText, funext (helpSection_eq t)]

/-- What is said on a topic is the first that is said under its name. -/
theorem Holds.help_cons (h : Holds t cs) (topic : String) (more : List String) :
    t.help (topic :: more) = match (ofShell topic ++ ofTable cs topic).head? with
      | some e => .ok (.text (topicText e))
      | none => .error (.usage ("no help topics match '" ++ topic ++ "'")) := by
  rw [← h.filter_help, List.head?_filter]
  rfl

theorem dispatch_help (t : CommandTable) (arguments : List String) (s : Scene) :
    t.dispatch ("help" :: arguments) s = ((t.help arguments).mapError (⟨"help", ·⟩), s) := rfl

/-- In the sections, each entry is there as often as it is there at all. -/
theorem flatMap_filter_category_perm (entries : List Entry) :
    (Category.all.flatMap fun c => entries.filter (·.category = c)).Perm entries := by
  rw [List.perm_iff_count]
  intro e
  have hcount : ∀ c, (entries.filter (·.category = c)).count e =
      if e.category = c then entries.count e else 0 := by
    intro c
    split
    · next hc => exact List.count_filter (by simpa using hc)
    · next hc =>
      exact List.count_eq_zero.mpr fun he => hc (by simpa using (List.mem_filter.mp he).2)
  rw [List.count_flatMap]
  simp only [Category.all, List.map_cons, List.map_nil, Function.comp_apply, hcount]
  cases e.category <;> simp

/-- The sections together have the entries of the listing. -/
theorem flatMap_inCategory_perm (t : CommandTable) :
    (Category.all.flatMap t.inCategory).Perm t.listing :=
  calc
    List.Perm (Category.all.flatMap t.inCategory)
        (Category.all.flatMap fun c => (builtins ++ t.registered).filter (·.category = c)) :=
      List.Perm.flatMap_left _ fun _ _ => sortByName_perm _
    List.Perm _ (builtins ++ t.registered) := flatMap_filter_category_perm _
    List.Perm _ (t.registered ++ builtins) := List.perm_append_comm
    List.Perm _ t.listing := (sortByName_perm _).symm

/-- Registrations with a name twice and a name of the shell itself. -/
def sampleCommands : List Command :=
  [⟨⟨"note", "note <text>", "Take a note", .programming⟩, .report fun _ _ => .ok .silent⟩,
   ⟨⟨"env", "env", "Environment", .utilities⟩, .report fun _ _ => .ok .silent⟩,
   ⟨⟨"note", "note [text]", "Take or show a note", .network⟩, .report fun _ _ => .ok .silent⟩]

example : ofTable sampleCommands "note" ++ ofShell "note" =
    [⟨"note", "note [text]", "Take or show a note", .network⟩] := by decide

/-! ## What is listed is what is run -/

/-- What a word stands for if only the table is asked: the command of that name, or a program. -/
def tableAction (t : CommandTable) (name : String) : Action :=
  match Entries.get? t.commands name with
  | some command => command.action
  | none => .report (Command.runProgram name)

/-- What comes of a word and its arguments then. -/
def dispatchToTable (t : CommandTable) (name : String) (arguments : List String) (s : Scene) :
    Except Failure Output × Scene :=
  let (result, after) := (t.tableAction name).run s arguments
  (result.mapError (⟨name, ·⟩), after)

/-- The table is asked for every word that is none of the shell itself. -/
theorem dispatch_of_not_builtin (h : name ∉ builtins.map (·.name)) (t : CommandTable)
    (arguments : List String) (s : Scene) :
    t.dispatch (name :: arguments) s = t.dispatchToTable name arguments s := by
  simp only [builtins, List.map_cons, List.map_nil, List.mem_cons, List.not_mem_nil, or_false,
    not_or] at h
  obtain ⟨hhelp, hwhich, hhistory, henv, hexport, halias, hunalias, hsudo⟩ := h
  have haction : t.action name = t.tableAction name := by
    unfold action
    split <;> first | contradiction | rfl
  rw [dispatch, if_neg hsudo, haction]
  rfl

/-- Without arguments, no command of the shell itself ends the session. -/
theorem dispatch_builtin_ne_exit (h : name ∈ builtins.map (·.name)) (t : CommandTable) (s : Scene) :
    (t.dispatch [name] s).1 ≠ .ok .exit := by
  simp only [builtins, List.map_cons, List.map_nil, List.mem_cons, List.not_mem_nil,
    or_false] at h
  intro hexit
  rcases h with rfl | rfl | rfl | rfl | rfl | rfl | rfl | rfl
  · rw [dispatch_help, help_nil] at hexit
    cases hexit
  · cases hexit
  · have hlines : ∃ lines, (t.dispatch ["history"] s).1 = .ok (.ofLines lines) := ⟨_, rfl⟩
    obtain ⟨lines, hlines⟩ := hlines
    rw [hlines, Output.ofLines] at hexit
    split at hexit <;> cases hexit
  · cases hexit
  · cases hexit
  · cases hexit
  · cases hexit
  · cases hexit

/-- The table alone decides what a word comes to, whatever is in it and whatever the arguments and
the scene are, if and only if the word is none of those that the shell lists as its own. -/
theorem dispatchToTable_iff :
    (∀ (t : CommandTable) (arguments : List String) (s : Scene),
        t.dispatch (name :: arguments) s = t.dispatchToTable name arguments s) ↔
      name ∉ builtins.map (·.name) := by
  refine ⟨fun hall hmem => ?_, fun h t arguments s => dispatch_of_not_builtin h t arguments s⟩
  -- a table in which the word would end the session
  let quit : Command := ⟨⟨name, name, "Quit", .utilities⟩, .report fun _ _ => .ok .exit⟩
  have htable : ((empty.register quit).dispatchToTable name [] sampleScene).1 = .ok .exit := by
    rw [dispatchToTable, tableAction, register, Entries.get?_put_self]
    rfl
  rw [← hall] at htable
  exact dispatch_builtin_ne_exit hmem _ _ htable

/-- The words that are listed are the commands that there are. -/
theorem Keyed.mem_listing_iff (h : Keyed t) :
    (∃ e ∈ t.listing, e.name = name) ↔ t.contains name = true := by
  have hperm := sortByName_perm (t.registered ++ builtins)
  simp only [listing, hperm.mem_iff, List.mem_append, or_and_right, exists_or]
  rw [contains, Bool.or_eq_true, List.any_eq_true]
  simp only [decide_eq_true_eq]
  refine or_congr ⟨?_, ?_⟩ Iff.rfl
  · rintro ⟨e, he, rfl⟩
    obtain ⟨⟨key, command⟩, hmem, rfl⟩ := List.mem_map.mp he
    have hkey : command.name = key := h.named _ hmem
    rw [← Entries.mem_names_iff, hkey]
    exact Entries.mem_names_of_mem hmem
  · intro hsome
    obtain ⟨command, hget⟩ := Option.isSome_iff_exists.mp hsome
    have hmem := Entries.mem_of_get? hget
    exact ⟨command.toEntry, List.mem_map.mpr ⟨_, hmem, rfl⟩, h.named _ hmem⟩

/-- Every other word is looked for among the programs. -/
theorem dispatch_of_not_contains (h : t.contains name = false) (arguments : List String)
    (s : Scene) :
    t.dispatch (name :: arguments) s =
      ((Command.runProgram name s arguments).mapError (⟨name, ·⟩), s) := by
  rw [contains, Bool.or_eq_false_iff, Option.isSome_eq_false_iff, Option.isNone_iff_eq_none] at h
  have hshell : name ∉ builtins.map (·.name) := by
    intro hmem
    obtain ⟨e, he, rfl⟩ := List.mem_map.mp hmem
    exact absurd (decide_eq_true rfl) (List.any_eq_false.mp h.2 e he)
  rw [dispatch_of_not_builtin hshell, dispatchToTable, tableAction, h.1]
  rfl

end CommandTable

end Userland
