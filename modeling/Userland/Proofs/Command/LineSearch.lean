/-
  Searching a file for lines, and for all other lines.

  1. *Program.*  `grep` goes through the lines of a file once, keeps those that the pattern is in,
     or under `-v` those that it is not in, and shows them, or how many they are.

  2. *Specification.*  With the numbers shown, the lines that are found and those that are found
     under `-v` are all lines of the file, each in one of the two answers, in order and with the
     number that it has in the file, and the pattern is in the former and not in the latter.  With
     `-c` the answer is the number of rows that the same search shows without it
     (`CommandTable.grep_partitions`).

  3. *The crux.*  Whether a line is selected is decided for each line alone, and `-v` turns the
     decision around (`LineFilter.selects_invert`); the other options are about what is shown.  No
     row has a line feed in it, since the lines have none, so that the rows can be told apart and
     counted on the terminal; and a number has no colon in it, so that a row can be cut.
-/
import Userland.Command.Stock
import Userland.Proofs.Scene
import Userland.Proofs.Text
import Userland.Proofs.Tree.Write
import Userland.Terminal

namespace Userland

open Text

/-! ## Rows on a terminal -/

/-- On a terminal rows are written one below the other. -/
theorem Terminal.shown_ofLines (t : Terminal) (rows : List String) :
    t.shown (.ofLines rows) = Text.written rows := by
  by_cases hnone : rows = []
  · rw [hnone]
    rfl
  · rw [Output.ofLines, if_neg (by simpa using hnone)]
    exact Text.unlines_newline hnone

/-- The words are answered with some rows, each of which is one row on a terminal, and change
nothing. -/
structure Scene.Shows (s : Scene) (words rows : List String) : Prop where
  run : ∃ output, CommandTable.stock.dispatch words s = (.ok output, s) ∧
    ∀ t : Terminal, t.shown output = Text.written rows
  apart : ∀ row ∈ rows, '\n' ∉ row.toList

/-- An answer shows one list of rows. -/
theorem Scene.Shows.unique {s : Scene} {words rows rows' : List String} (h : s.Shows words rows)
    (h' : s.Shows words rows') : rows = rows' := by
  obtain ⟨⟨output, hrun, hshown⟩, hapart⟩ := h
  obtain ⟨⟨output', hrun', hshown'⟩, hapart'⟩ := h'
  obtain rfl : output = output' :=
    Except.ok.inj (congrArg Prod.fst (hrun.symm.trans hrun'))
  let terminal : Terminal := ⟨⟨.stock, s.tree, s.packages, s.clock, s.config⟩, s.session⟩
  have hparts := congrArg (parts '\n') ((hshown terminal).symm.trans (hshown' terminal))
  rw [parts_written hapart, parts_written hapart'] at hparts
  exact List.append_cancel_right hparts

/-! ## The lines that are selected -/

namespace Command

/-- The pattern stands in the line, all in one piece; the case of both may be left aside. -/
def Matches (pattern : String) (ignoreCase : Bool) (line : String) : Prop :=
  let fold := fun text => if ignoreCase then lower text else text
  ∃ before after, fold line = before ++ fold pattern ++ after

/-- The rows show lines with their numbers: cut at its first colon, each row is the number of a
line, and the line. -/
def Numbered (rows : List String) (ls : List (String × Nat)) : Prop :=
  rows.map (cut? ':') = ls.map fun l => some (l.2.repr, l.1)

/-- The lines of a content, with their numbers, in two lists: those with the pattern in them, and
the others. -/
structure Partition (pattern : String) (ignoreCase : Bool) (content : String)
    (hits others : List (String × Nat)) : Prop where
  matching : ∀ l ∈ hits, Matches pattern ignoreCase l.1
  notMatching : ∀ l ∈ others, ¬ Matches pattern ignoreCase l.1
  hitsInOrder : hits.Pairwise fun l l' => l.2 < l'.2
  othersInOrder : others.Pairwise fun l l' => l.2 < l'.2
  disjoint : hits.Disjoint others
  /-- Each line is there once, with the number that it has in the content. -/
  all : (hits ++ others).Perm ((lines content).zipIdx 1)

namespace LineFilter

variable {f : LineFilter} {content : String}

theorem selects_iff {line : String} :
    f.selects line = true ↔ (Matches f.pattern f.ignoreCase line ↔ f.invert = false) := by
  have hmatches : Matches f.pattern f.ignoreCase line ↔
      (if f.ignoreCase then contains (lower f.pattern) (lower line)
        else contains f.pattern line) = true := by
    rw [Matches]
    cases f.ignoreCase <;> simp [contains_iff]
  rw [selects, hmatches]
  generalize (if f.ignoreCase then contains (lower f.pattern) (lower line)
    else contains f.pattern line) = hit
  cases hit <;> cases f.invert <;> simp

/-- Inverted, a filter selects the other lines. -/
theorem selects_invert (f : LineFilter) (line : String) :
    ({ f with invert := !f.invert } : LineFilter).selects line = !f.selects line := by
  simp only [selects, Bool.bne_not]

/-- Every line, with its number, is selected by a filter or by the inverted one. -/
theorem selected_perm (f : LineFilter) (content : String) :
    (f.selected content ++ ({ f with invert := !f.invert } : LineFilter).selected content).Perm
      ((lines content).zipIdx 1) := by
  simp only [selected, selects_invert]
  exact List.filter_append_perm _ _

/-- The lines are selected in order. -/
theorem selected_increasing (f : LineFilter) (content : String) :
    (f.selected content).Pairwise fun l l' => l.2 < l'.2 := by
  have hnumbers : (((lines content).zipIdx 1).map Prod.snd).Pairwise (· < ·) := by
    rw [List.zipIdx_map_snd]
    exact List.pairwise_lt_range'
  exact (List.pairwise_map.mp hnumbers).sublist List.filter_sublist

theorem matches_of_selected {l : String × Nat} (h : l ∈ f.selected content) :
    Matches f.pattern f.ignoreCase l.1 ↔ f.invert = false :=
  selects_iff.mp (List.mem_filter.mp h).2

/-- A filter and the inverted one part the lines. -/
theorem partition_selected (f : LineFilter) (hplain : f.invert = false) (content : String) :
    Partition f.pattern f.ignoreCase content (f.selected content)
      (({ f with invert := !f.invert } : LineFilter).selected content) := by
  have hmatching : ∀ l ∈ f.selected content, Matches f.pattern f.ignoreCase l.1 :=
    fun l hl => (matches_of_selected hl).mpr hplain
  have hnot : ∀ l ∈ ({ f with invert := !f.invert } : LineFilter).selected content,
      ¬ Matches f.pattern f.ignoreCase l.1 := by
    intro l hl hmatches
    have hinvert := (matches_of_selected hl).mp hmatches
    rw [hplain] at hinvert
    cases hinvert
  exact ⟨hmatching, hnot, f.selected_increasing content, selected_increasing _ content,
    fun l hl hother => hnot l hother (hmatching l hl), f.selected_perm content⟩

theorem mem_lines_of_selected {l : String × Nat} (h : l ∈ f.selected content) :
    l.1 ∈ lines content :=
  List.fst_mem_of_mem_zipIdx (List.mem_filter.mp h).1

/-! ## What is shown of them -/

/-- No row holds a line feed, so that rows can be counted on a terminal. -/
theorem newline_not_mem_shown {row : String} (h : row ∈ f.shown "" content) :
    '\n' ∉ row.toList := by
  have hnumber : ∀ n : Nat, '\n' ∉ n.repr.toList := not_mem_repr (by decide)
  rw [shown] at h
  split at h
  · rw [List.mem_singleton.mp h, String.empty_append]
    exact hnumber _
  · obtain ⟨l, hl, rfl⟩ := List.mem_map.mp h
    have hline := newline_not_mem_of_mem_lines (mem_lines_of_selected hl)
    split
    · simp only [String.empty_append, String.toList_append, List.mem_append, not_or]
      exact ⟨⟨hnumber l.2, by decide⟩, hline⟩
    · rwa [String.empty_append, String.empty_append]

/-- With numbers, the rows are the lines behind theirs. -/
theorem numbered_shown (hcount : f.count = false) (hnumber : f.number = true) :
    Numbered (f.shown "" content) (f.selected content) := by
  have hcolon : ∀ n : Nat, ':' ∉ n.repr.toList := not_mem_repr (by decide)
  simp only [Numbered, shown, hcount, hnumber, Bool.false_eq_true, if_false, if_true, List.map_map]
  refine List.map_congr_left fun l _ => ?_
  rw [Function.comp_apply, String.empty_append]
  exact cut?_append rfl (hcolon l.2) l.1

theorem length_shown (hcount : f.count = false) (label content : String) :
    (f.shown label content).length = (f.selected content).length := by
  simp only [shown, hcount, Bool.false_eq_true, if_false, List.length_map]

end LineFilter

/-! ## Searches of one file -/

/-- The arguments ask for a search of one file. -/
structure Asks (arguments : List String) (f : LineFilter) (file : String) : Prop where
  operands : (Options.read arguments).operands = [f.pattern, file]
  ignoreCase : (Options.read arguments).has 'i' = f.ignoreCase
  invert : (Options.read arguments).has 'v' = f.invert
  count : (Options.read arguments).has 'c' = f.count
  number : (Options.read arguments).has 'n' = f.number

/-- Arguments for a filter. -/
def LineFilter.arguments (f : LineFilter) (file : String) : List String :=
  (if f.ignoreCase then ["-i"] else []) ++ (if f.invert then ["-v"] else []) ++
    (if f.count then ["-c"] else []) ++ (if f.number then ["-n"] else []) ++
    ["--", f.pattern, file]

/-- Every search of a file can be asked for, whatever the pattern is and the file is called. -/
theorem asks_arguments (f : LineFilter) (file : String) : Asks (f.arguments file) f file := by
  obtain ⟨pattern, ignoreCase, invert, count, number⟩ := f
  cases ignoreCase <;> cases invert <;> cases count <;> cases number <;>
    exact ⟨rfl, rfl, rfl, rfl, rfl⟩

/-- The names of the search. -/
def searchNames : List String := ["grep", "egrep", "fgrep"]

variable {s : Scene} {name file content : String} {a : Attributes} {arguments : List String}
  {f : LineFilter}

/-- A search of one file shows the rows of its content, without the name. -/
theorem searchLines_of_asks (hfile : s.node? file = some (.file a content))
    (hasks : Asks arguments f file) :
    searchLines s arguments = .ok (.ofLines (f.shown "" content)) := by
  obtain ⟨hoperands, hi, hv, hc, hn⟩ := hasks
  have hcontent : contentOf s file = .ok content := by
    unfold contentOf
    rw [hfile]
  simp only [searchLines, hoperands, hi, hv, hc, hn, List.mapM_cons, List.mapM_nil, hcontent]
  simp [bind, Except.bind, pure, Except.pure]

/-- A search of one file shows what its filter shows of the content. -/
theorem shows_of_asks (hname : name ∈ searchNames) (hfile : s.node? file = some (.file a content))
    (hasks : Asks arguments f file) : s.Shows (name :: arguments) (f.shown "" content) where
  run := by
    have haction : CommandTable.stock.action name = .report searchLines ∧ name ≠ "sudo" := by
      simp only [searchNames, List.mem_cons, List.not_mem_nil, or_false] at hname
      rcases hname with rfl | rfl | rfl <;> exact ⟨rfl, by decide⟩
    refine ⟨.ofLines (f.shown "" content), ?_, fun t => t.shown_ofLines _⟩
    rw [CommandTable.dispatch, if_neg haction.2, haction.1, Action.run,
      searchLines_of_asks hfile hasks]
    rfl
  apart _ hrow := LineFilter.newline_not_mem_shown hrow

end Command

namespace CommandTable

open Command

variable {s : Scene} {name file content pattern : String} {a : Attributes}
  {plain inverted uncounted counted : List String} {ignoreCase invert number number' : Bool}

/-- A search of one file with the numbers shown, and the same search inverted, show every line of
the file, with its number, in one of the two answers: those with the pattern in them in the first,
and the others in the second, in order.  A search that counts shows the number of rows that the same
search shows if it does not count. -/
theorem grep_partitions (hname : name ∈ searchNames)
    (hfile : s.node? file = some (.file a content))
    (hplain : Asks plain ⟨pattern, ignoreCase, false, false, true⟩ file)
    (hinverted : Asks inverted ⟨pattern, ignoreCase, true, false, true⟩ file)
    (huncounted : Asks uncounted ⟨pattern, ignoreCase, invert, false, number⟩ file)
    (hcounted : Asks counted ⟨pattern, ignoreCase, invert, true, number'⟩ file) :
    (∃ rows rows' hits others,
      s.Shows (name :: plain) rows ∧ Numbered rows hits ∧
      s.Shows (name :: inverted) rows' ∧ Numbered rows' others ∧
      Partition pattern ignoreCase content hits others) ∧
    ∃ rows, s.Shows (name :: uncounted) rows ∧ s.Shows (name :: counted) [rows.length.repr] := by
  constructor
  · let f : LineFilter := ⟨pattern, ignoreCase, false, false, true⟩
    exact ⟨_, _, _, _, shows_of_asks hname hfile hplain, LineFilter.numbered_shown rfl rfl,
      shows_of_asks hname hfile hinverted, LineFilter.numbered_shown rfl rfl,
      f.partition_selected rfl content⟩
  · have hshows := shows_of_asks hname hfile hcounted
    refine ⟨_, shows_of_asks hname hfile huncounted, ?_⟩
    rw [LineFilter.length_shown rfl]
    exact hshows

/-- A file with an empty line, both ends of line, and no line feed at its end. -/
def searchScene : Scene :=
  { sampleScene with
    tree := Tree.sample.put ["src", "log"]
      (Tree.freshFile "bob" Tree.noon "Ab\r\n\nb:a\nxA\r") }

/-- Two searches for one letter, one of them inverted. -/
theorem sample_grep_partitions :
    let plain := ["-in", "a", "/src/log"]
    let inverted := ["-n", "-vi", "--", "a", "/src/log"]
    let uncounted := ["a", "-i", "/src/log", "-v"]
    let counted := ["-cvni", "a", "/src/log"]
    (∃ rows rows' hits others,
      searchScene.Shows ("egrep" :: plain) rows ∧ Numbered rows hits ∧
      searchScene.Shows ("egrep" :: inverted) rows' ∧ Numbered rows' others ∧
      Partition "a" true "Ab\r\n\nb:a\nxA\r" hits others) ∧
    ∃ rows, searchScene.Shows ("egrep" :: uncounted) rows ∧
      searchScene.Shows ("egrep" :: counted) [rows.length.repr] := by
  intro plain inverted uncounted counted
  have hread : (searchScene.tree.read (searchScene.resolve "/src/log")).toOption =
      some "Ab\r\n\nb:a\nxA\r" := by
    decide +kernel
  cases hcontent : searchScene.tree.read (searchScene.resolve "/src/log") with
  | error fault =>
    rw [hcontent] at hread
    cases hread
  | ok content =>
    rw [hcontent] at hread
    obtain rfl : content = _ := Option.some.inj hread
    obtain ⟨a, hfind⟩ := Tree.read_eq_ok_iff.mp hcontent
    have hfile : searchScene.node? "/src/log" = some (.file a "Ab\r\n\nb:a\nxA\r") := by
      rw [Scene.node?, Tree.get?_eq, hfind]
    have hplain : Asks plain ⟨"a", true, false, false, true⟩ "/src/log" :=
      ⟨by decide, by decide, by decide, by decide, by decide⟩
    have hinverted : Asks inverted ⟨"a", true, true, false, true⟩ "/src/log" :=
      ⟨by decide, by decide, by decide, by decide, by decide⟩
    have huncounted : Asks uncounted ⟨"a", true, true, false, false⟩ "/src/log" :=
      ⟨by decide, by decide, by decide, by decide, by decide⟩
    have hcounted : Asks counted ⟨"a", true, true, true, true⟩ "/src/log" :=
      ⟨by decide, by decide, by decide, by decide, by decide⟩
    exact grep_partitions (by decide) hfile hplain hinverted huncounted hcounted

end CommandTable

end Userland
