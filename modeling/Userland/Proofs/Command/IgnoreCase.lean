/-
  Searching a file with the case left aside.

  1. *Program.*  With `-i`, the pattern and each line are put in lower case as wholes, and then the
     one is looked for in the other.

  2. *Specification.*  Every row that the search for a pattern shows is shown with `-i` too,
     whatever the file, exactly when none of the capital sigmas of the pattern is at the end of a
     word in some lines and not in others (`neverLost_iff`).  Nothing else of Unicode stands in the
     way: what a character becomes otherwise does not depend on its neighbours.

  3. *The crux.*  A line is found again if the pattern has the same lower case in it as alone
     (`Text.Settled.contains_lower`), and where that can fail there is a line that is lost
     (`Text.exists_lost`).  Rows can be told apart on a terminal, so that an answer has one
     reading as rows (`Scene.Shows.unique`).
-/
import Userland.Proofs.Command.LineSearch
import Userland.Proofs.Text.Case

namespace Userland

open Text

/-! ## The two searches -/

namespace Command

/-- The rows of every file that a search for the pattern shows are shown, in the same order, by the
search that leaves the case aside, too. -/
def NeverLost (pattern : String) : Prop :=
  ∀ (s : Scene) (name file content : String) (a : Attributes) (plain folded : List String)
    (number : Bool), name ∈ searchNames → s.node? file = some (.file a content) →
    Asks plain ⟨pattern, false, false, false, number⟩ file →
    Asks folded ⟨pattern, true, false, false, number⟩ file →
    ∃ rows rows', s.Shows (name :: plain) rows ∧ s.Shows (name :: folded) rows' ∧
      rows.Sublist rows'

/-- What is shown of lines grows with the lines that are selected. -/
theorem LineFilter.shown_sublist {f g : LineFilter} {content : String} (hf : f.count = false)
    (hg : g.count = false) (hnumber : f.number = g.number)
    (h : ∀ line ∈ lines content, f.selects line = true → g.selects line = true) :
    (f.shown "" content).Sublist (g.shown "" content) := by
  have hselected : (f.selected content).Sublist (g.selected content) := by
    have hboth : f.selected content = (g.selected content).filter fun l => f.selects l.1 := by
      rw [LineFilter.selected, LineFilter.selected, List.filter_filter]
      refine List.filter_congr fun l hl => ?_
      have himp := h l.1 (List.fst_mem_of_mem_zipIdx hl)
      cases hfl : f.selects l.1
      · rfl
      · rw [himp hfl]
        rfl
    rw [hboth]
    exact List.filter_sublist
  simp only [LineFilter.shown, hf, hg, hnumber, Bool.false_eq_true, if_false]
  exact hselected.map _

/-- A file to search, with any content. -/
def sceneWith (content : String) : Scene :=
  { sampleScene with
    tree := Tree.sample.put ["src", "log"] (Tree.freshFile "bob" Tree.noon content) }

/-- The file that is searched is there, with any content. -/
theorem exists_node?_sceneWith (content : String) :
    ∃ a, (sceneWith content).node? "/src/log" = some (.file a content) := by
  have hsession : (sceneWith content).session = sampleScene.session := rfl
  have hplace : Tree.place (sampleScene.session.resolve "/src/log") = ["src", "log"] := by decide
  have hdirectory : Tree.sample.isDirectoryAt ["src"] = true := by decide +kernel
  obtain ⟨a, hnode⟩ : ∃ a, Tree.freshFile "bob" Tree.noon content = .file a content := ⟨_, rfl⟩
  have hfind := Tree.find?_put_self (List.cons_ne_nil "src" ["log"]) hdirectory (.file a content)
  refine ⟨a, ?_⟩
  rw [Scene.node?, Tree.get?_eq, Scene.resolve, hsession, hplace, sceneWith, hnode, hfind]

variable {pattern : String}

/-- A settled pattern is in the lower case of every line that has it. -/
theorem neverLost_of_settled (h : '\n' ∈ pattern.toList ∨ Settled pattern.toList) :
    NeverLost pattern := by
  intro s name file content a plain folded number hname hfile hplain hfolded
  refine ⟨_, _, shows_of_asks hname hfile hplain, shows_of_asks hname hfile hfolded,
    LineFilter.shown_sublist rfl rfl rfl fun line hline hselects => ?_⟩
  have hcontains : contains pattern line = true := by simpa [LineFilter.selects] using hselects
  have hsettled : Settled pattern.toList := by
    refine h.resolve_left fun hnewline => ?_
    -- no line has a line feed
    obtain ⟨before, after, rfl⟩ := contains_iff.mp hcontains
    refine newline_not_mem_of_mem_lines hline ?_
    simp [hnewline]
  simpa [LineFilter.selects] using hsettled.contains_lower hcontains

/-- Without a capital sigma in the pattern, no row is lost, whatever other letters it has. -/
theorem neverLost_of_not_mem (h : 'Σ' ∉ pattern.toList) : NeverLost pattern :=
  neverLost_of_settled (.inr (settled_of_not_mem h))

/-- Of one line, what is selected is shown without its number. -/
theorem LineFilter.shown_line {f : LineFilter} (hcount : f.count = false)
    (hnumber : f.number = false) {line : String} (hline : '\n' ∉ line.toList) (hne : line ≠ "") :
    f.shown "" line = if f.selects line then [line] else [] := by
  simp only [LineFilter.shown, LineFilter.selected, lines_eq_singleton hline hne, hcount, hnumber]
  cases hselects : f.selects line <;> simp [hselects]

/-- A pattern that is never lost is in the lower case of every line that has it, since a line can be
the whole of a file. -/
theorem NeverLost.contains_lower (h : NeverLost pattern) {line : String}
    (hline : '\n' ∉ line.toList) (hne : line ≠ "") (hcontains : contains pattern line = true) :
    contains (lower pattern) (lower line) = true := by
  obtain ⟨a, hfile⟩ := exists_node?_sceneWith line
  have hname : "grep" ∈ searchNames := by decide
  have hplain := asks_arguments ⟨pattern, false, false, false, false⟩ "/src/log"
  have hfolded := asks_arguments ⟨pattern, true, false, false, false⟩ "/src/log"
  obtain ⟨rows, rows', hrows, hrows', hsublist⟩ :=
    h _ _ _ _ _ _ _ _ hname hfile hplain hfolded
  rw [hrows.unique (shows_of_asks hname hfile hplain),
    hrows'.unique (shows_of_asks hname hfile hfolded), LineFilter.shown_line rfl rfl hline hne,
    LineFilter.shown_line rfl rfl hline hne] at hsublist
  by_contra hlost
  simp [LineFilter.selects, hcontains, hlost] at hsublist

/-- A pattern that is never lost is settled, as two lines show, with a letter before it and behind
it. -/
theorem settled_of_neverLost (h : NeverLost pattern) :
    '\n' ∈ pattern.toList ∨ Settled pattern.toList := by
  by_contra hnot
  rw [not_or] at hnot
  obtain ⟨hnewline, hsettled⟩ := hnot
  obtain ⟨line, hline, hcontains, hlost⟩ := exists_lost hsettled
  have hrow : '\n' ∉ line.toList ∧ line ≠ "" := by
    simp only [List.mem_cons, List.not_mem_nil, or_false] at hline
    rcases hline with rfl | rfl <;> simp [hnewline]
  rw [h.contains_lower hrow.1 hrow.2 hcontains] at hlost
  cases hlost

/-- With the case left aside, a pattern is found in all lines that it is found in exactly when each
of its capital sigmas ends a word in every line or in none; a pattern with a line feed is found in
no line.  Whatever the pattern, it is found in a line where those of its sigmas end words that do so
in the pattern alone. -/
theorem neverLost_iff (pattern : String) :
    (NeverLost pattern ↔ '\n' ∈ pattern.toList ∨ Settled pattern.toList) ∧
      ∀ before after number, wordEnds before.toList.reverse pattern.toList after.toList =
        wordEnds [] pattern.toList [] →
        (⟨pattern, true, false, false, number⟩ : LineFilter).selects (before ++ pattern ++ after) =
          true := by
  refine ⟨⟨settled_of_neverLost, neverLost_of_settled⟩, fun before after number hsame => ?_⟩
  simpa [LineFilter.selects] using contains_lower_of_wordEnds_eq hsame

/-- A sigma alone is found at the end of a word, but not with the case left aside. -/
theorem ignoreCase_loses_line :
    (sceneWith "ΟΔΟΣ\n").Shows ["grep", "Σ", "/src/log"] ["ΟΔΟΣ"] ∧
      (sceneWith "ΟΔΟΣ\n").Shows ["grep", "-i", "Σ", "/src/log"] [] := by
  obtain ⟨a, hfile⟩ := exists_node?_sceneWith "ΟΔΟΣ\n"
  have hname : "grep" ∈ searchNames := by decide
  have hplain : Asks ["Σ", "/src/log"] ⟨"Σ", false, false, false, false⟩ "/src/log" :=
    ⟨by decide, by decide, by decide, by decide, by decide⟩
  have hfolded : Asks ["-i", "Σ", "/src/log"] ⟨"Σ", true, false, false, false⟩ "/src/log" :=
    ⟨by decide, by decide, by decide, by decide, by decide⟩
  have hshown : (⟨"Σ", false, false, false, false⟩ : LineFilter).shown "" "ΟΔΟΣ\n" = ["ΟΔΟΣ"] := by
    decide
  have hlost : (⟨"Σ", true, false, false, false⟩ : LineFilter).shown "" "ΟΔΟΣ\n" = [] := by
    decide +kernel
  exact ⟨hshown ▸ shows_of_asks hname hfile hplain, hlost ▸ shows_of_asks hname hfile hfolded⟩

end Command

end Userland
