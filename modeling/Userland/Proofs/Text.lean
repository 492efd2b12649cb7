/-
  What a text holds when it is cut, searched or put together.

  Cutting leaves no part with the character in it at which the text was cut, and puts nothing away
  but the separators (`parts_append`, `cut?_append`).  Lines have no line feeds, so that rows which
  are written one under the other, each with a line feed at its end, can be told apart.
-/
import Mathlib.Data.List.Infix
import Mathlib.Data.List.TakeWhile
import Userland.Text.Lines

namespace Userland.Text

/-! ## Parts -/

/-- No part has the character at which the text was cut. -/
theorem not_mem_of_mem_splitOn {c : Char} {l cs : List Char} (h : cs ∈ l.splitOn c) : c ∉ cs := by
  induction l generalizing cs with
  | nil =>
    rw [List.splitOn_nil, List.mem_singleton] at h
    rw [h]
    exact List.not_mem_nil
  | cons d l ih =>
    rw [List.splitOn_cons_eq_if_modifyHead] at h
    split at h
    · rcases List.mem_cons.mp h with rfl | h
      · exact List.not_mem_nil
      · exact ih h
    · next hd =>
      -- `d` goes to the front of the first part, the other parts are those of `l`
      obtain ⟨first, rest, hl⟩ := List.exists_cons_of_ne_nil (List.splitOn_ne_nil c l)
      rw [hl, List.modifyHead_cons] at h
      rcases List.mem_cons.mp h with rfl | h
      · have hfirst : c ∉ first := ih (by simp [hl])
        have hdc : c ≠ d := fun he => hd (by simp [he])
        simp [hfirst, hdc]
      · exact ih (by simp [hl, h])

/-- No part holds the character at which the text was cut. -/
theorem not_mem_of_mem_parts {c : Char} {s part : String} (h : part ∈ parts c s) :
    c ∉ part.toList := by
  obtain ⟨cs, hcs, rfl⟩ := List.mem_map.mp h
  rw [String.toList_ofList]
  exact not_mem_of_mem_splitOn hcs

theorem parts_eq_singleton {c : Char} {s : String} (h : c ∉ s.toList) : parts c s = [s] := by
  rw [parts, List.splitOn_eq_singleton h, List.map_singleton, String.ofList_toList]

/-- Cutting at a separator that is there. -/
theorem parts_append {c : Char} {separator : String} (hs : separator.toList = [c]) (s t : String) :
    parts c (s ++ separator ++ t) = parts c s ++ parts c t := by
  rw [parts, String.toList_append, String.toList_append, hs, List.append_assoc,
    List.singleton_append, List.splitOn_append_cons_self, List.map_append, parts, parts]

/-- A text is cut at the first separator, whatever follows. -/
theorem cut?_append {c : Char} {separator : String} (hs : separator.toList = [c])
    {before : String} (hc : c ∉ before.toList) (after : String) :
    cut? c (before ++ separator ++ after) = some (before, after) := by
  have hbefore : ∀ d ∈ before.toList, decide (d ≠ c) = true := fun d hd =>
    decide_eq_true fun he => hc (he ▸ hd)
  rw [cut?, String.toList_append, String.toList_append, hs, List.append_assoc,
    List.takeWhile_append_of_pos hbefore, List.dropWhile_append_of_pos hbefore]
  simp

theorem cut?_of_not_mem {c : Char} {text : String} (h : c ∉ text.toList) :
    cut? c text = none := by
  have hall : text.toList.dropWhile (· ≠ c) = [] := by
    rw [List.dropWhile_eq_nil_iff]
    exact fun d hd => decide_eq_true fun he => h (he ▸ hd)
  rw [cut?, hall]

/-! ## Lines -/

/-- No line has a line feed. -/
theorem newline_not_mem_of_mem_lines {content line : String} (h : line ∈ lines content) :
    '\n' ∉ line.toList := by
  obtain ⟨cs, hcs, rfl⟩ := List.mem_map.mp h
  rw [String.toList_ofList]
  rcases List.mem_append.mp hcs with hended | hlast
  · obtain ⟨row, hrow, rfl⟩ := List.mem_map.mp hended
    have hnone : '\n' ∉ row := not_mem_of_mem_splitOn (List.mem_of_mem_dropLast hrow)
    rw [dropReturn]
    split
    · exact fun hmem => hnone (List.mem_of_mem_dropLast hmem)
    · exact hnone
  · rw [Option.mem_toList, Option.filter_eq_some_iff] at hlast
    exact not_mem_of_mem_splitOn (List.mem_of_mem_getLast? hlast.1)

/-- A text without a line feed is one line. -/
theorem lines_eq_singleton {line : String} (h : '\n' ∉ line.toList) (hne : line ≠ "") :
    lines line = [line] := by
  have hchars : line.toList ≠ [] := fun he => hne (String.toList_eq_nil_iff.mp he)
  simp [lines, List.splitOn_eq_singleton h, hchars]

theorem unlines_singleton (line : String) : unlines [line] = line :=
  String.intercalate_singleton

/-- Lines that are joined already may be joined to the ones above them. -/
theorem unlines_append (above : List String) {lines : List String} (h : lines ≠ []) :
    unlines (above ++ [unlines lines]) = unlines (above ++ lines) := by
  by_cases habove : above = []
  · rw [habove, List.nil_append, List.nil_append, unlines_singleton]
  · simp only [unlines]
    rw [String.intercalate_append_of_ne_nil habove (List.cons_ne_nil _ _),
      String.intercalate_append_of_ne_nil habove h, String.intercalate_singleton]

/-- Rows, each with the line feed that ends it. -/
def written (rows : List String) : String := String.join (rows.map (· ++ "\n"))

/-- With a line feed after the last line they are what a terminal shows. -/
theorem unlines_newline {rows : List String} (h : rows ≠ []) :
    unlines rows ++ "\n" = written rows := by
  induction rows with
  | nil => exact absurd rfl h
  | cons row rest ih =>
    cases rest with
    | nil => simp [unlines, written]
    | cons next more =>
      have hrest := ih (List.cons_ne_nil next more)
      rw [unlines, String.intercalate_cons_cons, ← unlines, String.append_assoc, hrest]
      simp only [written, List.map_cons, String.join_cons]

/-- Cut at its line feeds, what is written is the rows, and nothing after the last line feed. -/
theorem parts_written {rows : List String} (h : ∀ row ∈ rows, '\n' ∉ row.toList) :
    parts '\n' (written rows) = rows ++ [""] := by
  induction rows with
  | nil => decide
  | cons row rest ih =>
    obtain ⟨hrow, hrest⟩ := List.forall_mem_cons.mp h
    have hwritten : written (row :: rest) = row ++ "\n" ++ written rest := by
      simp only [written, List.map_cons, String.join_cons]
    rw [hwritten, parts_append rfl, parts_eq_singleton hrow, ih hrest, List.singleton_append,
      List.cons_append]

/-! ## Occurrences and numbers -/

/-- To be found in a text is to stand between two parts of it. -/
theorem contains_iff {needle s : String} :
    contains needle s = true ↔ ∃ before after, s = before ++ needle ++ after := by
  rw [contains, occursIn_iff]
  constructor
  · rintro ⟨before, after, h⟩
    refine ⟨String.ofList before, String.ofList after, String.toList_inj.mp ?_⟩
    rw [h, String.toList_append, String.toList_append, String.toList_ofList, String.toList_ofList]
  · rintro ⟨before, after, rfl⟩
    exact ⟨before.toList, after.toList, by rw [String.toList_append, String.toList_append]⟩

/-- A number is written with digits only. -/
theorem not_mem_repr {c : Char} (hc : c.isDigit = false) (n : Nat) : c ∉ n.repr.toList := by
  intro h
  rw [Nat.toList_repr] at h
  exact Bool.false_ne_true (hc ▸ Nat.isDigit_of_mem_toDigits (by decide) (by decide) h)

end Userland.Text
