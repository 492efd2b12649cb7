/-
  The words of a line that is put together.

  1. *Program.*  A line is read one character at a time.  What is carried from one to the next are
     the words that are complete, the word that has begun, which may have nothing in it yet, and the
     quotes and the backslash that are open.

  2. *Specification.*  A line that has words can be followed by a blank and any other line: its
     words come first, then those of the other line, and a fault of the other line is the fault of
     both.  Without quotes and backslashes there is nothing but blanks to split at
     (`words_at_blanks`).

  3. *The crux.*  After the blank the reading is where it is at the beginning of a line, but for the
     words that are complete: no quote is open, and no word has begun, not even an empty one
     (`read_push_blank`).  Only a backslash at the end of the first line stands against it, which
     would take the blank for itself; it is the last character, and so it can be seen there
     (`getLast?_of_escape`).
-/
import Userland.Proofs.Line.Split
import Userland.Text.Lines

namespace Userland.Line

open Text

variable {a line : String} {w : Char} {x : List String} {cs : List Char}

/-! ## Where a line ends -/

/-- Only a backslash leads to the place after a backslash. -/
theorem eq_backslash_of_escape {r : Reading} {c : Char} (h : (r.next c).mood = .escape) :
    c = '\\' := by
  obtain ⟨complete, word, mood⟩ := r
  by_contra hc
  cases mood with
  | bare =>
    simp only [Reading.next, Reading.openQuote, Reading.endWord, Reading.push, if_neg hc] at h
    split_ifs at h
  | escape => simp [Reading.next] at h
  | single =>
    simp only [Reading.next, Reading.push] at h
    split_ifs at h
  | double =>
    simp only [Reading.next, Reading.inDouble, if_neg hc] at h
    split_ifs at h
  | doubleEscape =>
    simp only [Reading.next, Reading.inDouble, if_neg hc] at h
    split_ifs at h

/-- A line that ends after a backslash outside quotes ends in that backslash. -/
theorem getLast?_of_escape (h : (Reading.ofChars cs).mood = .escape) : cs.getLast? = some '\\' := by
  induction cs using List.reverseRecOn with
  | nil => cases h
  | append_singleton before c _ =>
    rw [Reading.ofChars, List.foldl_append, List.foldl_cons, List.foldl_nil] at h
    rw [List.getLast?_concat, eq_backslash_of_escape h]

/-- A line has words if no quote is open at its end. -/
theorem words_eq_ok_iff :
    words line = .ok x ↔
      (Reading.ofChars line.toList).openQuote? = none ∧
        (Reading.ofChars line.toList).allWords = x := by
  simp only [words]
  cases (Reading.ofChars line.toList).openQuote? with
  | none => simp
  | some q => simp

/-- A line that has words and does not end in a backslash ends outside quotes. -/
theorem bare_of_words (h : words a = .ok x) (hend : endsWith '\\' a = false) :
    (Reading.ofChars a.toList).mood = .bare := by
  have hopen := (words_eq_ok_iff.mp h).1
  cases hmood : (Reading.ofChars a.toList).mood with
  | bare => rfl
  | escape =>
    have hends : endsWith '\\' a = true := decide_eq_true (getLast?_of_escape hmood)
    rw [hend] at hends
    cases hends
  | single => simp [Reading.openQuote?, hmood] at hopen
  | double => simp [Reading.openQuote?, hmood] at hopen
  | doubleEscape => simp [Reading.openQuote?, hmood] at hopen

/-! ## A blank after it -/

/-- **The step.**  After the blank, the reading is where it is before the first character. -/
theorem read_push_blank (h : words a = .ok x) (hend : endsWith '\\' a = false)
    (hw : isBlank w = true) :
    Reading.ofChars (a.push w).toList = Reading.start.after x := by
  rw [String.toList_push, read_cut (bare_of_words h hend) hw, (words_eq_ok_iff.mp h).2]
  rfl

/-- A blank between two lines keeps their words apart. -/
theorem words_push_append (h : words a = .ok x) (hend : endsWith '\\' a = false)
    (hw : isBlank w = true) (b : String) :
    words (a.push w ++ b) = (words b).map (x ++ ·) := by
  have hline : a.push w ++ b = String.ofList (a.toList ++ w :: b.toList) := by
    rw [← String.toList_inj, String.toList_append, String.toList_push, String.toList_ofList,
      List.append_assoc, List.singleton_append]
  rw [hline, words_cut (bare_of_words h hend) hw, String.ofList_toList, (words_eq_ok_iff.mp h).2]

/-- A line is split at every blank outside quotes: if it has words up to there and no backslash
stands before the blank, the reading begins anew, and so what follows adds its own words, or fails
with its own fault.  A line in which nothing is special has no other words than those between its
blanks. -/
theorem words_at_blanks :
    (∀ a w b x, isBlank w = true → words a = .ok x → endsWith '\\' a = false →
        Reading.ofChars (a.push w).toList = ⟨x, none, .bare⟩ ∧
          match words b with
          | .ok y => words (a.push w ++ b) = .ok (x ++ y)
          | .error fault => words (a.push w ++ b) = .error fault) ∧
      ∀ line, Unquoted line.toList → words line = .ok (Text.words line) := by
  refine ⟨fun a w b x hw h hend => ⟨?_, ?_⟩, fun line h => ?_⟩
  · rw [read_push_blank h hend hw, Reading.after, Reading.start, List.append_nil]
  · rw [words_push_append h hend hw]
    cases words b with
    | ok y => rfl
    | error fault => rfl
  · have hwords := words_of_unquoted h
    rwa [(read_ofChars_unquoted h).2, String.ofList_toList] at hwords

/-- A line with an empty word at its end, a blank that is not a space, and a line that fails. -/
theorem sample_words_at_blanks :
    (isBlank '\u3000' = true ∧ words "a'b c' \"\"" = .ok ["ab c", ""] ∧
        endsWith '\\' "a'b c' \"\"" = false ∧
          Reading.ofChars ("a'b c' \"\"".push '\u3000').toList = ⟨["ab c", ""], none, .bare⟩ ∧
          match words "'d" with
          | .ok y => words ("a'b c' \"\"".push '\u3000' ++ "'d") = .ok (["ab c", ""] ++ y)
          | .error fault => words ("a'b c' \"\"".push '\u3000' ++ "'d") = .error fault) ∧
      Unquoted " ls  -la$x\t".toList ∧ words " ls  -la$x\t" = .ok (Text.words " ls  -la$x\t") := by
  obtain ⟨hcut, hplain⟩ := words_at_blanks
  have hw : isBlank '\u3000' = true := by decide
  have hwords : words "a'b c' \"\"" = .ok ["ab c", ""] :=
    words_eq_ok_iff.mpr (by decide)
  have hend : endsWith '\\' "a'b c' \"\"" = false := by decide
  have hunquoted : Unquoted " ls  -la$x\t".toList := by decide
  exact ⟨⟨hw, hwords, hend, hcut _ _ "'d" _ hw hwords hend⟩, hunquoted, hplain _ hunquoted⟩

/-- A backslash at the end of the first line would take the blank for itself. -/
example : words "a\\" = .ok ["a"] ∧ words ("a\\".push ' ' ++ "b") = .ok ["a b"] := by
  decide

end Userland.Line
