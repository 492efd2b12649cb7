/-
  Lines of a text, its parts between separators, and the search for one text inside another.

  A line ends at a line feed, which takes one carriage return before it along; the text after the
  last line feed is a line of its own unless it is empty, and it keeps its carriage return.
-/

namespace Userland.Text

/-! ## Lines -/

/-- A terminated line without the carriage return of its terminator. -/
def dropReturn (line : List Char) : List Char :=
  if line.getLast? = some '\r' then line.dropLast else line

/-- The lines of a text, without their terminators. -/
def lines (s : String) : List String :=
  let rows := s.toList.splitOn '\n'
  (rows.dropLast.map dropReturn ++ (rows.getLast?.filter (· ≠ [])).toList).map String.ofList

/-- The lines written one under the other, with nothing after the last. -/
def unlines (ls : List String) : String :=
  "\n".intercalate ls

example : lines "a\r\n\nb\r" = ["a", "", "b\r"] := by decide

/-! ## Parts -/

/-- The parts of a text between the occurrences of a character; one more than there are
occurrences. -/
def parts (c : Char) (s : String) : List String :=
  (s.toList.splitOn c).map String.ofList

/-- The text before and after the first occurrence of a character. -/
def cut? (c : Char) (s : String) : Option (String × String) :=
  match s.toList.dropWhile (· ≠ c) with
  | [] => none
  | _ :: after => some (String.ofList (s.toList.takeWhile (· ≠ c)), String.ofList after)

example : cut? '=' "a=b=c" = some ("a", "b=c") := by decide

/-! ## Beginnings, ends and occurrences -/

/-- The rest of a text after a known beginning. -/
def after? (beginning s : String) : Option String :=
  (beginning.toList.isPrefixOf? s.toList).map String.ofList

/-- Does the text begin with that character? -/
def startsWith (c : Char) (s : String) : Bool :=
  s.toList.head? = some c

/-- Does the text end with that character? -/
def endsWith (c : Char) (s : String) : Bool :=
  s.toList.getLast? = some c

/-- Does `needle` stand somewhere in the characters, all in one piece? -/
def occursIn (needle : List Char) : List Char → Bool
  | [] => needle.isEmpty
  | c :: cs => needle.isPrefixOf (c :: cs) || occursIn needle cs

/-- Does `needle` stand somewhere in `s`, all in one piece? -/
def contains (needle s : String) : Bool :=
  occursIn needle.toList s.toList

/-- An occurrence is a way to write the characters as something, the needle and something more. -/
theorem occursIn_iff {needle cs : List Char} :
    occursIn needle cs = true ↔ ∃ before after, cs = before ++ needle ++ after := by
  induction cs with
  | nil =>
    simp only [occursIn, List.isEmpty_iff]
    constructor
    · rintro rfl
      exact ⟨[], [], rfl⟩
    · rintro ⟨before, after, h⟩
      simp at h
      exact h.2.1
  | cons c cs ih =>
    simp only [occursIn, Bool.or_eq_true, ih, List.isPrefixOf_iff_prefix]
    constructor
    · rintro (⟨after, h⟩ | ⟨before, after, h⟩)
      · exact ⟨[], after, by simpa using h.symm⟩
      · exact ⟨c :: before, after, by simp [h]⟩
    · rintro ⟨before, after, h⟩
      cases before with
      | nil => exact .inl ⟨after, by simpa using h.symm⟩
      | cons b before =>
        simp only [List.cons_append, List.cons.injEq] at h
        exact .inr ⟨before, after, h.2⟩

end Userland.Text
