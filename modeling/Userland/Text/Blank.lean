/-
  Blank characters, and the two readings of a text that depend on them: the text without the blanks
  around it (`trim`) and its blank-separated words (`words`).

  A character is blank when it has the Unicode property White_Space: 25 characters in ten ranges.
  This is wider than `Char.isWhitespace`, which knows four of them (`isBlank_of_isWhitespace`).
-/

namespace Userland.Text

/-! ## The property -/

/-- The ranges of White_Space, ascending and apart. -/
def blankRanges : List (Nat × Nat) :=
  [(0x09, 0x0D), (0x20, 0x20), (0x85, 0x85), (0xA0, 0xA0), (0x1680, 0x1680), (0x2000, 0x200A),
   (0x2028, 0x2029), (0x202F, 0x202F), (0x205F, 0x205F), (0x3000, 0x3000)]

/-- Does the character have the property White_Space? -/
def isBlank (c : Char) : Bool :=
  blankRanges.any fun r => r.1 ≤ c.toNat && c.toNat ≤ r.2

theorem isBlank_of_isWhitespace (c : Char) (h : c.isWhitespace = true) : isBlank c = true := by
  simp [Char.isWhitespace] at h
  rcases h with ((h | h) | h) | h <;> subst h <;> decide

example : (blankRanges.map fun r => r.2 + 1 - r.1).sum = 25 := by decide
example : isBlank 'a' = false ∧ isBlank '\u200b' = false := by decide

/-! ## Cutting at both ends -/

/-- The characters without the ones at the end that satisfy `p`. -/
def dropEndWhile (p : Char → Bool) (cs : List Char) : List Char :=
  (cs.reverse.dropWhile p).reverse

/-- The characters without the ones at either end that satisfy `p`. -/
def stripWhile (p : Char → Bool) (cs : List Char) : List Char :=
  dropEndWhile p (cs.dropWhile p)

/-- The text without the blanks around it. -/
def trim (s : String) : String :=
  String.ofList (stripWhile isBlank s.toList)

/-! ## Words -/

/-- The maximal runs of characters that are not blank, in order. -/
def words (s : String) : List String :=
  ((s.toList.splitOnP isBlank).filter (· ≠ [])).map String.ofList

example : words "  ls\u00a0 -la\t" = ["ls", "-la"] := by decide

end Userland.Text
