/-
  What becomes of a variable in double quotes.

  Expansion writes the value of a variable into the line, and the line is split into words only
  then.  So the splitting reads the value as it reads anything else on the line.

  1. *Specification.*  The line `echo "$X"` has the two words `echo` and the value exactly when the
     value is inert in double quotes (`Inert`): it has no double quote, and none of its backslashes
     stands before a character that a backslash protects there.  Blanks, single quotes and dollar
     signs do no harm.

  2. *The crux.*  Characters are counted.  The line has three characters more than the two words are
     meant to have: the blank and the two quotes.  Before the value it has lost the blank and the
     first quote.  From there on the words gain at most one character with each that is read, and a
     quote at the end that leaves nothing open is lost as well (`length_letters_closed`).  So none
     of the value may be lost, which holds of the inert values only (`inert_of_length`).
-/
import Mathlib.Data.List.Chain
import Userland.Proofs.Line.Split
import Userland.Proofs.Session

namespace Userland.Line

open Text

/-! ## A variable on a line -/

theorem isNameChar_iff {c : Char} : isNameChar c = true ↔ IsLetter c ∨ '0' ≤ c ∧ c ≤ '9' := by
  simp only [isNameChar, Char.isAlphanum, Char.isDigit, Bool.or_eq_true, Bool.and_eq_true,
    decide_eq_true_eq, isLetter_iff]
  exact or_right_comm

theorem ne_of_isNameChar {c d : Char} (hc : isNameChar c = true) (hd : isNameChar d = false) :
    c ≠ d := by
  rintro rfl
  rw [hc] at hd
  cases hd

theorem isBlank_of_isNameChar {c : Char} (h : isNameChar c = true) : isBlank c = false := by
  have hcode : 48 ≤ c.toNat ∧ c.toNat ≤ 122 := by
    rcases isNameChar_iff.mp h with ((hupper | hlower | rfl) | hdigit)
    · exact ⟨Nat.le_trans (by decide) hupper.1, Nat.le_trans hupper.2 (by decide)⟩
    · exact ⟨Nat.le_trans (by decide) hlower.1, Nat.le_trans hlower.2 (by decide)⟩
    · decide
    · exact ⟨Nat.le_trans (by decide) hdigit.1, Nat.le_trans hdigit.2 (by decide)⟩
  simp only [isBlank, blankRanges, List.any_cons, List.any_nil, Bool.or_eq_false_iff,
    Bool.and_eq_false_iff, decide_eq_false_iff_not, and_true]
  omega

/-- An identifier has only such characters. -/
theorem isNameChar_of_mem {name : String} (hname : IsIdentifier name) :
    ∀ c ∈ name.toList, isNameChar c = true := by
  obtain ⟨c, cs, hchars, hletter, hmore⟩ := hname
  rw [hchars]
  intro d hd
  rcases List.mem_cons.mp hd with rfl | hd
  · exact isNameChar_iff.mpr (.inl hletter)
  · exact isNameChar_iff.mpr (hmore d hd)

/-- An identifier has no character that is none of a name. -/
theorem not_mem_of_not_isNameChar {name : String} (hname : IsIdentifier name) {c : Char}
    (hc : isNameChar c = false) : c ∉ name.toList := fun hmem =>
  ne_of_isNameChar (isNameChar_of_mem hname c hmem) hc rfl

/-- A name ends before the first character that cannot be in one. -/
theorem afterDollar?_identifier {name : String} (hname : IsIdentifier name) {rest : List Char}
    (hrest : ∀ c ∈ rest.head?, isNameChar c = false) :
    afterDollar? (name.toList ++ rest) = some (.variable name, rest) := by
  have hall := isNameChar_of_mem hname
  obtain ⟨c, cs, hchars, hletter, -⟩ := hname
  have hfirst : isNameChar c = true := isNameChar_iff.mpr (.inl hletter)
  have hquestion : c ≠ '?' := ne_of_isNameChar hfirst (by decide)
  have hbrace : c ≠ '\x7b' := ne_of_isNameChar hfirst (by decide)
  have hstop : rest.takeWhile isNameChar = [] ∧ rest.dropWhile isNameChar = rest := by
    cases rest with
    | nil => exact ⟨rfl, rfl⟩
    | cons d rest => simp [hrest d rfl]
  -- no character of a name is a brace or a question mark, so that the name is read bare
  have hbare : bare? (name.toList ++ rest) = some (.variable name, rest) := by
    have hname : String.ofList (c :: cs) = name := by rw [← hchars, String.ofList_toList]
    rw [bare?, List.takeWhile_append_of_pos hall, List.dropWhile_append_of_pos hall, hstop.1,
      hstop.2, List.append_nil, hchars, ← hname]
  have hbraced : braced? (name.toList ++ rest) = none := by
    rw [hchars, List.cons_append, braced?.eq_2]
    intro inner hinner
    exact hbrace (List.cons.inj hinner).1
  rw [afterDollar?.eq_2, hbraced, hbare, Option.none_or]
  intro more hmore
  rw [hchars] at hmore
  exact hquestion (List.cons.inj hmore).1

/-- The line `echo "$X"`. -/
theorem expand_quoted_variable {environment : Entries String} {name value : String}
    (hname : IsIdentifier name) (hvalue : Entries.get? environment name = some value) :
    (expand environment ("echo \"$" ++ name ++ "\"")).toList =
      "echo \"".toList ++ (value.toList ++ ['"']) := by
  have hplain : Unquoted "echo ".toList := by decide
  have hafter : afterDollar? (name.toList ++ ['"']) = some (.variable name, ['"']) :=
    afterDollar?_identifier hname (by simp [isNameChar])
  have hpieces : pieces .none ("echo \"$" ++ name ++ "\"").toList =
      "echo ".toList.map Piece.character ++
        .character '"' :: .variable name :: [.character '"'] := by
    have hline : ("echo \"$" ++ name ++ "\"").toList =
        "echo ".toList ++ '"' :: '$' :: (name.toList ++ ['"']) := by simp
    rw [hline, pieces_plain_append hplain (by decide), pieces_of_letter (by decide) (by decide),
      pieces_of_variable (by decide) hafter, pieces_of_letter (by decide) (by decide), pieces]
  rw [expand, String.toList_ofList, hpieces, List.flatMap_append, text_characters]
  simp [Piece.text, hvalue]

/-! ## Values that are inert -/

/-- In double quotes a backslash before the character stands for it. -/
def isEscapable (c : Char) : Bool := c = '"' || c = '\\' || c = '$'

/-- No character is a double quote, and no backslash stands before a character that it would protect
in double quotes.  The last character stands before the quote that closes them. -/
def Inert (cs : List Char) : Prop :=
  '"' ∉ cs ∧ (cs ++ ['"']).IsChain fun b c => b = '\\' → isEscapable c = false

instance (cs : List Char) : Decidable (Inert cs) := inferInstanceAs (Decidable (_ ∧ _))

theorem inert_nil : Inert [] := ⟨List.not_mem_nil, List.isChain_singleton _⟩

/-- A character that is added in front must be no double quote, and no backslash before a character
that it escapes there; the end of the value is followed by a double quote. -/
theorem inert_cons {c : Char} {cs : List Char} :
    Inert (c :: cs) ↔
      c ≠ '"' ∧ (c = '\\' → ∀ d ∈ (cs ++ ['"']).head?, isEscapable d = false) ∧ Inert cs := by
  rw [Inert, Inert, List.cons_append, List.isChain_cons, List.mem_cons, not_or]
  constructor
  · rintro ⟨⟨hquote, hquotes⟩, hhead, htail⟩
    exact ⟨Ne.symm hquote, fun hc d hd => hhead d hd hc, hquotes, htail⟩
  · rintro ⟨hquote, hhead, hquotes, htail⟩
    exact ⟨⟨Ne.symm hquote, hquotes⟩, fun d hd hc => hhead hc d hd, htail⟩

variable {cs : List Char} {complete : List String} {word : String}

/-- A character in double quotes that is nothing special. -/
theorem next_double {c : Char} (hquote : c ≠ '"') (hbackslash : c ≠ '\\') :
    Reading.next ⟨complete, some word, .double⟩ c = ⟨complete, some (word.push c), .double⟩ := by
  simp [Reading.next, Reading.inDouble, Reading.push, hquote, hbackslash]

/-- A backslash that protects nothing is a character like any other. -/
theorem read_after_backslash (hne : cs ≠ []) (hhead : ∀ d ∈ cs.head?, isEscapable d = false) :
    cs.foldl Reading.next ⟨complete, some word, .doubleEscape⟩ =
      cs.foldl Reading.next ⟨complete, some (word.push '\\'), .double⟩ := by
  obtain ⟨d, rest, rfl⟩ := List.exists_cons_of_ne_nil hne
  have hd : ¬ (d = '"' ∨ d = '\\' ∨ d = '$') := by
    have hnone : isEscapable d = false := hhead d rfl
    simpa [isEscapable, and_assoc] using hnone
  have hnext : Reading.next ⟨complete, some word, .doubleEscape⟩ d =
      Reading.next ⟨complete, some (word.push '\\'), .double⟩ d := by
    simp only [Reading.next, if_neg hd, Reading.push, Reading.inDouble, Option.getD_some]
  rw [List.foldl_cons, List.foldl_cons, hnext]

/-- An inert value is read as it is. -/
theorem read_inert (h : Inert cs) :
    (cs ++ ['"']).foldl Reading.next ⟨complete, some word, .double⟩ =
      ⟨complete, some (word ++ String.ofList cs), .bare⟩ := by
  induction cs generalizing word with
  | nil => simp [Reading.next, Reading.inDouble]
  | cons c cs ih =>
    obtain ⟨hquote, hhead, hcs⟩ := inert_cons.mp h
    have hword : word.push c ++ String.ofList cs = word ++ String.ofList (c :: cs) := by
      apply String.toList_inj.mp
      simp
    rw [List.cons_append, List.foldl_cons, ← hword, ← ih hcs]
    by_cases hc : c = '\\'
    · obtain rfl := hc
      have hnext : Reading.next ⟨complete, some word, .double⟩ '\\' =
          ⟨complete, some word, .doubleEscape⟩ := rfl
      rw [hnext, read_after_backslash (by simp) (hhead rfl)]
    · rw [next_double hquote hc]

/-! ## Values that lose a character -/

/-- A backslash that may yet become a character of a word. -/
def Mood.pending : Mood → Nat
  | .escape | .doubleEscape => 1
  | .bare | .single | .double => 0

/-- A character adds itself at most, and what is pending may come with it. -/
theorem length_adds_le (m : Mood) (c : Char) :
    (m.adds c).length + (m.next c).pending ≤ m.pending + 1 := by
  cases m with
  | bare =>
    by_cases hc : c = '\\'
    · obtain rfl := hc
      decide
    · have hadds : (Mood.bare.adds c).length ≤ 1 := by
        simp only [Mood.adds]
        split_ifs <;> simp
      have hnext : (Mood.bare.next c).pending = 0 := by
        simp only [Mood.next, if_neg hc]
        split_ifs <;> rfl
      omega
  | escape => simp [Mood.adds, Mood.next, Mood.pending]
  | single =>
    simp only [Mood.adds, Mood.next]
    split_ifs <;> simp [Mood.pending]
  | double =>
    simp only [Mood.adds, Mood.next]
    split_ifs <;> simp_all [Mood.pending]
  | doubleEscape =>
    simp only [Mood.adds, Mood.next]
    split_ifs <;> simp [Mood.pending]

/-- The words gain at most one character with each that is read. -/
theorem length_letters_le (r : Reading) (cs : List Char) :
    (cs.foldl Reading.next r).letters.length + (cs.foldl Reading.next r).mood.pending ≤
      r.letters.length + r.mood.pending + cs.length := by
  induction cs generalizing r with
  | nil => exact Nat.le_refl _
  | cons c cs ih =>
    have hrest := ih (r.next c)
    have hstep := length_adds_le r.mood c
    rw [letters_next, mood_next, List.length_append] at hrest
    rw [List.foldl_cons, List.length_cons]
    omega

/-- A double quote at the end that leaves nothing open is lost. -/
theorem length_letters_closed {r : Reading}
    (hclosed : ((cs ++ ['"']).foldl Reading.next r).openQuote? = none) :
    ((cs ++ ['"']).foldl Reading.next r).letters.length ≤
      r.letters.length + r.mood.pending + cs.length := by
  have hbefore := length_letters_le r cs
  rw [List.foldl_append, List.foldl_cons, List.foldl_nil] at hclosed ⊢
  generalize cs.foldl Reading.next r = last at hbefore hclosed ⊢
  have hlost : (last.mood.adds '"').length ≤ last.mood.pending := by
    rw [Reading.openQuote?, mood_next] at hclosed
    generalize last.mood = m at hclosed ⊢
    cases m with
    | bare | single | doubleEscape => cases hclosed
    | escape | double => decide
  rw [letters_next, List.length_append]
  omega

theorem length_letters_push (complete : List String) (word : String) (c : Char) :
    (Reading.letters ⟨complete, some (word.push c), .double⟩).length =
      (Reading.letters ⟨complete, some word, .double⟩).length + 1 := by
  simp only [letters_eq, Option.getD_some, String.toList_push, List.length_append,
    List.length_singleton, Nat.add_assoc]

/-- A backslash is lost before what it protects.  If that is the quote at the end, the quotes stay
open, and otherwise this quote is lost too. -/
theorem not_closed_of_escapable {d : Char} (hd : d ∈ (cs ++ ['"']).head?)
    (hescapable : isEscapable d = true)
    (hclosed :
      ((cs ++ ['"']).foldl Reading.next ⟨complete, some word, .doubleEscape⟩).openQuote? = none)
    (hlength : (Reading.letters ⟨complete, some word, .double⟩).length + cs.length <
      ((cs ++ ['"']).foldl Reading.next ⟨complete, some word, .doubleEscape⟩).letters.length) :
    False := by
  have hnext : Reading.next ⟨complete, some word, .doubleEscape⟩ d =
      ⟨complete, some (word.push d), .double⟩ := by
    have hany : d = '"' ∨ d = '\\' ∨ d = '$' := by
      simpa [isEscapable, or_assoc] using hescapable
    simp only [Reading.next, if_pos hany, Reading.push, Option.getD_some]
  cases cs with
  | nil =>
    obtain rfl : '"' = d := Option.some.inj hd
    cases hclosed
  | cons e cs =>
    obtain rfl : e = d := Option.some.inj hd
    rw [List.cons_append, List.foldl_cons, hnext] at hclosed hlength
    -- the backslash is gone, and the rest cannot add more than its own length
    have hlost := length_letters_closed hclosed
    rw [length_letters_push] at hlost
    rw [List.length_cons] at hlength
    simp only [Mood.pending] at hlost
    omega

/-- If the quotes are closed and only one character is lost, it is the quote at the end. -/
theorem inert_of_length
    (hclosed : ((cs ++ ['"']).foldl Reading.next ⟨complete, some word, .double⟩).openQuote? = none)
    (hlength : (Reading.letters ⟨complete, some word, .double⟩).length + cs.length ≤
      ((cs ++ ['"']).foldl Reading.next ⟨complete, some word, .double⟩).letters.length) :
    Inert cs := by
  -- along the value: a character that is lost cannot be made up for by what follows
  induction cs generalizing word with
  | nil => exact inert_nil
  | cons c cs ih =>
    rw [List.cons_append, List.foldl_cons] at hclosed hlength
    rw [List.length_cons] at hlength
    by_cases hquote : c = '"'
    · -- the quotes are closed too early, and one more is lost at the end
      obtain rfl := hquote
      have hnext : Reading.next ⟨complete, some word, .double⟩ '"' =
          ⟨complete, some word, .bare⟩ := rfl
      rw [hnext] at hclosed hlength
      have hsame : Reading.letters ⟨complete, some word, .bare⟩ =
          Reading.letters ⟨complete, some word, .double⟩ := rfl
      have hlost := length_letters_closed hclosed
      simp only [hsame, Mood.pending] at hlost
      omega
    by_cases hbackslash : c = '\\'
    · obtain rfl := hbackslash
      have hnext : Reading.next ⟨complete, some word, .double⟩ '\\' =
          ⟨complete, some word, .doubleEscape⟩ := rfl
      rw [hnext] at hclosed hlength
      have hhead : ∀ d ∈ (cs ++ ['"']).head?, isEscapable d = false := by
        intro d hd
        rw [← Bool.not_eq_true]
        intro hescapable
        exact not_closed_of_escapable hd hescapable hclosed (by omega)
      rw [read_after_backslash (by simp) hhead] at hclosed hlength
      refine inert_cons.mpr ⟨hquote, fun _ => hhead, ih hclosed ?_⟩
      rw [length_letters_push]
      omega
    · rw [next_double hquote hbackslash] at hclosed hlength
      refine inert_cons.mpr ⟨hquote, fun hc => absurd hc hbackslash, ih hclosed ?_⟩
      rw [length_letters_push]
      omega

/-- The line `echo "$X"` has the words `echo` and the value of the variable exactly when the value
is inert in double quotes. -/
theorem words_quoted_variable_iff {environment : Entries String} {name value : String}
    (hname : IsIdentifier name) (hvalue : Entries.get? environment name = some value) :
    words (expand environment ("echo \"$" ++ name ++ "\"")) = .ok ["echo", value] ↔
      Inert value.toList := by
  have hopened : "echo \"".toList.foldl Reading.next .start = ⟨["echo"], some "", .double⟩ := by
    decide
  have hread : Reading.ofChars (expand environment ("echo \"$" ++ name ++ "\"")).toList =
      (value.toList ++ ['"']).foldl Reading.next ⟨["echo"], some "", .double⟩ := by
    rw [expand_quoted_variable hname hvalue, Reading.ofChars, List.foldl_append, hopened]
  constructor
  · intro h
    rw [words, hread] at h
    split at h
    · cases h
    · next hclosed =>
      -- if the words are right then no character of the value was lost
      refine inert_of_length hclosed ?_
      have hletters : Reading.letters ((value.toList ++ ['"']).foldl Reading.next
          ⟨["echo"], some "", .double⟩) = "echo".toList ++ value.toList := by
        rw [Reading.letters, Except.ok.inj h]
        simp
      rw [hletters, List.length_append]
      exact Nat.le_refl _
  · intro hinert
    rw [words, hread, read_inert hinert, String.ofList_toList, String.empty_append]
    rfl

/-- A value with single quotes, blanks, a dollar sign and backslashes that escape nothing. -/
theorem sample_quoted_variable :
    let environment := [("HOME", "/home/ann"), ("X1", "it's  C:\\dir; 'a b' $HOME \\x")]
    IsIdentifier "X1" ∧
      Entries.get? environment "X1" = some "it's  C:\\dir; 'a b' $HOME \\x" ∧
      words (expand environment "echo \"$X1\"") =
        .ok ["echo", "it's  C:\\dir; 'a b' $HOME \\x"] := by
  have hname : IsIdentifier "X1" := isIdentifier_of_command (by decide)
  have hvalue : Entries.get? [("HOME", "/home/ann"), ("X1", "it's  C:\\dir; 'a b' $HOME \\x")] "X1" =
      some "it's  C:\\dir; 'a b' $HOME \\x" := by decide
  have hinert : Inert "it's  C:\\dir; 'a b' $HOME \\x".toList := by decide
  exact ⟨hname, hvalue, (words_quoted_variable_iff hname hvalue).mpr hinert⟩

/-- A double quote in the value closes the quotes around it, and what follows is split. -/
theorem value_closes_quotes :
    let environment := [("X", "a\" \"b")]
    IsIdentifier "X" ∧ Entries.get? environment "X" = some "a\" \"b" ∧
      words (expand environment "echo \"$X\"") = .ok ["echo", "a", "b"] ∧
      words (expand environment "echo \"$X\"") ≠ .ok ["echo", "a\" \"b"] :=
  ⟨isIdentifier_of_command (by decide), by decide +kernel⟩

end Userland.Line
