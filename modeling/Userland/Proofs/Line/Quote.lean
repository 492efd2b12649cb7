/-
  Any words can be written on a command line.

  1. *The writing.*  `quote` puts a text in single quotes.  A single quote in it cannot stand there:
     it closes the quotes, is written behind a backslash, and the quotes are opened again.
     `quoteAll` puts one space between the quoted texts.

  2. *Specification.*  No session changes such a line by expansion, and its words are the texts
     again, each as it was: empty texts, blanks, quotes, backslashes and dollar signs included.

  3. *The crux.*  Both readings of the line stand in single quotes before and after each character
     of a text, also where the character is a single quote: expansion at the spot `⟨.single, false⟩`
     (`quiet_quotedChar`), the splitting in the mood `.single` with one more character in its word
     (`read_quotedChar`).  All else is induction on the characters and on the texts.
-/
import Userland.Proofs.Line.Dollars

namespace Userland.Line

/-! ## Writing words -/

/-- A character of a text in single quotes. -/
def quotedChar (c : Char) : List Char :=
  if c = '\'' then ['\'', '\\', '\'', '\''] else [c]

/-- A text in single quotes. -/
def quotedChars (cs : List Char) : List Char := '\'' :: (cs.flatMap quotedChar ++ ['\''])

/-- The text as one word of a line. -/
def quote (text : String) : String := String.ofList (quotedChars text.toList)

/-- The texts as the words of a line. -/
def quoteAll (texts : List String) : String := " ".intercalate (texts.map quote)

theorem toList_quoteAll_cons_cons (text text' : String) (texts : List String) :
    (quoteAll (text :: text' :: texts)).toList =
      quotedChars text.toList ++ ' ' :: (quoteAll (text' :: texts)).toList := by
  rw [quoteAll, List.map_cons, List.map_cons, String.intercalate_cons_cons, ← List.map_cons]
  simp [quote, quoteAll]

theorem toList_quoteAll_singleton (text : String) :
    (quoteAll [text]).toList = quotedChars text.toList := by
  simp [quoteAll, quote]

/-! ## Expansion keeps the line -/

/-- Only a dollar sign can begin a variable. -/
theorem quiet_cons_of_not_dollar {s : Spot} {c : Char} {cs : List Char} (hc : c ≠ '$')
    (h : Quiet (s.next c) cs) : Quiet s (c :: cs) :=
  quiet_cons.mpr ⟨fun hdollar => absurd hdollar hc, h⟩

/-- In single quotes a character that closes nothing may be a dollar sign too. -/
theorem quiet_cons_of_single {c : Char} {cs : List Char} (hc : c ≠ '\'')
    (h : Quiet ⟨.single, false⟩ cs) : Quiet ⟨.single, false⟩ (c :: cs) := by
  have hnext : Spot.next ⟨.single, false⟩ c = ⟨.single, false⟩ := by
    rw [next_of_not_shields fun hfalse => by cases hfalse]
    simp [Quotes.after, hc]
  rw [quiet_cons, hnext]
  exact ⟨fun _ _ => rfl, h⟩

/-- Inside the quotes a character changes nothing, also where the quotes are closed for it and
opened again. -/
theorem quiet_quotedChar (c : Char) {rest : List Char} (h : Quiet ⟨.single, false⟩ rest) :
    Quiet ⟨.single, false⟩ (quotedChar c ++ rest) := by
  by_cases hc : c = '\''
  · rw [quotedChar, if_pos hc]
    -- out of the quotes, behind a backslash, a quote that does nothing, and in again
    refine quiet_cons_of_not_dollar (by decide) ?_
    refine quiet_cons_of_not_dollar (by decide) ?_
    refine quiet_cons_of_not_dollar (by decide) ?_
    exact quiet_cons_of_not_dollar (by decide) h
  · rw [quotedChar, if_neg hc]
    exact quiet_cons_of_single hc h

/-- A quoted text is passed by, and after it the scan is where it was before. -/
theorem quiet_quotedChars (cs : List Char) {rest : List Char} (h : Quiet .start rest) :
    Quiet .start (quotedChars cs ++ rest) := by
  have hinner : Quiet ⟨.single, false⟩ (cs.flatMap quotedChar ++ '\'' :: rest) := by
    induction cs with
    | nil => exact quiet_cons_of_not_dollar (by decide) h
    | cons c cs ih =>
      rw [List.flatMap_cons, List.append_assoc]
      exact quiet_quotedChar c ih
  rw [quotedChars, List.cons_append, List.append_assoc, List.singleton_append]
  exact quiet_cons_of_not_dollar (by decide) hinner

theorem quiet_quoteAll (texts : List String) : Quiet .start (quoteAll texts).toList := by
  induction texts with
  | nil => exact quiet_nil .start
  | cons text texts ih =>
    cases texts with
    | nil =>
      rw [toList_quoteAll_singleton, ← List.append_nil (quotedChars _)]
      exact quiet_quotedChars _ (quiet_nil .start)
    | cons text' texts =>
      rw [toList_quoteAll_cons_cons]
      exact quiet_quotedChars _ (quiet_cons_of_not_dollar (by decide) ih)

/-! ## The splitting finds the words -/

/-- Each quoted character adds itself to the word. -/
theorem read_quotedChar (complete : List String) (word : String) (c : Char) :
    (quotedChar c).foldl Reading.next ⟨complete, some word, .single⟩ =
      ⟨complete, some (word.push c), .single⟩ := by
  by_cases hc : c = '\''
  · rw [quotedChar, if_pos hc, hc]
    rfl
  · rw [quotedChar, if_neg hc, List.foldl_cons, List.foldl_nil]
    simp [Reading.next, Reading.push, hc]

/-- The characters are added to the word, which they begin if there is none. -/
theorem read_quotedChars (complete : List String) (word : Option String) (cs : List Char) :
    (quotedChars cs).foldl Reading.next ⟨complete, word, .bare⟩ =
      ⟨complete, some (word.getD "" ++ String.ofList cs), .bare⟩ := by
  have hinner : ∀ word : String, (cs.flatMap quotedChar).foldl Reading.next
      ⟨complete, some word, .single⟩ = ⟨complete, some (word ++ String.ofList cs), .single⟩ := by
    induction cs with
    | nil => simp
    | cons c cs ih =>
      intro word
      have hword : word.push c ++ String.ofList cs = word ++ String.ofList (c :: cs) := by
        apply String.toList_inj.mp
        simp
      rw [List.flatMap_cons, List.foldl_append, read_quotedChar, ih, hword]
  have hopen : Reading.next ⟨complete, word, .bare⟩ '\'' =
      ⟨complete, some (word.getD ""), .single⟩ := rfl
  rw [quotedChars, List.foldl_cons, hopen, List.foldl_append, hinner]
  rfl

/-- A quoted text is a word, an empty one too. -/
theorem read_quotedChars_first (complete : List String) (text : String) :
    (quotedChars text.toList).foldl Reading.next ⟨complete, none, .bare⟩ =
      ⟨complete, some text, .bare⟩ := by
  rw [read_quotedChars, Option.getD_none, String.ofList_toList, String.empty_append]

/-- The last text is the word that has begun, the others are complete. -/
theorem read_quoteAll (complete texts : List String) :
    (quoteAll texts).toList.foldl Reading.next ⟨complete, none, .bare⟩ =
      ⟨complete ++ texts.dropLast, texts.getLast?, .bare⟩ := by
  induction texts generalizing complete with
  | nil =>
    rw [List.dropLast_nil, List.append_nil]
    rfl
  | cons text texts ih =>
    cases texts with
    | nil =>
      rw [toList_quoteAll_singleton, read_quotedChars_first]
      simp
    | cons text' texts =>
      have hspace : Reading.next ⟨complete, some text, .bare⟩ ' ' =
          ⟨complete ++ [text], none, .bare⟩ := rfl
      rw [toList_quoteAll_cons_cons, List.foldl_append, read_quotedChars_first, List.foldl_cons,
        hspace, ih, List.append_assoc]
      rfl

/-- The words of the line are the texts that were quoted. -/
theorem allWords_quoteAll (texts : List String) :
    (Reading.ofChars (quoteAll texts).toList).allWords = texts := by
  rw [Reading.ofChars, Reading.start, read_quoteAll, Reading.allWords, List.nil_append]
  cases texts using List.reverseRecOn with
  | nil => rfl
  | append_singleton texts text => simp

/-- Whatever the texts and whatever the variables, the line is kept by expansion and its words are
the texts. -/
theorem quoteAll_conveyed (environment : Entries String) (texts : List String) :
    expand environment (quoteAll texts) = quoteAll texts ∧ words (quoteAll texts) = .ok texts := by
  constructor
  · exact (expand_eq_self_iff_quiet (quoteAll texts)).mpr (quiet_quoteAll texts) environment
  · have hread := read_quoteAll [] texts
    have hclosed : (Reading.ofChars (quoteAll texts).toList).openQuote? = none := by
      rw [Reading.ofChars, Reading.start, hread]
      rfl
    have hwords := allWords_quoteAll texts
    simp only [words, hclosed, hwords]

example : quoteAll ["rm", "don't", "$HOME\\", ""] = "'rm' 'don'\\''t' '$HOME\\' ''" := by
  decide

end Userland.Line
