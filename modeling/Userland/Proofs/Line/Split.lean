/-
  Where a line may be cut.

  1. *Blanks.*  A blank outside quotes ends the word before it, and nothing of what was read makes a
     difference after it: the words of the line are the words before the blank and then the words of
     what follows, which fails if that fails (`words_cut`).

  2. *Texts without quotes and backslashes.*  They are split at their blanks and nowhere else
     (`read_ofChars_unquoted`).  Expansion keeps them if they have no dollar signs, whatever they
     stand before (`pieces_plain_append`).

  3. *Blanks around a line.*  They are taken off before a line is run.  Those in front make no
     words, and those at the end belong to what the line ends with: a line that begins with a text
     in which nothing is special has the fields of this text and then the words of the rest without
     the blanks at its end (`words_expand_trim_append`).

  4. *The crux.*  The words that are complete are only carried along (`Reading.next_after`), and a
     text without quotes and backslashes is read outside quotes from its beginning to its end; the
     induction keeps the word that has begun as the beginning of the first field (`read_unquoted`).
-/
import Mathlib.Data.List.DropRight
import Userland.Proofs.Line.Dollars

namespace Userland.Line

open Text

/-! ## What is complete is carried along -/

/-- The reading with some words before its own. -/
def Reading.after (r : Reading) (before : List String) : Reading :=
  { r with words := before ++ r.words }

/-- Words that are complete have no part in reading one character more. -/
theorem Reading.next_after (r : Reading) (before : List String) (c : Char) :
    (r.after before).next c = (r.next c).after before := by
  obtain ⟨complete, word, mood⟩ := r
  cases mood with
  | bare =>
    simp only [after, next, openQuote, endWord, allWords, push, List.append_assoc]
    split_ifs <;> rfl
  | escape => rfl
  | single =>
    simp only [after, next, push]
    split_ifs <;> rfl
  | double =>
    simp only [after, next, inDouble, push]
    split_ifs <;> rfl
  | doubleEscape =>
    simp only [after, next, inDouble, push]
    split_ifs <;> rfl

theorem read_after (r : Reading) (before : List String) (cs : List Char) :
    cs.foldl Reading.next (r.after before) = (cs.foldl Reading.next r).after before := by
  induction cs generalizing r with
  | nil => rfl
  | cons c cs ih => rw [List.foldl_cons, List.foldl_cons, Reading.next_after, ih]

/-! ## The characters of the words -/

/-- The characters of all words, in order. -/
def Reading.letters (r : Reading) : List Char := r.allWords.flatMap String.toList

/-- What a character adds to the words. -/
def Mood.adds (m : Mood) (c : Char) : List Char :=
  match m with
  | .bare => if isQuote c || c = '\\' || isBlank c then [] else [c]
  | .escape => [c]
  | .single => if c = '\'' then [] else [c]
  | .double => if c = '"' || c = '\\' then [] else [c]
  | .doubleEscape => if c = '"' || c = '\\' || c = '$' then [c] else ['\\', c]

/-- The characters of a word that may not have begun. -/
theorem letters_word (word : Option String) :
    word.toList.flatMap String.toList = (word.getD "").toList := by
  cases word with
  | none => rfl
  | some text => simp

/-- What has been read so far are the complete words and the one begun. -/
theorem letters_eq (complete : List String) (word : Option String) (mood : Mood) :
    Reading.letters ⟨complete, word, mood⟩ =
      complete.flatMap String.toList ++ (word.getD "").toList := by
  rw [Reading.letters, Reading.allWords, List.flatMap_append, letters_word]

/-- Each character adds what the mood says, at the end. -/
theorem letters_next (r : Reading) (c : Char) :
    (r.next c).letters = r.letters ++ r.mood.adds c := by
  obtain ⟨complete, word, mood⟩ := r
  cases mood with
  | bare =>
    simp only [Reading.next, Mood.adds, Reading.openQuote, Reading.endWord, Reading.push]
    split_ifs <;> simp_all [letters_eq, isQuote, Reading.allWords, letters_word]
  | escape => simp [Reading.next, Mood.adds, Reading.push, letters_eq]
  | single =>
    simp only [Reading.next, Mood.adds, Reading.push]
    split_ifs <;> simp [letters_eq]
  | double =>
    simp only [Reading.next, Mood.adds, Reading.inDouble, Reading.push]
    split_ifs <;> simp_all [letters_eq]
  | doubleEscape =>
    simp only [Reading.next, Mood.adds, Reading.inDouble, Reading.push]
    split_ifs <;> simp_all [letters_eq]

/-! ## Blanks -/

variable {c : Char} {cs more : List Char}

/-- A blank outside quotes ends the word. -/
theorem next_blank (h : isBlank c = true) (complete : List String) (word : Option String) :
    Reading.next ⟨complete, word, .bare⟩ c = ⟨complete ++ word.toList, none, .bare⟩ := by
  have hsingle : c ≠ '\'' := by
    rintro rfl
    cases h
  have hdouble : c ≠ '"' := by
    rintro rfl
    cases h
  have hbackslash : c ≠ '\\' := by
    rintro rfl
    cases h
  simp [Reading.next, Reading.endWord, Reading.allWords, h, hsingle, hdouble, hbackslash]

/-- A blank outside of quotes ends a word, and what follows is read from the start. -/
theorem read_cut (hbare : (Reading.ofChars cs).mood = .bare) (h : isBlank c = true) :
    Reading.ofChars (cs ++ c :: more) =
      (Reading.ofChars more).after (Reading.ofChars cs).allWords := by
  have hblank :
      (Reading.ofChars cs).next c = Reading.start.after (Reading.ofChars cs).allWords := by
    generalize Reading.ofChars cs = r at hbare ⊢
    obtain ⟨complete, word, mood⟩ := r
    obtain rfl : mood = .bare := hbare
    rw [next_blank h, Reading.after, Reading.start, List.append_nil]
    rfl
  calc Reading.ofChars (cs ++ c :: more)
      = more.foldl Reading.next ((Reading.ofChars cs).next c) := by
        rw [Reading.ofChars, List.foldl_append, List.foldl_cons]
        rfl
    _ = (Reading.ofChars more).after (Reading.ofChars cs).allWords := by
        rw [hblank, read_after]
        rfl

/-- The words of a line that has a blank outside quotes. -/
theorem words_cut (hbare : (Reading.ofChars cs).mood = .bare) (h : isBlank c = true) :
    words (String.ofList (cs ++ c :: more)) =
      (words (String.ofList more)).map ((Reading.ofChars cs).allWords ++ ·) := by
  have hopen : ((Reading.ofChars more).after (Reading.ofChars cs).allWords).openQuote? =
      (Reading.ofChars more).openQuote? := rfl
  simp only [words, String.toList_ofList, read_cut hbare h, hopen]
  cases (Reading.ofChars more).openQuote? with
  | none => simp [Reading.allWords, Reading.after, Except.map]
  | some q => rfl

/-- Blanks outside quotes make no words. -/
theorem read_blanks (h : ∀ b ∈ cs, isBlank b = true) {r : Reading} (hbare : r.mood = .bare) :
    (cs.foldl Reading.next r).mood = .bare ∧ (cs.foldl Reading.next r).allWords = r.allWords := by
  induction cs generalizing r with
  | nil => exact ⟨hbare, rfl⟩
  | cons c cs ih =>
    obtain ⟨complete, word, mood⟩ := r
    obtain rfl : mood = .bare := hbare
    obtain ⟨hc, hcs⟩ := List.forall_mem_cons.mp h
    obtain ⟨hmood, hwords⟩ := ih hcs (r := ⟨complete ++ word.toList, none, .bare⟩) rfl
    rw [List.foldl_cons, next_blank hc]
    refine ⟨hmood, hwords.trans ?_⟩
    rw [Reading.allWords, Reading.allWords, Option.toList_none, List.append_nil]

/-! ## Texts without quotes and backslashes -/

/-- No character is a quote or a backslash. -/
def Unquoted (cs : List Char) : Prop := ∀ c ∈ cs, isQuote c = false ∧ c ≠ '\\'

instance (cs : List Char) : Decidable (Unquoted cs) := List.decidableBAll _ cs

/-- The parts in which there is something, as texts. -/
def fields (parts : List (List Char)) : List String :=
  (parts.filter (· ≠ [])).map String.ofList

/-- The fields of some characters, the first of which has begun before them. -/
def fieldsFrom (begun cs : List Char) : List String :=
  fields ((cs.splitOnP isBlank).modifyHead (begun ++ ·))

theorem fieldsFrom_nil (begun : List Char) : fieldsFrom begun [] = fields [begun] := by
  rw [fieldsFrom, List.splitOnP_nil, List.modifyHead_cons, List.append_nil]

theorem fieldsFrom_blank (h : isBlank c = true) (begun cs : List Char) :
    fieldsFrom begun (c :: cs) = fields [begun] ++ fieldsFrom [] cs := by
  have hhead : (cs.splitOnP isBlank).modifyHead ([] ++ ·) = cs.splitOnP isBlank := by
    obtain ⟨first, rest, hsplit⟩ := List.exists_cons_of_ne_nil (List.splitOnP_ne_nil isBlank cs)
    rw [hsplit, List.modifyHead_cons, List.nil_append]
  rw [fieldsFrom, fieldsFrom, hhead, List.splitOnP_cons_eq_if_modifyHead, if_pos h,
    List.modifyHead_cons, List.append_nil, fields, fields, fields, ← List.map_append,
    ← List.filter_append, List.singleton_append]

theorem fieldsFrom_letter (h : isBlank c = false) (begun cs : List Char) :
    fieldsFrom begun (c :: cs) = fieldsFrom (begun ++ [c]) cs := by
  have hfirst : (begun ++ ·) ∘ (c :: ·) = ((begun ++ [c]) ++ ·) := by
    funext part
    rw [Function.comp_apply, List.append_assoc, List.singleton_append]
  rw [fieldsFrom, fieldsFrom, List.splitOnP_cons_eq_if_modifyHead, if_neg (by rw [h]; decide),
    List.modifyHead_modifyHead, hfirst]

/-- From the start these are the words between blanks. -/
theorem fieldsFrom_start (cs : List Char) : fieldsFrom [] cs = Text.words (String.ofList cs) := by
  obtain ⟨first, rest, hsplit⟩ := List.exists_cons_of_ne_nil (List.splitOnP_ne_nil isBlank cs)
  rw [fieldsFrom, Text.words, String.toList_ofList, hsplit, List.modifyHead_cons, List.nil_append]
  rfl

/-- Outside quotes a character that is nothing special is added to the word. -/
theorem next_letter (hquote : isQuote c = false) (hbackslash : c ≠ '\\')
    (hblank : isBlank c = false)
    (complete : List String) (word : Option String) :
    Reading.next ⟨complete, word, .bare⟩ c =
      ⟨complete, some ((word.getD "").push c), .bare⟩ := by
  have hsingle : c ≠ '\'' := by
    rintro rfl
    cases hquote
  have hdouble : c ≠ '"' := by
    rintro rfl
    cases hquote
  simp [Reading.next, Reading.push, hsingle, hdouble, hbackslash, hblank]

/-- A word that has begun is not empty, and so it is a field. -/
theorem fields_begun {word : Option String} (hword : word ≠ some "") :
    fields [(word.getD "").toList] = word.toList := by
  cases word with
  | none => rfl
  | some text =>
    have htext : text ≠ "" := fun he => hword (congrArg some he)
    simp [fields, htext]

/-- The word that has begun is the beginning of the first field. -/
theorem read_unquoted (h : Unquoted cs) (complete : List String) (word : Option String)
    (hword : word ≠ some "") :
    (cs.foldl Reading.next ⟨complete, word, .bare⟩).mood = .bare ∧
      (cs.foldl Reading.next ⟨complete, word, .bare⟩).allWords =
        complete ++ fieldsFrom (word.getD "").toList cs := by
  induction cs generalizing complete word with
  | nil =>
    refine ⟨rfl, ?_⟩
    rw [List.foldl_nil, fieldsFrom_nil, fields_begun hword]
    rfl
  | cons c cs ih =>
    obtain ⟨⟨hquote, hbackslash⟩, hcs⟩ := List.forall_mem_cons.mp h
    rw [List.foldl_cons]
    cases hblank : isBlank c with
    | true =>
      obtain ⟨hmood, hwords⟩ := ih hcs (complete ++ word.toList) none (by simp)
      rw [next_blank hblank, fieldsFrom_blank hblank, fields_begun hword, ← List.append_assoc]
      exact ⟨hmood, hwords⟩
    | false =>
      obtain ⟨hmood, hwords⟩ := ih hcs complete (some ((word.getD "").push c)) (by simp)
      rw [next_letter hquote hbackslash hblank, fieldsFrom_letter hblank]
      rw [Option.getD_some, String.toList_push] at hwords
      exact ⟨hmood, hwords⟩

/-- The words of a text without quotes and backslashes are its fields. -/
theorem read_ofChars_unquoted (h : Unquoted cs) :
    (Reading.ofChars cs).mood = .bare ∧
      (Reading.ofChars cs).allWords = Text.words (String.ofList cs) := by
  obtain ⟨hmood, hwords⟩ := read_unquoted h [] none (by simp)
  exact ⟨hmood, hwords.trans (fieldsFrom_start cs)⟩

/-! ## Texts without dollar signs -/

/-- Any character but a backslash or a dollar sign is a piece. -/
theorem pieces_of_letter (hbackslash : c ≠ '\\') (hdollar : c ≠ '$') (q : Quotes) (cs : List Char) :
    pieces q (c :: cs) = .character c :: pieces (q.after c) cs := by
  rw [pieces.eq_3 q c cs fun _ _ hc _ => hbackslash hc, if_neg fun h => hdollar h.1]

/-- A text in which nothing is special is kept, in whatever quotes it is. -/
theorem pieces_plain_append (h : Unquoted cs) (hdollar : '$' ∉ cs) (q : Quotes) (more : List Char) :
    pieces q (cs ++ more) = cs.map Piece.character ++ pieces q more := by
  induction cs with
  | nil => rfl
  | cons c cs ih =>
    obtain ⟨⟨hquote, hbackslash⟩, hcs⟩ := List.forall_mem_cons.mp h
    obtain ⟨hc, hrest⟩ := not_or.mp (mt List.mem_cons.mpr hdollar)
    rw [List.cons_append, pieces_of_letter hbackslash (Ne.symm hc), after_of_not_quote hquote,
      ih hcs hrest]
    rfl

/-- Expansion leaves a plain beginning alone, and goes on behind it as from the start. -/
theorem expand_plain_append (environment : Entries String) (h : Unquoted cs) (hdollar : '$' ∉ cs)
    (more : List Char) :
    expand environment (String.ofList (cs ++ more)) =
      String.ofList cs ++ expand environment (String.ofList more) := by
  rw [expand, expand, String.toList_ofList, String.toList_ofList, pieces_plain_append h hdollar,
    List.flatMap_append, text_characters, String.ofList_append]

/-- Expansion leaves a plain line alone. -/
theorem expand_plain (environment : Entries String) (h : Unquoted cs) (hdollar : '$' ∉ cs) :
    expand environment (String.ofList cs) = String.ofList cs := by
  have hnothing : expand environment (String.ofList []) = "" := by
    rw [expand, String.toList_ofList, pieces]
    rfl
  rw [← List.append_nil cs, expand_plain_append environment h hdollar, hnothing, List.append_nil,
    String.append_empty]

/-! ## Blanks around a line -/

/-- What is dropped at the end of the second part, and of the first only if nothing is left of
it. -/
theorem dropEndWhile_append (p : Char → Bool) (cs more : List Char) :
    dropEndWhile p (cs ++ more) =
      if dropEndWhile p more = [] then dropEndWhile p cs else cs ++ dropEndWhile p more := by
  rw [dropEndWhile, List.reverse_append, List.dropWhile_append]
  split
  · next h =>
    have hmore : dropEndWhile p more = [] := by
      rw [dropEndWhile, List.isEmpty_iff.mp h, List.reverse_nil]
    rw [if_pos hmore]
    rfl
  · next h =>
    have hmore : dropEndWhile p more ≠ [] := fun he => h (by simpa [dropEndWhile] using he)
    rw [if_neg hmore, List.reverse_append, List.reverse_reverse]
    rfl

/-- Blanks in front make no words. -/
theorem read_dropWhile_blanks (cs : List Char) :
    Reading.ofChars (cs.dropWhile isBlank) = Reading.ofChars cs := by
  induction cs with
  | nil => rfl
  | cons c cs ih =>
    rw [List.dropWhile_cons]
    split
    · next hblank =>
      have hstart : Reading.start.next c = Reading.start := next_blank hblank [] none
      rw [ih, Reading.ofChars, Reading.ofChars, List.foldl_cons, hstart]
    · rfl

/-- Blanks at the end make no words where nothing is special. -/
theorem read_dropEndWhile_blanks (h : Unquoted cs) :
    (Reading.ofChars (dropEndWhile isBlank cs)).allWords = (Reading.ofChars cs).allWords := by
  have hcut : dropEndWhile isBlank cs ++ cs.rtakeWhile isBlank = cs :=
    List.rdropWhile_append_rtakeWhile
  have hkept : Unquoted (dropEndWhile isBlank cs) := fun c hc =>
    h c (hcut ▸ List.mem_append_left _ hc)
  obtain ⟨-, hwords⟩ := read_blanks (fun b hb => List.mem_rtakeWhile_imp hb)
    (read_ofChars_unquoted hkept).1
  rw [← hwords, Reading.ofChars, Reading.ofChars, ← List.foldl_append, hcut]

/-- A line without quotes is always complete. -/
theorem words_of_unquoted (h : Unquoted cs) :
    words (String.ofList cs) = .ok (Reading.ofChars cs).allWords := by
  have hclosed : (Reading.ofChars cs).openQuote? = none := by
    rw [Reading.openQuote?, (read_ofChars_unquoted h).1]
  rw [words, String.toList_ofList]
  simp only [hclosed]

/-- A text in which nothing is special and what follows it, without the blanks at the end.  If there
are only blanks behind the text, then those at its own end go too. -/
theorem words_expand_dropEnd_append (environment : Entries String) (h : Unquoted cs)
    (hdollar : '$' ∉ cs) (more : List Char) :
    words (expand environment (String.ofList (dropEndWhile isBlank (cs ++ ' ' :: more)))) =
      (words (expand environment (String.ofList (dropEndWhile isBlank more)))).map
        ((Reading.ofChars cs).allWords ++ ·) := by
  rw [← List.singleton_append, ← List.append_assoc, dropEndWhile_append]
  -- is anything left of what follows, once its blanks are dropped?
  split
  · next hmore =>
    have hkept : (dropEndWhile isBlank cs).Sublist cs :=
      (List.rdropWhile_prefix isBlank cs).sublist
    have hunquoted : Unquoted (dropEndWhile isBlank cs) := fun d hd => h d (hkept.subset hd)
    have hnothing : words (expand environment (String.ofList [])) = .ok [] := by
      rw [expand_plain environment (by simp [Unquoted]) List.not_mem_nil]
      rfl
    rw [hmore, hnothing, Except.map, List.append_nil, dropEndWhile_append, if_pos (by decide),
      expand_plain environment hunquoted (fun hd => hdollar (hkept.subset hd)),
      words_of_unquoted hunquoted, read_dropEndWhile_blanks h]
  · have hblank : Unquoted [' '] := by decide
    have hunquoted : Unquoted (cs ++ [' ']) := List.forall_mem_append.mpr ⟨h, hblank⟩
    have hnone : '$' ∉ cs ++ [' '] := by simp [hdollar]
    rw [expand_plain_append environment hunquoted hnone]
    generalize expand environment (String.ofList (dropEndWhile isBlank more)) = rest
    have hline :
        String.ofList (cs ++ [' ']) ++ rest = String.ofList (cs ++ ' ' :: rest.toList) := by
      apply String.toList_inj.mp
      simp
    rw [hline, words_cut (read_ofChars_unquoted h).1 (by decide), String.ofList_toList]

/-- The blanks in front of a line are those in front of its beginning, if that is not blank. -/
theorem trim_append (hword : ∃ c ∈ cs, isBlank c = false) (more : List Char) :
    trim (String.ofList (cs ++ more)) =
      String.ofList (dropEndWhile isBlank (cs.dropWhile isBlank ++ more)) := by
  obtain ⟨c, hc, hletter⟩ := hword
  have hbegins : (cs.dropWhile isBlank).isEmpty = false := by
    rw [← Bool.not_eq_true, List.isEmpty_iff, List.dropWhile_eq_nil_iff]
    intro hblanks
    rw [hblanks c hc] at hletter
    cases hletter
  rw [trim, String.toList_ofList, stripWhile, List.dropWhile_append, hbegins, if_neg (by decide)]

/-- A line that begins with a text in which nothing is special, without the blanks around it. -/
theorem words_expand_trim_append (environment : Entries String) (h : Unquoted cs)
    (hdollar : '$' ∉ cs) (hword : ∃ c ∈ cs, isBlank c = false) (more : List Char) :
    words (expand environment (trim (String.ofList (cs ++ ' ' :: more)))) =
      (words (expand environment (String.ofList (dropEndWhile isBlank more)))).map
        (Text.words (String.ofList cs) ++ ·) := by
  have hkept : (cs.dropWhile isBlank).Sublist cs := List.dropWhile_sublist _
  have hunquoted : Unquoted (cs.dropWhile isBlank) := fun d hd => h d (hkept.subset hd)
  rw [trim_append hword, words_expand_dropEnd_append environment hunquoted
    (fun hd => hdollar (hkept.subset hd)), read_dropWhile_blanks, (read_ofChars_unquoted h).2]

end Userland.Line
