/-
  The words of a command line.

  Words are separated by blanks.  Single quotes keep what is between them; so do double quotes,
  where a backslash before a quote, a backslash or a dollar sign stands for that character; outside
  quotes a backslash stands for the character after it.  Quotes with nothing between them are a word
  with nothing in it.

  The line is read from left to right, one character at a time: `Reading.next` is the step, and the
  reading of a line is the fold of its characters, so what comes before a place acts on what follows
  only through the reading there.
-/
import Userland.Fault
import Userland.Text.Blank

namespace Userland.Line

/-- Where the reading of a line stands. -/
inductive Mood where
  | bare
  /-- After a backslash outside quotes. -/
  | escape
  | single
  | double
  /-- After a backslash in double quotes. -/
  | doubleEscape
  deriving DecidableEq, Repr

/-- The reading of a line so far. -/
structure Reading where
  /-- The words that are complete. -/
  words : List String
  /-- The word that has begun. -/
  word : Option String
  mood : Mood
  deriving DecidableEq, Repr

namespace Reading

/-- Before the first character. -/
def start : Reading := ⟨[], none, .bare⟩

/-- Adds a character to the word, which it begins if there is none. -/
def push (r : Reading) (c : Char) : Reading :=
  { r with word := some ((r.word.getD "").push c) }

/-- The words, the one that has begun included. -/
def allWords (r : Reading) : List String := r.words ++ r.word.toList

/-- Ends the word. -/
def endWord (r : Reading) : Reading := ⟨r.allWords, none, r.mood⟩

/-- Opens quotes, which begin a word if there is none. -/
def openQuote (r : Reading) (mood : Mood) : Reading :=
  { r with word := some (r.word.getD ""), mood }

/-- A character in double quotes. -/
def inDouble (r : Reading) (c : Char) : Reading :=
  if c = '"' then { r with mood := .bare }
  else if c = '\\' then { r with mood := .doubleEscape }
  else { r.push c with mood := .double }

/-- The reading after one more character. -/
def next (r : Reading) (c : Char) : Reading :=
  match r.mood with
  | .bare =>
    if c = '\'' then r.openQuote .single
    else if c = '"' then r.openQuote .double
    else if c = '\\' then { r with mood := .escape }
    else if Text.isBlank c then r.endWord
    else r.push c
  | .escape => { r.push c with mood := .bare }
  | .single => if c = '\'' then { r with mood := .bare } else r.push c
  | .double => r.inDouble c
  | .doubleEscape =>
    if c = '"' ∨ c = '\\' ∨ c = '$' then { r.push c with mood := .double }
    else (r.push '\\').inDouble c

/-- The quote that is still open. -/
def openQuote? (r : Reading) : Option Char :=
  match r.mood with
  | .single => some '\''
  | .double | .doubleEscape => some '"'
  | .bare | .escape => none

/-- The reading of some characters. -/
def ofChars (cs : List Char) : Reading := cs.foldl next start

end Reading

/-- The words of a line, unless a quote stays open.  A backslash at the end means nothing. -/
def words (line : String) : Except Fault (List String) :=
  let r := Reading.ofChars line.toList
  match r.openQuote? with
  | some q =>
    .error (.usage ("unexpected EOF while looking for matching `" ++ q.toString ++ "'"))
  | none => .ok r.allWords

example : (Reading.ofChars "a 'b c'd \"\" e\\ f".toList).allWords = ["a", "b cd", "", "e f"] := by
  decide

end Userland.Line
