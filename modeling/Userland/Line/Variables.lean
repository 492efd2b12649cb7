/-
  Variables on a command line.

  A line is read into pieces without looking at any session: characters that stand for themselves,
  names of variables, and the status of the last command.  Expansion then writes each piece out
  (`Piece.text`), so that the value of a variable is never read again.

  Single quotes keep everything between them as it is.  A backslash before a quote lets the quote
  open and close nothing; before any other character it means nothing here.
-/
import Userland.Entries

namespace Userland.Line

/-- A part of a line. -/
inductive Piece where
  | character (c : Char)
  | variable (name : String)
  | status
  deriving DecidableEq, Repr

/-- The quotes that a place on a line is in. -/
inductive Quotes where
  | none
  | single
  | double
  deriving DecidableEq, Repr

/-- The quotes that the next place is in, after a character that no backslash protects. -/
def Quotes.after (q : Quotes) (c : Char) : Quotes :=
  match q, c with
  | .none, '\'' => .single
  | .single, '\'' => .none
  | .none, '"' => .double
  | .double, '"' => .none
  | q, _ => q

/-- A character of a name without braces. -/
def isNameChar (c : Char) : Bool := c.isAlphanum || c = '_'

/-- A name in braces: up to the first closing brace. -/
def braced? : List Char → Option (Piece × List Char)
  | '\x7b' :: inner =>
    match inner.dropWhile (· ≠ '\x7d') with
    | [] => none
    | _ :: rest => some (.variable (String.ofList (inner.takeWhile (· ≠ '\x7d'))), rest)
  | _ => none

/-- A name without braces: as long as it can be. -/
def bare? (cs : List Char) : Option (Piece × List Char) :=
  match cs.takeWhile isNameChar with
  | [] => none
  | name => some (.variable (String.ofList name), cs.dropWhile isNameChar)

/-- What follows a dollar sign, if it is the status or a variable: the piece, and the characters
after it. -/
def afterDollar? : List Char → Option (Piece × List Char)
  | '?' :: rest => some (.status, rest)
  | cs => (braced? cs).or (bare? cs)

theorem length_of_braced? {cs rest : List Char} {p : Piece} (h : braced? cs = some (p, rest)) :
    rest.length < cs.length := by
  unfold braced? at h
  split at h
  · next inner =>
    split at h
    · cases h
    · next c after hd =>
      have hle := (List.dropWhile_sublist (l := inner) (· ≠ '\x7d')).length_le
      simp only [Option.some.injEq, Prod.mk.injEq] at h
      rw [hd, List.length_cons] at hle
      rw [← h.2, List.length_cons]
      omega
  · cases h

theorem length_of_bare? {cs rest : List Char} {p : Piece} (h : bare? cs = some (p, rest)) :
    rest.length < cs.length := by
  unfold bare? at h
  split at h
  · cases h
  · next hne =>
    simp only [Option.some.injEq, Prod.mk.injEq] at h
    have hlen := congrArg List.length (List.takeWhile_append_dropWhile (p := isNameChar) (l := cs))
    have hpos : 0 < (cs.takeWhile isNameChar).length := List.length_pos_iff.2 hne
    rw [List.length_append] at hlen
    rw [← h.2]
    omega

theorem length_of_afterDollar? {cs rest : List Char} {p : Piece}
    (h : afterDollar? cs = some (p, rest)) : rest.length < cs.length := by
  unfold afterDollar? at h
  split at h
  · simp only [Option.some.injEq, Prod.mk.injEq] at h
    simp [← h.2]
  · rcases Option.or_eq_some_iff.1 h with h | ⟨_, h⟩
    · exact length_of_braced? h
    · exact length_of_bare? h

/-- The pieces of a line, from a place that is in the quotes `q`. -/
def pieces (q : Quotes) : List Char → List Piece
  | [] => []
  | '\\' :: c :: rest =>
    if q ≠ .single ∧ (c = '\'' ∨ c = '"') then
      .character '\\' :: .character c :: pieces q rest
    else .character '\\' :: pieces q (c :: rest)
  | c :: rest =>
    if c = '$' ∧ q ≠ .single then
      match h : afterDollar? rest with
      | some (p, after) =>
        have := length_of_afterDollar? h
        p :: pieces q after
      | none => .character '$' :: pieces q rest
    else .character c :: pieces (q.after c) rest
  termination_by cs => cs.length

/-- What a piece is written out as.  A variable that is not set is nothing, and every command has
succeeded. -/
def Piece.text (environment : Entries String) : Piece → List Char
  | .character c => [c]
  | .variable name => ((Entries.get? environment name).getD "").toList
  | .status => ['0']

/-- The line with its variables written out. -/
def expand (environment : Entries String) (line : String) : String :=
  String.ofList ((pieces .none line.toList).flatMap (Piece.text environment))

end Userland.Line
