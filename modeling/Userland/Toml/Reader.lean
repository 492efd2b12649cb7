/-
  Readers: a reader takes something off the front of the characters, or refuses them.

  A refusal carries no explanation, so a reader is a state over the characters that are left in
  `Option`; `p <|> q` tries `q` from where `p` started.  `many` ends because it goes on only after a
  reader that has taken something.
-/

namespace Userland.Toml

/-- Takes an `α` off the front of the characters. -/
abbrev Reader (α : Type) := StateT (List Char) Option α

namespace Reader

variable {α β : Type}

/-- Takes one character that satisfies `p`. -/
def one (p : Char → Bool) : Reader Char := fun
  | c :: rest => if p c then some (c, rest) else none
  | [] => none

/-- Takes exactly these characters. -/
def exactly (text : String) : Reader Unit := fun cs =>
  (text.toList.isPrefixOf? cs).map ((), ·)

/-- Takes the longest run of characters that satisfy `p`, which may be empty. -/
def run (p : Char → Bool) : Reader (List Char) := fun cs =>
  some (cs.takeWhile p, cs.dropWhile p)

/-- Takes the longest run of characters that satisfy `p`, and at least one. -/
def run1 (p : Char → Bool) : Reader (List Char) := do
  let c ← one p
  let cs ← run p
  return c :: cs

/-- Nothing is left. -/
def atEnd : Reader Unit := fun cs => if cs.isEmpty then some ((), cs) else none

/-- Applies a reader as often as it takes something. -/
def many (p : Reader α) : Reader (List α) := fun cs =>
  match p cs with
  | none => some ([], cs)
  | some (a, rest) =>
    if rest.length < cs.length then (many p rest).map fun r => (a :: r.1, r.2)
    else some ([], cs)
  termination_by cs => cs.length

/-- One or more, with something between two of them. -/
def separated (p : Reader α) (between : Reader β) : Reader (List α) := do
  let first ← p
  let others ← many (between *> p)
  return first :: others

/-- Takes `count` characters that satisfy `p`. -/
def times (count : Nat) (p : Char → Bool) : Reader (List Char) :=
  (List.range count).mapM fun _ => one p

end Reader

end Userland.Toml
