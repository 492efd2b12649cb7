/-
  A whole text in lower case or in upper case.

  A character may become several: the sharp s is SS in upper case, the dotted capital I is i with a
  dot above in lower case.  A capital sigma depends on where it stands: at the end of a word, that
  is after a cased letter and not before one, its lower case is the final form.
-/
import Userland.Text.CaseTable

namespace Userland.Text

/-! ## Single characters -/

def ofCodes (codes : List Nat) : List Char := codes.map Char.ofNat

/-- The lower case of a character, apart from what its neighbours decide. -/
def lowerChar (c : Char) : List Char :=
  if c = 'İ' then ['i', '\u0307']
  else match CaseRun.lookup lowerRuns c.toNat with
    | some n => ofCodes [n]
    | none => [c]

/-- The upper case of a character. -/
def upperChar (c : Char) : List Char :=
  match CaseRun.lookup upperRuns c.toNat with
  | some n => ofCodes [n]
  | none => match upperSequences.lookup c.toNat with
    | some ns => ofCodes ns
    | none => [c]

/-! ## The end of a word -/

/-- Does a cased letter come next, when the characters that are passed over are left out? -/
def meetsCased (cs : List Char) : Bool :=
  match cs.dropWhile fun c => inRanges passedOverRanges c.toNat with
  | [] => false
  | c :: _ => inRanges casedRanges c.toNat

/-- Is the place between what stands `before` it, nearest first, and what stands `after` it the end
of a word? -/
def endsWord (before after : List Char) : Bool :=
  meetsCased before && !meetsCased after

/-! ## Whole texts -/

/-- The lower case of the characters of `after`, which follow those of `before`. -/
def lowerAfter (before : List Char) : List Char → List Char
  | [] => []
  | c :: after =>
    (if c = 'Σ' then [if endsWord before after then 'ς' else 'σ'] else lowerChar c) ++
      lowerAfter (c :: before) after

/-- The text in lower case. -/
def lower (s : String) : String :=
  String.ofList (lowerAfter [] s.toList)

/-- The text in upper case. -/
def upper (s : String) : String :=
  String.ofList (s.toList.flatMap upperChar)

example : lower "ΟΔΟΣ" = "οδος" ∧ upper "Straße" = "STRASSE" := by decide

end Userland.Text
