/-
  Paths.

  A path text is read as steps from the root: an empty part and a dot stand for nothing, two dots
  take the last step back and stay at the root, any other part is a step.  `steps` is that reading
  and `render` writes steps as the one text that stands for them, so that `normalize`, which does
  one after the other, gives every place one spelling.

  `components`, `parent`, `fileName` and `isWithin` look at the text itself and are meant for
  normalized paths; on any other text they answer for the slashes that they see.
-/
import Userland.Text.Lines

namespace Userland.Path

open Text

/-! ## Steps -/

/-- One part of a path text, taken after the steps so far. -/
def walk (done : List String) (part : String) : List String :=
  if part = "" ∨ part = "." then done
  else if part = ".." then done.dropLast
  else done ++ [part]

/-- The steps from the root that `input` stands for in the directory `cwd`. -/
def steps (cwd input : String) : List String :=
  let start := if startsWith '/' input then [] else parts '/' cwd
  (start ++ parts '/' input).foldl walk []

/-- The text that stands for some steps. -/
def render (steps : List String) : String :=
  "/" ++ "/".intercalate steps

/-- The one spelling of the place that `input` stands for in the directory `cwd`. -/
def normalize (cwd input : String) : String :=
  render (steps cwd input)

example : normalize "/home/ann" "../bob//./x" = "/home/bob/x" ∧ normalize "/" "../.." = "/" := by
  decide

/-! ## Looking at the text -/

/-- The parts between the slashes that are not empty. -/
def components (path : String) : List String :=
  (parts '/' path).filter (· ≠ "")

/-- The text before the last slash; the root for a top-level entry and for the root. -/
def parent (path : String) : String :=
  match path.toList.reverse.dropWhile (· ≠ '/') with
  | [] | [_] => "/"
  | _ :: before => String.ofList before.reverse

/-- The text after the last slash. -/
def fileName (path : String) : String :=
  String.ofList (path.toList.reverse.takeWhile (· ≠ '/')).reverse

/-- Is the path `ancestor` itself, or below it? -/
def isWithin (path ancestor : String) : Bool :=
  ancestor = "/" || path = ancestor || (after? ancestor path).any (startsWith '/')

/-! ## Names of entries -/

/-- A directory can hold an entry of this name: the text is one step of a path. -/
def IsName (name : String) : Prop :=
  name ≠ "" ∧ name ≠ "." ∧ name ≠ ".." ∧ '/' ∉ name.toList

instance (name : String) : Decidable (IsName name) :=
  inferInstanceAs (Decidable (_ ∧ _))

end Userland.Path
