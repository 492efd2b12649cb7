/-
  Values of a TOML document.

  Integers are those of 64 signed bits.  Floats and moments are kept as they are written: a document
  with one is read, but nothing here computes with it.
-/

namespace Userland.Toml

/-- A value of a document. -/
inductive Value where
  | string (text : String)
  | integer (number : Int)
  | boolean (holds : Bool)
  | float (written : String)
  /-- A date, a time of day, or both. -/
  | moment (written : String)
  | array (items : List Value)
  | table (entries : List (String × Value))
  deriving Repr, Inhabited

/-- The integers that a document can hold. -/
def inRange (n : Int) : Bool := Int64.minValue.toInt ≤ n && n ≤ Int64.maxValue.toInt

end Userland.Toml
