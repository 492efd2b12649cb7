/-
  Fixed-width columns and decimal numerals.

  A column counts characters, not bytes, and a text wider than its column is written in full.
-/

namespace Userland.Text

/-! ## Columns -/

/-- The text, filled up with spaces on the right to `width` characters. -/
def alignLeft (width : Nat) (s : String) : String :=
  String.ofList (s.toList.rightpad width ' ')

/-- The text, filled up with spaces on the left to `width` characters. -/
def alignRight (width : Nat) (s : String) : String :=
  String.ofList (s.toList.leftpad width ' ')

/-- The numeral of `n`, right-aligned in `width` characters. -/
def numberRight (width n : Nat) : String :=
  alignRight width n.repr

/-- The numeral of `n` with leading zeros up to `width` digits. -/
def zeroPadded (width n : Nat) : String :=
  String.ofList ((Nat.toDigits 10 n).leftpad width '0')

example : zeroPadded 2 7 = "07" ∧ zeroPadded 2 123 = "123" := by decide

/-! ## Reading numerals -/

/-- The value of a list of digits in a base, read from the left. -/
def digitsValue (base : Nat) (digits : List Nat) : Nat :=
  digits.foldl (fun n d => base * n + d) 0

/-- The value of a character as a decimal digit. -/
def digit? (c : Char) : Option Nat :=
  if c.isDigit then some (c.toNat - '0'.toNat) else none

/-- Reads a numeral below `bound`: one or more decimal digits, with a plus sign before them or
none. -/
def readNumeral? (bound : Nat) (s : String) : Option Nat :=
  let digits := match s.toList with
    | '+' :: rest => rest
    | cs => cs
  if digits.isEmpty then none
  else (digits.mapM digit?).map (digitsValue 10) |>.filter (· < bound)

example : readNumeral? 256 "+07" = some 7 ∧ readNumeral? 256 "256" = none ∧
    readNumeral? 256 "+" = none := by decide

end Userland.Text
