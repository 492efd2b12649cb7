/-
  Keys and single values of a TOML document: strings in their four spellings, numbers, truth values
  and moments.
-/
import Userland.Calendar
import Userland.Text.Column
import Userland.Toml.Reader
import Userland.Toml.Value

namespace Userland.Toml

open Reader

/-! ## Blanks, line ends and comments -/

def isSpace (c : Char) : Bool := c = ' ' || c = '\t'

/-- A character that may stand in a comment: anything but a control character, and the tab. -/
def isPrintable (c : Char) : Bool := c = '\t' || ('\x20' ≤ c && c ≠ '\x7f')

def spaces : Reader Unit := run isSpace *> pure ()

/-- A line feed, with a carriage return before it or none. -/
def newline : Reader Unit := exactly "\n" <|> exactly "\r\n"

def comment : Reader Unit := exactly "#" *> run isPrintable *> pure ()

/-- Blanks, line ends and comments, as between the items of an array. -/
def gap : Reader Unit :=
  many ((run1 isSpace *> pure ()) <|> newline <|> comment) *> pure ()

/-- The rest of a line after what it says. -/
def lineEnd : Reader Unit := do
  spaces
  let _ ← optional comment
  newline <|> atEnd

/-! ## Strings -/

def hexDigit? (c : Char) : Option Nat :=
  if c.isDigit then some (c.toNat - '0'.toNat)
  else if 'a' ≤ c && c ≤ 'f' then some (c.toNat - 'a'.toNat + 10)
  else if 'A' ≤ c && c ≤ 'F' then some (c.toNat - 'A'.toNat + 10)
  else none

/-- A character by its code in `count` hexadecimal digits; a surrogate is none. -/
def codePoint (count : Nat) : Reader Char := do
  let digits ← times count fun c => (hexDigit? c).isSome
  let n := Text.digitsValue 16 (digits.filterMap hexDigit?)
  if n.isValidChar then pure (Char.ofNat n) else failure

/-- A character after a backslash. -/
def escape : Reader Char := do
  exactly "\\"
  let c ← one fun _ => true
  match c with
  | 'b' => pure '\x08'
  | 't' => pure '\t'
  | 'n' => pure '\n'
  | 'f' => pure '\x0c'
  | 'r' => pure '\r'
  | '"' => pure '"'
  | '\\' => pure '\\'
  | 'u' => codePoint 4
  | 'U' => codePoint 8
  | _ => failure

/-- A character that stands for itself between quotes. -/
def plain (quote : Char) : Reader Char :=
  one fun c => isPrintable c && c ≠ quote && (c ≠ '\\' || quote ≠ '"')

/-- A string on one line.  Only between double quotes is a backslash special. -/
def lineString (quote : Char) : Reader String := do
  let _ ← one (· = quote)
  let cs ← many (plain quote <|> if quote = '"' then escape else failure)
  let _ ← one (· = quote)
  return String.ofList cs

/-- A backslash at the end of a line, with the blanks and line ends that follow it. -/
def lineContinuation : Reader Unit := do
  exactly "\\"
  spaces
  newline
  let _ ← many ((run1 isSpace *> pure ()) <|> newline)

/-- One or two quotes that do not yet end a string of several lines. -/
def innerQuotes (quote : Char) : Reader (List Char) := fun cs =>
  let quotes := cs.takeWhile (· = quote)
  if quotes.length = 1 ∨ quotes.length = 2 then some (quotes, cs.dropWhile (· = quote)) else none

/-- A piece of a string of several lines. -/
def blockPiece (quote : Char) : Reader (List Char) :=
  (plain quote >>= fun c => pure [c]) <|>
  (newline *> pure ['\n']) <|>
  innerQuotes quote <|>
  if quote = '"' then (escape >>= fun c => pure [c]) <|> (lineContinuation *> pure [])
  else failure

/-- The end of a string of several lines: three quotes, with up to two that belong to the string
before them. -/
def blockEnd (quote : Char) : Reader (List Char) := fun cs =>
  let count := (cs.takeWhile (· = quote)).length
  if 3 ≤ count then
    let inner := min (count - 3) 2
    some (List.replicate inner quote, cs.drop (inner + 3))
  else none

/-- A string of several lines.  A line end right after the opening quotes is left out. -/
def blockString (quote : Char) : Reader String := do
  exactly (String.ofList [quote, quote, quote])
  let _ ← optional newline
  let pieces ← many (blockPiece quote)
  let last ← blockEnd quote
  return String.ofList (pieces.flatten ++ last)

def string : Reader String :=
  blockString '"' <|> blockString '\'' <|> lineString '"' <|> lineString '\''

/-! ## Keys -/

def isKeyChar (c : Char) : Bool := c.isAlphanum || c = '_' || c = '-'

/-- A key without dots. -/
def simpleKey : Reader String :=
  lineString '"' <|> lineString '\'' <|> (String.ofList <$> run1 isKeyChar)

/-- How deep values may be nested, and how many parts a dotted key may have. -/
def depthLimit : Nat := 79

/-- A key: parts between dots, with blanks around each. -/
def dottedKey : Reader (List String) := do
  let parts ← separated (spaces *> simpleKey <* spaces) (exactly ".")
  if parts.length ≤ depthLimit then pure parts else failure

/-! ## Numbers -/

/-- Digits with single underscores between them. -/
def digits (isDigit : Char → Bool) : Reader (List Char) := do
  let first ← one isDigit
  let others ← many (optional (exactly "_") *> one isDigit)
  return first :: others

/-- A sign: is it a minus? -/
def sign : Reader Bool :=
  (exactly "-" *> pure true) <|> (optional (exactly "+") *> pure false)

/-- Decimal digits without a leading zero. -/
def decimalDigits : Reader (List Char) :=
  (do let ds ← digits Char.isDigit
      if ds.head? = some '0' then failure else pure ds)
    <|> (exactly "0" *> pure ['0'])

def digitsNumber (base : Nat) (cs : List Char) : Nat :=
  Text.digitsValue base (cs.filterMap hexDigit?)

/-- An integer in another base, after the letter for the base. -/
def basedInteger : Reader Int := do
  exactly "0"
  let c ← one fun _ => true
  let base ← match c with
    | 'x' => pure 16
    | 'o' => pure 8
    | 'b' => pure 2
    | _ => failure
  let ds ← digits fun c => (hexDigit? c).any (· < base)
  return digitsNumber base ds

def decimalInteger : Reader Int := do
  let negative ← sign
  let ds ← decimalDigits
  let n := digitsNumber 10 ds
  return if negative then -n else n

def integer : Reader Int := do
  let n ← basedInteger <|> decimalInteger
  if inRange n then pure n else failure

/-- Does `mantissa` times a power of ten round to no finite number of 53 binary digits? -/
def isTooLarge (mantissa : Nat) (exponent : Int) : Bool :=
  let limit := Nat.pow 2 1024 - Nat.pow 2 970
  let size := (Nat.toDigits 10 mantissa).length + exponent
  if mantissa = 0 ∨ size < 300 then false
  else if 400 < size then true
  else limit * Nat.pow 10 (-exponent).toNat ≤ mantissa * Nat.pow 10 exponent.toNat

/-- The exponent of a float. -/
def exponent : Reader Int := do
  let _ ← one fun c => c = 'e' || c = 'E'
  let negative ← sign
  let ds ← digits Char.isDigit
  let n := digitsNumber 10 ds
  return if negative then -n else n

/-- A float in digits.  A positive one has to be finite. -/
def digitFloat : Reader Unit := do
  let negative ← sign
  let whole ← decimalDigits
  let fraction ← optional (exactly "." *> digits Char.isDigit)
  let power ← match fraction with
    | some _ => optional exponent
    | none => some <$> exponent
  let places := fraction.getD []
  let mantissa := digitsNumber 10 (whole ++ places)
  if !negative && isTooLarge mantissa (power.getD 0 - places.length) then failure else pure ()

def specialFloat : Reader Unit := sign *> (exactly "inf" <|> exactly "nan")

/-- The characters that a reader takes. -/
def written (p : Reader Unit) : Reader String := fun cs =>
  (p cs).map fun r => (String.ofList (cs.take (cs.length - r.2.length)), r.2)

/-! ## Moments -/

/-- A number of `count` decimal digits between two bounds. -/
def numberBetween (count low high : Nat) : Reader Nat := do
  let ds ← times count Char.isDigit
  let n := digitsNumber 10 ds
  if low ≤ n && n ≤ high then pure n else failure

def date : Reader Unit := do
  let year ← numberBetween 4 0 9999
  exactly "-"
  let month ← numberBetween 2 1 12
  exactly "-"
  let last := (Calendar.monthLengths (Calendar.isLeap year)).getD (month - 1) 0
  let _ ← numberBetween 2 1 last

def timeOfDay : Reader Unit := do
  let _ ← numberBetween 2 0 23
  exactly ":"
  let _ ← numberBetween 2 0 59
  exactly ":"
  let _ ← numberBetween 2 0 60
  let _ ← optional (exactly "." *> run1 Char.isDigit)

/-- The distance from universal time. -/
def offset : Reader Unit :=
  (one (fun c => c = 'Z' || c = 'z') *> pure ()) <|> do
    let _ ← one fun c => c = '+' || c = '-'
    let _ ← numberBetween 2 0 23
    exactly ":"
    let _ ← numberBetween 2 0 59

def moment : Reader Unit :=
  (do date
      let _ ← optional do
        let _ ← one fun c => c = 'T' || c = 't' || c = ' '
        timeOfDay
        optional offset)
    <|> timeOfDay

/-! ## Single values -/

/-- A value that holds no other values. -/
def scalar : Reader Value :=
  (Value.string <$> string) <|>
  (exactly "true" *> pure (.boolean true)) <|>
  (exactly "false" *> pure (.boolean false)) <|>
  (Value.moment <$> written moment) <|>
  (Value.float <$> written (digitFloat <|> specialFloat)) <|>
  (Value.integer <$> integer)

end Userland.Toml
