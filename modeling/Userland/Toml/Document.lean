/-
  Whole documents.

  A document is a table that its lines build up: `key = value` adds to the table that the last
  header opened, `[header]` opens a table and `[[header]]` a further row of an array of tables.
  What may still be added to a table depends on how it came about (`Origin`): a table is opened by
  one header only, a header may pass through and open what other headers only passed through, and
  dotted keys may add only to tables that dotted keys made.
-/
import Userland.Entries
import Userland.Toml.Scalar

namespace Userland.Toml

open Reader

/-! ## Tables under construction -/

/-- How a table came about. -/
inductive Origin where
  /-- A longer header passed through it. -/
  | implied
  /-- A dotted key passed through it. -/
  | dotted
  /-- It was opened by a header, or it is the document itself. -/
  | opened
  deriving DecidableEq, Repr

/-- What a table under construction holds. -/
inductive Item where
  | value (value : Value)
  | table (origin : Origin) (entries : List (String × Item))
  | rows (tables : List (List (String × Item)))

/-- A change to a table under construction, which may be refused. -/
abbrev Edit := Origin → Entries Item → Option (Entries Item)

/-- Applies an edit to the table that a path leads to.  Tables that are missing on the way are made,
and an array of tables is entered at its last row. -/
def within (byDots : Bool) (edit : Edit) : List String → Edit
  | [], origin, entries => edit origin entries
  | key :: path, _, entries =>
    match Entries.get? entries key with
    | none => do
      let origin := if byDots then .dotted else .implied
      let inner ← within byDots edit path origin []
      return Entries.put entries key (.table origin inner)
    | some (.value _) => none
    | some (.table origin inner) =>
      if byDots && origin = .opened then none
      else do
        let inner ← within byDots edit path origin inner
        return Entries.put entries key (.table origin inner)
    | some (.rows tables) => do
      let last ← tables.getLast?
      let last ← within byDots edit path .opened last
      return Entries.put entries key (.rows (tables.dropLast ++ [last]))

/-- Adds a value under a dotted key, given as the path before its last part and that part. -/
def addValue (path : List String) (key : String) (value : Value) : Edit :=
  within true (fun origin entries =>
    if (path ≠ [] ∧ origin ≠ .dotted) ∨ (Entries.get? entries key).isSome then none
    else some (Entries.put entries key (.value value))) path

/-- Opens the table under a key. -/
def openTable (key : String) : Edit := fun _ entries =>
  match Entries.get? entries key with
  | none => some (Entries.put entries key (.table .opened []))
  | some (.table .implied inner) => some (Entries.put entries key (.table .opened inner))
  | some _ => none

/-- Opens a further row of the array of tables under a key. -/
def openRow (key : String) : Edit := fun _ entries =>
  match Entries.get? entries key with
  | none => some (Entries.put entries key (.rows [[]]))
  | some (.rows tables) => some (Entries.put entries key (.rows (tables ++ [[]])))
  | some _ => none

/-- A key without its last part, and that part. -/
def splitKey (key : List String) : Option (List String × String) :=
  key.getLast?.map (key.dropLast, ·)

mutual

/-- The finished value of an item. -/
def Item.finish : Item → Value
  | .value v => v
  | .table _ entries => .table (finishEntries entries)
  | .rows tables => .array (finishRows tables)

def finishEntries : List (String × Item) → List (String × Value)
  | [] => []
  | (key, item) :: rest => (key, item.finish) :: finishEntries rest

def finishRows : List (List (String × Item)) → List Value
  | [] => []
  | row :: rest => .table (finishEntries row) :: finishRows rest

end

/-! ## Values -/

/-- The items of an array, after its opening bracket. -/
def arrayItems (item : Reader Value) : Reader Value := do
  exactly "["
  gap
  let items ← optional (separated item (gap *> exactly "," *> gap))
  if items.isSome then
    gap
    let _ ← optional (exactly "," *> gap)
  exactly "]"
  return .array (items.getD [])

/-- A key and its value. -/
def keyValue (value : Reader Value) : Reader (List String × Value) := do
  let key ← dottedKey
  exactly "="
  spaces
  let v ← value
  return (key, v)

/-- A table on one line. -/
def inlineTable (value : Reader Value) : Reader Value := do
  exactly "\x7b"
  spaces
  let pairs ← optional (separated (keyValue value <* spaces) (exactly ","))
  exactly "\x7d"
  let entries ← (pairs.getD []).foldlM (fun entries (key, v) => do
    let (path, last) ← liftM (splitKey key)
    liftM (addValue path last v .opened entries)) []
  return .table (finishEntries entries)

/-- A value that is nested at most `depth` times. -/
def value (depth : Nat) : Reader Value :=
  match depth with
  | 0 => scalar
  | depth + 1 => scalar <|> arrayItems (value depth) <|> inlineTable (value depth)

/-! ## Lines -/

/-- What one line of a document says. -/
inductive Line where
  | nothing
  | assign (key : List String) (value : Value)
  | table (key : List String)
  | row (key : List String)

def Line.read : Reader Line :=
  (do exactly "[["
      let key ← dottedKey
      exactly "]]"
      return Line.row key) <|>
  (do exactly "["
      let key ← dottedKey
      exactly "]"
      return Line.table key) <|>
  (do let (key, v) ← keyValue (value depthLimit)
      return Line.assign key v) <|>
  pure .nothing

/-- All lines of a document. -/
def lines : Reader (List Line) :=
  many (spaces *> Line.read <* lineEnd) <* atEnd

/-- A document under construction: what it holds, and the table that the next key goes to. -/
structure Draft where
  entries : Entries Item
  header : List String

/-- The draft after a line. -/
def Draft.add (d : Draft) : Line → Option Draft
  | .nothing => some d
  | .assign key v => do
    let (path, last) ← splitKey key
    let entries ← within false (addValue path last v) d.header .opened d.entries
    return { d with entries }
  | .table key => do
    let (path, last) ← splitKey key
    let entries ← within false (openTable last) path .opened d.entries
    return ⟨entries, key⟩
  | .row key => do
    let (path, last) ← splitKey key
    let entries ← within false (openRow last) path .opened d.entries
    return ⟨entries, key⟩

/-- The entries of the document that a text is, if it is one.  A byte order mark before it is left
out. -/
def parse? (text : String) : Option (Entries Value) := do
  let cs := match text.toList with
    | '\ufeff' :: rest => rest
    | cs => cs
  let (read, _) ← lines cs
  let d ← read.foldlM Draft.add ⟨[], []⟩
  return finishEntries d.entries

end Userland.Toml
