/-
  Permission bits, the ten-character text that shows them, and the arguments that change them.

  The twelve bits are the nine of read, write and execute for the owner, the group and all others,
  and above them set-user, set-group and sticky, which share the place of an execute letter in the
  text.  `ofText` reads a text leniently and `text` writes one.

  A mode argument is read once (`Change.parse?`), without looking at the bits that it will change;
  `Change.apply` then gives the new bits.
-/
import Userland.Fault
import Userland.Text.Column

namespace Userland.Mode

/-! ## Bits and their text -/

/-- All twelve bits. -/
def allBits : Nat := 0o7777

def setUser : Nat := 0o4000
def setGroup : Nat := 0o2000
def sticky : Nat := 0o1000

/-- One of the three classes of users: how far its bits are shifted, the bit that shares its
execute letter, and that letter when the shared bit is set, with and without execute. -/
structure Rank where
  shift : Nat
  special : Nat
  withExecute : Char
  withoutExecute : Char

/-- Owner, group and others, as the text shows them. -/
def ranks : List Rank :=
  [⟨6, setUser, 's', 'S'⟩, ⟨3, setGroup, 's', 'S'⟩, ⟨0, sticky, 't', 'T'⟩]

/-- Is one of the bits of `mask` set? -/
def has (bits mask : Nat) : Bool := bits &&& mask != 0

/-- The three letters of one class. -/
def Rank.letters (r : Rank) (bits : Nat) : List Char :=
  let three := bits >>> r.shift
  [ if has three 4 then 'r' else '-',
    if has three 2 then 'w' else '-',
    match has bits r.special, has three 1 with
    | true, true => r.withExecute
    | true, false => r.withoutExecute
    | false, true => 'x'
    | false, false => '-' ]

/-- The text of some bits, after a character for the kind of node. -/
def text (kind : Char) (bits : Nat) : String :=
  String.ofList (kind :: ranks.flatMap (·.letters bits))

/-- The bits of one class, from its three letters.  An unknown letter sets nothing, and each of the
four letters for a shared bit is understood in every class. -/
def Rank.bits (r : Rank) (read write execute : Char) : Nat :=
  (if read = 'r' then 4 <<< r.shift else 0) |||
  (if write = 'w' then 2 <<< r.shift else 0) |||
  (if execute = 'x' then 1 <<< r.shift
    else if execute = 's' ∨ execute = 't' then 1 <<< r.shift ||| r.special
    else if execute = 'S' ∨ execute = 'T' then r.special
    else 0)

/-- The bits of a list of classes, from the letters that follow one another. -/
def bitsOf : List Rank → List Char → Nat
  | [], _ => 0
  | r :: rs, letters =>
    r.bits (letters.getD 0 '-') (letters.getD 1 '-') (letters.getD 2 '-') |||
      bitsOf rs (letters.drop 3)

/-- The bits that a text shows.  Its first character is the kind of node and is not looked at; what
is missing at the end is not set. -/
def ofText (s : String) : Nat :=
  bitsOf ranks (s.toList.drop 1)

example : ofText "drwxrwxrwt" = 0o1777 ∧ text 'd' 0o1777 = "drwxrwxrwt" := by decide

/-! ## Mode arguments -/

/-- What a symbolic clause does with the bits it names. -/
inductive Operator where
  | add
  | remove
  | assign
  deriving DecidableEq, Repr

/-- A clause of a symbolic mode: the bits of the classes it names, and what it does to them, one
group of permissions after the other. -/
structure Clause where
  who : Nat
  groups : List (Operator × Nat)
  deriving DecidableEq, Repr

/-- A mode argument: the bits themselves, or clauses that change them. -/
inductive Change where
  | octal (bits : Nat)
  | symbolic (clauses : List Clause)
  deriving DecidableEq, Repr

/-- The bits that belong to a class letter: its own three and its shared bit. -/
def whoMask? : Char → Option Nat
  | 'u' => some 0o4700
  | 'g' => some 0o2070
  | 'o' => some 0o1007
  | 'a' => some allBits
  | _ => none

/-- The bits that a permission letter means in all classes together. -/
def permissionMask? : Char → Option Nat
  | 'r' => some 0o444
  | 'w' => some 0o222
  | 'x' => some 0o111
  | 's' => some (setUser ||| setGroup)
  | 't' => some sticky
  | _ => none

def operator? : Char → Option Operator
  | '+' => some .add
  | '-' => some .remove
  | '=' => some .assign
  | _ => none

/-- The union of the masks of some letters. -/
def union (mask? : Char → Option Nat) (letters : List Char) : Nat :=
  letters.foldl (fun bits c => bits ||| (mask? c).getD 0) 0

/-- The groups of a clause after its classes: each an operator and the letters up to the next
operator. -/
def groups? : List Char → Option (List (Operator × Nat))
  | [] => some []
  | c :: cs => do
    let op ← operator? c
    let letters := cs.takeWhile fun c => (permissionMask? c).isSome
    let rest ← groups? (cs.dropWhile fun c => (permissionMask? c).isSome)
    some ((op, union permissionMask? letters) :: rest)
  termination_by cs => cs.length
  decreasing_by
    exact Nat.lt_succ_of_le (List.dropWhile_sublist _).length_le

/-- A clause: class letters, or none for all classes, and at least one group. -/
def Clause.parse? (cs : List Char) : Option Clause := do
  let letters := cs.takeWhile fun c => (whoMask? c).isSome
  let groups ← groups? (cs.dropWhile fun c => (whoMask? c).isSome)
  if groups.isEmpty then none
  else some ⟨if letters.isEmpty then allBits else union whoMask? letters, groups⟩

def isOctalDigit (c : Char) : Bool := '0' ≤ c && c ≤ '7'

/-- Reads a mode argument: one to four octal digits, or clauses between commas. -/
def Change.parse? (s : String) : Option Change :=
  if s.toList.all isOctalDigit then
    if s = "" ∨ 4 < s.length then none
    else some (.octal (Text.digitsValue 8 (s.toList.map fun c => c.toNat - '0'.toNat)))
  else
    ((s.toList.splitOn ',').mapM Clause.parse?).map .symbolic

/-- The bits after one group, in a clause for the classes with the bits `who`.  An assignment
leaves the shared bits that it does not set. -/
def applyGroup (who bits : Nat) (group : Operator × Nat) : Nat :=
  let named := group.2 &&& who
  match group.1 with
  | .add => bits ||| named
  | .remove => bits &&& (allBits ^^^ named)
  | .assign => bits &&& (allBits ^^^ (who &&& 0o777)) ||| named

/-- The bits after one clause. -/
def Clause.apply (c : Clause) (bits : Nat) : Nat :=
  c.groups.foldl (applyGroup c.who) bits

/-- The bits after a change. -/
def Change.apply (m : Change) (bits : Nat) : Nat :=
  match m with
  | octal new => new
  | symbolic clauses => clauses.foldl (fun bits c => c.apply bits) (bits &&& allBits)

/-- The new bits for a mode argument, or the complaint about it. -/
def change (mode : String) (bits : Nat) : Except Fault Nat :=
  match Change.parse? mode with
  | some m => .ok (m.apply bits)
  | none => .error (.invalidArgument ("invalid mode: '" ++ mode ++ "'"))

end Userland.Mode
