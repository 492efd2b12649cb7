/-
  The ten characters keep the twelve bits.

  The bits are written as three letters for each class and read back letter by letter.  The execute
  letter stands for two bits, its own and the one that the class shares its place with, and has a
  spelling for each of the four cases (`execute_letter`).  So what is read from the letters of a
  class is what the bits have of it (`bits_letters`), and what is read from all of them is what the
  bits have among the twelve (`ofText_text`).
-/
import Mathlib.Data.Nat.Bitwise
import Userland.Proofs.Mode.Mask

namespace Userland.Mode

variable {r : Rank} {bits : Nat}

/-! ## Single bits -/

theorem has_two_pow (bits k : Nat) : has bits (2 ^ k) = bits.testBit k := by
  rw [has, Nat.and_two_pow]
  cases bits.testBit k <;> simp

/-- What the bits have of a single one. -/
theorem and_two_pow_eq (bits k : Nat) :
    bits &&& 2 ^ k = if has bits (2 ^ k) then 2 ^ k else 0 := by
  rw [has_two_pow, Nat.and_two_pow]
  cases bits.testBit k <;> simp

/-- A shifted mask finds what the mask finds in the shifted bits. -/
theorem and_shiftLeft_eq (bits k shift : Nat) :
    bits &&& 2 ^ k <<< shift = if has (bits >>> shift) (2 ^ k) then 2 ^ k <<< shift else 0 := by
  rw [Nat.shiftLeft_eq, ← Nat.pow_add, and_two_pow_eq, has_two_pow, has_two_pow,
    Nat.testBit_shiftRight, Nat.add_comm]

/-! ## The letters of a class -/

/-- The bits of a class: read, write and execute, and the shared one. -/
def Rank.mask (r : Rank) : Nat :=
  4 <<< r.shift ||| 2 <<< r.shift ||| (1 <<< r.shift ||| r.special)

/-- The shared bit is a single one, and its two letters are among those that are understood. -/
theorem rank_spec (hr : r ∈ ranks) :
    (∃ k, r.special = 2 ^ k) ∧ (r.withExecute = 's' ∨ r.withExecute = 't') ∧
      (r.withoutExecute = 'S' ∨ r.withoutExecute = 'T') := by
  simp only [ranks, List.mem_cons, List.not_mem_nil, or_false] at hr
  rcases hr with rfl | rfl | rfl
  · exact ⟨⟨11, rfl⟩, .inl rfl, .inl rfl⟩
  · exact ⟨⟨10, rfl⟩, .inl rfl, .inl rfl⟩
  · exact ⟨⟨9, rfl⟩, .inr rfl, .inr rfl⟩

/-- The execute letter tells both of its bits. -/
theorem execute_letter (hr : r ∈ ranks) (special execute : Bool) {letter : Char}
    (hletter : letter = match special, execute with
      | true, true => r.withExecute
      | true, false => r.withoutExecute
      | false, true => 'x'
      | false, false => '-') (x y : Nat) :
    (if letter = 'x' then x
      else if letter = 's' ∨ letter = 't' then x ||| y
      else if letter = 'S' ∨ letter = 'T' then y
      else 0) = (if execute then x else 0) ||| (if special then y else 0) := by
  obtain ⟨-, hwith, hwithout⟩ := rank_spec hr
  cases special <;> cases execute <;> simp only at hletter
  · simp [hletter]
  · simp [hletter]
  · rw [hletter]
    rcases hwithout with h | h <;> simp [h]
  · rw [hletter]
    rcases hwith with h | h <;> simp [h]

/-- The letters of a class are read as the bits that they were written for. -/
theorem bits_letters (hr : r ∈ ranks) (bits : Nat) :
    ∃ read write execute, r.letters bits = [read, write, execute] ∧
      r.bits read write execute = bits &&& r.mask := by
  obtain ⟨⟨k, hk⟩, -, -⟩ := rank_spec hr
  have hplain : ∀ (b : Bool) (c : Char) (x : Nat), c ≠ '-' →
      (if (if b then c else '-') = c then x else 0) = if b then x else 0 := by
    intro b c x hc
    cases b <;> simp [hc.symm]
  have hexecute := execute_letter hr (has bits r.special) (has (bits >>> r.shift) 1) rfl
    (1 <<< r.shift) r.special
  have hshared := and_two_pow_eq bits k
  rw [← hk] at hshared
  refine ⟨_, _, _, rfl, ?_⟩
  -- letter by letter, then bit by bit, then as one mask
  calc r.bits _ _ _
      = (if has (bits >>> r.shift) 4 then 4 <<< r.shift else 0) |||
          (if has (bits >>> r.shift) 2 then 2 <<< r.shift else 0) |||
          ((if has (bits >>> r.shift) 1 then 1 <<< r.shift else 0) |||
            (if has bits r.special then r.special else 0)) :=
        congrArg₂ (· ||| ·) (congrArg₂ (· ||| ·) (hplain _ 'r' _ (by decide))
          (hplain _ 'w' _ (by decide))) hexecute
    _ = (bits &&& 4 <<< r.shift) ||| (bits &&& 2 <<< r.shift) |||
          ((bits &&& 1 <<< r.shift) ||| (bits &&& r.special)) := by
        rw [hshared]
        exact congrArg₂ (· ||| ·) (congrArg₂ (· ||| ·) (and_shiftLeft_eq bits 2 r.shift).symm
          (and_shiftLeft_eq bits 1 r.shift).symm)
          (congrArg (· ||| _) (and_shiftLeft_eq bits 0 r.shift).symm)
    _ = bits &&& r.mask := by
        rw [Rank.mask, Nat.and_or_distrib_left, Nat.and_or_distrib_left, Nat.and_or_distrib_left]

/-- The letters of some classes are read as what the bits have of these classes. -/
theorem bitsOf_letters {rs : List Rank} (hrs : rs ⊆ ranks) (bits : Nat) :
    bitsOf rs (rs.flatMap (·.letters bits)) =
      bits &&& rs.foldr (fun r mask => r.mask ||| mask) 0 := by
  induction rs with
  | nil => rw [bitsOf, List.foldr_nil, Nat.and_zero]
  | cons r rs ih =>
    obtain ⟨hr, hrest⟩ := List.cons_subset.mp hrs
    obtain ⟨read, write, execute, hletters, hbits⟩ := bits_letters hr bits
    rw [List.foldr_cons, Nat.and_or_distrib_left, ← hbits, ← ih hrest, List.flatMap_cons, hletters]
    rfl

/-! ## The text -/

/-- **The round trip.**  The twelve bits are read back from their text. -/
theorem ofText_text (kind : Char) (h : bits ≤ allBits) : ofText (text kind bits) = bits := by
  rw [ofText, text, String.toList_ofList, List.drop_succ_cons, List.drop_zero,
    bitsOf_letters (List.Subset.refl _)]
  exact and_allBits h

theorem head?_text (kind : Char) (bits : Nat) : (text kind bits).toList.head? = some kind := by
  rw [text, String.toList_ofList, List.head?_cons]

/-- The letter at which a file is known to be executable. -/
theorem getElem?_text_execute (kind : Char) (bits : Nat) :
    (text kind bits).toList[3]? = some (match has bits setUser, has bits 0o100 with
      | true, true => 's'
      | true, false => 'S'
      | false, true => 'x'
      | false, false => '-') := by
  have hexecute : has (bits >>> 6) 1 = has bits 0o100 := by
    have hthree := has_two_pow (bits >>> 6) 0
    have hall := has_two_pow bits 6
    rw [Nat.testBit_shiftRight] at hthree
    exact hthree.trans hall.symm
  rw [text, String.toList_ofList, ← hexecute]
  rfl

end Userland.Mode
