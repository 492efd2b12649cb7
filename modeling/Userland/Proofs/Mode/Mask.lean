/-
  What a symbolic mode does to the bits.

  1. *Program.*  `Change.apply` cuts the bits down to the twelve and then changes them clause after
     clause, and in each clause group after group (`applyGroup`).

  2. *Specification.*  Whatever the bits are, the same of them are kept and the same are set: the
     mode is one `Mask`.  So applying it again changes nothing, and a bit that belongs to none of
     the classes that the mode names (`Names`) is left alone.

  3. *The crux.*  Two masks one after the other are one mask (`Mask.apply_andThen`), since what the
     first has set is cleared by the second like any other bit.  A group is a mask on the twelve
     bits, and then so is a run of any length (`masked_foldl`).  All else is told of one group and
     carried through the clauses by `symbolic_run`.
-/
import Userland.Proofs.Mode

namespace Userland.Mode

/-! ## Masks -/

/-- A change of the twelve bits that does not look at them: which are kept, and which are set. -/
structure Mask where
  keep : Nat
  set : Nat
  keep_le : keep ≤ allBits
  set_le : set ≤ allBits

namespace Mask

/-- Keeps some bits and sets some. -/
def apply (m : Mask) (bits : Nat) : Nat := bits &&& m.keep ||| m.set

/-- The mask that changes nothing. -/
def unchanged : Mask := ⟨allBits, 0, le_refl _, Nat.zero_le _⟩

/-- One mask after another: kept is what both keep, and what the first sets the second may clear. -/
def andThen (m m' : Mask) : Mask where
  keep := m.keep &&& m'.keep
  set := m.set &&& m'.keep ||| m'.set
  keep_le := and_le_allBits m.keep_le _
  set_le := or_le_allBits (and_le_allBits m.set_le _) m'.set_le

/-- Two masks one after the other are one mask. -/
theorem apply_andThen (m m' : Mask) (bits : Nat) :
    (m.andThen m').apply bits = m'.apply (m.apply bits) := by
  refine Nat.eq_of_testBit_eq fun i => ?_
  simp only [apply, andThen, Nat.testBit_or, Nat.testBit_and]
  cases m.keep.testBit i <;> cases m'.keep.testBit i <;> simp [Bool.or_assoc]

/-- A second time changes nothing. -/
theorem apply_apply (m : Mask) (bits : Nat) : m.apply (m.apply bits) = m.apply bits := by
  refine Nat.eq_of_testBit_eq fun i => ?_
  simp only [apply, Nat.testBit_or, Nat.testBit_and]
  cases m.keep.testBit i <;> cases m.set.testBit i <;> simp

theorem apply_le (m : Mask) (bits : Nat) : m.apply bits ≤ allBits :=
  or_le_allBits (Nat.and_le_right.trans m.keep_le) m.set_le

end Mask

theorem and_allBits {bits : Nat} (h : bits ≤ allBits) : bits &&& allBits = bits :=
  Nat.and_two_pow_sub_one_of_lt_two_pow (n := 12) (Nat.lt_succ_of_le h)

/-- A bit that is set is one of the twelve. -/
theorem testBit_allBits_of_le {a i : Nat} (ha : a ≤ allBits) (hi : a.testBit i = true) :
    allBits.testBit i = true := by
  rw [← and_allBits ha, Nat.testBit_and, Bool.and_eq_true] at hi
  exact hi.2

/-! ## A run of changes is a mask -/

/-- On the twelve bits this is a mask. -/
def Masked (f : Nat → Nat) : Prop := ∃ m : Mask, ∀ bits ≤ allBits, f bits = m.apply bits

/-- A run of changes is a mask if each of them is. -/
theorem masked_foldl {α : Type} {step : Nat → α → Nat} {l : List α}
    (h : ∀ a ∈ l, Masked fun bits => step bits a) : Masked fun bits => l.foldl step bits := by
  induction l with
  | nil =>
    refine ⟨.unchanged, fun bits hbits => ?_⟩
    show bits = Mask.unchanged.apply bits
    rw [Mask.apply, Mask.unchanged, and_allBits hbits, Nat.or_zero]
  | cons a l ih =>
    obtain ⟨first, hfirst⟩ := h a List.mem_cons_self
    obtain ⟨rest, hrest⟩ := ih fun b hb => h b (List.mem_cons_of_mem a hb)
    refine ⟨first.andThen rest, fun bits hbits => ?_⟩
    show l.foldl step (step bits a) = (first.andThen rest).apply bits
    rw [Mask.apply_andThen, ← hrest _ (first.apply_le bits), ← hfirst bits hbits]

variable {who : Nat} {group : Operator × Nat}

/-- The mask of one group: the bits that it clears are not kept. -/
theorem masked_applyGroup (hwho : who ≤ allBits) (group : Operator × Nat) :
    Masked fun bits => applyGroup who bits group := by
  have hnamed : group.2 &&& who ≤ allBits := Nat.and_le_right.trans hwho
  have hwithout : ∀ a ≤ allBits, allBits ^^^ a ≤ allBits := fun a ha =>
    Nat.le_of_lt_succ (Nat.xor_lt_two_pow (n := 12) (by decide) (Nat.lt_succ_of_le ha))
  obtain ⟨op, mask⟩ := group
  cases op with
  | add =>
    refine ⟨⟨allBits, mask &&& who, le_refl _, hnamed⟩, fun bits hbits => ?_⟩
    rw [Mask.apply, and_allBits hbits]
    rfl
  | remove =>
    refine ⟨⟨allBits ^^^ (mask &&& who), 0, hwithout _ hnamed, Nat.zero_le _⟩, fun bits _ => ?_⟩
    rw [Mask.apply, Nat.or_zero]
    rfl
  | assign =>
    exact ⟨⟨allBits ^^^ (who &&& 0o777), mask &&& who, hwithout _ (and_le_allBits hwho _), hnamed⟩,
      fun bits _ => rfl⟩

theorem masked_symbolic {clauses : List Clause} (h : ∀ clause ∈ clauses, clause.who ≤ allBits) :
    Masked fun bits => clauses.foldl (fun bits c => c.apply bits) bits :=
  masked_foldl fun clause hclause =>
    masked_foldl fun group _ => masked_applyGroup (h clause hclause) group

/-! ## What every group keeps, the mode keeps -/

/-- What every group keeps of the bits is kept by the whole mode. -/
theorem symbolic_run {clauses : List Clause} {P : Nat → Prop}
    (hstep : ∀ clause ∈ clauses, ∀ group ∈ clause.groups, ∀ bits, P bits →
      P (applyGroup clause.who bits group)) {bits : Nat} (h : P (bits &&& allBits)) :
    P ((Change.symbolic clauses).apply bits) :=
  List.foldlRecOn clauses _ h fun _ hbits clause hclause =>
    List.foldlRecOn clause.groups _ hbits fun _ hbits group hgroup =>
      hstep clause hclause group hgroup _ hbits

/-- A group leaves the bits alone that are outside of its classes. -/
theorem testBit_applyGroup_of_not {bits i : Nat} (hbits : bits ≤ allBits)
    (hi : who.testBit i = false) :
    (applyGroup who bits group).testBit i = bits.testBit i := by
  have hin : bits.testBit i = true → allBits.testBit i = true := testBit_allBits_of_le hbits
  obtain ⟨op, mask⟩ := group
  cases op <;>
    simp only [applyGroup, Nat.testBit_or, Nat.testBit_and, Nat.testBit_xor, hi, Bool.and_false,
      Bool.false_and, Bool.or_false, Bool.xor_false]
  all_goals
    cases hb : bits.testBit i
    · rfl
    · rw [hin hb]
      rfl

/-- What is added to is not cleared. -/
theorem testBit_add {bits i : Nat} (hop : group.1 = .add) (hi : bits.testBit i = true) :
    (applyGroup who bits group).testBit i = true := by
  rw [applyGroup, hop, Nat.testBit_or, hi, Bool.true_or]

/-- What is removed from is not set. -/
theorem testBit_of_remove {bits i : Nat} (hop : group.1 = .remove)
    (hi : (applyGroup who bits group).testBit i = true) : bits.testBit i = true := by
  rw [applyGroup, hop, Nat.testBit_and, Bool.and_eq_true] at hi
  exact hi.1

/-! ## The classes that a mode names -/

/-- The bits of the classes that a clause names, which are all bits if it names none. -/
def classBits (clause : List Char) : Nat :=
  if clause.any (· ∈ ['u', 'g', 'o', 'a']) then
    (if 'u' ∈ clause then 0o4700 else 0) ||| (if 'g' ∈ clause then 0o2070 else 0) |||
      (if 'o' ∈ clause then 0o1007 else 0) ||| (if 'a' ∈ clause then 0o7777 else 0)
  else 0o7777

/-- The bit belongs to a class that a clause of the mode names. -/
def Names (mode : String) (i : Nat) : Prop :=
  ∃ clause ∈ mode.toList.splitOn ',', (classBits clause).testBit i = true

instance (mode : String) (i : Nat) : Decidable (Names mode i) :=
  inferInstanceAs (Decidable (∃ clause ∈ _, _))

/-- A bit of a union is a bit of one of the masks. -/
theorem exists_of_testBit_union {mask? : Char → Option Nat} {letters : List Char} {i : Nat}
    (h : (union mask? letters).testBit i = true) :
    ∃ c ∈ letters, ((mask? c).getD 0).testBit i = true := by
  refine List.foldlRecOn letters _ (motive := fun bits : Nat => bits.testBit i = true →
    ∃ c ∈ letters, ((mask? c).getD 0).testBit i = true) (fun hzero => ?_) ?_ h
  · rw [Nat.zero_testBit] at hzero
    cases hzero
  · intro bits hbits c hc hor
    rw [Nat.testBit_or, Bool.or_eq_true] at hor
    exact hor.elim hbits fun hmask => ⟨c, hc, hmask⟩

/-- Behind the class letters of a clause there are no more of them. -/
theorem no_class_in_groups {texts : List (List Char)} {groups : List (Operator × Nat)}
    (h : List.Forall₂ SpellsGroup texts groups) :
    ∀ c ∈ texts.flatten, c ∉ ['u', 'g', 'o', 'a'] := by
  intro c hc hclass
  obtain ⟨text, htext, hmem⟩ := List.mem_flatten.mp hc
  obtain ⟨group, op, letters, rfl, hop, hletters, -⟩ := exists_forall₂_iff.mp ⟨_, h⟩ text htext
  rw [← isSome_whoMask?_iff] at hclass
  rcases List.mem_cons.mp hmem with rfl | hmem
  · have hnone := (operator_apart (by rw [hop]; rfl)).1
    rw [hclass] at hnone
    cases hnone
  · have hletter := isSome_permissionMask?_iff.mp (hletters c hmem)
    simp only [List.mem_cons, List.not_mem_nil, or_false] at hletter
    rcases hletter with rfl | rfl | rfl | rfl | rfl <;> exact absurd hclass (by decide)

/-- A clause changes bits of the classes only that its text names. -/
theorem SpellsClause.testBit_classBits {text : List Char} {clause : Clause} {i : Nat}
    (h : SpellsClause text clause) (hi : clause.who.testBit i = true) :
    (classBits text).testBit i = true := by
  obtain ⟨who, texts, rfl, hwho, hgroups, -, hmask⟩ := h
  have hrest := no_class_in_groups hgroups
  rw [hmask] at hi
  -- without letters the clause is for all, and no letter stands anywhere else in it
  cases who with
  | nil =>
    have hnone : ¬ texts.flatten.any (· ∈ ['u', 'g', 'o', 'a']) = true := by
      rw [List.any_eq_true]
      rintro ⟨c, hc, hclass⟩
      exact hrest c hc (of_decide_eq_true hclass)
    rw [List.nil_append, classBits, if_neg hnone]
    exact hi
  | cons first who =>
    obtain ⟨c, hc, hbit⟩ := exists_of_testBit_union hi
    have hmem : c ∈ first :: who ++ texts.flatten := List.mem_append_left _ hc
    have hclass := isSome_whoMask?_iff.mp (hwho c hc)
    rw [classBits, if_pos (List.any_eq_true.mpr ⟨c, hmem, decide_eq_true hclass⟩)]
    simp only [List.mem_cons, List.not_mem_nil, or_false] at hclass
    simp only [Nat.testBit_or, Bool.or_eq_true]
    rcases hclass with rfl | rfl | rfl | rfl
    · exact .inl (.inl (.inl (by rw [if_pos hmem]; exact hbit)))
    · exact .inl (.inl (.inr (by rw [if_pos hmem]; exact hbit)))
    · exact .inl (.inr (by rw [if_pos hmem]; exact hbit))
    · exact .inr (by rw [if_pos hmem]; exact hbit)

/-! ## Reading a symbolic mode -/

theorem mem_of_mem_splitOn {α : Type} [BEq α] [LawfulBEq α] {a b : α} {l part : List α}
    (h : part ∈ l.splitOn a) (hb : b ∈ part) : b ∈ l := by
  induction l generalizing part with
  | nil =>
    rw [List.splitOn_nil, List.mem_singleton] at h
    rwa [h] at hb
  | cons c l ih =>
    rw [List.splitOn_cons_eq_if_modifyHead] at h
    split at h
    · rcases List.mem_cons.mp h with rfl | h
      · cases hb
      · exact List.mem_cons_of_mem c (ih h hb)
    · -- `c` stands at the front of the first part
      obtain ⟨first, rest, hl⟩ := List.exists_cons_of_ne_nil (List.splitOn_ne_nil a l)
      rw [hl, List.modifyHead_cons] at h
      rcases List.mem_cons.mp h with rfl | h
      · rcases List.mem_cons.mp hb with rfl | hb
        · exact List.mem_cons_self
        · exact List.mem_cons_of_mem c (ih (by simp [hl]) hb)
      · exact List.mem_cons_of_mem c (ih (by simp [hl, h]) hb)

/-- A mode that is accepted and is no number is read as clauses, each from its own text. -/
theorem parse?_of_not_octal {mode : String} {m : Change} (hread : Change.parse? mode = some m)
    (hsymbolic : ¬ IsOctal mode.toList) :
    ∃ clauses, m = .symbolic clauses ∧
      ∀ clause ∈ clauses, ∃ text ∈ mode.toList.splitOn ',', SpellsClause text clause := by
  rw [Change.parse?] at hread
  split at hread
  · next hdigits =>
    split at hread
    · cases hread
    · next hfits =>
      rw [not_or, Nat.not_lt, ← String.toList_eq_nil_iff, ← String.length_toList] at hfits
      have hall := List.all_eq_true.mp hdigits
      exact absurd ⟨hfits.1, hfits.2, fun c hc => isOctalDigit_iff.mp (hall c hc)⟩ hsymbolic
  · obtain ⟨clauses, hclauses, rfl⟩ := Option.map_eq_some_iff.mp hread
    refine ⟨clauses, rfl, fun clause hclause => ?_⟩
    have hpairs := (List.forall₂_and_left _ _).mpr
      ⟨fun text htext => htext, mapM_eq_some_iff.mp hclauses⟩
    obtain ⟨text, htext, hspells⟩ := exists_forall₂_iff.mp ⟨_, hpairs.flip⟩ clause hclause
    exact ⟨text, htext, clause_parse?_eq_some_iff.mp hspells⟩

def Operator.symbol : Operator → Char
  | add => '+'
  | remove => '-'
  | assign => '='

/-- A sign that is read as an operator is the one it is written with. -/
theorem eq_symbol_of_operator? {c : Char} {op : Operator} (h : operator? c = some op) :
    c = op.symbol := by
  unfold operator? at h
  split at h <;> cases h <;> rfl

/-- The operators of a clause stand in its text. -/
theorem SpellsClause.symbol_mem {text : List Char} {clause : Clause} (h : SpellsClause text clause)
    (hgroup : group ∈ clause.groups) : group.1.symbol ∈ text := by
  obtain ⟨who, texts, rfl, -, hgroups, -, -⟩ := h
  have hpairs := (List.forall₂_and_left _ _).mpr ⟨fun text htext => htext, hgroups⟩
  obtain ⟨first, hfirst, op, letters, rfl, hop, -⟩ :=
    exists_forall₂_iff.mp ⟨_, hpairs.flip⟩ group hgroup
  rw [← eq_symbol_of_operator? hop]
  exact List.mem_append_right _ (List.mem_flatten.mpr ⟨_, hfirst, List.mem_cons_self⟩)

/-- What a clause has from the text of its mode. -/
structure Clause.OfMode (mode : String) (clause : Clause) : Prop where
  who_le : clause.who ≤ allBits
  /-- Its classes are named in the mode. -/
  named : ∀ i, clause.who.testBit i = true → Names mode i
  /-- Its operators stand in the mode. -/
  symbols : ∀ group ∈ clause.groups, group.1.symbol ∈ mode.toList

/-- A mode that is accepted and not a number has clauses, the same for all bits. -/
theorem exists_clauses {mode : String} {start first : Nat}
    (haccepted : change mode start = .ok first) (hsymbolic : ¬ IsOctal mode.toList) :
    ∃ clauses, (∀ bits, change mode bits = .ok ((Change.symbolic clauses).apply bits)) ∧
      ∀ clause ∈ clauses, clause.OfMode mode := by
  obtain ⟨m, hread, -⟩ := change_eq_ok_iff.mp haccepted
  obtain ⟨clauses, rfl, htexts⟩ := parse?_of_not_octal hread hsymbolic
  refine ⟨clauses, fun bits => change_eq_ok_iff.mpr ⟨_, hread, rfl⟩, fun clause hclause => ?_⟩
  obtain ⟨text, htext, hspells⟩ := htexts clause hclause
  exact ⟨hspells.who_le, fun i hi => ⟨text, htext, hspells.testBit_classBits hi⟩,
    fun group hgroup => mem_of_mem_splitOn htext (hspells.symbol_mem hgroup)⟩

/-! ## Symbolic modes -/

section Symbolic

variable {mode : String} {clauses : List Clause} (h : ∀ clause ∈ clauses, clause.OfMode mode)
  {bits i : Nat}
include h

/-- The bits of a class that the mode does not name stay as they are. -/
theorem symbolic_testBit_of_not_named (hi : ¬ Names mode i) :
    ((Change.symbolic clauses).apply bits).testBit i = (bits &&& allBits).testBit i := by
  -- the step needs to know that the bits are among the twelve
  let P (b : Nat) : Prop := b ≤ allBits ∧ b.testBit i = (bits &&& allBits).testBit i
  have hrun : P ((Change.symbolic clauses).apply bits) := by
    refine symbolic_run (fun clause hclause group _ b hb => ?_) ⟨Nat.and_le_right, rfl⟩
    have hclause := h clause hclause
    have hout : clause.who.testBit i = false :=
      Bool.eq_false_iff.mpr fun hin => hi (hclause.named i hin)
    exact ⟨applyGroup_le hclause.who_le hb.1 group,
      (testBit_applyGroup_of_not hb.1 hout).trans hb.2⟩
  exact hrun.2

/-- With one sort of operator only, it is the operator of every group. -/
theorem operator_eq {op : Operator}
    (hothers : ∀ other : Operator, other ≠ op → other.symbol ∉ mode.toList) {clause : Clause}
    (hclause : clause ∈ clauses) {group : Operator × Nat} (hgroup : group ∈ clause.groups) :
    group.1 = op := by
  by_contra hne
  exact hothers group.1 hne ((h clause hclause).symbols group hgroup)

/-- A mode that only adds clears nothing. -/
theorem symbolic_sets (hothers : ∀ other : Operator, other ≠ .add → other.symbol ∉ mode.toList)
    (hi : (bits &&& allBits).testBit i = true) :
    ((Change.symbolic clauses).apply bits).testBit i = true :=
  symbolic_run (P := fun b => b.testBit i = true)
    (fun _ hclause _ hgroup _ hb => testBit_add (operator_eq h hothers hclause hgroup) hb) hi

theorem symbolic_clears (hothers : ∀ other : Operator, other ≠ .remove → other.symbol ∉ mode.toList)
    (hi : ((Change.symbolic clauses).apply bits).testBit i = true) :
    (bits &&& allBits).testBit i = true :=
  symbolic_run (P := fun b => b.testBit i = true → (bits &&& allBits).testBit i = true)
    (fun _ hclause _ hgroup _ hb hset =>
      hb (testBit_of_remove (operator_eq h hothers hclause hgroup) hset)) id hi

end Symbolic

/-- A symbolic mode that is accepted keeps some bits and sets some, the same whatever the bits are.
Applied again it changes nothing, it leaves the bits alone that are outside of the classes it names,
and with one sort of operator only it sets bits or clears bits, but not both. -/
theorem symbolic_change_masked {mode : String} {start first : Nat}
    (haccepted : change mode start = .ok first) (hsymbolic : ¬ IsOctal mode.toList) :
    (∃ keep set, keep ≤ 0o7777 ∧ set ≤ 0o7777 ∧
        ∀ bits, change mode bits = .ok (bits &&& 0o7777 &&& keep ||| set)) ∧
      ∀ bits new, change mode bits = .ok new →
        change mode new = .ok new ∧
          (∀ i, ¬ Names mode i → new.testBit i = (bits &&& 0o7777).testBit i) ∧
          ('-' ∉ mode.toList → '=' ∉ mode.toList →
            ∀ i, (bits &&& 0o7777).testBit i = true → new.testBit i = true) ∧
          ('+' ∉ mode.toList → '=' ∉ mode.toList →
            ∀ i, new.testBit i = true → (bits &&& 0o7777).testBit i = true) := by
  -- the clauses are the same for all bits, and so is their mask
  obtain ⟨clauses, hchange, hclauses⟩ := exists_clauses haccepted hsymbolic
  obtain ⟨mask, hmask⟩ := masked_symbolic fun clause hclause => (hclauses clause hclause).who_le
  have happly : ∀ bits, (Change.symbolic clauses).apply bits = mask.apply (bits &&& allBits) :=
    fun bits => hmask _ Nat.and_le_right
  refine ⟨⟨mask.keep, mask.set, mask.keep_le, mask.set_le, fun bits => ?_⟩, fun bits new hnew => ?_⟩
  · rw [hchange, happly]
    rfl
  · obtain rfl : (Change.symbolic clauses).apply bits = new :=
      Except.ok.inj ((hchange bits).symm.trans hnew)
    refine ⟨?_, fun i => symbolic_testBit_of_not_named hclauses, fun hremove hassign i => ?_,
      fun hadd hassign i => ?_⟩
    · rw [hchange, happly, happly, and_allBits (mask.apply_le _), mask.apply_apply]
    · refine symbolic_sets hclauses fun other hother => ?_
      cases other with
      | add => exact absurd rfl hother
      | remove => exact hremove
      | assign => exact hassign
    · refine symbolic_clears hclauses fun other hother => ?_
      cases other with
      | add => exact hadd
      | remove => exact absurd rfl hother
      | assign => exact hassign

/-- The bits of others are outside of `ug=rwxs-x`; `+x` takes no bit away, and `go-w` gives none. -/
theorem sample_symbolic_change_masked :
    (change "ug=rwxs-x" 0o17642 = .ok 0o7662 ∧ ¬ IsOctal "ug=rwxs-x".toList ∧
        change "ug=rwxs-x" 0o7662 = .ok 0o7662 ∧ ¬ Names "ug=rwxs-x" 1 ∧
        Nat.testBit 0o7662 1 = (0o17642 &&& 0o7777 : Nat).testBit 1) ∧
      (change "u+s,+x" 0o644 = .ok 0o4755 ∧ '-' ∉ "u+s,+x".toList ∧ '=' ∉ "u+s,+x".toList ∧
        ∀ i, (0o644 &&& 0o7777 : Nat).testBit i = true → Nat.testBit 0o4755 i = true) ∧
      (change "go-w" 0o666 = .ok 0o644 ∧ '+' ∉ "go-w".toList ∧ '=' ∉ "go-w".toList ∧
        ∀ i, Nat.testBit 0o644 i = true → (0o666 &&& 0o7777 : Nat).testBit i = true) := by
  have hassign : change "ug=rwxs-x" 0o17642 = .ok 0o7662 := by decide +kernel
  have hadd : change "u+s,+x" 0o644 = .ok 0o4755 := by decide +kernel
  have hremove : change "go-w" 0o666 = .ok 0o644 := by decide +kernel
  have hnotOctal : ∀ mode ∈ ["ug=rwxs-x", "u+s,+x", "go-w"], ¬ IsOctal mode.toList := by
    intro mode hmode hoctal
    simp only [List.mem_cons, List.not_mem_nil, or_false] at hmode
    rcases hmode with rfl | rfl | rfl <;> exact absurd (hoctal.2.2 _ List.mem_cons_self) (by decide)
  obtain ⟨-, hmask⟩ := symbolic_change_masked hassign (hnotOctal _ (by simp))
  obtain ⟨-, hsets⟩ := symbolic_change_masked hadd (hnotOctal _ (by simp))
  obtain ⟨-, hclears⟩ := symbolic_change_masked hremove (hnotOctal _ (by simp))
  obtain ⟨hagain, hout, -, -⟩ := hmask _ _ hassign
  have hnamed : ¬ Names "ug=rwxs-x" 1 := by decide +kernel
  exact ⟨⟨hassign, hnotOctal _ (by simp), hagain, hnamed, hout 1 hnamed⟩,
    ⟨hadd, by decide, by decide, (hsets _ _ hadd).2.2.1 (by decide) (by decide)⟩,
    ⟨hremove, by decide, by decide, (hclears _ _ hremove).2.2.2 (by decide) (by decide)⟩⟩

end Userland.Mode
