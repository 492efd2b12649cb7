/-
  Which mode arguments are understood.

  1. *Program.*  `Change.parse?` reads a mode argument: as octal digits if it has no other
     characters, and else as clauses between commas.  A clause is read in bites, first its class
     letters and then group after group, each an operator and the permission letters behind it.

  2. *Specification.*  The grammar of mode arguments (`IsArgument`), in which a text is put together
     from its parts.  An argument is accepted if and only if it belongs to the grammar, whatever the
     bits are that it is to change, and all bits that come of it are among the twelve.

  3. *The crux.*  The parts are found from the left without looking ahead: an operator is neither a
     class letter nor a permission letter, so that a bite ends where the next part begins and
     nowhere else (`bite_append`).  What is read off a text in this way is told by a relation for
     groups and one for clauses (`SpellsGroup`, `SpellsClause`), and the grammar has the texts that
     spell something.
-/
import Mathlib.Data.List.Forall2
import Mathlib.Data.List.TakeWhile
import Userland.Mode
import Userland.Proofs.Tree.Reachable

namespace Userland.Mode

/-! ## The grammar -/

/-- One to four octal digits. -/
def IsOctal (cs : List Char) : Prop :=
  cs ≠ [] ∧ cs.length ≤ 4 ∧ ∀ c ∈ cs, c ∈ ['0', '1', '2', '3', '4', '5', '6', '7']

/-- An operator, and permission letters or none. -/
def IsGroup (cs : List Char) : Prop :=
  ∃ op letters, cs = op :: letters ∧ op ∈ ['+', '-', '='] ∧
    ∀ c ∈ letters, c ∈ ['r', 'w', 'x', 's', 't']

/-- Class letters or none, and one group or more. -/
def IsClause (cs : List Char) : Prop :=
  ∃ who groups, cs = who ++ groups.flatten ∧ (∀ c ∈ who, c ∈ ['u', 'g', 'o', 'a']) ∧
    groups ≠ [] ∧ ∀ group ∈ groups, IsGroup group

/-- A mode argument: octal digits, or one clause or more with commas between them. -/
def IsArgument (mode : String) : Prop :=
  IsOctal mode.toList ∨
    ∃ clauses, clauses ≠ [] ∧ (∀ clause ∈ clauses, IsClause clause) ∧
      mode.toList = [','].intercalate clauses

/-! ## Letters -/

variable {c : Char} {cs : List Char}

theorem isOctalDigit_iff :
    isOctalDigit c = true ↔ c ∈ ['0', '1', '2', '3', '4', '5', '6', '7'] := by
  have hle : ∀ d e : Char, d ≤ e ↔ d.toNat ≤ e.toNat := fun _ _ => Iff.rfl
  simp only [isOctalDigit, Bool.and_eq_true, decide_eq_true_eq, List.mem_cons, List.not_mem_nil,
    or_false, hle, ← Char.toNat_inj, Char.reduceToNat]
  omega

theorem isSome_operator?_iff : (operator? c).isSome = true ↔ c ∈ ['+', '-', '='] := by
  unfold operator?
  split <;> simp_all

theorem isSome_whoMask?_iff : (whoMask? c).isSome = true ↔ c ∈ ['u', 'g', 'o', 'a'] := by
  unfold whoMask?
  split <;> simp_all

theorem isSome_permissionMask?_iff :
    (permissionMask? c).isSome = true ↔ c ∈ ['r', 'w', 'x', 's', 't'] := by
  unfold permissionMask?
  split <;> simp_all

/-- An operator is no letter, no digit and no comma. -/
theorem operator_apart (h : (operator? c).isSome = true) :
    (whoMask? c).isSome = false ∧ (permissionMask? c).isSome = false ∧ isOctalDigit c = false := by
  rw [isSome_operator?_iff] at h
  simp only [List.mem_cons, List.not_mem_nil, or_false] at h
  rcases h with rfl | rfl | rfl <;> decide

/-! ## Bites -/

/-- A bite ends where its characters end, if what follows begins with another one. -/
theorem bite_append {p : Char → Bool} {bite rest : List Char} (hbite : ∀ c ∈ bite, p c = true)
    (hrest : ∀ c ∈ rest.head?, p c = false) :
    (bite ++ rest).takeWhile p = bite ∧ (bite ++ rest).dropWhile p = rest := by
  rw [List.takeWhile_append_of_pos hbite, List.dropWhile_append_of_pos hbite]
  cases rest with
  | nil => simp
  | cons c rest =>
    have hc : ¬ p c = true := by simp [hrest c rfl]
    rw [List.takeWhile_cons_of_neg hc, List.dropWhile_cons_of_neg hc, List.append_nil]
    exact ⟨rfl, rfl⟩

/-- The text of a group. -/
def SpellsGroup (text : List Char) (group : Operator × Nat) : Prop :=
  ∃ op letters, text = op :: letters ∧ operator? op = some group.1 ∧
    (∀ c ∈ letters, (permissionMask? c).isSome = true) ∧ group.2 = union permissionMask? letters

/-- The text of a clause. -/
def SpellsClause (text : List Char) (clause : Clause) : Prop :=
  ∃ who texts, text = who ++ texts.flatten ∧ (∀ c ∈ who, (whoMask? c).isSome = true) ∧
    List.Forall₂ SpellsGroup texts clause.groups ∧ clause.groups ≠ [] ∧
    clause.who = if who.isEmpty then allBits else union whoMask? who

/-- Groups begin with an operator. -/
theorem operator_of_head? {texts : List (List Char)} {groups : List (Operator × Nat)}
    (h : List.Forall₂ SpellsGroup texts groups) :
    ∀ c ∈ texts.flatten.head?, (operator? c).isSome = true := by
  cases h with
  | nil => simp
  | cons hfirst hrest =>
    obtain ⟨op, letters, rfl, hop, -, -⟩ := hfirst
    intro c hc
    rw [List.flatten_cons, List.cons_append, List.head?_cons, Option.mem_some] at hc
    rw [← hc, hop]
    rfl

/-- What is read as groups is the text of groups, one after the other. -/
theorem groups?_eq_some_iff {groups : List (Operator × Nat)} :
    groups? cs = some groups ↔
      ∃ texts, cs = texts.flatten ∧ List.Forall₂ SpellsGroup texts groups := by
  constructor
  · intro h
    -- the reader bites off one group after the other
    induction cs using groups?.induct generalizing groups with
    | case1 =>
      rw [groups?] at h
      cases h
      exact ⟨[], rfl, .nil⟩
    | case2 op cs ih =>
      rw [groups?] at h
      obtain ⟨operator, hop, hrest⟩ := Option.bind_eq_some_iff.mp h
      obtain ⟨rest, hgroups, hdone⟩ := Option.bind_eq_some_iff.mp hrest
      cases hdone
      obtain ⟨texts, htexts, hspells⟩ := ih hgroups
      have hletters : ∀ c ∈ cs.takeWhile fun c => (permissionMask? c).isSome,
          (permissionMask? c).isSome = true := by
        intro c hc
        simpa using List.mem_takeWhile_imp (p := fun c => (permissionMask? c).isSome) hc
      refine ⟨_ :: texts, ?_, .cons ⟨op, _, rfl, hop, hletters, rfl⟩ hspells⟩
      rw [List.flatten_cons, ← htexts, List.cons_append, List.takeWhile_append_dropWhile]
  · rintro ⟨texts, rfl, h⟩
    induction h with
    | nil => rw [List.flatten_nil, groups?]
    | @cons text group texts groups hfirst hrest ih =>
      obtain ⟨operator, mask⟩ := group
      obtain ⟨op, letters, rfl, hop, hletters, rfl⟩ := hfirst
      -- the bite ends at the operator of the next group, which is no letter of permissions
      obtain ⟨htake, hdrop⟩ := bite_append hletters fun c hc =>
        (operator_apart (operator_of_head? hrest c hc)).2.1
      rw [List.flatten_cons, List.cons_append, groups?, hop, htake, hdrop, ih]
      rfl

/-- The reader of a clause finds what the clause spells, and nothing where it spells nothing. -/
theorem clause_parse?_eq_some_iff {clause : Clause} :
    Clause.parse? cs = some clause ↔ SpellsClause cs clause := by
  rw [Clause.parse?]
  constructor
  · intro h
    obtain ⟨groups, hgroups, hdone⟩ := Option.bind_eq_some_iff.mp h
    obtain ⟨texts, htexts, hspells⟩ := groups?_eq_some_iff.mp hgroups
    split at hdone
    · cases hdone
    · next hsome =>
      cases hdone
      have hwho : ∀ c ∈ cs.takeWhile fun c => (whoMask? c).isSome, (whoMask? c).isSome = true := by
        intro c hc
        simpa using List.mem_takeWhile_imp (p := fun c => (whoMask? c).isSome) hc
      refine ⟨_, texts, ?_, hwho, hspells, by simpa using hsome, rfl⟩
      rw [← htexts, List.takeWhile_append_dropWhile]
  · rintro ⟨who, texts, rfl, hwho, hspells, hsome, hmask⟩
    -- what follows the letters begins with an operator, so that the bite ends there
    obtain ⟨htake, hdrop⟩ := bite_append hwho fun c hc =>
      (operator_apart (operator_of_head? hspells c hc)).1
    obtain ⟨mask, groups⟩ := clause
    obtain rfl : mask = _ := hmask
    have hread : groups? texts.flatten = some groups :=
      groups?_eq_some_iff.mpr ⟨texts, rfl, hspells⟩
    rw [htake, hdrop, hread]
    exact if_neg (by simpa using hsome)

/-! ## The grammar has the texts that spell something -/

/-- If each element has a partner, so has the list. -/
theorem exists_forall₂_iff {α β : Type} {r : α → β → Prop} {l : List α} :
    (∃ l', List.Forall₂ r l l') ↔ ∀ a ∈ l, ∃ b, r a b := by
  induction l with
  | nil => simp
  | cons a l ih =>
    rw [List.forall_mem_cons, ← ih]
    constructor
    · rintro ⟨l', h⟩
      cases h with
      | cons hfirst hrest => exact ⟨⟨_, hfirst⟩, _, hrest⟩
    · rintro ⟨⟨b, hfirst⟩, l', hrest⟩
      exact ⟨b :: l', .cons hfirst hrest⟩

/-- A group of the grammar is a text that spells a group. -/
theorem isGroup_iff : IsGroup cs ↔ ∃ group, SpellsGroup cs group := by
  constructor
  · rintro ⟨op, letters, rfl, hop, hletters⟩
    obtain ⟨operator, hoperator⟩ := Option.isSome_iff_exists.mp (isSome_operator?_iff.mpr hop)
    exact ⟨(operator, _), op, letters, rfl, hoperator,
      fun c hc => isSome_permissionMask?_iff.mpr (hletters c hc), rfl⟩
  · rintro ⟨group, op, letters, rfl, hop, hletters, -⟩
    exact ⟨op, letters, rfl, isSome_operator?_iff.mp (by rw [hop]; rfl),
      fun c hc => isSome_permissionMask?_iff.mp (hletters c hc)⟩

theorem isClause_iff : IsClause cs ↔ ∃ clause, Clause.parse? cs = some clause := by
  simp only [clause_parse?_eq_some_iff]
  constructor
  · rintro ⟨who, texts, rfl, hwho, hsome, hgroups⟩
    obtain ⟨groups, hspells⟩ :=
      exists_forall₂_iff.mpr fun text htext => isGroup_iff.mp (hgroups text htext)
    have hne : groups ≠ [] := by
      rintro rfl
      exact hsome (List.forall₂_nil_right_iff.mp hspells)
    exact ⟨⟨_, groups⟩, who, texts, rfl,
      fun c hc => isSome_whoMask?_iff.mpr (hwho c hc), hspells, hne, rfl⟩
  · rintro ⟨clause, who, texts, rfl, hwho, hspells, hsome, -⟩
    refine ⟨who, texts, rfl, fun c hc => isSome_whoMask?_iff.mp (hwho c hc), ?_,
      fun text htext => isGroup_iff.mpr (exists_forall₂_iff.mp ⟨_, hspells⟩ text htext)⟩
    rintro rfl
    exact hsome (List.forall₂_nil_left_iff.mp hspells)

/-- A clause has an operator in it, and no comma. -/
theorem IsClause.operator_mem (h : IsClause cs) :
    (∃ c ∈ cs, (operator? c).isSome = true) ∧ ',' ∉ cs := by
  obtain ⟨who, groups, rfl, hwho, hsome, hgroups⟩ := h
  constructor
  · obtain ⟨group, rest, rfl⟩ := List.exists_cons_of_ne_nil hsome
    obtain ⟨op, letters, rfl, hop, -⟩ := hgroups group List.mem_cons_self
    exact ⟨op, by simp, isSome_operator?_iff.mpr hop⟩
  · intro hcomma
    rcases List.mem_append.mp hcomma with hin | hin
    · exact absurd (hwho ',' hin) (by decide)
    · obtain ⟨group, hgroup, hmem⟩ := List.mem_flatten.mp hin
      obtain ⟨op, letters, rfl, hop, hletters⟩ := hgroups group hgroup
      rcases List.mem_cons.mp hmem with rfl | hmem
      · exact absurd hop (by decide)
      · exact absurd (hletters ',' hmem) (by decide)

/-- Since clauses have no commas, they are what stands between the commas. -/
theorem isSymbolic_iff :
    (∃ clauses, clauses ≠ [] ∧ (∀ clause ∈ clauses, IsClause clause) ∧
      cs = [','].intercalate clauses) ↔ ∀ clause ∈ cs.splitOn ',', IsClause clause := by
  constructor
  · rintro ⟨clauses, hsome, hclauses, rfl⟩
    rw [List.splitOn_intercalate ',' (fun clause h => (hclauses clause h).operator_mem.2) hsome]
    exact hclauses
  · intro h
    exact ⟨cs.splitOn ',', List.splitOn_ne_nil _ _, h, (List.intercalate_splitOn ',').symm⟩

/-- Digits alone are no clauses. -/
theorem not_isSymbolic_of_digits (h : ∀ c ∈ cs, isOctalDigit c = true) :
    ¬ ∀ clause ∈ cs.splitOn ',', IsClause clause := by
  intro hclauses
  have hcomma : ',' ∉ cs := fun hmem => absurd (h ',' hmem) (by decide)
  rw [List.splitOn_eq_singleton hcomma] at hclauses
  obtain ⟨⟨c, hc, hop⟩, -⟩ := (hclauses cs List.mem_cons_self).operator_mem
  have hdigit := (operator_apart hop).2.2
  rw [h c hc] at hdigit
  cases hdigit

/-- A list is read when each of its elements is. -/
theorem mapM_eq_some_iff {α β : Type} {f : α → Option β} {l : List α} {l' : List β} :
    l.mapM f = some l' ↔ List.Forall₂ (fun a b => f a = some b) l l' := by
  induction l generalizing l' with
  | nil =>
    rw [List.mapM_nil, List.forall₂_nil_left_iff]
    exact Option.some_inj.trans eq_comm
  | cons a l ih =>
    rw [List.mapM_cons]
    constructor
    · intro h
      obtain ⟨b, hb, hrest⟩ := Option.bind_eq_some_iff.mp h
      obtain ⟨l'', hl, hdone⟩ := Option.bind_eq_some_iff.mp hrest
      cases hdone
      exact .cons hb (ih.mp hl)
    · rintro (_ | ⟨hb, hl⟩)
      rw [hb, ih.mpr hl]
      rfl

/-- **The grammar.**  What is read as a change is a mode argument, and every mode argument is. -/
theorem exists_parse?_iff (mode : String) :
    (∃ m, Change.parse? mode = some m) ↔ IsArgument mode := by
  rw [IsArgument, isSymbolic_iff, Change.parse?]
  by_cases hdigits : mode.toList.all isOctalDigit = true
  · have hall := List.all_eq_true.mp hdigits
    have hoctal : IsOctal mode.toList ↔ ¬ (mode = "" ∨ 4 < mode.length) := by
      rw [IsOctal, ← String.length_toList, not_or, Nat.not_lt]
      simp only [ne_eq, String.toList_eq_nil_iff]
      exact and_congr_right fun _ =>
        and_iff_left fun c hc => isOctalDigit_iff.mp (hall c hc)
    rw [if_pos hdigits, or_iff_left (not_isSymbolic_of_digits hall), hoctal]
    split
    · next hbad => simp [hbad]
    · next hgood => simp [hgood]
  · have hoctal : ¬ IsOctal mode.toList := fun h =>
      hdigits (List.all_eq_true.mpr fun c hc => isOctalDigit_iff.mpr (h.2.2 c hc))
    rw [if_neg hdigits, or_iff_right hoctal]
    simp only [isClause_iff, ← exists_forall₂_iff, ← mapM_eq_some_iff, Option.map_eq_some_iff]
    constructor
    · rintro ⟨_, clauses, h, -⟩
      exact ⟨clauses, h⟩
    · rintro ⟨clauses, h⟩
      exact ⟨_, clauses, h, rfl⟩

/-! ## The new bits -/

/-- Masks within the twelve bits stay there together. -/
theorem or_le_allBits {a b : Nat} (ha : a ≤ allBits) (hb : b ≤ allBits) : a ||| b ≤ allBits :=
  Nat.le_of_lt_succ (Nat.or_lt_two_pow (n := 12) (Nat.lt_succ_of_le ha) (Nat.lt_succ_of_le hb))

theorem and_le_allBits {a : Nat} (ha : a ≤ allBits) (b : Nat) : a &&& b ≤ allBits :=
  Nat.and_le_left.trans ha

/-- The mask of a letter is within the twelve bits. -/
theorem whoMask?_le {mask : Nat} (h : whoMask? c = some mask) : mask ≤ allBits := by
  unfold whoMask? at h
  split at h <;> cases h <;> decide

/-- A union of masks stays within what each of them stays within. -/
theorem union_le {mask? : Char → Option Nat} (h : ∀ c mask, mask? c = some mask → mask ≤ allBits)
    (letters : List Char) : union mask? letters ≤ allBits := by
  have hall : ∀ bits ≤ allBits,
      letters.foldl (fun bits c => bits ||| (mask? c).getD 0) bits ≤ allBits := by
    induction letters with
    | nil => exact fun bits hbits => hbits
    | cons c letters ih =>
      intro bits hbits
      refine ih _ (or_le_allBits hbits ?_)
      cases hmask : mask? c with
      | none => exact Nat.zero_le _
      | some mask => exact h c mask hmask
  exact hall 0 (Nat.zero_le _)

/-- The mask of a clause is within the twelve bits. -/
theorem SpellsClause.who_le {clause : Clause} (h : SpellsClause cs clause) :
    clause.who ≤ allBits := by
  obtain ⟨who, texts, -, -, -, -, hmask⟩ := h
  rw [hmask]
  split
  · exact le_refl _
  · exact union_le (fun c mask h => whoMask?_le h) who

/-- **The step.**  A group for some of the classes keeps the bits among the twelve. -/
theorem applyGroup_le {who bits : Nat} (hwho : who ≤ allBits) (hbits : bits ≤ allBits)
    (group : Operator × Nat) : applyGroup who bits group ≤ allBits := by
  have hnamed : group.2 &&& who ≤ allBits := Nat.and_le_right.trans hwho
  obtain ⟨op, mask⟩ := group
  cases op with
  | add => exact or_le_allBits hbits hnamed
  | remove => exact and_le_allBits hbits _
  | assign => exact or_le_allBits (and_le_allBits hbits _) hnamed

/-- A run of steps that keep the bits among the twelve. -/
theorem foldl_le {α : Type} {step : Nat → α → Nat} {l : List α}
    (h : ∀ a ∈ l, ∀ bits ≤ allBits, step bits a ≤ allBits) {bits : Nat} (hbits : bits ≤ allBits) :
    l.foldl step bits ≤ allBits := by
  induction l generalizing bits with
  | nil => exact hbits
  | cons a l ih =>
    exact ih (fun b hb => h b (List.mem_cons_of_mem a hb)) (h a List.mem_cons_self bits hbits)

/-- Four octal digits make twelve bits. -/
theorem digitsValue_le {digits : List Nat} (hlength : digits.length ≤ 4)
    (hdigits : ∀ d ∈ digits, d ≤ 7) : Text.digitsValue 8 digits ≤ allBits := by
  match digits with
  | [] | [_] | [_, _] | [_, _, _] | [_, _, _, _] =>
    simp only [List.mem_cons, List.not_mem_nil, or_false, forall_eq_or_imp, forall_eq] at hdigits
    simp only [Text.digitsValue, List.foldl_cons, List.foldl_nil, allBits]
    omega
  | _ :: _ :: _ :: _ :: _ :: _ =>
    simp only [List.length_cons] at hlength
    omega

theorem digit_le (h : isOctalDigit c = true) : c.toNat - '0'.toNat ≤ 7 := by
  rw [isOctalDigit_iff] at h
  simp only [List.mem_cons, List.not_mem_nil, or_false] at h
  rcases h with rfl | rfl | rfl | rfl | rfl | rfl | rfl | rfl <;> decide

/-- **The run.**  Whatever is read as a change gives bits among the twelve. -/
theorem apply_le {mode : String} {m : Change} (h : Change.parse? mode = some m) (bits : Nat) :
    m.apply bits ≤ allBits := by
  rw [Change.parse?] at h
  split at h
  · next hdigits =>
    split at h
    · cases h
    · next hfits =>
      cases h
      rw [not_or, Nat.not_lt, ← String.length_toList] at hfits
      refine digitsValue_le (by rw [List.length_map]; exact hfits.2) fun d hd => ?_
      obtain ⟨c, hc, rfl⟩ := List.mem_map.mp hd
      exact digit_le (List.all_eq_true.mp hdigits c hc)
  · obtain ⟨clauses, hclauses, rfl⟩ := Option.map_eq_some_iff.mp h
    rw [mapM_eq_some_iff] at hclauses
    refine foldl_le (fun clause hclause bits hbits => ?_) Nat.and_le_right
    obtain ⟨text, hread⟩ := exists_forall₂_iff.mp ⟨_, hclauses.flip⟩ clause hclause
    have hwho := (clause_parse?_eq_some_iff.mp hread).who_le
    exact foldl_le (fun group _ bits hbits => applyGroup_le hwho hbits group) hbits

/-! ## Acceptance -/

/-- A mode is accepted when it can be read, and the new bits are what has been read makes of the
old. -/
theorem change_eq_ok_iff {mode : String} {bits new : Nat} :
    change mode bits = .ok new ↔ ∃ m, Change.parse? mode = some m ∧ m.apply bits = new := by
  rw [change]
  cases Change.parse? mode with
  | none => simp
  | some m => simp

/-- Whether a mode is accepted does not depend on the bits that it is to change. -/
theorem change_accepts_iff (mode : String) (bits : Nat) :
    (∃ new, change mode bits = .ok new) ↔ IsArgument mode := by
  rw [← exists_parse?_iff]
  simp only [change_eq_ok_iff]
  exact ⟨fun ⟨_, m, h, _⟩ => ⟨m, h⟩, fun ⟨m, h⟩ => ⟨_, m, h, rfl⟩⟩

/-- A mode is accepted if and only if it belongs to the grammar; if it is, the new bits are among
the twelve, and if it is not, the complaint names it.  So the permissions of a node can be changed
exactly by the modes that are accepted for no bits at all. -/
theorem change_accepts_grammar (mode : String) (bits : Nat) :
    ((∃ new, change mode bits = .ok new) ↔ IsArgument mode) ∧
      (∀ new, change mode bits = .ok new → new ≤ 0o7777) ∧
      (¬ IsArgument mode →
        change mode bits = .error (.invalidArgument ("invalid mode: '" ++ mode ++ "'"))) ∧
      ∀ (t : Tree) (path : String), t.contains path = true →
        ((∃ t', t.setPermissions path mode = .ok t') ↔ ∃ new, change mode 0 = .ok new) := by
  refine ⟨change_accepts_iff mode bits, fun new h => ?_, fun h => ?_, fun t path hthere => ?_⟩
  · obtain ⟨m, hm, rfl⟩ := change_eq_ok_iff.mp h
    exact apply_le hm bits
  · rw [← exists_parse?_iff, not_exists] at h
    rw [change]
    split
    · next m hm => exact absurd hm (h m)
    · rfl
  · obtain ⟨n, hn⟩ := Option.isSome_iff_exists.mp hthere
    -- acceptance is the same for all bits, those of the node too
    rw [change_accepts_iff mode 0, ← change_accepts_iff mode (ofText n.attributes.permissions)]
    constructor
    · rintro ⟨t', h⟩
      obtain ⟨n', new, hn', hnew, -⟩ := Tree.setPermissions_eq_ok_iff.mp h
      obtain rfl : n = n' := Option.some.inj (hn.symm.trans hn')
      exact ⟨new, hnew⟩
    · rintro ⟨new, hnew⟩
      exact ⟨_, Tree.setPermissions_eq_ok_iff.mpr ⟨n, new, hn, hnew, rfl⟩⟩

/-- A mode with everything in it, one with a clause too many, and a directory in a tree. -/
theorem sample_change_accepts_grammar :
    (change "ug=rwxs-x,+t" 0o644 = .ok 0o7664 ∧ 0o7664 ≤ 0o7777 ∧ IsArgument "ug=rwxs-x,+t") ∧
      (¬ IsArgument "u+x," ∧
        change "u+x," 0 = .error (.invalidArgument ("invalid mode: '" ++ "u+x," ++ "'"))) ∧
      (Tree.sample.contains "src/d" = true ∧
        ((∃ t', Tree.sample.setPermissions "src/d" "7777" = .ok t') ↔
          ∃ new, change "7777" 0 = .ok new)) := by
  have hnew : change "ug=rwxs-x,+t" 0o644 = .ok 0o7664 := by decide +kernel
  have hnone : Change.parse? "u+x," = none := by decide +kernel
  have hbad : ¬ IsArgument "u+x," := by
    rw [← exists_parse?_iff, hnone]
    simp
  have hthere : Tree.sample.contains "src/d" = true := by decide +kernel
  obtain ⟨haccepts, hbits, -⟩ := change_accepts_grammar "ug=rwxs-x,+t" 0o644
  obtain ⟨-, -, hcomplains, -⟩ := change_accepts_grammar "u+x," 0
  obtain ⟨-, -, -, hchmod⟩ := change_accepts_grammar "7777" 0
  exact ⟨⟨hnew, hbits _ hnew, haccepts.mp ⟨_, hnew⟩⟩, ⟨hbad, hcomplains hbad⟩,
    hthere, hchmod Tree.sample "src/d" hthere⟩

example : change "0755" 0 = .ok 0o755 ∧ (change "u" 0).toOption = none ∧
    (change "07555" 0).toOption = none ∧ (change "u+x,,g-w" 0).toOption = none := by
  decide +kernel

end Userland.Mode
