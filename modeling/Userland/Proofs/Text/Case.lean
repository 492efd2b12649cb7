/-
  The lower case of a text that is part of a longer one.

  1. *Program.*  `lower` gives each character its lower case, and looks around at a capital sigma
     only, which becomes another letter at the end of a word.

  2. *Specification.*  A text is found in the lower case of a longer one that it stands in if the
     same of its sigmas end words there (`contains_lower_of_wordEnds_eq`).  If these are the same
     wherever it stands (`Settled`), it is always found; any other text is lost with one letter
     before it or after it (`exists_lost`).

  3. *The crux.*  Apart from the sigmas nothing depends on the neighbours (`count_lowerBetween`).  A
     letter after the text can only take ends of words away and one before it can only add some, so
     that one form of the sigma becomes rarer (`count_lt_of_forall₂`), and the text cannot be found
     anywhere in the lower case of the longer one.
-/
import Userland.Text.Case
import Userland.Proofs.Text

namespace Userland.Text

variable {before before' cs after after' more : List Char}

/-! ## The end of a word -/

/-- The character is passed over when the end of a word is looked for. -/
def isPassedOver (c : Char) : Bool := inRanges passedOverRanges c.toNat

/-- Characters that are passed over do not end the search, any other does. -/
theorem meetsCased_cons (c : Char) (cs : List Char) :
    meetsCased (c :: cs) =
      if isPassedOver c then meetsCased cs else inRanges casedRanges c.toNat := by
  rw [meetsCased, List.dropWhile_cons, isPassedOver]
  cases inRanges passedOverRanges c.toNat <;> rfl

/-- What comes first decides, unless all of it is passed over. -/
theorem meetsCased_append (cs more : List Char) :
    meetsCased (cs ++ more) = if cs.all isPassedOver then meetsCased more else meetsCased cs := by
  induction cs with
  | nil => rfl
  | cons c cs ih =>
    rw [List.cons_append, meetsCased_cons, meetsCased_cons, ih, List.all_cons]
    cases isPassedOver c <;> rfl

theorem meetsCased_of_all (h : cs.all isPassedOver = true) : meetsCased cs = false := by
  have happend := meetsCased_append cs []
  rw [List.append_nil, if_pos h] at happend
  exact happend

/-- What is met before the end is met however the text goes on. -/
theorem meetsCased_append_of_meetsCased (h : meetsCased cs = true) (more : List Char) :
    meetsCased (cs ++ more) = true := by
  rw [meetsCased_append]
  split
  · next hall =>
    rw [meetsCased_of_all hall] at h
    cases h
  · exact h

/-- With more after it, a place ends a word only if it does without. -/
theorem endsWord_of_append_after (h : endsWord before (after ++ more) = true) :
    endsWord before after = true := by
  rw [endsWord, Bool.and_eq_true, Bool.not_eq_true'] at h ⊢
  refine ⟨h.1, ?_⟩
  by_contra hmeets
  rw [meetsCased_append_of_meetsCased (Bool.not_eq_false _ ▸ hmeets)] at h
  cases h.2

/-- With more before it, a place that ends a word still does. -/
theorem endsWord_append_before (h : endsWord before after = true) (more : List Char) :
    endsWord (before ++ more) after = true := by
  rw [endsWord, Bool.and_eq_true] at h ⊢
  exact ⟨meetsCased_append_of_meetsCased h.1 more, h.2⟩

/-- A place that a letter on either side cannot change is not changed by anything. -/
theorem endsWord_append_of_letter (hafter : endsWord before (after ++ ['a']) = endsWord before after)
    (hbefore : endsWord (before ++ ['a']) after = endsWord before after) (more more' : List Char) :
    endsWord (before ++ more) (after ++ more') = endsWord before after := by
  have hletter : meetsCased ['a'] = true := by decide
  simp only [endsWord, meetsCased_append, hletter] at hafter hbefore ⊢
  cases hb : before.all isPassedOver <;> cases ha : after.all isPassedOver <;>
    simp_all [meetsCased_of_all]

/-! ## Characters between others -/

/-- The two forms of the small sigma. -/
def smallSigma (ends : Bool) : Char := if ends then 'ς' else 'σ'

/-- For each capital sigma of some characters, whether it ends a word between what stands before and
after them. -/
def wordEnds (before : List Char) : List Char → List Char → List Bool
  | [], _ => []
  | c :: cs, after =>
    (if c = 'Σ' then [endsWord before (cs ++ after)] else []) ++ wordEnds (c :: before) cs after

/-- The lower case of some characters between what stands before and after them. -/
def lowerBetween (before : List Char) : List Char → List Char → List Char
  | [], _ => []
  | c :: cs, after =>
    (if c = 'Σ' then [smallSigma (endsWord before (cs ++ after))] else lowerChar c) ++
      lowerBetween (c :: before) cs after

/-- The lower case of a text is that of its first part and that of the rest, each where it is. -/
theorem lowerAfter_append (before cs after : List Char) :
    lowerAfter before (cs ++ after) =
      lowerBetween before cs after ++ lowerAfter (cs.reverse ++ before) after := by
  induction cs generalizing before with
  | nil => rfl
  | cons c cs ih =>
    rw [List.cons_append, lowerAfter, ih, lowerBetween, List.reverse_cons, List.append_assoc,
      List.append_assoc, List.singleton_append]
    rfl

theorem lowerAfter_eq (before cs : List Char) :
    lowerAfter before cs = lowerBetween before cs [] := by
  have happend := lowerAfter_append before cs []
  rwa [List.append_nil, lowerAfter, List.append_nil] at happend

/-- Which sigmas end words is all that matters of what stands around. -/
theorem lowerBetween_congr (h : wordEnds before cs after = wordEnds before' cs after') :
    lowerBetween before cs after = lowerBetween before' cs after' := by
  induction cs generalizing before before' with
  | nil => rfl
  | cons c cs ih =>
    rw [wordEnds, wordEnds] at h
    rw [lowerBetween, lowerBetween]
    by_cases hc : c = 'Σ'
    · rw [if_pos hc, if_pos hc, List.singleton_append, List.singleton_append,
        List.cons.injEq] at h
      rw [if_pos hc, if_pos hc, h.1, ih h.2]
    · rw [if_neg hc, if_neg hc, List.nil_append, List.nil_append] at h
      rw [if_neg hc, if_neg hc, ih h]

/-- Of a small sigma, there are as many as capital ones become, and those that were there. -/
theorem count_lowerBetween (before cs after : List Char) (ends : Bool) :
    (lowerBetween before cs after).count (smallSigma ends) =
      (wordEnds before cs after).count ends +
        ((cs.filter (· ≠ 'Σ')).flatMap lowerChar).count (smallSigma ends) := by
  have hform : ∀ b : Bool, [smallSigma b].count (smallSigma ends) = [b].count ends := by
    cases ends <;> decide
  induction cs generalizing before with
  | nil => rfl
  | cons c cs ih =>
    rw [lowerBetween, wordEnds, List.count_append, List.count_append, ih]
    by_cases hc : c = 'Σ'
    · rw [if_pos hc, if_pos hc, hform, List.filter_cons_of_neg (by simpa using hc), Nat.add_assoc]
    · rw [if_neg hc, if_neg hc, List.filter_cons_of_pos (by simpa using hc), List.flatMap_cons,
        List.count_append, List.count_nil]
      omega

/-! ## Texts whose lower case is the same everywhere -/

/-- Whether a capital sigma of the characters ends a word does not depend on what stands around
them. -/
def Settled (cs : List Char) : Prop :=
  ∀ before after, wordEnds before cs after = wordEnds [] cs []

/-- If a letter on either side makes no difference, no text there does. -/
theorem wordEnds_append_of_letter
    (hafter : wordEnds before cs ['a'] = wordEnds before cs [])
    (hbefore : wordEnds (before ++ ['a']) cs [] = wordEnds before cs []) (more more' : List Char) :
    wordEnds (before ++ more) cs more' = wordEnds before cs [] := by
  induction cs generalizing before with
  | nil => rfl
  | cons c cs ih =>
    simp only [wordEnds, List.append_nil] at hafter hbefore ⊢
    by_cases hc : c = 'Σ'
    · simp only [if_pos hc, List.singleton_append, List.cons.injEq] at hafter hbefore ⊢
      exact ⟨endsWord_append_of_letter hafter.1 hbefore.1 more more', ih hafter.2 hbefore.2⟩
    · simp only [if_neg hc, List.nil_append] at hafter hbefore ⊢
      exact ih hafter hbefore

/-- It is enough to try a letter on either side. -/
theorem settled_iff :
    Settled cs ↔ wordEnds [] cs ['a'] = wordEnds [] cs [] ∧ wordEnds ['a'] cs [] = wordEnds [] cs [] :=
  ⟨fun h => ⟨h [] ['a'], h ['a'] []⟩,
    fun h before after => wordEnds_append_of_letter h.1 h.2 before after⟩

instance (cs : List Char) : Decidable (Settled cs) := decidable_of_iff' _ settled_iff

/-- Only a sigma is written differently at the end of a word. -/
theorem settled_of_not_mem (h : 'Σ' ∉ cs) : Settled cs := by
  have hnone : ∀ before after, wordEnds before cs after = [] := by
    intro before after
    induction cs generalizing before with
    | nil => rfl
    | cons c cs ih =>
      rw [List.mem_cons, not_or] at h
      rw [wordEnds, if_neg (Ne.symm h.1), ih h.2, List.append_nil]
  intro before after
  rw [hnone, hnone]

/-! ## Texts that are found in lower case -/

section Count

variable {x : Bool} {bs bs' : List Bool}

/-- Where one list has the value, the other has it too, and so at least as often. -/
theorem count_le_of_forall₂ (h : List.Forall₂ (fun b b' => b = x → b' = x) bs bs') :
    bs.count x ≤ bs'.count x := by
  induction h with
  | nil => exact le_rfl
  | @cons b b' _ _ hx _ ih =>
    by_cases hb : b = x
    · rw [hb, hx hb, List.count_cons_self, List.count_cons_self]
      exact Nat.succ_le_succ ih
    · rw [List.count_cons_of_ne hb]
      exact ih.trans List.count_le_count_cons

/-- What has `x` wherever another list has it, and is not that list, has it more often. -/
theorem count_lt_of_forall₂ (h : List.Forall₂ (fun b b' => b = x → b' = x) bs bs')
    (hne : bs ≠ bs') : bs.count x < bs'.count x := by
  induction h with
  | nil => exact absurd rfl hne
  | @cons b b' rest rest' hx hrest ih =>
    by_cases hb : b = b'
    · have hrests : rest ≠ rest' := fun he => hne (by rw [hb, he])
      rw [hb, List.count_cons, List.count_cons]
      exact Nat.add_lt_add_right (ih hrests) _
    · -- the two are different, so that the second is `x`
      have hfirst : b ≠ x := fun he => hb (he.trans (hx he).symm)
      have hsecond : b' = x := by
        revert hb hfirst
        cases b <;> cases b' <;> cases x <;> decide
      rw [List.count_cons_of_ne hfirst, hsecond, List.count_cons_self]
      exact Nat.lt_succ_of_le (count_le_of_forall₂ hrest)

end Count

/-- What follows can only keep a place from being the end of a word. -/
theorem wordEnds_after (before cs after : List Char) :
    List.Forall₂ (fun b b' => b = true → b' = true) (wordEnds before cs after)
      (wordEnds before cs []) := by
  induction cs generalizing before with
  | nil => exact .nil
  | cons c cs ih =>
    rw [wordEnds, wordEnds, List.append_nil]
    split
    · exact .cons endsWord_of_append_after (ih _)
    · exact ih _

/-- What comes before can only make one of it. -/
theorem wordEnds_before (before cs more : List Char) :
    List.Forall₂ (fun b b' => b = false → b' = false) (wordEnds (before ++ more) cs [])
      (wordEnds before cs []) := by
  induction cs generalizing before with
  | nil => exact .nil
  | cons c cs ih =>
    rw [wordEnds, wordEnds]
    split
    · refine .cons (fun h => ?_) (ih (c :: before))
      by_contra hends
      rw [endsWord_append_before (Bool.not_eq_false _ ▸ hends)] at h
      cases h
    · exact ih (c :: before)

theorem toList_lower (s : String) : (lower s).toList = lowerBetween [] s.toList [] := by
  rw [lower, String.toList_ofList, lowerAfter_eq]

/-- Joined texts are neighbours of each other. -/
theorem toList_lower_append (s t : String) :
    (lower (s ++ t)).toList =
      lowerBetween [] s.toList t.toList ++ lowerBetween s.toList.reverse t.toList [] := by
  rw [lower, String.toList_ofList, String.toList_append, lowerAfter_append, lowerAfter_eq,
    List.append_nil]

/-- Where as many sigmas end words as in the text alone, and the same ones, the text is found in
lower case. -/
theorem contains_lower_of_wordEnds_eq {before pattern after : String}
    (h : wordEnds before.toList.reverse pattern.toList after.toList =
      wordEnds [] pattern.toList []) :
    contains (lower pattern) (lower (before ++ pattern ++ after)) = true := by
  have hcut : (lower (before ++ (pattern ++ after))).toList =
      lowerBetween [] before.toList (pattern ++ after).toList ++
        (lowerBetween [] pattern.toList [] ++
          lowerAfter (pattern.toList.reverse ++ before.toList.reverse) after.toList) := by
    rw [toList_lower_append, ← lowerAfter_eq, String.toList_append, lowerAfter_append,
      lowerBetween_congr h]
  rw [contains, occursIn_iff, String.append_assoc, hcut, toList_lower, ← List.append_assoc]
  exact ⟨_, _, rfl⟩

/-- A settled pattern is found in lower case wherever it is found as it is. -/
theorem Settled.contains_lower {pattern line : String} (h : Settled pattern.toList)
    (hline : contains pattern line = true) : contains (lower pattern) (lower line) = true := by
  obtain ⟨before, after, rfl⟩ := contains_iff.mp hline
  exact contains_lower_of_wordEnds_eq (h _ _)

/-- A text is not found where one of its characters is rarer than in the text itself. -/
theorem not_contains_of_count_lt {needle s : String} {c : Char}
    (h : s.toList.count c < needle.toList.count c) : contains needle s = false := by
  by_contra hcontains
  obtain ⟨before, after, rfl⟩ := contains_iff.mp (Bool.not_eq_false _ ▸ hcontains)
  rw [String.toList_append, String.toList_append, List.count_append, List.count_append] at h
  omega

/-- A text that is not settled is not found any more with a letter after it, or with one before
it. -/
theorem exists_lost {pattern : String} (h : ¬ Settled pattern.toList) :
    ∃ line ∈ [pattern ++ "a", "a" ++ pattern],
      contains pattern line = true ∧ contains (lower pattern) (lower line) = false := by
  have hletter : ∀ before after, lowerBetween before "a".toList after = ['a'] := fun _ _ => rfl
  have hnone : ∀ ends, ['a'].count (smallSigma ends) = 0 := by decide
  rw [settled_iff, not_and_or] at h
  rcases h with h | h
  · refine ⟨pattern ++ "a", by simp, contains_iff.mpr ⟨"", "a", by rw [String.empty_append]⟩,
      not_contains_of_count_lt (c := smallSigma true) ?_⟩
    rw [toList_lower_append, toList_lower, hletter, List.count_append, hnone, count_lowerBetween,
      count_lowerBetween]
    have hrarer := count_lt_of_forall₂ (wordEnds_after [] pattern.toList ['a']) h
    exact Nat.add_lt_add_right hrarer _
  · refine ⟨"a" ++ pattern, by simp, contains_iff.mpr ⟨"a", "", by rw [String.append_empty]⟩,
      not_contains_of_count_lt (c := smallSigma false) ?_⟩
    rw [toList_lower_append, toList_lower, hletter, List.count_append, hnone, count_lowerBetween,
      count_lowerBetween, Nat.zero_add]
    have hrarer := count_lt_of_forall₂ (wordEnds_before [] pattern.toList ['a']) h
    exact Nat.add_lt_add_right hrarer _

example : Settled "Straße İ".toList ∧ Settled "ΑΣ Σα".toList ∧ ¬ Settled "ΑΣ".toList := by
  decide +kernel

end Userland.Text
