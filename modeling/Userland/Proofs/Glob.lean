/-
  What a pattern matches.

  1. *Program.*  A scan from the left that remembers only the last star it met.  Where the pattern
     does not go on, that star takes one character more, and stars before it are never tried again.

  2. *Specification.*  A pattern is matched by a text that can be cut into one piece for each of its
     characters: any one character for a question mark, any piece for a star, the character itself
     for each other one (`Matches`).  The scan deviates from it in one case.  It compares characters
     before it looks for a star, so a star that comes upon a star in the text takes that star, and
     nothing else.  `Splits` is the specification with what a star may take left open, so that both
     are instances of it, and the scan decides its own one exactly (`Scan.run_iff`).

  3. *The crux.*  Why one star is enough: whatever an earlier star could take instead, the rest of
     its pattern would come to the later star further right, and the later star can take what lies
     between.  The invariant of the scan is this, told for the place where it is
     (`Scan.Dominates`): if the noted star, taking more, leads to a match, then the pattern that is
     left matches at some place of the text that is left.  A star that is read as a character
     keeps the invariant, since it takes the one character that every other reading needs too.
-/
import Mathlib.Data.List.Infix
import Userland.Glob

namespace Userland.Glob

variable {pattern text rest : List Char} {p c : Char}

/-! ## Cutting a text along a pattern -/

/-- The text is one piece for each character of the pattern, and each piece is one that the
character stands for.  `takes piece rest` says when a star stands for a piece with that rest of the
text after it. -/
inductive Splits (takes : List Char → List Char → Prop) : List Char → List Char → Prop
  | done : Splits takes [] []
  | question (c : Char) {pattern text : List Char} (h : Splits takes pattern text) :
      Splits takes ('?' :: pattern) (c :: text)
  | literal {c : Char} (hquestion : c ≠ '?') (hstar : c ≠ '*') {pattern text : List Char}
      (h : Splits takes pattern text) : Splits takes (c :: pattern) (c :: text)
  | star {piece rest : List Char} (htakes : takes piece rest) {pattern : List Char}
      (h : Splits takes pattern rest) : Splits takes ('*' :: pattern) (piece ++ rest)

/-- The text is matched by the pattern: a star stands for any piece, wherever it is. -/
def Matches (pattern text : List Char) : Prop := Splits (fun _ _ => True) pattern text

/-- What a star takes in the scan: one star if there is one before it, and any piece if not. -/
def TakesStarAlone (piece rest : List Char) : Prop :=
  piece = ['*'] ∨ (piece ++ rest).head? ≠ some '*'

/-- The text is matched by the pattern as the scan reads it. -/
def Reads (pattern text : List Char) : Prop := Splits TakesStarAlone pattern text

section Splits

variable {takes takes' : List Char → List Char → Prop}

/-- A star that may take more lets more texts be cut along the pattern. -/
theorem Splits.mono (h : Splits takes pattern text)
    (himp : ∀ piece rest, piece ++ rest <:+ text → takes piece rest → takes' piece rest) :
    Splits takes' pattern text := by
  induction h with
  | done => exact .done
  | question c _ ih =>
    exact .question c (ih fun piece rest hsuffix => himp piece rest (hsuffix.trans (by simp)))
  | literal hquestion hstar _ ih =>
    exact .literal hquestion hstar
      (ih fun piece rest hsuffix => himp piece rest (hsuffix.trans (by simp)))
  | star htakes _ ih =>
    exact .star (himp _ _ List.suffix_rfl htakes)
      (ih fun piece rest hsuffix => himp piece rest (hsuffix.trans (by simp)))

theorem splits_nil_iff : Splits takes [] text ↔ text = [] := by
  constructor
  · intro h
    cases h
    rfl
  · rintro rfl
    exact .done

/-- A character other than a star stands for one character. -/
theorem splits_cons_iff (hp : p ≠ '*') :
    Splits takes (p :: pattern) text ↔
      ∃ c after, text = c :: after ∧ (p = '?' ∨ p = c) ∧ Splits takes pattern after := by
  constructor
  · intro h
    cases h with
    | question c h => exact ⟨c, _, rfl, .inl rfl, h⟩
    | literal _ _ h => exact ⟨p, _, rfl, .inr rfl, h⟩
    | star _ _ => exact absurd rfl hp
  · rintro ⟨c, after, rfl, hpc, h⟩
    by_cases hquestion : p = '?'
    · rw [hquestion]
      exact .question c h
    · obtain rfl := hpc.resolve_left hquestion
      exact .literal hquestion hp h

/-- A star comes first: the text begins with the piece that it takes. -/
theorem splits_star_iff :
    Splits takes ('*' :: pattern) text ↔
      ∃ piece rest, text = piece ++ rest ∧ takes piece rest ∧ Splits takes pattern rest := by
  constructor
  · intro h
    cases h with
    | literal _ hstar _ => exact absurd rfl hstar
    | star htakes h => exact ⟨_, _, rfl, htakes, h⟩
  · rintro ⟨piece, rest, rfl, htakes, h⟩
    exact .star htakes h

/-- No text is left for stars only. -/
theorem splits_text_nil_iff (hempty : takes [] []) :
    Splits takes pattern [] ↔ pattern.all (· = '*') = true := by
  induction pattern with
  | nil => simp [splits_nil_iff]
  | cons p pattern ih =>
    by_cases hp : p = '*'
    · have hall : (p :: pattern).all (· = '*') = pattern.all (· = '*') := by simp [hp]
      rw [hall, ← ih, hp, splits_star_iff]
      constructor
      · rintro ⟨piece, rest, hnil, -, h⟩
        rwa [(List.append_eq_nil_iff.mp hnil.symm).2] at h
      · intro h
        exact ⟨[], [], rfl, hempty, h⟩
    · rw [splits_cons_iff hp]
      simp [hp]

end Splits

/-! ## Readings that begin anywhere -/

/-- The pattern matches some end of the text. -/
def Somewhere (pattern text : List Char) : Prop := ∃ after, after <:+ text ∧ Reads pattern after

/-- A reading begins at the first character or after it. -/
theorem somewhere_cons_iff :
    Somewhere pattern (c :: text) ↔ Reads pattern (c :: text) ∨ Somewhere pattern text := by
  constructor
  · rintro ⟨after, hsuffix, h⟩
    rcases List.suffix_cons_iff.mp hsuffix with rfl | hsuffix
    · exact .inl h
    · exact .inr ⟨after, hsuffix, h⟩
  · rintro (h | ⟨after, hsuffix, h⟩)
    · exact ⟨_, List.suffix_rfl, h⟩
    · exact ⟨after, hsuffix.trans (List.suffix_cons c text), h⟩

/-- Where no star is before it, a star takes whatever the rest of the pattern leaves. -/
theorem reads_star_iff_somewhere (hhead : text.head? ≠ some '*') :
    Reads ('*' :: pattern) text ↔ Somewhere pattern text := by
  rw [Reads, splits_star_iff]
  constructor
  · rintro ⟨piece, rest, htext, -, h⟩
    exact ⟨rest, ⟨piece, htext.symm⟩, h⟩
  · rintro ⟨rest, ⟨piece, htext⟩, h⟩
    exact ⟨piece, rest, htext.symm, .inr (htext ▸ hhead), h⟩

/-- A star takes the star before it. -/
theorem reads_star_star_iff : Reads ('*' :: pattern) ('*' :: text) ↔ Reads pattern text := by
  rw [Reads, splits_star_iff]
  constructor
  · rintro ⟨piece, rest, htext, htakes, h⟩
    have hpiece : piece = ['*'] := htakes.resolve_right (by simp [← htext])
    rw [hpiece, List.singleton_append] at htext
    rwa [(List.cons.inj htext).2]
  · intro h
    exact ⟨['*'], text, rfl, .inl rfl, h⟩

/-- A character that fits the first of the pattern is read, be it a star or not. -/
theorem reads_cons_iff_of_fits (h : p = '?' ∨ p = c) :
    Reads (p :: pattern) (c :: text) ↔ Reads pattern text := by
  by_cases hp : p = '*'
  · have hc : c = '*' := by
      rcases h with hquestion | rfl
      · rw [hp] at hquestion
        cases hquestion
      · exact hp
    rw [hp, hc, reads_star_star_iff]
  · rw [Reads, splits_cons_iff hp]
    constructor
    · rintro ⟨d, after, htext, -, hafter⟩
      obtain ⟨rfl, rfl⟩ := List.cons.inj htext
      exact hafter
    · intro hafter
      exact ⟨c, text, rfl, h, hafter⟩

/-- What reads from a star on reads from some place behind it. -/
theorem Somewhere.of_star (h : Somewhere ('*' :: pattern) text) : Somewhere pattern text := by
  obtain ⟨after, hsuffix, hreads⟩ := h
  obtain ⟨piece, rest, rfl, -, hrest⟩ := splits_star_iff.mp hreads
  exact ⟨rest, (List.suffix_append piece rest).trans hsuffix, hrest⟩

/-- A pattern that matches somewhere still does so, without its first character, after the text has
lost a first character that fits. -/
theorem Somewhere.of_fits (h : p = '?' ∨ p = c) (hsome : Somewhere (p :: pattern) (c :: text)) :
    Somewhere pattern text := by
  rcases somewhere_cons_iff.mp hsome with hhere | hlater
  · exact ⟨text, List.suffix_rfl, (reads_cons_iff_of_fits h).mp hhere⟩
  · by_cases hp : p = '*'
    · exact Somewhere.of_star (hp ▸ hlater)
    · obtain ⟨after, hsuffix, hreads⟩ := hlater
      obtain ⟨d, rest, rfl, -, hrest⟩ := (splits_cons_iff hp).mp hreads
      exact ⟨rest, (List.suffix_cons d rest).trans hsuffix, hrest⟩

/-! ## The scan -/

namespace Scan

variable {s t : Scan} {star : Star}

/-- The noted star can take more, so that the pattern after it matches. -/
def CanTakeMore (s : Scan) : Prop :=
  ∃ star c more, s.star = some star ∧ star.text = c :: more ∧ Somewhere star.pattern more

/-- The scan can still come to a match. -/
def Alive (s : Scan) : Prop := Reads s.pattern s.text ∨ s.CanTakeMore

/-- What the noted star could gain by taking more, the pattern that is left can gain by beginning
further right. -/
def Dominates (s : Scan) : Prop := s.CanTakeMore → Somewhere s.pattern s.text

/-- What is right for a step to come to: the answer, or a scan with the same prospects. -/
def Keeps (s : Scan) : Step → Prop
  | .answer matched => matched = true ↔ s.Alive
  | .goOn t => t.Dominates ∧ (t.Alive ↔ s.Alive)

/-- The star can take more if the pattern behind it reads somewhere after its next character. -/
theorem canTakeMore_iff (h : s.star = some star) :
    s.CanTakeMore ↔ ∃ c more, star.text = c :: more ∧ Somewhere star.pattern more := by
  constructor
  · rintro ⟨star', c, more, hstar, htext, hmore⟩
    obtain rfl : star = star' := Option.some.inj (h.symm.trans hstar)
    exact ⟨c, more, htext, hmore⟩
  · rintro ⟨c, more, htext, hmore⟩
    exact ⟨star, c, more, h, htext, hmore⟩

theorem not_canTakeMore (h : s.star = none) : ¬ s.CanTakeMore := by
  rintro ⟨star, c, more, hstar, -⟩
  rw [h] at hstar
  cases hstar

/-- A star that is noted where the scan is may take nothing, or more. -/
theorem alive_of_noted (h : s.star = some ⟨s.pattern, s.text⟩) :
    s.Alive ↔ Somewhere s.pattern s.text := by
  rw [Alive, canTakeMore_iff h]
  cases htext : s.text with
  | nil =>
    constructor
    · rintro (hreads | ⟨c, more, hnil, -⟩)
      · exact ⟨[], List.suffix_rfl, hreads⟩
      · cases hnil
    · rintro ⟨after, hsuffix, hreads⟩
      exact .inl (List.suffix_nil.mp hsuffix ▸ hreads)
  | cons c more =>
    rw [somewhere_cons_iff]
    simp

/-- A star that has just been met has taken nothing, and loses nothing by it. -/
theorem dominates_of_noted (h : s.star = some ⟨s.pattern, s.text⟩) : s.Dominates :=
  fun hmore => (alive_of_noted h).mp (.inr hmore)

/-! ## One step -/

/-- Going back is right where the pattern does not go on. -/
theorem keeps_goBack (hstuck : ¬ Reads s.pattern s.text) : s.Keeps s.goBack := by
  have halive : s.Alive ↔ s.CanTakeMore := or_iff_right hstuck
  rw [goBack]
  split
  · next hnone => simpa [Keeps, halive] using not_canTakeMore hnone
  · next star hstar =>
    have hmore := canTakeMore_iff hstar
    split
    · next hempty =>
      rw [hempty] at hmore
      simpa [Keeps, halive] using hmore
    · next c rest htext =>
      rw [htext] at hmore
      refine ⟨dominates_of_noted rfl, ?_⟩
      rw [alive_of_noted rfl, halive, hmore]
      simp

/-- Reading a character is right where it fits. -/
theorem keeps_read {text : List Char} (hdom : s.Dominates) (hfits : p = '?' ∨ p = c)
    (hpattern : s.pattern = p :: pattern) (htext : s.text = c :: text)
    (behind : ∀ star, s.star = some star → text.length ≤ star.text.length) :
    s.Keeps (.goOn ⟨pattern, text, s.star, behind⟩) := by
  refine ⟨fun hmore => ?_, ?_⟩
  · have hsome : Somewhere s.pattern s.text := hdom hmore
    rw [hpattern, htext] at hsome
    exact hsome.of_fits hfits
  · rw [Alive, Alive, hpattern, htext, reads_cons_iff_of_fits hfits]
    exact Iff.rfl

/-- Noting a star is right where no star is before it in the text: what an earlier one could gain,
this one can gain too. -/
theorem keeps_note (hdom : s.Dominates) (hhead : s.text.head? ≠ some '*')
    (hpattern : s.pattern = '*' :: pattern)
    (behind : ∀ star, some (Star.mk pattern s.text) = some star →
      s.text.length ≤ star.text.length) :
    s.Keeps (.goOn ⟨pattern, s.text, some ⟨pattern, s.text⟩, behind⟩) := by
  refine ⟨dominates_of_noted rfl, ?_⟩
  rw [alive_of_noted rfl, Alive, hpattern, reads_star_iff_somewhere hhead]
  refine ⟨.inl, ?_⟩
  rintro (hhere | hmore)
  · exact hhere
  · exact Somewhere.of_star (hpattern ▸ hdom hmore)

/-- **The step.** -/
theorem keeps_step (hdom : s.Dominates) : s.Keeps s.step := by
  unfold step
  split
  · next hempty =>
    -- nothing is left for a star to take, so that only the pattern that is left counts
    have halive : s.Alive ↔ Reads s.pattern [] := by
      rw [Alive, hempty]
      refine ⟨?_, .inl⟩
      rintro (hreads | hmore)
      · exact hreads
      · obtain ⟨after, hsuffix, hreads⟩ := hdom hmore
        rw [hempty] at hsuffix
        exact List.suffix_nil.mp hsuffix ▸ hreads
    rw [Keeps, halive, Reads, splits_text_nil_iff (.inr (by simp))]
  · next c text htext =>
    split
    · next hpattern =>
      refine keeps_goBack ?_
      rw [hpattern, htext, Reads, splits_nil_iff]
      exact List.cons_ne_nil c text
    · next p pattern hpattern =>
      split
      · next hfits => exact keeps_read hdom hfits hpattern htext _
      · next hfits =>
        split
        · next hstar =>
          rw [hstar] at hpattern hfits
          have hhead : s.text.head? ≠ some '*' := by
            rw [htext, List.head?_cons]
            exact fun hc => hfits (.inr (Option.some.inj hc).symm)
          exact keeps_note hdom hhead hpattern _
        · next hstar =>
          refine keeps_goBack ?_
          rw [hpattern, htext, Reads, splits_cons_iff hstar]
          rintro ⟨d, after, hcons, hfits', -⟩
          exact hfits ((List.cons.inj hcons).1 ▸ hfits')

/-! ## The whole scan -/

theorem run_of_answer {matched : Bool} (h : s.step = .answer matched) : s.run = matched := by
  rw [run]
  split
  · next h' => exact (Step.answer.inj (h.symm.trans h')).symm
  · next h' => cases h.symm.trans h'

theorem run_of_goOn (h : s.step = .goOn t) : s.run = t.run := by
  rw [run]
  split
  · next h' => cases h.symm.trans h'
  · next t' h' => rw [Step.goOn.inj (h.symm.trans h')]

/-- **The run.**  A scan finds out whether it can still come to a match. -/
theorem run_iff (hdom : s.Dominates) : s.run = true ↔ s.Alive := by
  induction s using run.induct with
  | case1 s matched hstep =>
    have hkeeps := keeps_step hdom
    rw [hstep] at hkeeps
    rw [run_of_answer hstep]
    exact hkeeps
  | case2 s t hstep hbelow ih =>
    have hkeeps := keeps_step hdom
    rw [hstep] at hkeeps
    rw [run_of_goOn hstep]
    exact (ih hkeeps.1).trans hkeeps.2

end Scan

/-- The scan decides whether the text is matched by the pattern as it reads it. -/
theorem isMatch_iff_reads (pattern text : String) :
    isMatch pattern text = true ↔ Reads pattern.toList text.toList := by
  have hfresh : ¬ (Scan.start pattern.toList text.toList).CanTakeMore := Scan.not_canTakeMore rfl
  rw [isMatch, Scan.run_iff fun hmore => absurd hmore hfresh]
  exact or_iff_left hfresh

/-! ## Where the scan is right -/

/-- What the scan takes for a match is one. -/
theorem Reads.matches (h : Reads pattern text) : Matches pattern text :=
  Splits.mono h fun _ _ _ _ => trivial

/-- In a text without a star, the scan reads a pattern as it is meant. -/
theorem Matches.reads (h : Matches pattern text) (hstar : '*' ∉ text) : Reads pattern text := by
  refine Splits.mono h fun piece rest hsuffix _ => .inr fun hhead => hstar ?_
  obtain ⟨more, hmore⟩ := List.head?_eq_some_iff.mp hhead
  exact hsuffix.subset (hmore ▸ List.mem_cons_self)

/-- The scan answers yes exactly for the texts that it can cut along the pattern with a star that
comes upon a star taking nothing else.  All of these are matches; and if the text has no star, they
are all the matches that there are. -/
theorem isMatch_readings (pattern text : String) :
    (isMatch pattern text = true ↔ Splits TakesStarAlone pattern.toList text.toList) ∧
      (isMatch pattern text = true → Matches pattern.toList text.toList) ∧
      ('*' ∉ text.toList → (isMatch pattern text = true ↔ Matches pattern.toList text.toList)) := by
  have hreads := isMatch_iff_reads pattern text
  refine ⟨hreads, fun h => (hreads.mp h).matches, fun hstar => ?_⟩
  exact ⟨fun h => (hreads.mp h).matches, fun h => hreads.mpr (h.reads hstar)⟩

/-- A text without a star, against a pattern with one and with a question mark. -/
theorem sample_isMatch_readings :
    '*' ∉ "a?b".toList ∧ (isMatch "*?b" "a?b" = true ↔ Matches "*?b".toList "a?b".toList) :=
  have hstar : '*' ∉ "a?b".toList := by decide
  ⟨hstar, (isMatch_readings "*?b" "a?b").2.2 hstar⟩

example : isMatch "a*b*c" "aXXbYYc" = true := by cbv

/-- A star stands for everything, but the scan has it take a star at the beginning of the text and
then nothing more. -/
theorem isMatch_misses_star : Matches "*".toList "*a".toList ∧ isMatch "*" "*a" = false := by
  have hmatches : Splits (fun _ _ => True) ['*'] (['*', 'a'] ++ []) := .star trivial .done
  refine ⟨hmatches, ?_⟩
  -- the star is read as a character, and then nothing of the pattern is left for the rest
  rw [isMatch, Scan.run_of_goOn rfl, Scan.run_of_answer rfl]

end Userland.Glob
