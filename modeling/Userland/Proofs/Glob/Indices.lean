/-
  The scan by its indices.

  1. *Program.*  The pattern and the text stay as they are, and two indices go through them.  A star
     leaves a mark: its own index, and the index in the text up to which it has taken.  Where the
     pattern does not go on, both indices are set back to what the mark says, and the star takes one
     character more.  A look outside of the pattern or of the text ends everything, with no answer.

  2. *Specification.*  That never happens, and the loop ends: after fewer rounds than the product of
     the two lengths, each counted with its end, and with the answer of `isMatch` (`scan_ends`).

  3. *The crux.*  Going back lowers both indices, so that neither can be counted on.  What it uses
     up is what the star may still take, and everything else a round does moves on in the pattern.
     So the rank is a number of two digits, the room of the star before the rest of the pattern
     (`Cursor.rank`).  It gets smaller because the mark is behind both indices (`Cursor.InBounds`).
-/
import Userland.Proofs.Glob

namespace Userland.Glob

/-! ## The program -/

/-- A star to go back to. -/
structure Mark where
  /-- Where the star is in the pattern. -/
  star : Nat
  /-- Where the text begins that the star has not taken. -/
  taken : Nat
  deriving DecidableEq, Repr

/-- Where the scan stands: the next character of the pattern, the next one of the text, and the star
that was met last. -/
structure Cursor where
  pattern : Nat
  text : Nat
  mark : Option Mark
  deriving DecidableEq, Repr

/-- What a round of the loop comes to. -/
inductive Round where
  | answer (matched : Bool)
  | goOn (next : Cursor)
  deriving DecidableEq, Repr

/-- What is left of the characters from an index on, which may be the end and nothing after it. -/
def rest? (cs : List Char) (i : Nat) : Option (List Char) :=
  if i ≤ cs.length then some (cs.drop i) else none

namespace Cursor

def start : Cursor := ⟨0, 0, none⟩

/-- Does the pattern go on with a character that fits the one of the text? -/
def fits (s : Cursor) (p t : List Char) : Option Bool :=
  if s.pattern < p.length then do
    let c ← p[s.pattern]?
    if c = '?' then return true
    else return c = (← t[s.text]?)
  else return false

/-- Does the pattern go on with a star? -/
def meetsStar (s : Cursor) (p : List Char) : Option Bool :=
  if s.pattern < p.length then return (← p[s.pattern]?) = '*'
  else return false

/-- Lets the marked star take one character more. -/
def goBack (s : Cursor) : Round :=
  match s.mark with
  | none => .answer false
  | some m => .goOn ⟨m.star + 1, m.taken + 1, some ⟨m.star, m.taken + 1⟩⟩

/-- One round of the loop; nothing, where an index is out of bounds. -/
def round (s : Cursor) (p t : List Char) : Option Round :=
  if s.text < t.length then do
    if ← s.fits p t then return .goOn ⟨s.pattern + 1, s.text + 1, s.mark⟩
    else if ← s.meetsStar p then
      return .goOn ⟨s.pattern + 1, s.text, some ⟨s.pattern, s.text⟩⟩
    else return s.goBack
  else return .answer ((← rest? p s.pattern).all (· = '*'))

/-- Going back lowers both indices. -/
example : round ⟨3, 2, some ⟨0, 0⟩⟩ "*aab".toList "aaab".toList =
    some (.goOn ⟨1, 1, some ⟨0, 1⟩⟩) := by decide

/-- The loop stands here after that many rounds. -/
inductive After (p t : List Char) : Nat → Cursor → Prop
  | start : After p t 0 .start
  | next {n : Nat} {s s' : Cursor} (h : After p t n s) (hround : s.round p t = some (.goOn s')) :
      After p t (n + 1) s'

variable {p t : List Char} {s s' : Cursor} {c d : Char} {n : Nat} {r : Round} {scan : Scan}

/-! ## What a round can do -/

/-- The pattern goes on neither with a character that fits nor with a star. -/
def Stuck (p : List Char) (s : Cursor) (d : Char) : Prop :=
  ∀ c, p[s.pattern]? = some c → ¬ (c = '?' ∨ c = d) ∧ c ≠ '*'

/-- What a round comes to, and when. -/
inductive Moves (p t : List Char) (s : Cursor) : Round → Prop
  /-- A character is read. -/
  | read {c d : Char} (hp : p[s.pattern]? = some c) (ht : t[s.text]? = some d)
      (hfits : c = '?' ∨ c = d) : Moves p t s (.goOn ⟨s.pattern + 1, s.text + 1, s.mark⟩)
  /-- A star is marked. -/
  | note {d : Char} (hp : p[s.pattern]? = some '*') (ht : t[s.text]? = some d) (hd : d ≠ '*') :
      Moves p t s (.goOn ⟨s.pattern + 1, s.text, some ⟨s.pattern, s.text⟩⟩)
  /-- The marked star takes one character more. -/
  | back {d : Char} {m : Mark} (ht : t[s.text]? = some d) (hstuck : Stuck p s d)
      (hmark : s.mark = some m) :
      Moves p t s (.goOn ⟨m.star + 1, m.taken + 1, some ⟨m.star, m.taken + 1⟩⟩)
  /-- There is no star to go back to. -/
  | fail {d : Char} (ht : t[s.text]? = some d) (hstuck : Stuck p s d) (hmark : s.mark = none) :
      Moves p t s (.answer false)
  /-- The text is at its end. -/
  | finish (ht : t.length ≤ s.text) : Moves p t s (.answer ((p.drop s.pattern).all (· = '*')))

/-- Within bounds the comparison has an answer. -/
theorem fits_eq (hp : p[s.pattern]? = some c) (ht : t[s.text]? = some d) :
    s.fits p t = some (decide (c = '?' ∨ c = d)) := by
  have hlt : s.pattern < p.length := (List.getElem?_eq_some_iff.mp hp).1
  rw [fits, if_pos hlt, hp]
  by_cases hquestion : c = '?'
  · simp [hquestion]
  · simp [hquestion, ht]

theorem meetsStar_eq (hp : p[s.pattern]? = some c) : s.meetsStar p = some (decide (c = '*')) := by
  have hlt : s.pattern < p.length := (List.getElem?_eq_some_iff.mp hp).1
  rw [meetsStar, if_pos hlt, hp]
  rfl

/-- A round that is stuck goes back to the last star. -/
theorem moves_goBack (ht : t[s.text]? = some d) (hstuck : Stuck p s d) :
    Moves p t s s.goBack := by
  rw [goBack]
  split
  · next hmark => exact .fail ht hstuck hmark
  · next m hmark => exact .back ht hstuck hmark

/-- A round looks at nothing out of bounds, if the index of the pattern is not past the end. -/
theorem exists_moves (h : s.pattern ≤ p.length) (t : List Char) :
    ∃ r, s.round p t = some r ∧ Moves p t s r := by
  -- every look is within bounds, since the branches ask in this order
  by_cases htext : s.text < t.length
  · have ht : t[s.text]? = some t[s.text] := List.getElem?_eq_getElem htext
    rw [round, if_pos htext]
    by_cases hpattern : s.pattern < p.length
    · have hp : p[s.pattern]? = some p[s.pattern] := List.getElem?_eq_getElem hpattern
      rw [fits_eq hp ht, meetsStar_eq hp]
      by_cases hfits : p[s.pattern] = '?' ∨ p[s.pattern] = t[s.text]
      · exact ⟨_, by simp [hfits], .read hp ht hfits⟩
      · by_cases hstar : p[s.pattern] = '*'
        · have hd : t[s.text] ≠ '*' := fun he => hfits (.inr (hstar.trans he.symm))
          rw [hstar] at hp hfits
          exact ⟨_, by simp [hstar, hd.symm], .note hp ht hd⟩
        · refine ⟨s.goBack, by simp [hstar, hfits], moves_goBack ht fun c hc => ?_⟩
          obtain rfl : p[s.pattern] = c := Option.some.inj (hp.symm.trans hc)
          exact ⟨hfits, hstar⟩
    · refine ⟨s.goBack, by simp [fits, meetsStar, hpattern], moves_goBack ht fun c hc => ?_⟩
      exact absurd (List.getElem?_eq_some_iff.mp hc).1 hpattern
  · rw [round, if_neg htext, rest?, if_pos h]
    exact ⟨_, rfl, .finish (Nat.le_of_not_lt htext)⟩

/-- What a round has come to is what it can come to. -/
theorem moves_of_round (h : s.pattern ≤ p.length) (hround : s.round p t = some r) :
    Moves p t s r := by
  obtain ⟨r', hround', hmoves⟩ := exists_moves h t
  rw [hround] at hround'
  rwa [Option.some.inj hround']

/-! ## Bounds -/

/-- The indices are in bounds or at the end, and the mark is behind them. -/
structure InBounds (p t : List Char) (s : Cursor) : Prop where
  pattern : s.pattern ≤ p.length
  text : s.text ≤ t.length
  star : ∀ m, s.mark = some m → m.star < s.pattern
  taken : ∀ m, s.mark = some m → m.taken ≤ s.text

theorem inBounds_start (p t : List Char) : InBounds p t start where
  pattern := Nat.zero_le _
  text := Nat.zero_le _
  star m h := by cases h
  taken m h := by cases h

/-- No round leaves the bounds. -/
theorem InBounds.moves (hs : s.InBounds p t) (h : Moves p t s (.goOn s')) : s'.InBounds p t := by
  cases h with
  | read hp ht hfits =>
    refine ⟨(List.getElem?_eq_some_iff.mp hp).1, (List.getElem?_eq_some_iff.mp ht).1,
      fun m hm => ?_, fun m hm => ?_⟩
    · exact Nat.lt_succ_of_lt (hs.star m hm)
    · exact Nat.le_succ_of_le (hs.taken m hm)
  | note hp ht hd =>
    refine ⟨(List.getElem?_eq_some_iff.mp hp).1, hs.text, fun m hm => ?_, fun m hm => ?_⟩
    · obtain rfl := Option.some.inj hm
      exact Nat.lt_succ_self _
    · obtain rfl := Option.some.inj hm
      exact Nat.le_refl _
  | back ht hstuck hmark =>
    -- the star takes a character that is there, as it is not ahead of the text
    have hstar := hs.star _ hmark
    have htaken := hs.taken _ hmark
    have hpattern := hs.pattern
    have htext : s.text < t.length := (List.getElem?_eq_some_iff.mp ht).1
    refine ⟨by show _ + 1 ≤ _; omega, by show _ + 1 ≤ _; omega, fun m hm => ?_, fun m hm => ?_⟩
    · obtain rfl := Option.some.inj hm
      exact Nat.lt_succ_self _
    · obtain rfl := Option.some.inj hm
      exact Nat.le_refl _

/-! ## Rank -/

/-- What the marked star may still take; the whole text when there is none. -/
def room (s : Cursor) (t : List Char) : Nat :=
  t.length - (s.mark.elim 0 Mark.taken)

/-- What gets smaller: the room of the star, and at the same room the rest of the pattern, as the
digits of one number. -/
def rank (s : Cursor) (p t : List Char) : Nat :=
  s.room t * (p.length + 1) + (p.length - s.pattern)

/-- The loop begins with the highest rank. -/
theorem rank_start (p t : List Char) :
    start.rank p t + 1 = (p.length + 1) * (t.length + 1) := by
  rw [Nat.mul_succ, Nat.mul_comm]
  rfl

/-- Less room for the star lowers the rank, wherever the pattern goes on. -/
theorem rank_lt_of_room (hs : s'.room t < s.room t) : s'.rank p t < s.rank p t := by
  have hroom : (s'.room t + 1) * (p.length + 1) ≤ s.room t * (p.length + 1) :=
    Nat.mul_le_mul_right _ hs
  rw [Nat.add_mul, Nat.one_mul] at hroom
  rw [rank, rank]
  omega

/-- A step in the pattern lowers the rank, too, if the star gets no more room. -/
theorem rank_lt_of_pattern (hroom : s'.room t ≤ s.room t) (h : s.pattern < s'.pattern)
    (hp : s.pattern < p.length) : s'.rank p t < s.rank p t := by
  have hroom' : s'.room t * (p.length + 1) ≤ s.room t * (p.length + 1) :=
    Nat.mul_le_mul_right _ hroom
  rw [rank, rank]
  omega

/-- Every round that goes on lowers the rank. -/
theorem rank_moves (hs : s.InBounds p t) (h : Moves p t s (.goOn s')) :
    s'.rank p t < s.rank p t := by
  cases h with
  | read hp ht hfits =>
    exact rank_lt_of_pattern (Nat.le_refl _) (Nat.lt_succ_self _)
      (List.getElem?_eq_some_iff.mp hp).1
  | note hp ht hd =>
    refine rank_lt_of_pattern ?_ (Nat.lt_succ_self _) (List.getElem?_eq_some_iff.mp hp).1
    -- a star before it has taken no more than up to here
    have htaken : s.mark.elim 0 Mark.taken ≤ s.text := by
      cases hmark : s.mark with
      | none => exact Nat.zero_le _
      | some m => exact hs.taken m hmark
    exact Nat.sub_le_sub_left htaken _
  | back ht hstuck hmark =>
    have htaken := hs.taken _ hmark
    have htext : s.text < t.length := (List.getElem?_eq_some_iff.mp ht).1
    refine rank_lt_of_room ?_
    simp only [room, hmark, Option.elim_some]
    omega

end Cursor

/-! ## A step of the scan, by its case -/

namespace Scan

variable {scan : Scan} {c q : Char} {pattern text : List Char}

/-- At the end of the text only stars may be left. -/
theorem step_at_end (htext : scan.text = []) :
    scan.step = .answer (scan.pattern.all (· = '*')) := by
  obtain ⟨pattern', text', star, behind⟩ := scan
  obtain rfl : text' = [] := htext
  rfl

/-- A character that fits is passed. -/
theorem step_read (htext : scan.text = c :: text) (hpattern : scan.pattern = q :: pattern)
    (hfits : q = '?' ∨ q = c) :
    ∃ next, scan.step = .goOn next ∧
      next.pattern = pattern ∧ next.text = text ∧ next.star = scan.star := by
  obtain ⟨pattern', text', star, behind⟩ := scan
  obtain rfl : text' = c :: text := htext
  obtain rfl : pattern' = q :: pattern := hpattern
  exact ⟨_, if_pos hfits, rfl, rfl, rfl⟩

/-- A star is noted, and takes nothing at first. -/
theorem step_note (htext : scan.text = c :: text) (hpattern : scan.pattern = '*' :: pattern)
    (hc : c ≠ '*') :
    ∃ next, scan.step = .goOn next ∧
      next.pattern = pattern ∧ next.text = scan.text ∧
        next.star = some ⟨pattern, scan.text⟩ := by
  obtain ⟨pattern', text', star, behind⟩ := scan
  obtain rfl : text' = c :: text := htext
  obtain rfl : pattern' = '*' :: pattern := hpattern
  have hfits : ¬ ('*' = '?' ∨ '*' = c) := by simp [hc.symm]
  exact ⟨_, (if_neg hfits).trans (if_pos rfl), rfl, rfl, rfl⟩

/-- Where nothing fits the scan goes back. -/
theorem step_stuck (htext : scan.text = c :: text)
    (hstuck : ∀ q rest, scan.pattern = q :: rest → ¬ (q = '?' ∨ q = c) ∧ q ≠ '*') :
    scan.step = scan.goBack := by
  obtain ⟨pattern', text', star, behind⟩ := scan
  obtain rfl : text' = c :: text := htext
  cases pattern' with
  | nil => rfl
  | cons q rest =>
    obtain ⟨hfits, hstar⟩ := hstuck q rest rfl
    exact (if_neg hfits).trans (if_neg hstar)

/-- Back at the star, one character more is taken. -/
theorem goBack_eq_goOn (hstar : scan.star = some ⟨pattern, c :: text⟩) :
    ∃ next, scan.goBack = .goOn next ∧
      next.pattern = pattern ∧ next.text = text ∧ next.star = some ⟨pattern, text⟩ := by
  rw [goBack, hstar]
  exact ⟨_, rfl, rfl, rfl, rfl⟩

end Scan

/-! ## The scan that the indices stand for -/

namespace Cursor

/-- The scan has what is left from the indices on. -/
structure Shows (p t : List Char) (s : Cursor) (scan : Scan) : Prop where
  pattern : scan.pattern = p.drop s.pattern
  text : scan.text = t.drop s.text
  star : scan.star = s.mark.map fun m => ⟨p.drop (m.star + 1), t.drop m.taken⟩

/-- What a step of the scan comes to, where a round comes to `r`. -/
def Follows (p t : List Char) (scan : Scan) : Round → Prop
  | .answer matched => scan.step = .answer matched
  | .goOn s' => ∃ next, scan.step = .goOn next ∧ Shows p t s' next

/-- From an index on, the character there comes first. -/
theorem drop_eq_cons {cs : List Char} {i : Nat} (h : cs[i]? = some c) :
    cs.drop i = c :: cs.drop (i + 1) := by
  obtain ⟨hlt, rfl⟩ := List.getElem?_eq_some_iff.mp h
  exact List.drop_eq_getElem_cons hlt

theorem step_of_stuck (hshows : Shows p t s scan) (ht : t[s.text]? = some d)
    (hstuck : Stuck p s d) : scan.step = scan.goBack := by
  refine Scan.step_stuck (hshows.text.trans (drop_eq_cons ht)) fun q rest hpattern => ?_
  have hhead : (p.drop s.pattern).head? = some q := by
    rw [← hshows.pattern, hpattern, List.head?_cons]
  rw [List.head?_drop] at hhead
  exact hstuck q hhead

/-- **The step.**  Whatever a round comes to, the scan comes to it in one step. -/
theorem follows_of_moves (hs : s.InBounds p t) (hshows : Shows p t s scan) (h : Moves p t s r) :
    Follows p t scan r := by
  have htext := hshows.text
  have hpattern := hshows.pattern
  -- the five kinds of round, each with what the scan does on the suffixes
  cases h with
  | read hp ht hfits =>
    obtain ⟨next, hstep, hnext⟩ := Scan.step_read (htext.trans (drop_eq_cons ht))
      (hpattern.trans (drop_eq_cons hp)) hfits
    exact ⟨next, hstep, hnext.1, hnext.2.1, hnext.2.2.trans hshows.star⟩
  | note hp ht hd =>
    obtain ⟨next, hstep, hnext⟩ := Scan.step_note (htext.trans (drop_eq_cons ht))
      (hpattern.trans (drop_eq_cons hp)) hd
    rw [htext] at hnext
    exact ⟨next, hstep, hnext.1, hnext.2.1, hnext.2.2⟩
  | @back d m ht hstuck hmark =>
    have htaken := hs.taken m hmark
    -- the star has taken no more than was read, so that a character is left for it
    have hlt : s.text < t.length := (List.getElem?_eq_some_iff.mp ht).1
    have hnext : t[m.taken]? = some t[m.taken] := List.getElem?_eq_getElem (by omega)
    have hstar := hshows.star
    rw [hmark, Option.map_some, drop_eq_cons hnext] at hstar
    obtain ⟨next, hback, hnext⟩ := Scan.goBack_eq_goOn hstar
    exact ⟨next, (step_of_stuck hshows ht hstuck).trans hback, hnext.1, hnext.2.1, hnext.2.2⟩
  | fail ht hstuck hmark =>
    have hstar := hshows.star
    rw [hmark, Option.map_none] at hstar
    rw [Follows, step_of_stuck hshows ht hstuck, Scan.goBack, hstar]
  | finish ht =>
    rw [Follows, ← hpattern]
    exact Scan.step_at_end (htext.trans (List.drop_eq_nil_of_le ht))

/-! ## The whole loop -/

theorem inBounds_of_after (h : After p t n s) : s.InBounds p t := by
  induction h with
  | start => exact inBounds_start p t
  | next h hround ih => exact ih.moves (moves_of_round ih.pattern hround)

/-- The rounds that were made are paid for by the rank. -/
theorem rank_of_after (h : After p t n s) : n + s.rank p t ≤ start.rank p t := by
  induction h with
  | start => exact Nat.le_of_eq (Nat.zero_add _)
  | next h hround ih =>
    have hs := inBounds_of_after h
    have hlower := rank_moves hs (moves_of_round hs.pattern hround)
    omega

/-- **The run.**  From wherever the loop stands it comes to the answer of the scan that it shows. -/
theorem exists_answer (h : After p t n s) (hshows : Shows p t s scan) :
    ∃ n' s', After p t n' s' ∧ s'.round p t = some (.answer scan.run) := by
  induction hrank : s.rank p t using Nat.strong_induction_on generalizing n s scan with
  | _ k ih =>
    have hs := inBounds_of_after h
    obtain ⟨r, hround, hmoves⟩ := exists_moves hs.pattern t
    have hfollows := follows_of_moves hs hshows hmoves
    cases r with
    | answer matched => exact ⟨n, s, h, by rw [hround, Scan.run_of_answer hfollows]⟩
    | goOn s' =>
      obtain ⟨next, hstep, hnext⟩ := hfollows
      rw [Scan.run_of_goOn hstep]
      exact ih _ (hrank ▸ rank_moves hs hmoves) (h.next hround) hnext rfl

/-- The loop on a pattern and a text ends with the answer, and looks at nothing out of bounds. -/
structure Ends (p t : List Char) (matched : Bool) : Prop where
  /-- Wherever the loop stands, the indices are in bounds and the marked star is behind them. -/
  inBounds : ∀ n s, After p t n s → s.InBounds p t
  /-- Each round comes to something: every look at a character is in bounds, and so is what is left
  of the pattern when the text is at its end. -/
  looks : ∀ n s, After p t n s → s.round p t ≠ none
  /-- Each round lowers the rank, also one that goes back. -/
  lower : ∀ n s s', After p t n s → s.round p t = some (.goOn s') → s'.rank p t < s.rank p t
  /-- So there are not many. -/
  few : ∀ n s, After p t n s → n < (p.length + 1) * (t.length + 1)
  /-- And after the last of them the answer is there. -/
  answers : ∃ n s, After p t n s ∧ s.round p t = some (.answer matched)

/-- For every pattern and every text the loop ends, within the bounds of both, with the answer. -/
theorem scan_ends (pattern text : String) :
    Ends pattern.toList text.toList (isMatch pattern text) := by
  refine ⟨fun n s h => inBounds_of_after h, fun n s h => ?_, fun n s s' h hround => ?_,
    fun n s h => ?_, ?_⟩
  · obtain ⟨r, hround, -⟩ := exists_moves (inBounds_of_after h).pattern text.toList
    rw [hround]
    exact Option.some_ne_none r
  · have hs := inBounds_of_after h
    exact rank_moves hs (moves_of_round hs.pattern hround)
  · have hrank := rank_of_after h
    have hstart := rank_start pattern.toList text.toList
    omega
  · exact exists_answer .start ⟨rfl, rfl, rfl⟩

end Cursor

end Userland.Glob
