/-
  Matching a name against a pattern in which `?` stands for any character and `*` for any number of
  characters.

  The match is a scan that remembers only the last star it met.  Each step reads a character, or
  notes a star, or goes back to the noted star and lets it take one character more.  A character of
  the text that equals the one of the pattern is read first, even when both are stars.

  Going back makes both the pattern and the text longer again; what gets smaller with every step is
  `rank`: first what a noted star may still take, then the text, then the pattern.
-/

namespace Userland.Glob

/-- A star that was met: the pattern after it, and the text that it has not taken. -/
structure Star where
  pattern : List Char
  text : List Char

/-- A scan on its way. -/
structure Scan where
  pattern : List Char
  text : List Char
  star : Option Star
  /-- The text begins no earlier than where the noted star stands. -/
  behind : ∀ s, star = some s → text.length ≤ s.text.length

/-- What a step comes to. -/
inductive Step where
  | answer (matched : Bool)
  | goOn (scan : Scan)

namespace Scan

/-- Before the first step. -/
def start (pattern text : List Char) : Scan := ⟨pattern, text, none, by simp⟩

/-- Lets the noted star take one character more. -/
def goBack (s : Scan) : Step :=
  match s.star with
  | none => .answer false
  | some star =>
    match star.text with
    | [] => .answer false
    | _ :: rest => .goOn ⟨star.pattern, rest, some ⟨star.pattern, rest⟩, by simp⟩

/-- One step of the scan. -/
def step (s : Scan) : Step :=
  match ht : s.text with
  | [] => .answer (s.pattern.all (· = '*'))
  | c :: text =>
    match s.pattern with
    | [] => s.goBack
    | p :: pattern =>
      if p = '?' ∨ p = c then
        .goOn ⟨pattern, text, s.star, fun star h => by
          have := s.behind star h
          rw [ht, List.length_cons] at this
          omega⟩
      else if p = '*' then
        .goOn ⟨pattern, s.text, some ⟨pattern, s.text⟩, by
          intro star h
          cases h
          exact Nat.le_refl _⟩
      else s.goBack

/-- What a noted star may still take; more than the whole text when there is none. -/
def room (s : Scan) : Nat :=
  match s.star with
  | none => s.text.length + 1
  | some star => star.text.length

/-- What gets smaller, in lexicographic order. -/
def rank (s : Scan) : Nat × Nat × Nat := (s.room, s.text.length, s.pattern.length)

/-- One rank is below another. -/
def Below : Nat × Nat × Nat → Nat × Nat × Nat → Prop :=
  Prod.Lex (· < ·) (Prod.Lex (· < ·) (· < ·))

theorem below_of_room {a d : Nat} {b e : Nat × Nat} (h : a < d) : Below (a, b) (d, e) :=
  .left _ _ h

theorem below_of_text {a b c d e f : Nat} (ha : a ≤ d) (hb : b < e) :
    Below (a, b, c) (d, e, f) := by
  rcases Nat.lt_or_eq_of_le ha with h | h
  · exact .left _ _ h
  · subst h
    exact .right _ (.left _ _ hb)

theorem below_of_pattern {a b c d f : Nat} (ha : a ≤ d) (hc : c < f) :
    Below (a, b, c) (d, b, f) := by
  rcases Nat.lt_or_eq_of_le ha with h | h
  · exact .left _ _ h
  · subst h
    exact .right _ (.right _ hc)

theorem goBack_below {s t : Scan} (h : s.goBack = .goOn t) : Below t.rank s.rank := by
  unfold goBack at h
  split at h
  · cases h
  · next star hs =>
    split at h
    · cases h
    · next c rest hr =>
      cases h
      refine below_of_room ?_
      simp [room, hs, hr]

/-- Every step that goes on makes the rank smaller. -/
theorem step_below {s t : Scan} (h : s.step = .goOn t) : Below t.rank s.rank := by
  unfold step at h
  split at h
  · cases h
  · next c text ht =>
    split at h
    · exact goBack_below h
    · next p pattern hp =>
      split at h
      · cases h
        refine below_of_text ?_ (by simp [ht])
        simp only [room, ht]
        split <;> simp
      · split at h
        · cases h
          have hroom : s.text.length ≤ s.room := by
            unfold room
            split
            · omega
            · next star hs => exact s.behind star hs
          simp only [rank, hp]
          exact below_of_pattern (by simpa [room] using hroom) (by simp)
        · exact goBack_below h

/-- Follows the scan to its answer. -/
def run (s : Scan) : Bool :=
  match h : s.step with
  | .answer matched => matched
  | .goOn t =>
    have := step_below h
    t.run
  termination_by s.rank
  decreasing_by exact this

end Scan

/-- Does the pattern match the text? -/
def isMatch (pattern text : String) : Bool :=
  (Scan.start pattern.toList text.toList).run

end Userland.Glob
