/-
  Which dollar signs a line keeps.

  Expansion and the splitting into words both read a line from left to right and both keep track of
  quotes, each in its own way.  To expansion a place is the quotes around it and whether a backslash
  stands right before it (`Spot`); to the splitting it is a reading, with a mood.

  1. *Expansion alone.*  A line is the same under all variables exactly when each dollar sign that
     begins a variable has single quotes around it as expansion sees them
     (`expand_eq_self_iff_quiet`).  To the right: where no value has a dollar sign in it, expansion
     never makes one, and each variable takes one away (`quiet_of_count_le`).

  2. *The two side by side.*  They differ on a backslash that is itself protected by one before it:
     to the splitting it protects nothing, to expansion it protects a quote after it.  Such a quote
     is misread (`Misread`), and as long as none is, both see the same quotes
     (`sameQuotes_of_noneMisread`).  The crux is the invariant `Agree`, by induction on the
     characters that have been read: a backslash that protects for the splitting does so for
     expansion, and one that protects for expansion is the last character read.

  So a line whose dollar signs all are in single quotes for the splitting is kept by expansion
  unless a quote was misread before one of them.
-/
import Mathlib.Data.List.Basic
import Mathlib.Data.List.Induction
import Userland.Line.Variables
import Userland.Line.Words

namespace Userland.Line

/-! ## Dollar signs and what is around them -/

/-- Each dollar sign has the property, with the characters before it and the characters after it. -/
def EachDollar (p : List Char → List Char → Prop) (cs : List Char) : Prop :=
  ∀ before after, cs = before ++ '$' :: after → p before after

@[simp] theorem eachDollar_nil (p : List Char → List Char → Prop) : EachDollar p [] := by
  intro before after h
  have hlength := congrArg List.length h
  simp at hlength

/-- The first character is asked about with nothing before it, the others with it before them. -/
@[simp] theorem eachDollar_cons {p : List Char → List Char → Prop} {c : Char} {cs : List Char} :
    EachDollar p (c :: cs) ↔
      (c = '$' → p [] cs) ∧ EachDollar (fun before after => p (c :: before) after) cs := by
  constructor
  · intro h
    refine ⟨?_, fun before after hcs => h (c :: before) after (by rw [hcs, List.cons_append])⟩
    rintro rfl
    exact h [] cs rfl
  · rintro ⟨hhead, htail⟩ before after hcs
    cases before with
    | nil =>
      obtain ⟨rfl, rfl⟩ := List.cons.inj hcs
      exact hhead rfl
    | cons b before =>
      obtain ⟨rfl, hrest⟩ := List.cons.inj hcs
      exact htail before after hrest

instance decidableEachDollar : (p : List Char → List Char → Prop) →
    [∀ before after, Decidable (p before after)] → (cs : List Char) → Decidable (EachDollar p cs)
  | p, _, [] => isTrue (eachDollar_nil p)
  | p, _, c :: cs =>
    have := decidableEachDollar (fun before after => p (c :: before) after) cs
    decidable_of_iff _ eachDollar_cons.symm

/-- Only what is asked at the dollar signs counts. -/
theorem eachDollar_congr {p p' : List Char → List Char → Prop} {cs : List Char}
    (h : EachDollar (fun before after => p before after ↔ p' before after) cs) :
    EachDollar p cs ↔ EachDollar p' cs := by
  constructor
  · intro hp before after hcs
    exact (h before after hcs).mp (hp before after hcs)
  · intro hp before after hcs
    exact (h before after hcs).mpr (hp before after hcs)

/-! ## What expansion sees -/

def isQuote (c : Char) : Bool := c = '\'' || c = '"'

/-- A place on a line as expansion sees it. -/
structure Spot where
  quotes : Quotes
  /-- A quote here opens and closes nothing, since a backslash stands right before it. -/
  shielded : Bool
  deriving DecidableEq, Repr

namespace Spot

/-- The beginning of a line. -/
def start : Spot := ⟨.none, false⟩

/-- The place after one more character. -/
def next (s : Spot) (c : Char) : Spot :=
  if s.shielded && isQuote c then ⟨s.quotes, false⟩
  else ⟨s.quotes.after c, c = '\\' && s.quotes ≠ .single⟩

/-- The place after some characters. -/
def ofChars (cs : List Char) : Spot := cs.foldl next start

end Spot

/-- From the place on, each dollar sign that begins a variable is in single quotes. -/
def Quiet (s : Spot) (cs : List Char) : Prop :=
  EachDollar (fun before after =>
    (afterDollar? after).isSome = true → (before.foldl Spot.next s).quotes = .single) cs

theorem quiet_nil (s : Spot) : Quiet s [] := eachDollar_nil _

/-- The first character, and the rest from the spot that it leads to. -/
theorem quiet_cons {s : Spot} {c : Char} {cs : List Char} :
    Quiet s (c :: cs) ↔
      (c = '$' → (afterDollar? cs).isSome = true → s.quotes = .single) ∧ Quiet (s.next c) cs :=
  eachDollar_cons

variable {q : Quotes} {c : Char} {cs : List Char} {shielded : Bool}

/-- A character that no backslash shields counts as it is. -/
theorem next_of_not_shields (h : shielded = true → isQuote c = false) :
    Spot.next ⟨q, shielded⟩ c = ⟨q.after c, c = '\\' && q ≠ .single⟩ := by
  rw [Spot.next, if_neg]
  intro hboth
  obtain ⟨hshielded, hquote⟩ := Bool.and_eq_true_iff.mp hboth
  rw [h hshielded] at hquote
  cases hquote

theorem next_quote (hquote : isQuote c = true) : Spot.next ⟨q, true⟩ c = ⟨q, false⟩ := by
  rw [Spot.next, if_pos (by rw [hquote]; rfl)]

/-- Only quotes open and close. -/
theorem after_of_not_quote (h : isQuote c = false) (q : Quotes) : q.after c = q := by
  have hsingle : c ≠ '\'' := by
    rintro rfl
    cases h
  have hdouble : c ≠ '"' := by
    rintro rfl
    cases h
  cases q <;> simp [Quotes.after, hsingle, hdouble]

/-- A backslash shields what follows, except in single quotes. -/
theorem quiet_backslash :
    Quiet ⟨q, shielded⟩ ('\\' :: cs) ↔ Quiet ⟨q, decide (q ≠ .single)⟩ cs := by
  have hnext : Spot.next ⟨q, shielded⟩ '\\' = ⟨q, decide (q ≠ .single)⟩ := by
    rw [next_of_not_shields fun _ => rfl, after_of_not_quote rfl]
    rfl
  rw [quiet_cons, hnext]
  simp

theorem isQuote_iff : isQuote c = true ↔ c = '\'' ∨ c = '"' := by
  simp [isQuote]

/-! ## Lines that expansion keeps -/

/-- In braces there is a name, and the text goes on behind them. -/
theorem braced?_cases {p : Piece} {after : List Char} (h : braced? cs = some (p, after)) :
    (∃ name, p = .variable name) ∧ after.Sublist cs := by
  unfold braced? at h
  split at h
  · next inner =>
    split at h
    · cases h
    · next d rest hdrop =>
      cases h
      have hinner : (d :: after).Sublist inner := hdrop ▸ List.dropWhile_sublist _
      have hafter : after.Sublist inner := (List.sublist_cons_self d after).trans hinner
      exact ⟨⟨_, rfl⟩, hafter.trans (List.sublist_cons_self _ inner)⟩
  · cases h

/-- A bare name is read as far as it goes. -/
theorem bare?_cases {p : Piece} {after : List Char} (h : bare? cs = some (p, after)) :
    (∃ name, p = .variable name) ∧ after.Sublist cs := by
  unfold bare? at h
  split at h
  · cases h
  · cases h
    exact ⟨⟨_, rfl⟩, List.dropWhile_sublist _⟩

/-- What begins with a dollar sign is the status or a variable, and a part of the line. -/
theorem afterDollar?_cases {p : Piece} {after : List Char} (h : afterDollar? cs = some (p, after)) :
    (p = .status ∨ ∃ name, p = .variable name) ∧ after.Sublist cs := by
  unfold afterDollar? at h
  split at h
  · cases h
    exact ⟨.inl rfl, List.sublist_cons_self _ _⟩
  · rcases Option.or_eq_some_iff.mp h with hbraced | ⟨-, hbare⟩
    · exact (braced?_cases hbraced).imp_left .inr
    · exact (bare?_cases hbare).imp_left .inr

/-- A dollar sign with a variable behind it is one piece with the variable. -/
theorem pieces_of_variable {p : Piece} {after : List Char} (hq : q ≠ .single)
    (h : afterDollar? cs = some (p, after)) : pieces q ('$' :: cs) = p :: pieces q after := by
  rw [pieces.eq_3 q '$' cs (by simp), if_pos ⟨rfl, hq⟩]
  split
  · next p' after' h' =>
    rw [h] at h'
    cases h'
    rfl
  · next h' =>
    rw [h] at h'
    cases h'

theorem pieces_of_no_variable (hq : q ≠ .single) (h : afterDollar? cs = none) :
    pieces q ('$' :: cs) = .character '$' :: pieces q cs := by
  rw [pieces.eq_3 q '$' cs (by simp), if_pos ⟨rfl, hq⟩]
  split
  · next p' after' h' =>
    rw [h] at h'
    cases h'
  · rfl

/-- No quote comes next that is shielded.  Expansion reads a quote together with the backslash that
shields it, so it never stands between the two. -/
def Unshielded (shielded : Bool) (cs : List Char) : Prop :=
  ∀ c ∈ cs.head?, shielded = true → isQuote c = false

/-- Where no backslash is, nothing is shielded. -/
theorem unshielded_false (cs : List Char) : Unshielded false cs := by
  intro c _ hfalse
  cases hfalse

/-- A backslash shields nothing but a quote, and nothing in single quotes. -/
theorem unshielded_of_no_pair (h : ¬ (q ≠ .single ∧ (c = '\'' ∨ c = '"'))) :
    Unshielded (decide (q ≠ .single)) (c :: cs) := by
  intro d hd hq
  obtain rfl : c = d := Option.some.inj hd
  rw [← Bool.not_eq_true]
  intro hquote
  exact h ⟨of_decide_eq_true hq, isQuote_iff.mp hquote⟩

/-- A backslash with something after it is read by a rule of its own. -/
theorem unshielded_of_last (h : ∀ d rest, c = '\\' → cs = d :: rest → False) :
    Unshielded (decide (c = '\\') && decide (q ≠ .single)) cs := by
  intro d hd hshields
  obtain ⟨hc, -⟩ := Bool.and_eq_true_iff.mp hshields
  obtain ⟨rest, hrest⟩ := List.head?_eq_some_iff.mp hd
  exact (h d rest (of_decide_eq_true hc) hrest).elim

/-- Where all is quiet, every character stands for itself. -/
theorem pieces_of_quiet (hhead : Unshielded shielded cs)
    (h : Quiet ⟨q, shielded⟩ cs) : pieces q cs = cs.map Piece.character := by
  -- along the reading of expansion, from a place that shields no quote that comes next
  induction q, cs using pieces.induct generalizing shielded with
  | case1 q => rw [pieces, List.map_nil]
  | case2 q c rest hpair ih =>
    rw [quiet_backslash, decide_eq_true hpair.1, quiet_cons] at h
    rw [next_quote (isQuote_iff.mpr hpair.2)] at h
    rw [pieces, if_pos hpair, ih (unshielded_false _) h.2]
    rfl
  | case3 q c rest hplain ih =>
    rw [quiet_backslash] at h
    rw [pieces, if_neg hplain, ih (unshielded_of_no_pair hplain) h]
    rfl
  | case4 q c rest hlast hdollar p after hsome hlength ih =>
    obtain ⟨hquoted, -⟩ := quiet_cons.mp h
    exact absurd (hquoted hdollar.1 (by rw [hsome]; rfl)) hdollar.2
  | case5 q c rest hlast hdollar hnone ih =>
    obtain ⟨rfl, hq⟩ := hdollar
    obtain ⟨-, hrest⟩ := quiet_cons.mp h
    rw [next_of_not_shields fun _ => rfl, after_of_not_quote rfl] at hrest
    rw [pieces_of_no_variable hq hnone, ih (unshielded_false _) hrest]
    rfl
  | case6 q c rest hlast hdollar ih =>
    obtain ⟨-, hrest⟩ := quiet_cons.mp h
    rw [next_of_not_shields (hhead c rfl)] at hrest
    rw [pieces.eq_3 q c rest hlast, if_neg hdollar, ih (unshielded_of_last hlast) hrest]
    rfl

/-- Characters that stand for themselves are written out as they are. -/
theorem text_characters (environment : Entries String) (cs : List Char) :
    (cs.map Piece.character).flatMap (Piece.text environment) = cs := by
  induction cs with
  | nil => rfl
  | cons c cs ih => rw [List.map_cons, List.flatMap_cons, ih, Piece.text, List.singleton_append]

/-- No variable has a dollar sign in its value. -/
def DollarFree (environment : Entries String) : Prop :=
  ∀ name value, Entries.get? environment name = some value → '$' ∉ value.toList

theorem dollarFree_nil : DollarFree [] := by
  intro name value h
  cases h

/-- What comes in for a variable has no dollar signs, if the values have none. -/
theorem count_text_variable {environment : Entries String} (hfree : DollarFree environment)
    {p : Piece} {after : List Char} (h : afterDollar? cs = some (p, after)) :
    (p.text environment).count '$' = 0 := by
  rw [List.count_eq_zero]
  rcases (afterDollar?_cases h).1 with rfl | ⟨name, rfl⟩
  · simp [Piece.text]
  · rw [Piece.text]
    cases hvalue : Entries.get? environment name with
    | none => simp
    | some value => exact hfree name value hvalue

variable {environment : Entries String}

/-- Without dollar signs in values, expansion makes no dollar signs. -/
theorem count_expanded_le (hfree : DollarFree environment) (q : Quotes) (cs : List Char) :
    ((pieces q cs).flatMap (Piece.text environment)).count '$' ≤ cs.count '$' := by
  induction q, cs using pieces.induct with
  | case1 q => simp [pieces]
  | case2 q c rest hpair ih =>
    rw [pieces, if_pos hpair]
    simpa [Piece.text, List.count_cons] using ih
  | case3 q c rest hplain ih =>
    rw [pieces, if_neg hplain]
    simpa [Piece.text] using ih
  | case4 q c rest hlast hdollar p after hsome hlength ih =>
    -- the dollar sign goes with its variable, and the value brings none
    have hgone := count_text_variable hfree hsome
    have hafter := (afterDollar?_cases hsome).2.count_le '$'
    rw [hdollar.1, pieces_of_variable hdollar.2 hsome, List.flatMap_cons, List.count_append, hgone,
      List.count_cons_self]
    omega
  | case5 q c rest hlast hdollar hnone ih =>
    rw [hdollar.1, pieces_of_no_variable hdollar.2 hnone]
    simpa [Piece.text] using ih
  | case6 q c rest hlast hdollar ih =>
    rw [pieces.eq_3 q c rest hlast, if_neg hdollar]
    simpa [Piece.text, List.count_cons] using ih

/-- Where expansion loses no dollar sign, all is quiet. -/
theorem quiet_of_count_le (hfree : DollarFree environment) (hhead : Unshielded shielded cs)
    (h : cs.count '$' ≤ ((pieces q cs).flatMap (Piece.text environment)).count '$') :
    Quiet ⟨q, shielded⟩ cs := by
  induction q, cs using pieces.induct generalizing shielded with
  | case1 q => exact quiet_nil _
  | case2 q c rest hpair ih =>
    rw [pieces, if_pos hpair] at h
    have hrest : rest.count '$' ≤ ((pieces q rest).flatMap (Piece.text environment)).count '$' := by
      simpa [Piece.text, List.count_cons] using h
    rw [quiet_backslash, decide_eq_true hpair.1, quiet_cons, next_quote (isQuote_iff.mpr hpair.2)]
    refine ⟨?_, ih (unshielded_false _) hrest⟩
    rintro rfl
    simp at hpair
  | case3 q c rest hplain ih =>
    rw [pieces, if_neg hplain] at h
    have hrest : (c :: rest).count '$' ≤
        ((pieces q (c :: rest)).flatMap (Piece.text environment)).count '$' := by
      simpa [Piece.text] using h
    rw [quiet_backslash]
    exact ih (unshielded_of_no_pair hplain) hrest
  | case4 q c rest hlast hdollar p after hsome hlength ih =>
    -- the variable takes its dollar sign along, and what is after it gains none
    have hgone := count_text_variable hfree hsome
    have hwithin := (afterDollar?_cases hsome).2.count_le '$'
    have hafter := count_expanded_le hfree q after
    rw [hdollar.1, pieces_of_variable hdollar.2 hsome, List.flatMap_cons, List.count_append, hgone,
      List.count_cons_self] at h
    omega
  | case5 q c rest hlast hdollar hnone ih =>
    obtain ⟨rfl, hq⟩ := hdollar
    rw [pieces_of_no_variable hq hnone] at h
    have hrest : rest.count '$' ≤ ((pieces q rest).flatMap (Piece.text environment)).count '$' := by
      simpa [Piece.text] using h
    rw [quiet_cons, next_of_not_shields fun _ => rfl, after_of_not_quote rfl]
    refine ⟨fun _ hsome => ?_, ih (unshielded_false _) hrest⟩
    rw [hnone] at hsome
    cases hsome
  | case6 q c rest hlast hdollar ih =>
    rw [pieces.eq_3 q c rest hlast, if_neg hdollar] at h
    have hrest : rest.count '$' ≤
        ((pieces (q.after c) rest).flatMap (Piece.text environment)).count '$' := by
      simpa [Piece.text, List.count_cons] using h
    rw [quiet_cons, next_of_not_shields (hhead c rfl)]
    refine ⟨fun hc _ => ?_, ih (unshielded_of_last hlast) hrest⟩
    by_contra hq
    exact hdollar ⟨hc, hq⟩

/-- A line is the same under all variables exactly when each dollar sign that begins a variable is
in single quotes as expansion sees them. -/
theorem expand_eq_self_iff_quiet (line : String) :
    (∀ environment, expand environment line = line) ↔ Quiet .start line.toList := by
  constructor
  · intro h
    have hkept := congrArg String.toList (h [])
    rw [expand, String.toList_ofList] at hkept
    exact quiet_of_count_le dollarFree_nil (unshielded_false _) (Nat.le_of_eq (by rw [hkept]))
  · intro h environment
    rw [expand, pieces_of_quiet (unshielded_false _) h, text_characters,
      String.ofList_toList]

/-! ## What the splitting into words sees -/

/-- The quotes that a mood is in. -/
def Mood.quotes : Mood → Quotes
  | .bare | .escape => .none
  | .single => .single
  | .double | .doubleEscape => .double

/-- The mood after one more character; the words make no difference to it. -/
def Mood.next (m : Mood) (c : Char) : Mood :=
  match m with
  | .bare =>
    if c = '\'' then .single
    else if c = '"' then .double
    else if c = '\\' then .escape
    else .bare
  | .escape => .bare
  | .single => if c = '\'' then .bare else .single
  | .double => if c = '"' then .bare else if c = '\\' then .doubleEscape else .double
  | .doubleEscape => .double

theorem mood_next (r : Reading) (c : Char) : (r.next c).mood = r.mood.next c := by
  obtain ⟨words, word, mood⟩ := r
  -- in each mood the program tells characters apart in its own order
  cases mood with
  | bare =>
    simp only [Reading.next, Mood.next, Reading.openQuote, Reading.endWord, Reading.push]
    split_ifs <;> rfl
  | escape => rfl
  | single =>
    simp only [Reading.next, Mood.next, Reading.push]
    split_ifs <;> rfl
  | double =>
    simp only [Reading.next, Mood.next, Reading.inDouble, Reading.push]
    split_ifs <;> rfl
  | doubleEscape =>
    simp only [Reading.next, Mood.next, Reading.inDouble, Reading.push]
    split_ifs with hescaped hquote hbackslash
    · rfl
    · exact absurd (.inl hquote) hescaped
    · exact absurd (.inr (.inl hbackslash)) hescaped
    · rfl

/-- In this mood the character opens quotes, or closes double ones. -/
def Mood.turns (m : Mood) (c : Char) : Bool :=
  match m with
  | .bare => isQuote c
  | .double => c = '"'
  | .escape | .single | .doubleEscape => false

/-! ## The two side by side -/

/-- A quote turns the mood though a backslash stands right before it.  That backslash is one that
another backslash protects, and expansion takes it for a protection of the quote. -/
def Misread (before : List Char) (c : Char) : Prop :=
  before.getLast? = some '\\' ∧ (Reading.ofChars before).mood.turns c = true

instance (before : List Char) (c : Char) : Decidable (Misread before c) :=
  inferInstanceAs (Decidable (_ ∧ _))

/-- No character was misread. -/
def NoneMisread (cs : List Char) : Prop :=
  ∀ before c after, cs = before ++ c :: after → ¬ Misread before c

/-- No character was misread at any index, which can be found out. -/
theorem noneMisread_iff_take {cs : List Char} :
    NoneMisread cs ↔ ∀ i, (h : i < cs.length) → ¬ Misread (cs.take i) cs[i] := by
  constructor
  · intro h i hi
    have hcs : cs = cs.take i ++ cs[i] :: cs.drop (i + 1) := by
      rw [← List.drop_eq_getElem_cons hi, List.take_append_drop]
    exact h (cs.take i) cs[i] (cs.drop (i + 1)) hcs
  · rintro h before c after rfl
    have hi := h before.length (by simp)
    simpa using hi

instance (cs : List Char) : Decidable (NoneMisread cs) :=
  decidable_of_iff _ noneMisread_iff_take.symm

/-- Both see the same quotes, and differ at most on a backslash. -/
structure Agree (s : Spot) (m : Mood) : Prop where
  quotes : s.quotes = m.quotes
  /-- What protects a character for the splitting shields a quote for expansion. -/
  shielded : m = .escape ∨ m = .doubleEscape → s.shielded = true
  /-- In single quotes a backslash is nothing special. -/
  notSingle : s.shielded = true → s.quotes ≠ .single

/-- Only a backslash shields, and not in single quotes. -/
theorem shielded_next {s : Spot} (h : (s.next c).shielded = true) :
    c = '\\' ∧ (s.next c).quotes ≠ .single := by
  unfold Spot.next at h ⊢
  split at h
  · cases h
  · next hplain =>
    obtain ⟨hc, hq⟩ := Bool.and_eq_true_iff.mp h
    have hbackslash := of_decide_eq_true hc
    rw [if_neg hplain, hbackslash, after_of_not_quote rfl]
    exact ⟨rfl, of_decide_eq_true hq⟩

/-- The two scanners can only part at a quote. -/
theorem Agree.next_of_not_quote {m : Mood} (h : Agree ⟨m.quotes, shielded⟩ m)
    (hquote : isQuote c = false) : Agree (Spot.next ⟨m.quotes, shielded⟩ c) (m.next c) := by
  rw [next_of_not_shields fun _ => hquote, after_of_not_quote hquote]
  by_cases hc : c = '\\'
  · obtain rfl := hc
    cases m <;> exact ⟨by decide, by decide, by decide⟩
  · have hsingle : c ≠ '\'' := by
      rintro rfl
      cases hquote
    have hdouble : c ≠ '"' := by
      rintro rfl
      cases hquote
    have hmood : (m.next c).quotes = m.quotes ∧
        ¬ (m.next c = .escape ∨ m.next c = .doubleEscape) := by
      cases m <;> simp [Mood.next, Mood.quotes, hc, hsingle, hdouble]
    rw [decide_eq_false hc, Bool.false_and]
    exact ⟨hmood.1.symm, fun hescape => absurd hescape hmood.2, fun hfalse => by cases hfalse⟩

/-- A quote that no backslash shields turns both. -/
theorem Agree.next_of_turning {m : Mood} (h : Agree ⟨m.quotes, false⟩ m)
    (hquote : isQuote c = true) : Agree (Spot.next ⟨m.quotes, false⟩ c) (m.next c) := by
  have hbare : m ≠ .escape ∧ m ≠ .doubleEscape := by
    refine ⟨fun hm => ?_, fun hm => ?_⟩
    · cases h.shielded (.inl hm)
    · cases h.shielded (.inr hm)
  rcases isQuote_iff.mp hquote with rfl | rfl
  all_goals
    cases m with
    | escape => exact absurd rfl hbare.1
    | doubleEscape => exact absurd rfl hbare.2
    | _ => exact ⟨by decide, by decide, by decide⟩

/-- A quote that a backslash shields, and that is not misread, turns neither. -/
theorem Agree.next_of_shielded {m : Mood} (h : Agree ⟨m.quotes, true⟩ m)
    (hread : m.turns c = false) (hquote : isQuote c = true) :
    Agree (Spot.next ⟨m.quotes, true⟩ c) (m.next c) := by
  rw [next_quote hquote]
  cases m with
  | bare =>
    rw [Mood.turns, hquote] at hread
    cases hread
  | escape => exact ⟨rfl, by simp [Mood.next], by decide⟩
  | single => exact absurd rfl (h.notSingle rfl)
  | double =>
    rcases isQuote_iff.mp hquote with rfl | rfl
    · exact ⟨rfl, by decide, by decide⟩
    · cases hread
  | doubleEscape => exact ⟨rfl, by simp [Mood.next], by decide⟩

/-- **The step.**  A character that is not misread leaves the two agreed. -/
theorem Agree.next {s : Spot} {m : Mood} (h : Agree s m)
    (hread : s.shielded = true → m.turns c = false) : Agree (s.next c) (m.next c) := by
  obtain ⟨q, shielded⟩ := s
  obtain rfl : q = m.quotes := h.quotes
  cases hquote : isQuote c with
  | false => exact h.next_of_not_quote hquote
  | true =>
    cases shielded with
    | false => exact h.next_of_turning hquote
    | true => exact h.next_of_shielded (hread rfl) hquote

/-- The beginning of a line that is read right is read right. -/
theorem NoneMisread.of_append {cs more : List Char} (h : NoneMisread (cs ++ more)) :
    NoneMisread cs := by
  intro before c after hcs
  exact h before c (after ++ more) (by rw [hcs, List.append_assoc, List.cons_append])

/-- A backslash that shields is the last character that was read. -/
theorem getLast?_of_shielded (h : (Spot.ofChars cs).shielded = true) :
    cs.getLast? = some '\\' := by
  rcases List.eq_nil_or_concat' cs with rfl | ⟨before, c, rfl⟩
  · cases h
  · rw [Spot.ofChars, List.foldl_append] at h
    rw [List.getLast?_concat, (shielded_next h).1]

/-- **The run.**  As long as nothing was misread, the two agree. -/
theorem agree_of_noneMisread (h : NoneMisread cs) :
    Agree (Spot.ofChars cs) (Reading.ofChars cs).mood := by
  induction cs using List.reverseRecOn with
  | nil => exact ⟨rfl, by decide, by decide⟩
  | append_singleton cs c ih =>
    have hagree := ih h.of_append
    have hread : (Spot.ofChars cs).shielded = true → (Reading.ofChars cs).mood.turns c = false := by
      intro hshielded
      rw [← Bool.not_eq_true]
      intro hturns
      exact h cs c [] rfl ⟨getLast?_of_shielded hshielded, hturns⟩
    have hnext := hagree.next hread
    rw [← mood_next] at hnext
    rw [Spot.ofChars, Reading.ofChars, List.foldl_append, List.foldl_append]
    exact hnext

theorem sameQuotes_of_noneMisread (h : NoneMisread cs) :
    (Spot.ofChars cs).quotes = (Reading.ofChars cs).mood.quotes :=
  (agree_of_noneMisread h).quotes

/-! ## Dollar signs in single quotes -/

/-- Each dollar sign of the line is in single quotes for the splitting into words. -/
def DollarsQuoted (line : String) : Prop :=
  EachDollar (fun before _ => (Reading.ofChars before).mood = .single) line.toList

/-- A line whose dollar signs are all in single quotes is the same under all variables exactly when
expansion sees these quotes before each dollar sign that begins a variable.  This is so if nothing
before a dollar sign is misread. -/
theorem expand_eq_self_of_dollarsQuoted {line : String} (h : DollarsQuoted line) :
    ((∀ environment, expand environment line = line) ↔
        EachDollar (fun before after => (afterDollar? after).isSome = true →
          (Spot.ofChars before).quotes = (Reading.ofChars before).mood.quotes) line.toList) ∧
      (EachDollar (fun before _ => NoneMisread before) line.toList →
        ∀ environment, expand environment line = line) := by
  have hiff : (∀ environment, expand environment line = line) ↔
      EachDollar (fun before after => (afterDollar? after).isSome = true →
        (Spot.ofChars before).quotes = (Reading.ofChars before).mood.quotes) line.toList := by
    rw [expand_eq_self_iff_quiet]
    refine eachDollar_congr fun before after hcs => ?_
    have hsingle : (Reading.ofChars before).mood = .single := h before after hcs
    show (_ → (Spot.ofChars before).quotes = .single) ↔
      (_ → (Spot.ofChars before).quotes = (Reading.ofChars before).mood.quotes)
    rw [hsingle]
    exact Iff.rfl
  refine ⟨hiff, fun hread => hiff.mpr ?_⟩
  intro before after hcs _
  exact sameQuotes_of_noneMisread (hread before after hcs)

instance (line : String) : Decidable (DollarsQuoted line) :=
  decidableEachDollar (fun before _ => (Reading.ofChars before).mood = .single) line.toList

theorem sample_dollarsQuoted :
    let line := "don\\'t \"it's\" '$HOME \\' \\\"'$?'"
    DollarsQuoted line ∧
      EachDollar (fun before _ => NoneMisread before) line.toList ∧
        ∀ environment, expand environment line = line :=
  have hquoted : DollarsQuoted "don\\'t \"it's\" '$HOME \\' \\\"'$?'" := by decide +kernel
  have hread : EachDollar (fun before _ => NoneMisread before)
      "don\\'t \"it's\" '$HOME \\' \\\"'$?'".toList := by decide +kernel
  ⟨hquoted, hread, (expand_eq_self_of_dollarsQuoted hquoted).2 hread⟩

/-- The quote after two backslashes opens quotes, and the variable in them is expanded. -/
theorem expand_misread_quote :
    let line := "\\\\'$HOME'"
    DollarsQuoted line ∧
      expand [("HOME", "/home/ann")] line = "\\\\'/home/ann'" ∧
      expand [("HOME", "/home/ann")] line ≠ line := by
  decide +kernel

end Userland.Line
