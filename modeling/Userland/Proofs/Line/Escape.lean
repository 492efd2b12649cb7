/-
  A backslash does not keep a dollar sign from expansion.

  To the splitting into words a backslash before a dollar sign makes it stand for itself, outside
  quotes and in double quotes.  Expansion, which comes first, knows only of backslashes before
  quotes: it writes the variable out behind the backslash, which then belongs to whatever the value
  begins with.

  1. *Specification.*  Where each dollar sign has such a backslash (`DollarsEscaped`), a line keeps
     its words exactly when no dollar sign begins a variable outside what expansion takes for single
     quotes.  That is told for each way to set the variables in which no value has a dollar sign in
     it.  And unless a quote was misread, expansion sees no single quotes around such a dollar sign,
     so that it must not begin a variable at all.

  2. *The crux.*  Dollar signs are counted.  Splitting neither drops nor makes one, in whatever mood
     it is (`count_letters`), and expansion drops one with every variable (`quiet_of_count_le`).  So
     if a variable is written out, one is missing in the words, wherever they are cut.
-/
import Userland.Proofs.Line.Split

namespace Userland.Line

/-! ## Splitting drops no dollar sign -/

/-- A dollar sign is added as it is read, whatever the mood. -/
theorem count_adds (m : Mood) (c : Char) : (m.adds c).count '$' = [c].count '$' := by
  by_cases hc : c = '$'
  · obtain rfl := hc
    cases m <;> rfl
  · have hnone : [c].count '$' = 0 := by simp [hc]
    rw [hnone, List.count_eq_zero]
    cases m with
    | escape => simp [Mood.adds, Ne.symm hc]
    | _ =>
      simp only [Mood.adds]
      split_ifs <;> simp [Ne.symm hc]

/-- The words have the dollar signs of the line. -/
theorem count_letters (cs : List Char) :
    (Reading.ofChars cs).letters.count '$' = cs.count '$' := by
  induction cs using List.reverseRecOn with
  | nil => rfl
  | append_singleton cs c ih =>
    rw [Reading.ofChars, List.foldl_append, List.foldl_cons, List.foldl_nil, letters_next,
      List.count_append, List.count_append, count_adds]
    exact congrArg (· + [c].count '$') ih

/-- The words have as many dollar signs as the line. -/
theorem count_words {line : String} {result : List String} (h : words line = .ok result) :
    (result.flatMap String.toList).count '$' = line.toList.count '$' := by
  rw [words] at h
  split at h
  · cases h
  · cases h
    exact count_letters line.toList

/-! ## Lines that keep their words -/

variable {line : String} {environment : Entries String}

/-- A line that keeps its words keeps its dollar signs. -/
theorem quiet_of_words_eq (hfree : DollarFree environment) {result : List String}
    (h : words line = .ok result) (hkept : words (expand environment line) = .ok result) :
    Quiet .start line.toList := by
  have hcount : line.toList.count '$' = (expand environment line).toList.count '$' :=
    (count_words h).symm.trans (count_words hkept)
  rw [expand, String.toList_ofList] at hcount
  exact quiet_of_count_le hfree (unshielded_false _) (Nat.le_of_eq hcount)

/-- Each dollar sign of the line has a backslash before it that makes it stand for itself. -/
def DollarsEscaped (line : String) : Prop :=
  EachDollar (fun before _ => (Reading.ofChars before).mood = .escape ∨
    (Reading.ofChars before).mood = .doubleEscape) line.toList

instance (line : String) : Decidable (DollarsEscaped line) :=
  decidableEachDollar (fun before _ => (Reading.ofChars before).mood = .escape ∨
    (Reading.ofChars before).mood = .doubleEscape) line.toList

/-- Expansion sees no single quotes around an escaped dollar sign if it has misread no quote. -/
theorem quiet_iff_of_dollarsEscaped (h : DollarsEscaped line)
    (hread : EachDollar (fun before _ => NoneMisread before) line.toList) :
    Quiet .start line.toList ↔
      EachDollar (fun _ after => afterDollar? after = none) line.toList := by
  refine eachDollar_congr fun before after hcs => ?_
  have hsame : (Spot.ofChars before).quotes = (Reading.ofChars before).mood.quotes :=
    sameQuotes_of_noneMisread (hread before after hcs)
  have houtside : (Spot.ofChars before).quotes ≠ .single := by
    rw [hsame]
    rcases h before after hcs with hmood | hmood
    all_goals
      rw [hmood]
      decide
  show ((afterDollar? after).isSome = true → (Spot.ofChars before).quotes = .single) ↔ _
  rw [← Option.not_isSome_iff_eq_none]
  exact ⟨fun hsingle hsome => houtside (hsingle hsome), fun hnone hsome => absurd hsome hnone⟩

/-- A line whose dollar signs are all escaped keeps its words when no dollar sign begins a variable
that expansion sees outside single quotes.  When one does, it loses its words, if it has any, under
all variables without dollar signs in their values.  Unless a quote is misread, this is so as soon
as one of the dollar signs begins a variable. -/
theorem words_expand_of_dollarsEscaped (h : DollarsEscaped line) :
    (Quiet .start line.toList → ∀ environment, words (expand environment line) = words line) ∧
      (∀ result, words line = .ok result → ∀ environment, DollarFree environment →
        (words (expand environment line) = .ok result ↔ Quiet .start line.toList)) ∧
      (EachDollar (fun before _ => NoneMisread before) line.toList →
        (Quiet .start line.toList ↔
          EachDollar (fun _ after => afterDollar? after = none) line.toList)) := by
  have hkeeps : Quiet .start line.toList → ∀ environment, expand environment line = line :=
    (expand_eq_self_iff_quiet line).mpr
  refine ⟨fun hquiet environment => by rw [hkeeps hquiet], ?_, quiet_iff_of_dollarsEscaped h⟩
  intro result hwords environment hfree
  constructor
  · exact quiet_of_words_eq hfree hwords
  · intro hquiet
    rw [hkeeps hquiet, hwords]

theorem sample_dollarsEscaped :
    let line := "echo \"it's \\$\" \\$HOME"
    let environment := [("HOME", "/home/ann")]
    DollarsEscaped line ∧ DollarFree environment ∧
      words line = .ok ["echo", "it's $", "$HOME"] ∧
      words (expand environment line) ≠ .ok ["echo", "it's $", "$HOME"] := by
  have hescaped : DollarsEscaped "echo \"it's \\$\" \\$HOME" := by decide +kernel
  have hread : EachDollar (fun before _ => NoneMisread before)
      "echo \"it's \\$\" \\$HOME".toList := by decide +kernel
  have hwords : words "echo \"it's \\$\" \\$HOME" = .ok ["echo", "it's $", "$HOME"] := by
    decide +kernel
  have hfree : DollarFree [("HOME", "/home/ann")] := by
    intro name value hvalue
    simp only [Entries.get?] at hvalue
    split at hvalue
    · cases hvalue
      decide
    · cases hvalue
  have hbegins : ¬ EachDollar (fun _ after => afterDollar? after = none)
      "echo \"it's \\$\" \\$HOME".toList := by decide +kernel
  obtain ⟨-, hiff, hquiet⟩ := words_expand_of_dollarsEscaped hescaped
  refine ⟨hescaped, hfree, hwords, fun hkept => hbegins ?_⟩
  exact (hquiet hread).mp ((hiff _ hwords _ hfree).mp hkept)

/-- The variable behind the backslash is written out, and the backslash is spent on its value. -/
theorem expand_escaped_dollar :
    let line := "echo \\$HOME"
    DollarsEscaped line ∧ words line = .ok ["echo", "$HOME"] ∧
      words (expand [("HOME", "/home/ann")] line) = .ok ["echo", "/home/ann"] ∧
      words (expand [("HOME", "/home/ann")] line) ≠ words line := by
  decide +kernel

end Userland.Line
