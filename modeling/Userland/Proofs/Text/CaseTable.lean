/-
  The case tables as a whole.

  1. *Program.*  A look-up goes down a table of runs or ranges and stops at the first one that
     begins after the code point (`CaseRun.lookup`, `inRanges`).  What it finds is a number, of
     which `Char.ofNat` makes a character.

  2. *Specification.*  To stop early misses nothing: a code point is found if and only if some row
     of the table covers it, and then what is found is what this row says (`lookup_eq_some_iff`,
     `inRanges_iff`).  No number is lost on the way to a character: the lower and the upper case of
     a character have the code points that the tables give (`toNat_lowerChar`, `toNat_upperChar`).

  3. *The crux.*  The rows are ascending and apart (`apart`), so that a code point before one row is
     before all that follow.  This is a property of a whole table, and it is computed, for all five
     at once (`apart_tables`); so is that every target is a character (`isValid_tables`).
-/
import Mathlib.Data.List.TakeWhile
import Userland.Text.Case

namespace Userland.Text

/-! ## Rows that are ascending and apart -/

section

variable {α : Type} {first last : α → Nat} {bound : Nat} {row : α} {rows : List α}

/-- Does every row begin at the bound or later and behind the end of the row before it? -/
def apart (first last : α → Nat) (bound : Nat) : List α → Bool
  | [] => true
  | row :: rest =>
    bound ≤ first row && first row ≤ last row && apart first last (last row + 1) rest

/-- A row is apart from the rest if it ends before the bound of the rest. -/
theorem apart_cons :
    apart first last bound (row :: rows) = true ↔
      bound ≤ first row ∧ first row ≤ last row ∧ apart first last (last row + 1) rows = true := by
  simp only [apart, Bool.and_eq_true, decide_eq_true_eq, and_assoc]

/-- All rows begin at the bound or later. -/
theorem le_first_of_apart (h : apart first last bound rows = true) :
    ∀ r ∈ rows, bound ≤ first r := by
  induction rows generalizing bound with
  | nil => exact fun r hr => absurd hr List.not_mem_nil
  | cons row rest ih =>
    obtain ⟨hbound, hrow, hrest⟩ := apart_cons.mp h
    intro r hr
    rcases List.mem_cons.mp hr with rfl | hr
    · exact hbound
    · have hlater := ih hrest r hr
      omega

/-- So the beginnings are ascending. -/
theorem pairwise_first_of_apart (h : apart first last bound rows = true) :
    (rows.map first).Pairwise (· < ·) := by
  induction rows generalizing bound with
  | nil => exact List.Pairwise.nil
  | cons row rest ih =>
    obtain ⟨-, hrow, hrest⟩ := apart_cons.mp h
    refine List.pairwise_cons.mpr ⟨fun n hn => ?_, ih hrest⟩
    obtain ⟨r, hr, rfl⟩ := List.mem_map.mp hn
    have hlater := le_first_of_apart hrest r hr
    omega

end

/-! ## What a look-up finds -/

/-- The run has the code point, and does not only pass over it. -/
def CaseRun.Covers (r : CaseRun) (n : Nat) : Prop :=
  r.first ≤ n ∧ n ≤ r.last ∧ (n - r.first) % r.step = 0

/-- In runs that are apart a code point is found if and only if one of them has it. -/
theorem CaseRun.lookup_eq_some_iff {bound : Nat} {runs : List CaseRun}
    (h : apart first last bound runs = true) {n m : Nat} :
    lookup runs n = some m ↔ ∃ r ∈ runs, r.Covers n ∧ m = r.target + (n - r.first) := by
  -- the bound of the runs that are left is the end of the one before
  induction runs generalizing bound with
  | nil => simp [lookup]
  | cons r rest ih =>
    obtain ⟨-, hrow, hrest⟩ := apart_cons.mp h
    have hbehind := le_first_of_apart hrest
    have hlater := ih hrest
    constructor
    · intro hfound
      rw [lookup] at hfound
      split at hfound
      · cases hfound
      next hfirst =>
      split at hfound
      · obtain ⟨r', hr', hcovers⟩ := hlater.mp hfound
        exact ⟨r', List.mem_cons_of_mem r hr', hcovers⟩
      next hlast =>
      split at hfound
      · next hstep =>
        have hcovers : r.Covers n := ⟨Nat.not_lt.mp hfirst, Nat.not_lt.mp hlast, hstep⟩
        exact ⟨r, List.mem_cons_self, hcovers, (Option.some.inj hfound).symm⟩
      · cases hfound
    · rintro ⟨r', hr', hcovers, rfl⟩
      obtain ⟨hfirst, hlast, hstep⟩ := hcovers
      rcases List.mem_cons.mp hr' with rfl | hr'
      · rw [lookup, if_neg (Nat.not_lt.mpr hfirst), if_neg (Nat.not_lt.mpr hlast), if_pos hstep]
      · -- the first run is over before the code point
        have hover := hbehind r' hr'
        rw [lookup, if_neg (by omega), if_pos (by omega)]
        exact hlater.mpr ⟨r', hr', ⟨hfirst, hlast, hstep⟩, rfl⟩

/-- What is left of ascending numbers behind a bound is above it. -/
theorem lt_of_mem_dropWhile {bound n : Nat} {ns : List Nat} (hns : ns.Pairwise (· < ·))
    (hn : n ∈ ns.dropWhile (· ≤ bound)) : bound < n := by
  induction hns with
  | nil => exact absurd hn List.not_mem_nil
  | @cons first rest hfirst _ ih =>
    by_cases hle : first ≤ bound
    · rw [List.dropWhile_cons_of_pos (by simpa using hle)] at hn
      exact ih hn
    · rw [List.dropWhile_cons_of_neg (by simpa using hle)] at hn
      rcases List.mem_cons.mp hn with rfl | hn
      · exact Nat.not_le.mp hle
      · have hlater := hfirst n hn
        omega

/-- Do the runs pass over all of the numbers?  Each run is held against the numbers up to its end,
and the runs behind it against the rest, so that every number is looked at once. -/
def CaseRun.passOver : List CaseRun → List Nat → Bool
  | [], _ => true
  | r :: rest, ns =>
    (ns.takeWhile (· ≤ r.last)).all (fun n => n < r.first || (n - r.first) % r.step ≠ 0) &&
      passOver rest (ns.dropWhile (· ≤ r.last))

/-- Of ascending numbers that the runs pass over none is found. -/
theorem CaseRun.lookup_of_passOver {runs : List CaseRun} {ns : List Nat}
    (hns : ns.Pairwise (· < ·)) (h : passOver runs ns = true) :
    ∀ n ∈ ns, lookup runs n = none := by
  induction runs generalizing ns with
  | nil => exact fun _ _ => rfl
  | cons r rest ih =>
    rw [passOver, Bool.and_eq_true, List.all_eq_true] at h
    obtain ⟨hupTo, hbehind⟩ := h
    intro n hn
    rw [← List.takeWhile_append_dropWhile (p := (· ≤ r.last)) (l := ns), List.mem_append] at hn
    rcases hn with hn | hn
    · have hlast : n ≤ r.last := by simpa using List.mem_takeWhile_imp hn
      have hnot := hupTo n hn
      rw [Bool.or_eq_true, decide_eq_true_eq, decide_eq_true_eq] at hnot
      rw [lookup]
      rcases hnot with hfirst | hstep
      · rw [if_pos hfirst]
      · rw [if_neg (Nat.not_lt.mpr hlast), if_neg hstep, ite_self]
    · have hlast : r.last < n := lt_of_mem_dropWhile hns hn
      rw [lookup, if_pos hlast, ih (hns.sublist (List.dropWhile_sublist _)) hbehind n hn, ite_self]

/-- A code point is in ranges that are apart if and only if it is in one of them. -/
theorem inRanges_iff {bound : Nat} {ranges : List (Nat × Nat)}
    (h : apart Prod.fst Prod.snd bound ranges = true) {n : Nat} :
    inRanges ranges n = true ↔ ∃ r ∈ ranges, r.1 ≤ n ∧ n ≤ r.2 := by
  induction ranges generalizing bound with
  | nil => simp [inRanges]
  | cons r rest ih =>
    obtain ⟨-, hrow, hrest⟩ := apart_cons.mp h
    have hbehind := le_first_of_apart hrest
    have hlater := ih hrest
    constructor
    · intro hfound
      rw [inRanges] at hfound
      split at hfound
      · cases hfound
      next hfirst =>
      rcases (Bool.or_eq_true _ _).mp hfound with hlast | hfound
      · exact ⟨r, List.mem_cons_self, Nat.not_lt.mp hfirst, of_decide_eq_true hlast⟩
      · obtain ⟨r', hr', hin⟩ := hlater.mp hfound
        exact ⟨r', List.mem_cons_of_mem r hr', hin⟩
    · rintro ⟨r', hr', hfirst, hlast⟩
      rw [inRanges]
      rcases List.mem_cons.mp hr' with rfl | hr'
      · rw [if_neg (Nat.not_lt.mpr hfirst), decide_eq_true hlast, Bool.true_or]
      · -- the first range is over before the code point
        have hover := hbehind r' hr'
        rw [if_neg (by omega), hlater.mpr ⟨r', hr', hfirst, hlast⟩, Bool.or_true]

/-- A key that is in an ascending list of sequences is found with its sequence. -/
theorem lookup_of_mem {bound n : Nat} {ns : List Nat} {sequences : List (Nat × List Nat)}
    (h : apart Prod.fst Prod.fst bound sequences = true) (hmem : (n, ns) ∈ sequences) :
    sequences.lookup n = some ns := by
  induction sequences generalizing bound with
  | nil => exact absurd hmem List.not_mem_nil
  | cons e rest ih =>
    obtain ⟨-, -, hrest⟩ := apart_cons.mp h
    rcases List.mem_cons.mp hmem with rfl | hmem
    · rw [List.lookup_cons, beq_self_eq_true]
    · have hlater : e.1 + 1 ≤ n := le_first_of_apart hrest _ hmem
      have hne : (n == e.1) = false := by
        rw [beq_eq_false_iff_ne]
        omega
      rw [List.lookup_cons, hne]
      exact ih hrest hmem

/-! ## The tables -/

/-- Every table is ascending with its rows apart, by computation over all of them. -/
theorem apart_tables :
    apart CaseRun.first CaseRun.last 0 lowerRuns = true ∧
      apart CaseRun.first CaseRun.last 0 upperRuns = true ∧
      apart Prod.fst Prod.fst 0 upperSequences = true ∧
      apart Prod.fst Prod.snd 0 casedRanges = true ∧
      apart Prod.fst Prod.snd 0 passedOverRanges = true := by
  decide +kernel

/-- No character has both one other character and a sequence for its upper case. -/
theorem passOver_upperRuns :
    CaseRun.passOver upperRuns (upperSequences.map Prod.fst) = true := by
  decide +kernel

/-! ## From code points to characters -/

/-- Are all code points that the run maps to characters? -/
def CaseRun.isValid (r : CaseRun) : Bool :=
  r.target + (r.last - r.first) < 0xD800 ||
    0xDFFF < r.target && r.target + (r.last - r.first) < 0x110000

/-- All that the runs map to are characters, and so is all that stands in a sequence. -/
theorem isValid_tables :
    (∀ r ∈ lowerRuns, r.isValid = true) ∧ (∀ r ∈ upperRuns, r.isValid = true) ∧
      ∀ e ∈ upperSequences, ∀ n ∈ e.2, n.isValidChar := by
  decide +kernel

/-- What a run maps a code point to lies between the first target and the last. -/
theorem CaseRun.isValidChar {r : CaseRun} (h : r.isValid = true) {n : Nat} (hn : r.Covers n) :
    (r.target + (n - r.first)).isValidChar := by
  obtain ⟨hfirst, hlast, -⟩ := hn
  simp only [isValid, Bool.or_eq_true, Bool.and_eq_true, decide_eq_true_eq] at h
  rcases h with hbefore | ⟨hbehind, hbound⟩
  · exact .inl (by omega)
  · exact .inr ⟨by omega, by omega⟩

/-- Of code points that are characters none is lost. -/
theorem toNat_ofCodes {codes : List Nat} (h : ∀ n ∈ codes, n.isValidChar) :
    (ofCodes codes).map Char.toNat = codes := by
  rw [ofCodes, List.map_map]
  refine (List.map_congr_left fun n hn => ?_).trans (List.map_id codes)
  rw [Function.comp_apply, Char.ofNat, dif_pos (h n hn)]
  rfl

variable {c : Char} {r : CaseRun}

/-- A character that a run has becomes the one that the run maps it to. -/
theorem toNat_lowerChar (hr : r ∈ lowerRuns) (hc : r.Covers c.toNat) :
    (lowerChar c).map Char.toNat = [r.target + (c.toNat - r.first)] := by
  obtain ⟨hapart, -⟩ := apart_tables
  obtain ⟨hvalid, -⟩ := isValid_tables
  have hfound := (CaseRun.lookup_eq_some_iff hapart).mpr ⟨r, hr, hc, rfl⟩
  have hdotted : c ≠ 'İ' := by
    rintro rfl
    have hnone : CaseRun.lookup lowerRuns 'İ'.toNat = none := by decide
    rw [hnone] at hfound
    cases hfound
  rw [lowerChar, if_neg hdotted, hfound]
  refine toNat_ofCodes fun n hn => ?_
  rw [List.mem_singleton.mp hn]
  exact CaseRun.isValidChar (hvalid r hr) hc

/-- So does a character with a run for its upper case. -/
theorem toNat_upperChar (hr : r ∈ upperRuns) (hc : r.Covers c.toNat) :
    (upperChar c).map Char.toNat = [r.target + (c.toNat - r.first)] := by
  obtain ⟨-, hapart, -⟩ := apart_tables
  obtain ⟨-, hvalid, -⟩ := isValid_tables
  have hfound := (CaseRun.lookup_eq_some_iff hapart).mpr ⟨r, hr, hc, rfl⟩
  rw [upperChar, hfound]
  refine toNat_ofCodes fun n hn => ?_
  rw [List.mem_singleton.mp hn]
  exact CaseRun.isValidChar (hvalid r hr) hc

/-- Every other character is its own lower case, but for the dotted capital I. -/
theorem lowerChar_eq_self (h : ∀ r ∈ lowerRuns, ¬ r.Covers c.toNat) (hdotted : c ≠ 'İ') :
    lowerChar c = [c] := by
  obtain ⟨hapart, -⟩ := apart_tables
  have hnone : CaseRun.lookup lowerRuns c.toNat = none := by
    refine Option.eq_none_iff_forall_ne_some.mpr fun n hn => ?_
    obtain ⟨r, hr, hc, -⟩ := (CaseRun.lookup_eq_some_iff hapart).mp hn
    exact h r hr hc
  rw [lowerChar, if_neg hdotted, hnone]

/-- A character with a sequence becomes the sequence. -/
theorem toNat_upperChar_of_sequence {ns : List Nat} (h : (c.toNat, ns) ∈ upperSequences) :
    (upperChar c).map Char.toNat = ns := by
  obtain ⟨-, -, hapart, -⟩ := apart_tables
  obtain ⟨-, -, hvalid⟩ := isValid_tables
  have hascending := pairwise_first_of_apart hapart
  have hnone : CaseRun.lookup upperRuns c.toNat = none :=
    CaseRun.lookup_of_passOver hascending passOver_upperRuns _ (List.mem_map_of_mem h)
  rw [upperChar, hnone, lookup_of_mem hapart h]
  exact toNat_ofCodes (hvalid _ h)

example : upper "ŉ" = "ʼN" ∧ lower "ŸẞİI" = "ÿßi\u0307i" := by decide

end Userland.Text
