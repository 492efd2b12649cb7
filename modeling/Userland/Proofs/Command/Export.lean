/-
  What `export` sets is what lines read.

  1. *Program.*  `export NAME=value` cuts its argument at the first equals sign and writes the value
     under the name.  Expansion finds the name again on a line: up to the closing brace, or as far
     as letters and digits go.

  2. *Specification.*  For every identifier and every value the export succeeds.  After it the
     variable is written out as the value, once and whatever characters the value has, and the rest
     of the line as if it stood alone.  Nothing else of the session changes, and the other variables
     stay where they are.

  3. *The crux.*  A value is never read: it is put in for one piece of the line, and the pieces are
     those of the line alone (`Line.expand_variable`).  An identifier has neither an equals sign nor
     a closing brace, so that both cuts find all of it.
-/
import Userland.Proofs.Line.Value

namespace Userland

open Text

/-! ## Cutting an argument -/

/-- An identifier has no equals sign, so that an assignment is cut right after it. -/
theorem Text.cut?_assignment {name : String} (hname : IsIdentifier name) (value : String) :
    cut? '=' (name ++ "=" ++ value) = some (name, value) :=
  cut?_append rfl (Line.not_mem_of_not_isNameChar hname (by decide)) value

/-! ## Variables on a line -/

namespace Line

variable {environment : Entries String} {name value : String}

/-- A name in braces ends at the first closing brace. -/
theorem afterDollar?_braced (hname : IsIdentifier name) (rest : List Char) :
    afterDollar? ('\x7b' :: (name.toList ++ '\x7d' :: rest)) = some (.variable name, rest) := by
  have hinside : ∀ c ∈ name.toList, decide (c ≠ '\x7d') = true := fun c hc =>
    decide_eq_true fun he => not_mem_of_not_isNameChar hname (by decide) (he ▸ hc)
  have hbraced : braced? ('\x7b' :: (name.toList ++ '\x7d' :: rest)) =
      some (.variable name, rest) := by
    rw [braced?, List.takeWhile_append_of_pos hinside, List.dropWhile_append_of_pos hinside]
    simp
  rw [afterDollar?.eq_2 _ (by simp), hbraced, Option.some_or]

/-- A variable is written out as its value, and what follows as if it stood alone. -/
theorem expand_variable (hvalue : Entries.get? environment name = some value) {cs : List Char}
    {rest : String} (h : afterDollar? cs = some (.variable name, rest.toList)) :
    expand environment (String.ofList ('$' :: cs)) = value ++ expand environment rest := by
  have hpieces : pieces .none ('$' :: cs) = .variable name :: pieces .none rest.toList :=
    pieces_of_variable (by decide) h
  rw [expand, expand, String.toList_ofList, hpieces, List.flatMap_cons, String.ofList_append,
    Piece.text, hvalue, Option.getD_some, String.ofList_toList]

/-- In braces the name ends with them, whatever comes after. -/
theorem expand_braced (hname : IsIdentifier name)
    (hvalue : Entries.get? environment name = some value) (rest : String) :
    expand environment ("$\x7b" ++ name ++ "\x7d" ++ rest) = value ++ expand environment rest := by
  have hline : "$\x7b" ++ name ++ "\x7d" ++ rest =
      String.ofList ('$' :: '\x7b' :: (name.toList ++ '\x7d' :: rest.toList)) := by
    apply String.toList_inj.mp
    simp
  rw [hline, expand_variable hvalue (afterDollar?_braced hname rest.toList)]

/-- Without braces it ends where no character of a name follows. -/
theorem expand_bare (hname : IsIdentifier name)
    (hvalue : Entries.get? environment name = some value) {rest : String}
    (hrest : ∀ c ∈ rest.toList.head?, isNameChar c = false) :
    expand environment ("$" ++ name ++ rest) = value ++ expand environment rest := by
  have hline : "$" ++ name ++ rest = String.ofList ('$' :: (name.toList ++ rest.toList)) := by
    apply String.toList_inj.mp
    simp
  rw [hline, expand_variable hvalue (afterDollar?_identifier hname hrest)]

end Line

/-! ## Setting one variable -/

namespace Command

theorem exportVariables_assignment (s : Scene) {name : String} (hname : IsIdentifier name)
    (value : String) :
    exportVariables s [name ++ "=" ++ value] = (.ok .silent, s.session.setVariable name value) := by
  rw [exportVariables, if_neg (by simp), setVariables, cut?_assignment hname]
  simp only [isIdentifier_iff.mpr hname, if_true, Option.elim_some, setVariables]

/-- In any session, `export` with one assignment succeeds, and changes the variables only.  From
then on the variable is written out as the value, in braces with anything after it and without them
before a character that cannot be in a name.  The others have their values and places. -/
theorem exportVariables_reads_back (s : Scene) {name : String} (hname : IsIdentifier name)
    (value : String) :
    let exported := exportVariables s [name ++ "=" ++ value]
    let environment := exported.2.environment
    exported.1 = .ok .silent ∧ exported.2 = { s.session with environment } ∧
      (∀ rest, Line.expand environment ("$\x7b" ++ name ++ "\x7d" ++ rest) =
        value ++ Line.expand environment rest) ∧
      (∀ rest : String, (∀ c ∈ rest.toList.head?, ¬ (IsLetter c ∨ '0' ≤ c ∧ c ≤ '9')) →
        Line.expand environment ("$" ++ name ++ rest) = value ++ Line.expand environment rest) ∧
      ∀ other, other ≠ name →
        Entries.get? environment other = Entries.get? s.session.environment other ∧
        ∀ (i : Nat) (x : String), environment[i]? = some (other, x) ↔
          s.session.environment[i]? = some (other, x) := by
  rw [exportVariables_assignment s hname value]
  have hvalue : Entries.get? (Entries.put s.session.environment name value) name = some value :=
    Entries.get?_put_self _ _ _
  refine ⟨rfl, rfl, fun rest => ?_, fun rest hrest => ?_, fun other hother => ⟨?_, fun i x => ?_⟩⟩
  · exact Line.expand_braced hname hvalue rest
  · refine Line.expand_bare hname hvalue fun c hc => ?_
    rw [← Bool.not_eq_true, Line.isNameChar_iff]
    exact hrest c hc
  · exact Entries.get?_put_of_ne hother
  · exact Entries.getElem?_put_of_ne hother i

/-- A value that looks like a line of its own is put in once. -/
theorem sample_exportVariables_reads_back :
    IsIdentifier "LANG" ∧
      let exported := exportVariables sampleScene ["LANG=it's $\x7bHOME\x7d=\"$LANG\\"]
      let environment := exported.2.environment
      (∀ c ∈ "/$USER".toList.head?, ¬ (IsLetter c ∨ '0' ≤ c ∧ c ≤ '9')) ∧
        exported.1 = .ok .silent ∧
        Line.expand environment "$\x7bLANG\x7ds/$USER" =
          "it's $\x7bHOME\x7d=\"$LANG\\" ++ Line.expand environment "s/$USER" ∧
        Line.expand environment "$LANG/$USER" =
          "it's $\x7bHOME\x7d=\"$LANG\\" ++ Line.expand environment "/$USER" ∧
        "PWD" ≠ "LANG" ∧
        (environment[6]? = some ("PWD", "/home/wisnu") ↔
          sampleScene.session.environment[6]? = some ("PWD", "/home/wisnu")) := by
  have hname : IsIdentifier "LANG" := isIdentifier_of_command (by decide)
  have hrest : ∀ c ∈ "/$USER".toList.head?, ¬ (IsLetter c ∨ '0' ≤ c ∧ c ≤ '9') := by
    intro c hc
    obtain rfl : '/' = c := Option.some.inj hc
    rw [← Line.isNameChar_iff]
    decide
  have hother : "PWD" ≠ "LANG" := by decide
  obtain ⟨hok, -, hbraced, hbare, hothers⟩ :=
    exportVariables_reads_back sampleScene hname "it's $\x7bHOME\x7d=\"$LANG\\"
  exact ⟨hname, hrest, hok, hbraced "s/$USER", hbare "/$USER" hrest, hother,
    (hothers "PWD" hother).2 6 "/home/wisnu"⟩

end Command

end Userland
