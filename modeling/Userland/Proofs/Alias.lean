/-
  An alias and what it stands for.

  1. *Program.*  An alias is replaced among the words of a line, after variables, quotes and
     backslashes have been dealt with, and what it stands for is split at its blanks only.  A line
     that spells out the same goes through expansion and splitting as a whole.

  2. *Specification.*  Whatever follows on the line, both lines do the same: they show the same and
     leave the same machine and session, up to the line that is remembered.  That holds as long as
     neither the alias nor its meaning has quotes, backslashes or dollar signs in it, and the
     meaning does not begin with an alias itself.

  3. *The crux.*  The rest of the line has the same words after both, or fails in the same way,
     since both begin with a text in which nothing is special (`Line.words_expand_trim_append`).
     From the words on, nothing depends on the line.
-/
import Userland.Proofs.Line.Split
import Userland.Proofs.Session

namespace Userland

open Text

/-! ## Texts in which nothing is special -/

/-- The text has no quotes, no backslashes and no dollar signs. -/
def Line.Plain (text : String) : Prop := Unquoted text.toList ∧ '$' ∉ text.toList

instance (text : String) : Decidable (Line.Plain text) := inferInstanceAs (Decidable (_ ∧ _))

/-- Without blanks a text is one word. -/
theorem Text.words_eq_singleton {text : String} (hne : text ≠ "")
    (h : ∀ c ∈ text.toList, isBlank c = false) : Text.words text = [text] := by
  rw [Text.words, List.splitOnP_eq_singleton h, List.filter_cons_of_pos (by simpa using hne),
    List.filter_nil, List.map_singleton, String.ofList_toList]

/-- A text that has a word has a character that is not blank. -/
theorem Text.exists_letter_of_words {text : String} (h : Text.words text ≠ []) :
    ∃ c ∈ text.toList, isBlank c = false := by
  by_contra hnone
  have hblanks : ∀ c ∈ text.toList, isBlank c = true := fun c hc => by
    rw [← Bool.not_eq_false]
    exact fun hletter => hnone ⟨c, hc, hletter⟩
  refine h ?_
  rw [← String.ofList_toList (s := text), ← Line.fieldsFrom_start]
  generalize text.toList = cs at hblanks
  induction cs with
  | nil => exact Line.fieldsFrom_nil []
  | cons c cs ih =>
    obtain ⟨hc, hcs⟩ := List.forall_mem_cons.mp hblanks
    rw [Line.fieldsFrom_blank hc, ih hcs]
    rfl

/-- The words of a line that begins with a plain text. -/
theorem Line.words_of_plain_beginning (environment : Entries String) {text : String}
    (hplain : Line.Plain text) (hwords : Text.words text ≠ []) (rest : String) :
    Line.words (Line.expand environment (trim (text ++ " " ++ rest))) =
      (Line.words (Line.expand environment (String.ofList (dropEndWhile isBlank rest.toList)))).map
        (Text.words text ++ ·) := by
  have hline : text ++ " " ++ rest = String.ofList (text.toList ++ ' ' :: rest.toList) := by
    apply String.toList_inj.mp
    simp
  rw [hline, Line.words_expand_trim_append environment hplain.1 hplain.2
    (Text.exists_letter_of_words hwords), String.ofList_toList]

/-- The blanks around a line are not all of it if there is something else. -/
theorem Text.trim_ne_empty {line : String} (h : ∃ c ∈ line.toList, isBlank c = false) :
    trim line ≠ "" := by
  intro htrim
  obtain ⟨c, hc, hletter⟩ := h
  rw [Text.trim_eq_empty_iff.mp htrim c hc] at hletter
  cases hletter

/-! ## The two lines -/

namespace Machine

variable {m : Machine} {s : Session}

/-- Lines that have the same words once aliases are replaced, or the same fault, run the same. -/
theorem execute_of_same_words {line line' : String} (hline : trim line ≠ "")
    (hline' : trim line' ≠ "")
    (hsame : (Line.words (Line.expand s.environment (trim line))).map s.expandAlias =
      (Line.words (Line.expand s.environment (trim line'))).map s.expandAlias) :
    ∃ (output : Output) (after : Machine) (session : Session),
      m.execute line s = (output, after, session.record (trim line)) ∧
        m.execute line' s = (output, after, session.record (trim line')) := by
  -- a line is run for its words alone
  have hexecute : m.commands.execute (trim line) (m.scene s) =
      m.commands.execute (trim line') (m.scene s) := by
    have hsession : (m.scene s).session = s := rfl
    rw [CommandTable.execute, CommandTable.execute, hsession]
    generalize Line.words (Line.expand s.environment (trim line)) = first at hsame ⊢
    generalize Line.words (Line.expand s.environment (trim line')) = second at hsame ⊢
    cases first with
    | error fault =>
      cases second with
      | error fault' => rw [Except.error.inj hsame]
      | ok words' => cases hsame
    | ok words =>
      cases second with
      | error fault' => cases hsame
      | ok words' =>
        have hwords : s.expandAlias words = s.expandAlias words' := Except.ok.inj hsame
        simp only [hwords]
  simp only [execute, if_neg hline, if_neg hline', hexecute]
  exact ⟨_, _, _, rfl, rfl⟩

/-- On any machine and in any session, a line that begins with an alias and the line that begins
with what it stands for run the same. -/
theorem execute_alias {name meaning first : String} (hname : Line.Plain name) (hne : name ≠ "")
    (hword : ∀ c ∈ name.toList, isBlank c = false) (hmeaning : Line.Plain meaning)
    (halias : Entries.get? s.aliases name = some meaning)
    (hfirst : (Text.words meaning).head? = some first)
    (honce : Entries.get? s.aliases first = none) (rest : String) :
    ∃ (output : Output) (after : Machine) (session : Session),
      m.execute (name ++ " " ++ rest) s =
          (output, after, session.record (trim (name ++ " " ++ rest))) ∧
        m.execute (meaning ++ " " ++ rest) s =
          (output, after, session.record (trim (meaning ++ " " ++ rest))) := by
  obtain ⟨more, hmore⟩ := List.head?_eq_some_iff.mp hfirst
  have hsingle : Text.words name = [name] := Text.words_eq_singleton hne hword
  have hbegins : ∀ text, Text.words text ≠ [] → trim (text ++ " " ++ rest) ≠ "" := by
    intro text htext
    obtain ⟨c, hc, hletter⟩ := Text.exists_letter_of_words htext
    exact Text.trim_ne_empty ⟨c, by simp [hc], hletter⟩
  have hwords : Text.words meaning ≠ [] := by
    rw [hmore]
    exact List.cons_ne_nil _ _
  refine execute_of_same_words (hbegins name (by simp [hsingle])) (hbegins meaning hwords) ?_
  rw [Line.words_of_plain_beginning s.environment hname (by simp [hsingle]),
    Line.words_of_plain_beginning s.environment hmeaning hwords, hsingle, hmore]
  generalize Line.words (Line.expand s.environment _) = tail
  cases tail with
  | error fault => rfl
  | ok words =>
    -- the alias is replaced once, and what stands in its place then is none
    have hreplaced : s.expandAlias (name :: words) = first :: more ++ words := by
      simp only [Session.expandAlias, halias, hmore]
    have hkept : s.expandAlias (first :: (more ++ words)) = first :: (more ++ words) := by
      simp only [Session.expandAlias, honce]
    exact congrArg Except.ok (hreplaced.trans hkept.symm)

/-- Whenever a session has an alias, a line that begins with it does what the line does that spells
out its meaning: the same output, and the same machine and session but for the line that is
remembered. -/
theorem alias_runs_like_meaning {c : Config} {clock : Clock}
    (hconfig : c.problem? = none) {m : Machine} (hboot : boot c clock = .ok m)
    {events : List Event} {now : Machine} {s : Session}
    (hrun : m.run m.newSession events = (now, s)) {name meaning first : String}
    (halias : Entries.get? s.aliases name = some meaning)
    (hword : ∀ c ∈ name.toList, isBlank c = false) (hname : Line.Plain name)
    (hmeaning : Line.Plain meaning) (hfirst : (Text.words meaning).head? = some first)
    (honce : Entries.get? s.aliases first = none) (rest : String) :
    ∃ (output : Output) (after : Machine) (session : Session),
      now.execute (name ++ " " ++ rest) s =
          (output, after, session.record (trim (name ++ " " ++ rest))) ∧
        now.execute (meaning ++ " " ++ rest) s =
          (output, after, session.record (trim (meaning ++ " " ++ rest))) := by
  have hsound := sound_of_run hconfig hboot hrun
  have hpresent : name ∈ Entries.names s.aliases := by
    rw [Entries.mem_names_iff, halias]
    rfl
  exact execute_alias hname (hsound.aliases name hpresent).1 hword hmeaning halias hfirst honce rest

/-- An alias is defined, and a variable that the line uses. -/
def aliasEvents : List Event :=
  [.line "alias hi='echo hello   again'", .line "export NAME='you \"there\"'"]

/-- An alias with blanks in it, before a rest with a variable, quotes and a backslash. -/
theorem sample_alias_runs_like_meaning :
    sampleConfig.problem? = none ∧
      ∃ m, boot sampleConfig (.showing Tree.noon 60) = .ok m ∧
        Entries.get? (m.run m.newSession aliasEvents).2.aliases "hi" =
          some "echo hello   again" ∧
        ∃ (output : Output) (after : Machine) (session : Session),
          (m.run m.newSession aliasEvents).1.execute "hi \t$NAME 'a  b' \\ "
              (m.run m.newSession aliasEvents).2 =
            (output, after, session.record "hi \t$NAME 'a  b' \\") ∧
          (m.run m.newSession aliasEvents).1.execute "echo hello   again \t$NAME 'a  b' \\ "
              (m.run m.newSession aliasEvents).2 =
            (output, after, session.record "echo hello   again \t$NAME 'a  b' \\") := by
  have hconfig : sampleConfig.problem? = none := by decide
  have hruns : (boot sampleConfig (.showing Tree.noon 60)).toOption.map (fun m =>
      let aliases := (m.run m.newSession aliasEvents).2.aliases
      (Entries.get? aliases "hi", Entries.get? aliases "echo")) =
        some (some "echo hello   again", none) := by
    decide +kernel
  refine ⟨hconfig, ?_⟩
  cases hboot : boot sampleConfig (.showing Tree.noon 60) with
  | error fault =>
    rw [hboot] at hruns
    cases hruns
  | ok m =>
    rw [hboot] at hruns
    obtain ⟨halias, honce⟩ := Prod.mk.inj (Option.some.inj hruns)
    have hword : ∀ c ∈ "hi".toList, isBlank c = false := by
      have hall : "hi".toList.all (isBlank · = false) = true := by decide
      simpa using hall
    refine ⟨m, rfl, halias, ?_⟩
    exact alias_runs_like_meaning hconfig hboot rfl halias hword (by decide) (by decide)
      (by decide) honce "\t$NAME 'a  b' \\ "

end Machine

end Userland
