/-
  What a session remembers of the lines that were typed.

  1. *Program.*  The history is touched in two places: the command `history -c` empties it,
     however deep the line hides it behind an alias, a variable, quotes or words of `sudo`; and
     when the line has been run, whatever came of it, the line goes to the end.

  2. *Specification.*  A blank line changes nothing at all.  Any other line is added to the
     history without the blanks around it, and nothing else is, unless it comes down to
     `history -c`: then the line itself is all that is remembered.  So after any run the history is
     what was typed since the last line of that kind, or, if there was none, all that was typed,
     behind what was there before (`Machine.Remembers`).

  3. *The crux.*  What a line comes down to is a matter of its words (`CommandTable.lastWords`), and
     of the commands only `history` touches the history, which is what the frame of the commands
     says already (`CommandTable.action_sameBut`).
-/
import Userland.Proofs.Session

namespace Userland

open Text

/-! ## The words that a line comes down to -/

namespace CommandTable

variable {s : Scene}

/-- The words that are left of a line in a session when every `sudo` before them is dropped; none if
the line cannot be split. -/
def lastWords (session : Session) (line : String) : List String :=
  match Line.words (Line.expand session.environment line) with
  | .ok words => (session.expandAlias words).dropWhile (· = "sudo")
  | .error _ => []

/-- The line comes down to the command that empties the history. -/
def Clears (session : Session) (line : String) : Prop :=
  ["history", "-c"] <+: lastWords session line

instance (session : Session) (line : String) : Decidable (Clears session line) :=
  inferInstanceAs (Decidable (_ <+: _))

/-- One command empties the history, and only with this argument first. -/
theorem history_of_action (name : String) (arguments : List String) :
    ((stock.action name).run s arguments).2.session.history =
      if ["history", "-c"] <+: name :: arguments then [] else s.session.history := by
  by_cases hname : name = "history"
  · subst hname
    have hprefix : ["history", "-c"] <+: "history" :: arguments ↔
        arguments.head? = some "-c" := by
      cases arguments <;> simp [eq_comm]
    have hrun : ((stock.action "history").run s arguments).2.session =
        (Command.history s arguments).2 := rfl
    rw [hrun, Command.history, if_congr hprefix rfl rfl]
    split <;> rfl
  · have hkept := (action_sameBut s arguments name).parts .history (by simp [Part.commands, hname])
    rw [if_neg fun h => hname (List.cons_prefix_cons.mp h).1.symm]
    exact hkept

/-- Behind any number of `sudo` it is the same command. -/
theorem history_of_dispatch (words : List String) :
    (stock.dispatch words s).2.session.history =
      if ["history", "-c"] <+: words.dropWhile (· = "sudo") then [] else s.session.history := by
  -- on the words, and for every scene: `sudo` hands the rest of them on under another user
  induction words generalizing s with
  | nil =>
    rw [List.dropWhile_nil, if_neg (by simp)]
    rfl
  | cons name rest ih =>
    rw [dispatch]
    split
    · next hsudo =>
      rw [List.dropWhile_cons_of_pos (by simp [hsudo])]
      split
      · next hempty =>
        rw [List.isEmpty_iff.mp hempty, List.dropWhile_nil, if_neg (by simp)]
      · exact ih (s := { s with session.user := "root" })
    · next hsudo =>
      rw [List.dropWhile_cons_of_neg (by simp [hsudo])]
      exact history_of_action name rest

/-- A line empties the history if it comes down to this command. -/
theorem history_of_execute (line : String) :
    (stock.execute line s).2.session.history =
      if Clears s.session line then [] else s.session.history := by
  rw [execute]
  cases hwords : Line.words (Line.expand s.session.environment line) with
  | error fault =>
    have hclears : ¬ Clears s.session line := by simp [Clears, lastWords, hwords]
    rw [if_neg hclears]
  | ok words =>
    have hclears : Clears s.session line ↔
        ["history", "-c"] <+: (s.session.expandAlias words).dropWhile (· = "sudo") := by
      rw [Clears, lastWords, hwords]
    rw [if_congr hclears rfl rfl]
    exact history_of_dispatch _

end CommandTable

open CommandTable (Clears)

/-! ## One line -/

/-- No letter is on the line. -/
def IsBlankLine (line : String) : Prop := ∀ c ∈ line.toList, isBlank c = true

theorem trim_eq_empty_iff_isBlankLine {line : String} : trim line = "" ↔ IsBlankLine line :=
  Text.trim_eq_empty_iff

namespace Machine

variable {m : Machine} {s : Session}

/-- Nothing is answered and nothing happens. -/
theorem execute_blank {line : String} (h : IsBlankLine line) (m : Machine) (s : Session) :
    m.execute line s = (.silent, m, s) := by
  rw [execute, if_pos (trim_eq_empty_iff_isBlankLine.mpr h)]

/-- A machine moreover adds the line, after it has been run. -/
theorem history_of_execute (hm : m.commands = .stock) {line : String} (h : ¬ IsBlankLine line) :
    (m.execute line s).2.2.history =
      if Clears s (trim line) then [trim line] else s.history ++ [trim line] := by
  have hline : trim line ≠ "" := mt trim_eq_empty_iff_isBlankLine.mp h
  have hkept := CommandTable.history_of_execute (s := m.scene s) (trim line)
  have hlast : (m.execute line s).2.2.history =
      (CommandTable.stock.execute (trim line) (m.scene s)).2.session.history ++ [trim line] := by
    rw [execute, hm]
    simp only [if_neg hline]
    rfl
  rw [hlast, hkept, apply_ite (· ++ [trim line])]
  rfl

end Machine

/-! ## One event -/

namespace Event

/-- What an event gives the history to remember. -/
def typed? : Event → Option String
  | line text => if trim text = "" then none else some (trim text)
  | meanwhile .. => none

/-- The event is a line that empties the history, in the session in which it is typed. -/
def Clears (s : Session) : Event → Prop
  | line text => CommandTable.Clears s (trim text)
  | meanwhile .. => False

/-- Where nothing is typed, nothing is forgotten. -/
theorem not_clears_of_untyped {s : Session} {event : Event} (h : event.typed? = none) :
    ¬ event.Clears s := by
  cases event with
  | line text =>
    have hblank : trim text = "" := by
      by_contra hline
      rw [typed?, if_neg hline] at h
      cases h
    have hexpand : Line.expand s.environment "" = "" := by
      rw [Line.expand, String.toList_empty, Line.pieces]
      rfl
    have hnone : CommandTable.lastWords s "" = [] := by
      rw [CommandTable.lastWords, hexpand]
      rfl
    rw [Clears, hblank, CommandTable.Clears, hnone]
    simp
  | meanwhile tree packages clock => exact not_false

end Event

/-- What some events give the history to remember. -/
def typed (events : List Event) : List String := events.filterMap Event.typed?

theorem typed_cons (event : Event) (rest : List Event) :
    typed (event :: rest) = event.typed?.toList ++ typed rest := by
  rw [typed, List.filterMap_cons]
  cases event.typed? <;> rfl

namespace Machine

variable {m : Machine} {s : Session}

theorem run_commands (m : Machine) (s : Session) (events : List Event) :
    (m.run s events).1.commands = m.commands := by
  induction events generalizing m s with
  | nil => rfl
  | cons event rest ih => exact (ih _ _).trans (step_commands m s event)

/-- A run may be interrupted and taken up again. -/
theorem run_append (m : Machine) (s : Session) (before rest : List Event) :
    m.run s (before ++ rest) = (m.run s before).1.run (m.run s before).2 rest := by
  induction before generalizing m s with
  | nil => rfl
  | cons event before ih => exact ih _ _

/-- **The step**, for an event that does not empty the history. -/
theorem history_of_step (hm : m.commands = .stock) {event : Event} (h : ¬ event.Clears s) :
    (m.step s event).2.history = s.history ++ event.typed?.toList := by
  cases event with
  | line text =>
    rw [step, Event.typed?]
    split
    · next hblank =>
      rw [execute_blank (trim_eq_empty_iff_isBlankLine.mp hblank), Option.toList_none,
        List.append_nil]
    · next hline =>
      have hkept : ¬ CommandTable.Clears s (trim text) := h
      rw [history_of_execute hm (mt trim_eq_empty_iff_isBlankLine.mpr hline), if_neg hkept]
      rfl
  | meanwhile tree packages clock => exact (List.append_nil _).symm

/-- **The step**, for one that does. -/
theorem history_of_step_clears (hm : m.commands = .stock) {event : Event} (h : event.Clears s) :
    (m.step s event).2.history = event.typed?.toList := by
  cases event with
  | line text =>
    have hline : trim text ≠ "" := by
      intro hblank
      have huntyped : (Event.line text).typed? = none := if_pos hblank
      exact Event.not_clears_of_untyped huntyped h
    have hemptied : CommandTable.Clears s (trim text) := h
    rw [step, Event.typed?, if_neg hline,
      history_of_execute hm (mt trim_eq_empty_iff_isBlankLine.mpr hline), if_pos hemptied]
    rfl
  | meanwhile tree packages clock => exact h.elim

/-! ## Runs -/

/-- None of the events empties the history when it comes. -/
def NeverClears (m : Machine) (s : Session) : List Event → Prop
  | [] => True
  | event :: rest =>
    ¬ event.Clears s ∧ (m.step s event).1.NeverClears (m.step s event).2 rest

/-- While nothing is forgotten, all that is typed is added. -/
theorem history_of_neverClears (hm : m.commands = .stock) {events : List Event}
    (h : m.NeverClears s events) : (m.run s events).2.history = s.history ++ typed events := by
  induction events generalizing m s with
  | nil => exact (List.append_nil _).symm
  | cons event rest ih =>
    have hcommands := (step_commands m s event).trans hm
    rw [run, ih hcommands h.2, history_of_step hm h.1, typed_cons, List.append_assoc]

/-- In every run there is a last event that empties the history, unless there is none. -/
theorem neverClears_or_last (m : Machine) (s : Session) (events : List Event) :
    m.NeverClears s events ∨
      ∃ before event after, events = before ++ event :: after ∧
        event.Clears (m.run s before).2 ∧
        (m.run s (before ++ [event])).1.NeverClears (m.run s (before ++ [event])).2 after := by
  induction events generalizing m s with
  | nil => exact .inl trivial
  | cons first rest ih =>
    rcases ih (m.step s first).1 (m.step s first).2 with hnever | ⟨before, event, after, rfl, h⟩
    · by_cases hfirst : first.Clears s
      · exact .inr ⟨[], first, rest, rfl, hfirst, hnever⟩
      · exact .inl ⟨hfirst, hnever⟩
    · exact .inr ⟨first :: before, event, after, rfl, h⟩

/-- What a session remembers of lines. -/
structure Remembers (m : Machine) (s : Session) : Prop where
  /-- A blank line changes nothing. -/
  blank : ∀ line, IsBlankLine line → m.execute line s = (.silent, m, s)
  /-- Any other line goes to the end, or is all there is if it comes down to `history -c`. -/
  line : ∀ line, ¬ IsBlankLine line → (m.execute line s).2.2.history =
    if Clears s (trim line) then [trim line] else s.history ++ [trim line]
  /-- After a run the history is what was typed since the last event that emptied it, that one
  included, or else what it was before and all that was typed. -/
  run : ∀ events,
    (m.NeverClears s events ∧ (m.run s events).2.history = s.history ++ typed events) ∨
      ∃ before event after, events = before ++ event :: after ∧
        event.Clears (m.run s before).2 ∧
        (m.run s (before ++ [event])).1.NeverClears (m.run s (before ++ [event])).2 after ∧
        (m.run s events).2.history = typed (event :: after)

/-- This is so on every machine with the stock commands, in every session. -/
theorem remembers (hm : m.commands = .stock) (s : Session) : m.Remembers s := by
  refine ⟨fun line h => execute_blank h m s, fun line h => history_of_execute hm h,
    fun events => ?_⟩
  rcases neverClears_or_last m s events with hnever | ⟨before, event, after, rfl, hclears, hafter⟩
  · exact .inl ⟨hnever, history_of_neverClears hm hnever⟩
  · refine .inr ⟨before, event, after, rfl, hclears, hafter, ?_⟩
    have hbefore := (run_commands m s before).trans hm
    have hevent := (run_commands m s (before ++ [event])).trans hm
    have hone : (m.run s (before ++ [event])).2.history = event.typed?.toList := by
      rw [run_append]
      exact history_of_step_clears hbefore hclears
    rw [← List.singleton_append, ← List.append_assoc, run_append,
      history_of_neverClears hevent hafter, hone, List.singleton_append, typed_cons]

/-- A machine with a few files. -/
def sample : Machine := ⟨.stock, Tree.sample, .stock, .showing Tree.noon 60, {}⟩

theorem sample_remembers : sample.commands = .stock ∧ sample.Remembers sample.newSession :=
  ⟨rfl, remembers rfl sample.newSession⟩

/-- An alias hides the clearing of the history, and its option comes out of a variable. -/
def clearingEvents : List Event :=
  [.line "export FLAG=-c", .line "alias wipe='sudo sudo history'", .line "  wipe \"$FLAG\" ",
    .line "\t", .meanwhile (.empty Tree.noon) .stock (.failing "no time"), .line "echo 'open "]

example : (sample.run sample.newSession clearingEvents).2.history =
    ["wipe \"$FLAG\"", "echo 'open"] := by
  decide +kernel

end Machine

end Userland
