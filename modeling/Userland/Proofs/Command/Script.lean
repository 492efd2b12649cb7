/-
  The strings that a script prints.

  1. *Program.*  From each line the blanks around it are taken away, then the semicolons at its end.
     If the call and a parenthesis are at the beginning and a parenthesis at the end, and what is
     between them begins and ends with the same quote, what is between the quotes is printed.

  2. *Specification.*  What is printed is, line by line and in order, the text of every line that is
     the call with a text between two quotes of one kind, and nothing of any other line.  This is
     what the whole string literals are exactly when no such text has the quote in it: a line with
     two strings and something between them is taken for one string
     (`literalCalls_collected`, `literalCalls_joins_strings`).

  3. *The crux.*  Both cuts take off known ends, so that each is undone by putting the ends back
     (`between?_eq_some_iff`).  Two readings of the lines, one of which reads less, print equally
     much only if they read the same lines (`Collected.of_length_le`).
-/
import Mathlib.Data.List.DropRight
import Userland.Command.Programming

namespace Userland

open Text

/-! ## The lines that are collected -/

namespace Command

/-- Without the blanks around it, the line is the call with a body between two quotes, and then any
number of semicolons. -/
def IsCallWith (call line : String) (quote : Char) (body : String) : Prop :=
  ∃ semicolons : Nat, (trim line).toList =
    call.toList ++ ['(', quote] ++ body.toList ++ [quote, ')'] ++ List.replicate semicolons ';'

/-- The line is a call with a body between quotes of one kind. -/
def CallsWith (call line body : String) : Prop :=
  ∃ quote, isQuote quote = true ∧ IsCallWith call line quote body

/-- The line is a call with one whole string: its quote does not come again inside it. -/
def CallsWithLiteral (call line body : String) : Prop :=
  ∃ quote, isQuote quote = true ∧ quote ∉ body.toList ∧ IsCallWith call line quote body

/-- The bodies that lines have, in the order of the lines; a line without one adds nothing. -/
inductive Collected (HasBody : String → String → Prop) : List String → List String → Prop
  | nil : Collected HasBody [] []
  | taken {line body : String} {rest bodies : List String} (hbody : HasBody line body)
      (h : Collected HasBody rest bodies) : Collected HasBody (line :: rest) (body :: bodies)
  | skipped {line : String} {rest bodies : List String} (hnone : ∀ body, ¬ HasBody line body)
      (h : Collected HasBody rest bodies) : Collected HasBody (line :: rest) bodies

section Collected

variable {HasBody HasBody' : String → String → Prop} {rows bodies bodies' : List String}

/-- A reader of single lines collects what it finds on each of them, in order. -/
theorem collected_filterMap {f : String → Option String}
    (hf : ∀ line body, f line = some body ↔ HasBody line body) (rows : List String) :
    Collected HasBody rows (rows.filterMap f) := by
  induction rows with
  | nil => exact .nil
  | cons line rest ih =>
    cases hline : f line with
    | none =>
      rw [List.filterMap_cons_none hline]
      refine .skipped (fun body hbody => ?_) ih
      rw [(hf line body).mpr hbody] at hline
      cases hline
    | some body =>
      rw [List.filterMap_cons_some hline]
      exact .taken ((hf line body).mp hline) ih

/-- What counts as a body need only agree on the lines that there are. -/
theorem Collected.congr (h : Collected HasBody rows bodies)
    (hsame : ∀ line ∈ rows, ∀ body, HasBody line body ↔ HasBody' line body) :
    Collected HasBody' rows bodies := by
  induction h with
  | nil => exact .nil
  | taken hbody _ ih =>
    obtain ⟨hfirst, hrest⟩ := List.forall_mem_cons.mp hsame
    exact .taken ((hfirst _).mp hbody) (ih hrest)
  | skipped hnone _ ih =>
    obtain ⟨hfirst, hrest⟩ := List.forall_mem_cons.mp hsame
    exact .skipped (fun body hbody => hnone body ((hfirst body).mpr hbody)) (ih hrest)

/-- What has a body in fewer lines collects no more. -/
theorem Collected.length_le (himp : ∀ line body, HasBody line body → HasBody' line body)
    (h : Collected HasBody rows bodies) (h' : Collected HasBody' rows bodies') :
    bodies.length ≤ bodies'.length := by
  induction h generalizing bodies' with
  | nil => exact Nat.zero_le _
  | taken hbody _ ih =>
    cases h' with
    | taken _ h' => exact Nat.succ_le_succ (ih h')
    | skipped hnone _ => exact absurd (himp _ _ hbody) (hnone _)
  | skipped _ _ ih =>
    cases h' with
    | taken _ h' => exact Nat.le_succ_of_le (ih h')
    | skipped _ h' => exact ih h'

/-- If it collects as much, then it has a body in the same lines. -/
theorem Collected.of_length_le (himp : ∀ line body, HasBody line body → HasBody' line body)
    (h : Collected HasBody rows bodies) (h' : Collected HasBody' rows bodies')
    (hlength : bodies'.length ≤ bodies.length) {line body : String} (hline : line ∈ rows)
    (hbody : HasBody' line body) : ∃ body', HasBody line body' := by
  induction h generalizing bodies' with
  | nil => cases hline
  | @taken first firstBody _ _ hfirst _ ih =>
    cases h' with
    | taken _ h' =>
      rcases List.mem_cons.mp hline with rfl | hline
      · exact ⟨firstBody, hfirst⟩
      · exact ih h' (Nat.le_of_succ_le_succ hlength) hline
    | skipped hnone _ => exact absurd (himp _ _ hfirst) (hnone _)
  | skipped _ hrest ih =>
    cases h' with
    | taken _ h' =>
      -- one body more on the other side cannot be made up for in the rest
      have hle := hrest.length_le himp h'
      rw [List.length_cons] at hlength
      omega
    | skipped hnone h' =>
      rcases List.mem_cons.mp hline with rfl | hline
      · exact absurd hbody (hnone body)
      · exact ih h' hlength hline

end Collected

/-! ## One line -/

/-- What stands between a beginning and a last character makes the line with them. -/
theorem between?_eq_some_iff {beginning middle cs : List Char} {last : Char} :
    between? beginning last cs = some middle ↔ cs = beginning ++ middle ++ [last] := by
  rw [between?, Option.bind_eq_bind, Option.bind_eq_some_iff]
  constructor
  · rintro ⟨rest, hrest, hlast⟩
    rw [List.isPrefixOf?_eq_some_iff_append_eq] at hrest
    split at hlast
    · next hend =>
      obtain ⟨front, rfl⟩ := List.getLast?_eq_some_iff.mp hend
      rw [List.dropLast_concat] at hlast
      rw [← hrest, ← Option.some.inj hlast, List.append_assoc]
    · cases hlast
  · rintro rfl
    refine ⟨middle ++ [last], ?_, ?_⟩
    · rw [List.isPrefixOf?_eq_some_iff_append_eq, List.append_assoc]
    · rw [if_pos List.getLast?_concat, List.dropLast_concat]

/-- Two quotes of one kind are taken off, one at each end. -/
theorem unquote?_eq_some_iff {cs middle : List Char} :
    unquote? cs = some middle ↔
      ∃ quote, isQuote quote = true ∧ cs = quote :: middle ++ [quote] := by
  cases cs with
  | nil => simp [unquote?]
  | cons first rest =>
    rw [unquote?]
    constructor
    · intro h
      split at h
      · next hquote => exact ⟨first, hquote, between?_eq_some_iff.mp h⟩
      · cases h
    · rintro ⟨quote, hquote, hcs⟩
      obtain ⟨rfl, -⟩ := List.cons.inj hcs
      rw [if_pos hquote]
      exact between?_eq_some_iff.mpr hcs

/-- What is left when a character has been taken off the end as often as it is there. -/
theorem dropEndWhile_eq_concat_iff {c last : Char} (hne : last ≠ c) {cs front : List Char} :
    dropEndWhile (· = c) cs = front ++ [last] ↔
      ∃ n, cs = front ++ [last] ++ List.replicate n c := by
  constructor
  · intro h
    have hcut : dropEndWhile (· = c) cs ++ cs.rtakeWhile (· = c) = cs :=
      List.rdropWhile_append_rtakeWhile
    have hend : cs.rtakeWhile (· = c) = List.replicate (cs.rtakeWhile (· = c)).length c :=
      List.eq_replicate_of_mem fun d hd => by simpa using List.mem_rtakeWhile_imp hd
    rw [h, hend] at hcut
    exact ⟨_, hcut.symm⟩
  · rintro ⟨n, rfl⟩
    have hend : ∀ d ∈ List.replicate n c, decide (d = c) = true := fun d hd =>
      decide_eq_true (List.eq_of_mem_replicate hd)
    rw [dropEndWhile, List.reverse_append, List.reverse_replicate,
      List.dropWhile_append_of_pos hend, List.reverse_concat,
      List.dropWhile_cons_of_neg (by simpa using hne), ← List.reverse_concat, List.reverse_reverse]

/-- A line has the body that stands between the quotes, if it is such a call. -/
theorem literalCall?_eq_some_iff {call line body : String} :
    literalCall? call line = some body ↔ CallsWith call line body := by
  have hbare : (trim line).toList = stripWhile isBlank line.toList := by
    rw [trim, String.toList_ofList]
  simp only [literalCall?, Option.map_eq_some_iff, Option.bind_eq_some_iff, between?_eq_some_iff,
    unquote?_eq_some_iff, dropEndWhile_eq_concat_iff (show ')' ≠ ';' by decide), ← hbare]
  constructor
  · rintro ⟨_, ⟨_, ⟨n, hline⟩, quote, hquote, rfl⟩, rfl⟩
    refine ⟨quote, hquote, n, ?_⟩
    rw [hline, String.toList_ofList]
    simp
  · rintro ⟨quote, hquote, n, hline⟩
    refine ⟨body.toList, ⟨quote :: body.toList ++ [quote], ⟨n, ?_⟩, quote, hquote, rfl⟩,
      String.ofList_toList⟩
    rw [hline]
    simp

/-- Of a call, the quote can be told. -/
theorem IsCallWith.quote_eq {call line body body' : String} {quote quote' : Char}
    (h : IsCallWith call line quote body) (h' : IsCallWith call line quote' body') :
    quote = quote' := by
  obtain ⟨n, h⟩ := h
  obtain ⟨n', h'⟩ := h'
  rw [h] at h'
  simp only [List.append_assoc, List.append_cancel_left_eq, List.cons_append, List.cons.injEq] at h'
  exact h'.2.1

/-- Of a call, the body can be told. -/
theorem CallsWith.body_eq {call line body body' : String} (h : CallsWith call line body)
    (h' : CallsWith call line body') : body = body' := by
  rw [← literalCall?_eq_some_iff] at h h'
  exact Option.some.inj (h.symm.trans h')

/-! ## All lines -/

theorem collected_literalCalls (call source : String) :
    Collected (CallsWith call) (lines source) (literalCalls call source) :=
  collected_filterMap (fun _ _ => literalCall?_eq_some_iff) (lines source)

/-- What is printed is whole strings, and all of them, exactly when no body has its quote in it. -/
theorem collected_literals_iff {call source : String} :
    Collected (CallsWithLiteral call) (lines source) (literalCalls call source) ↔
      ∀ line ∈ lines source, ∀ quote body, isQuote quote = true →
        IsCallWith call line quote body → quote ∉ body.toList := by
  have himp : ∀ line body, CallsWithLiteral call line body → CallsWith call line body :=
    fun _ _ ⟨quote, hquote, _, hcall⟩ => ⟨quote, hquote, hcall⟩
  have hcollected := collected_literalCalls call source
  constructor
  · intro hliteral line hline quote body hquote hcall
    obtain ⟨body', quote', hquote', hwhole, hcall'⟩ :=
      hliteral.of_length_le himp hcollected le_rfl hline ⟨quote, hquote, hcall⟩
    rwa [hcall.quote_eq hcall',
      CallsWith.body_eq ⟨quote, hquote, hcall⟩ ⟨quote', hquote', hcall'⟩]
  · intro hall
    refine hcollected.congr fun line hline body => ⟨?_, himp line body⟩
    rintro ⟨quote, hquote, hcall⟩
    exact ⟨quote, hquote, hall line hline quote body hquote hcall, hcall⟩

/-- A script prints, line by line, what stands between the quotes of each line that is nothing but a
call with a text between two quotes of one kind.  These are the whole strings, of the lines that are
nothing but a call with one string, exactly when none of the texts has its quote in it. -/
theorem literalCalls_collected (call source : String) :
    Collected (CallsWith call) (lines source) (literalCalls call source) ∧
      (Collected (CallsWithLiteral call) (lines source) (literalCalls call source) ↔
        ∀ line ∈ lines source, ∀ quote body, isQuote quote = true →
          IsCallWith call line quote body → quote ∉ body.toList) :=
  ⟨collected_literalCalls call source, collected_literals_iff⟩

example : literalCalls "print" " print('a');;\nprint(x)\nprint(\"b')" = ["a"] := by decide

/-- Two strings with something between them are taken for one, though the line is no call with one
whole string. -/
theorem literalCalls_joins_strings :
    literalCalls "print" "print('a' + 'b')" = ["a' + 'b"] ∧
      ¬ Collected (CallsWithLiteral "print") (lines "print('a' + 'b')")
        (literalCalls "print" "print('a' + 'b')") := by
  refine ⟨by decide, fun hliteral => ?_⟩
  have hcall : IsCallWith "print" "print('a' + 'b')" '\'' "a' + 'b" := ⟨0, by decide⟩
  have hline : "print('a' + 'b')" ∈ lines "print('a' + 'b')" := by decide
  have hwhole : '\'' ∉ "a' + 'b".toList :=
    collected_literals_iff.mp hliteral _ hline _ _ rfl hcall
  exact hwhole (by decide)

end Command

end Userland
