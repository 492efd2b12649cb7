/-
  What `alias` keeps of a quoted definition.

  1. *Program.*  The line `alias name='meaning'` is split into words, which takes the quotes away,
     and the command puts its arguments together again, cuts them at the first equals sign, and
     takes blanks, single quotes and double quotes off both ends of what follows.

  2. *Specification.*  Whatever stands between the quotes, the line succeeds, and defines the name
     as that text without the blanks around it and then without the double quotes around it.  So the
     text is kept exactly when it neither begins nor ends with a double quote
     (`stripWhile_eq_self_iff`); one that does was part of the text, since the quotes around the
     definition are gone by then.  What has been stored is what the command shows.

  3. *The crux.*  Neither expansion nor the splitting looks between single quotes, and an identifier
     is read as it is, so that the command gets one argument with the text in it
     (`Line.words_quoted_assignment`).
-/
import Userland.Proofs.Alias
import Userland.Proofs.Command.Export
import Userland.Proofs.Line.Quote

namespace Userland

open Text

/-! ## Taking characters off both ends -/

namespace Text

variable {p : Char → Bool} {cs : List Char}

theorem stripWhile_sublist (p : Char → Bool) (cs : List Char) : (stripWhile p cs).Sublist cs :=
  (List.rdropWhile_prefix p _).sublist.trans (List.dropWhile_sublist p)

/-- If nothing is taken off in the end, nothing is taken off at the beginning either. -/
theorem stripWhile_eq_self_iff_each :
    stripWhile p cs = cs ↔ cs.dropWhile p = cs ∧ cs.rdropWhile p = cs := by
  constructor
  · intro h
    -- the second cut cannot make up for the first: what is left would be too short
    have hshort : cs.length ≤ (cs.dropWhile p).length := by
      conv_lhs => rw [← h]
      exact (List.rdropWhile_prefix p _).length_le
    have hfirst : cs.dropWhile p = cs := (List.dropWhile_sublist p).eq_of_length_le hshort
    refine ⟨hfirst, ?_⟩
    rw [stripWhile, hfirst] at h
    exact h
  · rintro ⟨hfirst, hlast⟩
    rw [stripWhile, hfirst]
    exact hlast

/-- Nothing is taken off exactly when neither end is to go. -/
theorem stripWhile_eq_self_iff :
    stripWhile p cs = cs ↔ (∀ c ∈ cs.head?, p c = false) ∧ ∀ c ∈ cs.getLast?, p c = false := by
  rw [stripWhile_eq_self_iff_each]
  refine and_congr ?_ ?_
  · cases cs <;> simp [List.dropWhile_eq_self_iff]
  · rw [List.rdropWhile_eq_self_iff]
    constructor
    · intro h c hc
      obtain ⟨hne, rfl⟩ := List.mem_getLast?_eq_getLast hc
      exact Bool.eq_false_iff.mpr (h hne)
    · intro h hne
      exact Bool.eq_false_iff.mp (h _ (List.getLast?_eq_some_getLast hne))

theorem stripWhile_eq_self_of_forall (h : ∀ c ∈ cs, p c = false) : stripWhile p cs = cs :=
  stripWhile_eq_self_iff.mpr
    ⟨fun c hc => h c (List.mem_of_mem_head? hc), fun c hc => h c (List.mem_of_mem_getLast? hc)⟩

/-- For one character: nothing is taken off a text that neither begins nor ends with it. -/
theorem stripWhile_char_eq_self_iff {c : Char} {text : String} :
    stripWhile (· = c) text.toList = text.toList ↔
      startsWith c text = false ∧ endsWith c text = false := by
  rw [stripWhile_eq_self_iff, startsWith, endsWith]
  refine and_congr ?_ ?_
  · cases text.toList.head? <;> simp
  · cases text.toList.getLast? <;> simp

end Text

/-! ## The line -/

namespace Line

/-- Characters that are nothing special are added to the word, which they begin if there is none. -/
theorem read_letters {c : Char} {cs : List Char} (hletters : Unquoted (c :: cs))
    (hblank : ∀ d ∈ c :: cs, isBlank d = false) (complete : List String) (word : Option String) :
    (c :: cs).foldl Reading.next ⟨complete, word, .bare⟩ =
      ⟨complete, some (word.getD "" ++ String.ofList (c :: cs)), .bare⟩ := by
  -- from the first character, which makes sure that there is a word
  induction cs generalizing c word with
  | nil =>
    obtain ⟨hquote, hbackslash⟩ := hletters c (List.mem_singleton_self c)
    have hword : (word.getD "").push c = word.getD "" ++ String.ofList [c] := by
      apply String.toList_inj.mp
      simp
    rw [List.foldl_cons, List.foldl_nil,
      next_letter hquote hbackslash (hblank c (List.mem_singleton_self c)), hword]
  | cons d cs ih =>
    obtain ⟨⟨hquote, hbackslash⟩, hmore⟩ := List.forall_mem_cons.mp hletters
    obtain ⟨hfirst, hrest⟩ := List.forall_mem_cons.mp hblank
    have hword : (word.getD "").push c ++ String.ofList (d :: cs) =
        word.getD "" ++ String.ofList (c :: d :: cs) := by
      apply String.toList_inj.mp
      simp
    rw [List.foldl_cons, next_letter hquote hbackslash hfirst, ih hmore hrest, Option.getD_some,
      hword]

variable {environment : Entries String} {text name value : String}

/-- Two plain texts make one. -/
theorem Plain.append {more : String} (h : Plain text) (hmore : Plain more) :
    Plain (text ++ more) := by
  rw [Plain, String.toList_append, List.mem_append, not_or]
  exact ⟨List.forall_mem_append.mpr ⟨h.1, hmore.1⟩, h.2, hmore.2⟩

/-- The characters of an identifier are neither quotes, nor backslashes, nor dollar signs. -/
theorem plain_identifier (hname : IsIdentifier name) : Plain name := by
  refine ⟨fun c hc => ?_, not_mem_of_not_isNameChar hname (by decide)⟩
  have hletter := isNameChar_of_mem hname c hc
  refine ⟨?_, ne_of_isNameChar hletter (by decide)⟩
  rw [← Bool.not_eq_true, isQuote_iff, not_or]
  exact ⟨ne_of_isNameChar hletter (by decide), ne_of_isNameChar hletter (by decide)⟩

/-- A text in single quotes is kept by expansion, also behind a plain text. -/
theorem expand_plain_quote (h : Plain text) (value : String) :
    expand environment (text ++ quote value) = text ++ quote value := by
  have hline : text ++ quote value = String.ofList (text.toList ++ (quote value).toList) := by
    apply String.toList_inj.mp
    simp
  have hquoted : Quiet .start (quote value).toList := by
    rw [quote, String.toList_ofList, ← List.append_nil (quotedChars _)]
    exact quiet_quotedChars _ (quiet_nil .start)
  rw [hline, expand_plain_append environment h.1 h.2, String.ofList_toList, String.ofList_toList,
    (expand_eq_self_iff_quiet _).mpr hquoted environment, String.ofList_append,
    String.ofList_toList, String.ofList_toList]

/-- A text without single quotes is quoted by putting it between two of them. -/
theorem quote_of_not_mem (h : '\'' ∉ value.toList) : quote value = "'" ++ value ++ "'" := by
  have hsame : ∀ c ∈ value.toList, quotedChar c = [c] := by
    intro c hc
    rw [quotedChar, if_neg]
    rintro rfl
    exact h hc
  have hkept : value.toList.flatMap quotedChar = value.toList := by
    rw [List.flatMap_congr hsame, List.flatMap_singleton']
  apply String.toList_inj.mp
  rw [quote, String.toList_ofList, quotedChars, hkept]
  simp

/-- An identifier is one word. -/
theorem read_identifier (hname : IsIdentifier name) (complete : List String) :
    name.toList.foldl Reading.next ⟨complete, none, .bare⟩ = ⟨complete, some name, .bare⟩ := by
  have hplain := (plain_identifier hname).1
  have hblank : ∀ c ∈ name.toList, isBlank c = false := fun c hc =>
    isBlank_of_isNameChar (isNameChar_of_mem hname c hc)
  obtain ⟨c, cs, hchars, -⟩ := hname
  rw [hchars] at hplain hblank ⊢
  rw [read_letters hplain hblank, ← hchars, String.ofList_toList, Option.getD_none,
    String.empty_append]

/-- The beginning of the line is read as the command and the name, which may go on. -/
theorem read_alias (hname : IsIdentifier name) :
    Reading.ofChars ("alias " ++ name).toList = ⟨["alias"], some name, .bare⟩ := by
  have hcommand : "alias ".toList.foldl Reading.next .start = ⟨["alias"], none, .bare⟩ := by
    decide
  rw [Reading.ofChars, String.toList_append, List.foldl_append, hcommand, read_identifier hname]

theorem plain_alias (hname : IsIdentifier name) : Plain ("alias " ++ name) :=
  Plain.append (by decide) (plain_identifier hname)

theorem words_alias (hname : IsIdentifier name) :
    words (expand environment ("alias " ++ name)) = .ok ["alias", name] := by
  have hplain := plain_alias hname
  have hkept := expand_plain environment hplain.1 hplain.2
  rw [String.ofList_toList] at hkept
  rw [hkept, words, read_alias hname]
  rfl

/-- The quoted text becomes a part of the word that has the equals sign. -/
theorem words_quoted_assignment (hname : IsIdentifier name) (value : String) :
    words (expand environment ("alias " ++ name ++ "=" ++ quote value)) =
      .ok ["alias", name ++ "=" ++ value] := by
  have hplain : Plain ("alias " ++ name ++ "=") := (plain_alias hname).append (by decide)
  have hequals : "=".toList.foldl Reading.next ⟨["alias"], some name, .bare⟩ =
      ⟨["alias"], some (name ++ "="), .bare⟩ := rfl
  have hread : Reading.ofChars ("alias " ++ name ++ "=" ++ quote value).toList =
      ⟨["alias"], some (name ++ "=" ++ value), .bare⟩ := by
    rw [String.toList_append, String.toList_append, Reading.ofChars, List.foldl_append,
      List.foldl_append, ← Reading.ofChars, read_alias hname, hequals, quote, String.toList_ofList,
      read_quotedChars, Option.getD_some, String.ofList_toList]
  rw [expand_plain_quote hplain, words, hread]
  rfl

end Line

/-! ## The command -/

namespace Command

variable {name value : String}

/-- An identifier has no blanks to lose. -/
theorem trim_identifier (hname : IsIdentifier name) : trim name = name := by
  have hblank : ∀ c ∈ name.toList, isBlank c = false := fun c hc =>
    Line.isBlank_of_isNameChar (Line.isNameChar_of_mem hname c hc)
  rw [trim, stripWhile_eq_self_of_forall hblank, String.ofList_toList]

/-- Without single quotes in it, a definition loses its blanks and its double quotes at the ends. -/
theorem unquoteAlias_eq (h : '\'' ∉ value.toList) :
    unquoteAlias value = String.ofList (stripWhile (· = '"') (trim value).toList) := by
  have hsublist : (trim value).toList.Sublist value.toList := by
    rw [trim, String.toList_ofList]
    exact stripWhile_sublist isBlank _
  have hnone : ∀ c ∈ (trim value).toList, decide (c = '\'') = false := fun c hc =>
    decide_eq_false fun he => h (hsublist.subset (he ▸ hc))
  rw [unquoteAlias, stripWhile_eq_self_of_forall hnone]

/-- One argument with an equals sign defines the name in front of the first of them. -/
theorem defineAlias_assignment (s : Scene) (hname : IsIdentifier name) (value : String) :
    defineAlias s [name ++ "=" ++ value] = (.ok .silent,
      { s.session with aliases := Entries.put s.session.aliases name (unquoteAlias value) }) := by
  have hne : name ≠ "" := by
    rintro rfl
    obtain ⟨c, cs, hchars, -⟩ := hname
    cases hchars
  have hslash : '/' ∉ name.toList := Line.not_mem_of_not_isNameChar hname (by decide)
  rw [defineAlias, String.intercalate_singleton, if_neg (by simp), cut?_assignment hname]
  simp only [trim_identifier hname, hne, hslash, or_self, if_false]

/-- One argument without an equals sign shows what the name means. -/
theorem defineAlias_name (s : Scene) (hname : IsIdentifier name) {meaning : String}
    (hmeaning : Entries.get? s.session.aliases name = some meaning) :
    defineAlias s [name] = (.ok (.text (aliasLine name meaning)), s.session) := by
  have hcut : cut? '=' name = none :=
    cut?_of_not_mem (Line.not_mem_of_not_isNameChar hname (by decide))
  have hshown : showAliases s.session [name] = .ok (.text (aliasLine name meaning)) := by
    have hdefinition : definitionOf s.session name = .ok (aliasLine name meaning) := by
      rw [definitionOf, hmeaning]
    rw [showAliases, List.mapM_cons, List.mapM_nil, hdefinition]
    rfl
  rw [defineAlias, String.intercalate_singleton, if_neg (by simp), hcut, hshown]

end Command

/-! ## From the line to the answer -/

namespace CommandTable

open Command

variable {s : Scene} {name value : String}

/-- A line whose words begin with `alias`, while that is no alias, is the command. -/
theorem execute_defineAlias (hfree : Entries.get? s.session.aliases "alias" = none) {line : String}
    {arguments : List String}
    (hwords : Line.words (Line.expand s.session.environment line) = .ok ("alias" :: arguments)) :
    stock.execute line s = stock.dispatch ("alias" :: arguments) s := by
  have hkept : s.session.expandAlias ("alias" :: arguments) = "alias" :: arguments := by
    rw [Session.expandAlias, hfree]
  rw [execute, hwords]
  simp only [hkept]

/-- What the command does to the session is what the line does to it, and no other part of the scene
changes. -/
theorem dispatch_defineAlias {arguments : List String} {output : Output} {session : Session}
    (h : defineAlias s arguments = (.ok output, session)) :
    stock.dispatch ("alias" :: arguments) s = (.ok output, { s with session }) := by
  have haction : stock.action "alias" = .session defineAlias := rfl
  rw [dispatch, if_neg (by decide), haction, Action.run, h]
  rfl

/-- In any session in which `alias` is no alias, the line `alias name='value'` succeeds and defines
the name as the value without the blanks around it and without the double quotes around that.  This
is the value without the blanks exactly if there are no such quotes.  Nothing else changes, and then
`alias name` shows what has been stored; as a line it does so unless the name is `alias` itself. -/
theorem execute_alias_assignment (hfree : Entries.get? s.session.aliases "alias" = none)
    (hname : IsIdentifier name) (hvalue : '\'' ∉ value.toList) :
    let stored := String.ofList (stripWhile (· = '"') (trim value).toList)
    let after := { s with session.aliases := Entries.put s.session.aliases name stored }
    stock.execute ("alias " ++ name ++ "='" ++ value ++ "'") s = (.ok .silent, after) ∧
      (stored = trim value ↔
        startsWith '"' (trim value) = false ∧ endsWith '"' (trim value) = false) ∧
      Entries.get? after.session.aliases name = some stored ∧
      (∀ other, other ≠ name →
        Entries.get? after.session.aliases other = Entries.get? s.session.aliases other ∧
        ∀ (i : Nat) (x : String), after.session.aliases[i]? = some (other, x) ↔
          s.session.aliases[i]? = some (other, x)) ∧
      stock.dispatch ["alias", name] after = (.ok (.text (aliasLine name stored)), after) ∧
      (name ≠ "alias" →
        stock.execute ("alias " ++ name) after = (.ok (.text (aliasLine name stored)), after)) := by
  intro stored after
  have hstored : Entries.get? after.session.aliases name = some stored :=
    Entries.get?_put_self _ _ _
  have hshown : stock.dispatch ["alias", name] after =
      (.ok (.text (aliasLine name stored)), after) :=
    dispatch_defineAlias (defineAlias_name after hname hstored)
  refine ⟨?_, ?_, hstored, fun other hother => ?_, hshown, fun hne => ?_⟩
  · -- between the quotes there is no quote, so that this is how the value is quoted
    have hline : "alias " ++ name ++ "='" ++ value ++ "'" =
        "alias " ++ name ++ "=" ++ Line.quote value := by
      apply String.toList_inj.mp
      simp [Line.quote_of_not_mem hvalue]
    have hunquoted : unquoteAlias value = stored := unquoteAlias_eq hvalue
    rw [hline, execute_defineAlias hfree (Line.words_quoted_assignment hname value),
      dispatch_defineAlias (defineAlias_assignment s hname value), hunquoted]
  · rw [← String.toList_inj, String.toList_ofList, stripWhile_char_eq_self_iff]
  · exact ⟨Entries.get?_put_of_ne hother, fun i x => Entries.getElem?_put_of_ne hother i⟩
  · have hstill : Entries.get? after.session.aliases "alias" = none :=
      (Entries.get?_put_of_ne (Ne.symm hne)).trans hfree
    rw [execute_defineAlias hstill (Line.words_alias hname), hshown]

/-- A definition with quotes at its end and inside, a backslash, a dollar sign and an equals. -/
theorem sample_execute_alias_assignment :
    Entries.get? sampleScene.session.aliases "alias" = none ∧ IsIdentifier "q" ∧
      '\'' ∉ " \"$HOME\\ = \\\" x\"\" ".toList ∧ "q" ≠ "alias" ∧
      let stored := "$HOME\\ = \\\" x"
      let aliases := Entries.put sampleScene.session.aliases "q" stored
      let after := { sampleScene with session.aliases := aliases }
      stock.execute "alias q=' \"$HOME\\ = \\\" x\"\" '" sampleScene = (.ok .silent, after) ∧
        stock.execute "alias q" after = (.ok (.text "alias q='$HOME\\ = \\\" x'"), after) := by
  have hfree : Entries.get? sampleScene.session.aliases "alias" = none := by decide
  have hname : IsIdentifier "q" := isIdentifier_of_command (by decide)
  have hvalue : '\'' ∉ " \"$HOME\\ = \\\" x\"\" ".toList := by decide
  have hne : "q" ≠ "alias" := by decide
  obtain ⟨hset, -, -, -, -, hshown⟩ := execute_alias_assignment hfree hname hvalue
  have hstored : String.ofList (stripWhile (· = '"') (trim " \"$HOME\\ = \\\" x\"\" ").toList) =
      "$HOME\\ = \\\" x" := by decide
  rw [hstored] at hset hshown
  exact ⟨hfree, hname, hvalue, hne, hset, hshown hne⟩

/-- The double quotes in a definition are a part of it, and the last of them is lost. -/
theorem alias_loses_quote :
    Entries.get? sampleScene.session.aliases "alias" = none ∧ IsIdentifier "q" ∧
      '\'' ∉ "echo \"hi\"".toList ∧
      Entries.get? (stock.execute "alias q='echo \"hi\"'" sampleScene).2.session.aliases "q" =
        some "echo \"hi" ∧
      Entries.get? (stock.execute "alias q='echo \"hi\"'" sampleScene).2.session.aliases "q" ≠
        some (trim "echo \"hi\"") :=
  ⟨by decide, isIdentifier_of_command (by decide), by decide +kernel⟩

end CommandTable

end Userland
