/-
  The working directory: going there and back, and how it is shown.

  1. *Program.*  `cd` goes to the place that its operand means, if a directory is there, and keeps
     two variables: where it has gone, and where it was before.  The prompt shows the working
     directory with a tilde for the home directory (`Session.displayPath`).

  2. *Specification.*  Into a directory that has just been made and back, by the dots or by the
     dash, and by the dash once more, leads where it should, and the variables agree
     (`Machine.mkdir_cd_and_back`); a `cd` that fails changes nothing.  What is shown of the working
     directory means the working directory, whatever `HOME` is (`Session.resolve_displayPath`).

  3. *The crux.*  The working directory of a session in use has its one spelling, so that it means
     itself when it is read as an operand (`Session.resolve_render`), which is what the dash does.
     The abbreviation is made where the text of the home directory ends and a slash follows, and
     there the tilde is replaced again: whether that text is a proper path does not matter.
-/
import Userland.Proofs.Command.Creation
import Userland.Proofs.Tree.Directories

namespace Userland

open Text

/-! ## Where a session is -/

namespace Session

variable {s : Session} {d : List String} {name : String}

/-- The session is in a directory, and both variables agree: the one for the working directory and
the one for the directory before it. -/
structure IsAt (s : Session) (here before : String) : Prop where
  path : s.path = here
  pwd : s.value? "PWD" = some here
  oldpwd : s.value? "OLDPWD" = some before

/-- After a change the session is at the target, and the dash leads back. -/
theorem isAt_changeDirectory (s : Session) (target : String) :
    (s.changeDirectory target).IsAt target s.path where
  path := rfl
  pwd := Entries.get?_put_self _ _ _
  oldpwd := by
    have hother : "OLDPWD" ≠ "PWD" := by decide
    refine (Entries.get?_put_of_ne hother).trans ?_
    exact Entries.get?_put_self _ _ _

/-- A path in its one spelling means itself. -/
theorem resolve_render (s : Session) (hd : Path.Canonical d) :
    s.resolve (Path.render d) = Path.render d := by
  obtain ⟨rest, hrest⟩ := Path.startsWith_slash_iff.mp (Path.startsWith_render d)
  have hroot : ∀ rest, "/" ≠ "~/" ++ rest := by
    intro rest h
    have hlist := congrArg String.toList h
    rw [String.toList_append] at hlist
    cases hlist
  have hplain : s.expandTilde ("/" ++ rest) = "/" ++ rest :=
    s.expandTilde_plain_append (by decide) (by decide) hroot rest
  rw [resolve, hrest, hplain, ← hrest, Path.normalize, Path.steps_render _ hd]

/-- Two dots lead out of a directory. -/
theorem resolve_dots (hs : s.path = Path.render (d ++ [name]))
    (h : Path.Canonical (d ++ [name])) : s.resolve ".." = Path.render d := by
  rw [s.resolve_part (by decide) (by decide), hs, Path.steps_render _ h, Path.walk,
    if_neg (by decide), if_pos rfl, List.dropLast_concat]

end Session

/-! ## Going to a directory -/

namespace CommandTable

open Command (cdTarget)

variable {s : Scene} {operand target here name : String} {d : List String}

theorem dispatch_cd (arguments : List String) (s : Scene) :
    stock.dispatch ("cd" :: arguments) s =
      match Command.changeDirectory s arguments with
      | .ok (output, session) => (.ok output, { s with session := session })
      | .error fault => (.error ⟨"cd", fault⟩, s) := by
  have haction : stock.action "cd" = Command.cd.action := rfl
  rw [dispatch, if_neg (by decide), haction, Command.cd, Action.run]
  cases Command.changeDirectory s arguments <;> rfl

/-- A `cd` that fails changes nothing. -/
theorem dispatch_cd_failed {arguments : List String} {failure : Failure} {after : Scene}
    (h : stock.dispatch ("cd" :: arguments) s = (.error failure, after)) : after = s := by
  rw [dispatch_cd] at h
  cases hmoved : Command.changeDirectory s arguments with
  | ok moved =>
    rw [hmoved] at h
    cases h
  | error fault =>
    rw [hmoved] at h
    exact (Prod.mk.inj h).2.symm

/-- `cd` with an operand succeeds and says something, and the session goes from one directory to
another one. -/
structure Goes (operand : String) (said : Output) (here there : String) (s s' : Scene) : Prop where
  run : stock.dispatch ["cd", operand] s = (.ok said, s')
  isAt : s'.session.IsAt there here
  tree : s'.tree = s.tree

/-- Where a directory is, the session goes. -/
theorem goes_of_directory {echo : Bool}
    (htarget : cdTarget s.session [operand] = .ok (target, echo))
    (hdir : s.tree.isDirectory (s.resolve target) = true) :
    ∃ s', Goes operand (if echo then .text (s.resolve target) else .silent) s.session.path
      (s.resolve target) s s' := by
  refine ⟨{ s with session := s.session.changeDirectory (s.resolve target) }, ?_,
    s.session.isAt_changeDirectory _, rfl⟩
  obtain ⟨a, es, hfind⟩ := Tree.isDirectoryAt_iff.mp hdir
  have hnode : s.tree.get? (s.resolve target) = some (.directory a es) := by
    rw [Tree.get?_eq, hfind]
  rw [dispatch_cd, Command.changeDirectory, htarget]
  simp only [bind, Except.bind, hnode]
  rfl

/-- The dash leads back, and says where to. -/
theorem goes_back (hs : s.session.IsAt here (Path.render d)) (hd : Path.Canonical d)
    (hdir : s.tree.isDirectory (Path.render d) = true) :
    ∃ s', Goes "-" (.text (Path.render d)) here (Path.render d) s s' := by
  have hself : s.resolve (Path.render d) = Path.render d := s.session.resolve_render hd
  have htarget : cdTarget s.session ["-"] = .ok (Path.render d, true) := by
    rw [cdTarget, hs.oldpwd]
  have hgoes := goes_of_directory htarget (by rwa [hself])
  rwa [hself, if_pos rfl, hs.path] at hgoes

/-- Two dots lead back, too. -/
theorem goes_up (hs : s.session.path = Path.render (d ++ [name]))
    (hd : Path.Canonical (d ++ [name])) (hdir : s.tree.isDirectory (Path.render d) = true) :
    ∃ s', Goes ".." .silent s.session.path (Path.render d) s s' := by
  have hup : s.resolve ".." = Path.render d := Session.resolve_dots hs hd
  have htarget : cdTarget s.session [".."] = .ok ("..", false) := rfl
  have hgoes := goes_of_directory htarget (by rwa [hup])
  rwa [hup] at hgoes

/-- A plain name of a directory leads into it. -/
theorem goes_into (hs : s.session.path = Path.render d) (hd : Path.Canonical d)
    (hname : IsPlainName name) (hdir : s.tree.isDirectory (Path.render (d ++ [name])) = true) :
    ∃ s', Goes name .silent (Path.render d) (Path.render (d ++ [name])) s s' := by
  have hin : s.resolve name = Path.render (d ++ [name]) := Session.resolve_plainName hs hd hname
  have htarget : cdTarget s.session [name] = .ok (name, false) := by
    rw [cdTarget]
    rintro rfl
    exact absurd hname.not_option (by decide)
  have hgoes := goes_of_directory htarget (by rwa [hin])
  rwa [hin, if_neg Bool.false_ne_true, hs] at hgoes

/-- `mkdir` with one plain name that is free. -/
theorem dispatch_mkdir {now : Timestamp} (h : HasRoom s s.tree d name) (hname : IsPlainName name)
    (hclock : s.clock.now = .ok now) :
    stock.dispatch ["mkdir", name] s = (.ok .silent,
      { s with tree := s.tree.put (d ++ [name]) (Tree.freshDirectory s.session.user now) }) := by
  have hmade : Command.mkdir.action.run s [name] = (.ok .silent,
      { s with tree := s.tree.put (d ++ [name]) (Tree.freshDirectory s.session.user now) }) :=
    Creation.run_eq (c := ⟨.directory, name, s.clock⟩) h hname hclock
  have haction : stock.action "mkdir" = Command.mkdir.action := rfl
  rw [dispatch, if_neg (by decide), haction, hmade]
  rfl

/-- What leads out of a directory, and what is said on the way: two dots say nothing, and the dash
says where it leads. -/
def waysOut (outside : String) : List (String × Output) := [("..", .silent), ("-", .text outside)]

/-- From a directory each of these ways leads out into the one above. -/
theorem goes_out (hs : s.session.IsAt (Path.render (d ++ [name])) (Path.render d))
    (hd : Path.Canonical (d ++ [name])) (hdir : s.tree.isDirectory (Path.render d) = true) :
    ∀ way ∈ waysOut (Path.render d), ∃ s',
      Goes way.1 way.2 (Path.render (d ++ [name])) (Path.render d) s s' := by
  have hback := goes_back hs (Path.canonical_append.mp hd).1 hdir
  have hup := goes_up hs.path hd hdir
  rw [hs.path] at hup
  exact List.forall_mem_cons.mpr ⟨hup, List.forall_mem_singleton.mpr hback⟩

/-- Whichever way the session goes out, the dash leads in again. -/
theorem goes_out_and_in (hs : s.session.IsAt (Path.render (d ++ [name])) (Path.render d))
    (hd : Path.Canonical (d ++ [name]))
    (hdir : s.tree.isDirectory (Path.render (d ++ [name])) = true) :
    ∀ way ∈ waysOut (Path.render d), ∃ outside again,
      Goes way.1 way.2 (Path.render (d ++ [name])) (Path.render d) s outside ∧
        Goes "-" (.text (Path.render (d ++ [name]))) (Path.render d) (Path.render (d ++ [name]))
          outside again := by
  have habove : s.tree.isDirectory (Path.render d) = true := by
    rw [Tree.isDirectory, Tree.place_render hd] at hdir
    rw [Tree.isDirectory, Tree.place_render (Path.canonical_append.mp hd).1]
    exact Tree.isDirectoryAt_above (List.prefix_append d [name]) hdir
  intro way hway
  obtain ⟨outside, hout⟩ := goes_out hs hd habove way hway
  obtain ⟨again, hback⟩ := goes_back hout.isAt hd (by rwa [hout.tree])
  exact ⟨outside, again, hout, hback⟩

/-- A plain name that is free becomes an empty directory, and leads into it. -/
theorem mkdir_goes_into {now : Timestamp} (h : HasRoom s s.tree d name) (hname : IsPlainName name)
    (hclock : s.clock.now = .ok now) :
    ∃ made inside, stock.dispatch ["mkdir", name] s = (.ok .silent, made) ∧
      Goes name .silent (Path.render d) (Path.render (d ++ [name])) made inside ∧
      inside.tree.list (Path.render (d ++ [name])) = .ok [] := by
  have hplace : Tree.place (Path.render (d ++ [name])) = d ++ [name] :=
    Tree.place_render (h.canonical.concat hname.isName)
  have hmkdir := dispatch_mkdir h hname hclock
  have hnew : (s.tree.put (d ++ [name]) (Tree.freshDirectory s.session.user now)).find?
      (d ++ [name]) = some (Tree.freshDirectory s.session.user now) :=
    Tree.find?_put_self (by simp) (by rw [List.dropLast_concat]; exact h.directory) _
  -- only that the directory is there and empty matters from here on
  generalize s.tree.put (d ++ [name]) (Tree.freshDirectory s.session.user now) = made
    at hmkdir hnew
  have hthere : made.isDirectory (Path.render (d ++ [name])) = true := by
    rw [Tree.isDirectory, hplace, Tree.isDirectoryAt, hnew]
    rfl
  obtain ⟨inside, hinto⟩ := goes_into (s := { s with tree := made }) h.path h.canonical hname hthere
  have hempty : inside.tree.find? (Tree.place (Path.render (d ++ [name]))) =
      some (.directory (Tree.freshDirectory s.session.user now).attributes []) := by
    rw [hinto.tree, hplace, hnew]
    rfl
  exact ⟨_, inside, hmkdir, hinto, Tree.list_eq_ok_iff.mpr ⟨_, hempty⟩⟩

end CommandTable

/-! ## On a machine in use -/

namespace Machine

open CommandTable (Goes waysOut stock)

/-- Whenever the working directory of a session is there and the clock works, a directory with a
plain name that is free is made in it silently.  `cd` leads into it: it is the working directory, as
`pwd` says, and is empty.  The dots lead back, and so does the dash, and from there the dash leads
in again, with both variables right at all times.  A `cd` that fails changes no scene. -/
theorem mkdir_cd_and_back {c : Config} {clock : Clock}
    (hconfig : c.problem? = none) {m : Machine} (hboot : boot c clock = .ok m)
    {events : List Event} {now : Machine} {s : Session}
    (hrun : m.run m.newSession events = (now, s)) {es : Entries Node}
    (hlist : now.tree.list s.path = .ok es) {time : Timestamp} (hclock : now.clock.now = .ok time)
    {name : String} (hname : IsPlainName name) (hfree : name ∉ Entries.names es) :
    let there := Path.normalize s.path name
    (∃ made inside, stock.dispatch ["mkdir", name] (now.scene s) = (.ok .silent, made) ∧
      Goes name .silent s.path there made inside ∧
      stock.dispatch ["pwd"] inside = (.ok (.text there), inside) ∧
      inside.tree.list there = .ok [] ∧
      ∀ way ∈ waysOut s.path, ∃ outside again,
        Goes way.1 way.2 there s.path inside outside ∧
        Goes "-" (.text there) s.path there outside again) ∧
    ∀ arguments scene failure after,
      stock.dispatch ("cd" :: arguments) scene = (.error failure, after) → after = scene := by
  intro there
  have hsound := sound_of_run hconfig hboot hrun
  have hpath : s.path = Path.render (Tree.place s.path) := hsound.normalized.symm
  have hcanonical : Path.Canonical (Tree.place s.path) := Tree.canonical_place s.path
  obtain ⟨a, hdir⟩ := Tree.list_eq_ok_iff.mp hlist
  -- the session is where its one spelling says, and there the name is free
  have hroom : HasRoom (now.scene s) now.tree (Tree.place s.path) name := by
    refine ⟨hpath, hcanonical, Tree.isDirectoryAt_iff.mpr ⟨a, es, hdir⟩, ?_⟩
    rw [Tree.find?_concat hdir, Entries.get?_eq_none_iff]
    exact hfree
  have hthere : there = Path.render (Tree.place s.path ++ [name]) := by
    rw [← Path.normalize_name hcanonical hname.isName, ← hpath]
  obtain ⟨made, inside, hmkdir, hinto, hempty⟩ :=
    CommandTable.mkdir_goes_into hroom hname hclock
  have hpwd : stock.dispatch ["pwd"] inside = (.ok (.text inside.session.path), inside) := by
    rw [CommandTable.dispatch, if_neg (by decide)]
    rfl
  have hin : inside.tree.isDirectory (Path.render (Tree.place s.path ++ [name])) = true := by
    obtain ⟨b, hfind⟩ := Tree.list_eq_ok_iff.mp hempty
    exact Tree.isDirectoryAt_iff.mpr ⟨b, [], hfind⟩
  -- from inside each way leads out, and the dash in again
  have hways := CommandTable.goes_out_and_in hinto.isAt (hcanonical.concat hname.isName) hin
  rw [hinto.isAt.path] at hpwd
  rw [← hthere] at hinto hpwd hempty hways
  rw [← hpath] at hinto hways
  exact ⟨⟨made, inside, hmkdir, hinto, hpwd, hempty, hways⟩,
    fun arguments scene failure after h => CommandTable.dispatch_cd_failed h⟩

/-- A user leaves home for the root. -/
def travelEvents : List Event := [.line "mkdir x", .line "cd /"]

/-- A directory whose name begins with a tilde, in the root. -/
theorem sample_mkdir_cd_and_back :
    sampleConfig.problem? = none ∧ IsPlainName "~x" ∧
      ∃ m, boot sampleConfig (.showing Tree.noon 60) = .ok m ∧
        let (now, s) := m.run m.newSession travelEvents
        (∃ made inside, stock.dispatch ["mkdir", "~x"] (now.scene s) = (.ok .silent, made) ∧
          Goes "~x" .silent "/" "/~x" made inside ∧
          stock.dispatch ["pwd"] inside = (.ok (.text "/~x"), inside) ∧
          inside.tree.list "/~x" = .ok [] ∧
          ∀ way ∈ waysOut "/", ∃ outside again,
            Goes way.1 way.2 "/~x" "/" inside outside ∧
            Goes "-" (.text "/~x") "/" "/~x" outside again) ∧
        ∀ arguments scene failure after,
          stock.dispatch ("cd" :: arguments) scene = (.error failure, after) → after = scene := by
  have hconfig : sampleConfig.problem? = none := by decide
  have hname : IsPlainName "~x" := ⟨by decide, by decide, by decide⟩
  have hruns : (boot sampleConfig (.showing Tree.noon 60)).toOption.map (fun m =>
      let (now, s) := m.run m.newSession travelEvents
      (s.path, now.clock.now.toOption,
        (now.tree.list s.path).toOption.map fun es => decide ("~x" ∈ Entries.names es))) =
          some ("/", some Tree.noon, some false) := by
    decide +kernel
  refine ⟨hconfig, hname, ?_⟩
  cases hboot : boot sampleConfig (.showing Tree.noon 60) with
  | error fault =>
    rw [hboot] at hruns
    cases hruns
  | ok m =>
    rw [hboot] at hruns
    refine ⟨m, rfl, ?_⟩
    simp only [Except.toOption, Option.map_some, Option.some.injEq] at hruns
    generalize hrun : m.run m.newSession travelEvents = done at hruns ⊢
    obtain ⟨now, s⟩ := done
    obtain ⟨hpath, htime, hnames⟩ : _ ∧ _ ∧ _ := by simpa only [Prod.mk.injEq] using hruns
    cases hlist : now.tree.list s.path with
    | error fault =>
      rw [hlist] at hnames
      cases hnames
    | ok es =>
      rw [hlist] at hnames
      have hfree : "~x" ∉ Entries.names es :=
        of_decide_eq_false (Option.some.inj hnames)
      cases hclock : now.clock.now with
      | error fault =>
        rw [hclock] at htime
        cases htime
      | ok time =>
        have hdone := mkdir_cd_and_back hconfig hboot hrun hlist hclock hname hfree
        have hthere : Path.normalize "/" "~x" = "/~x" := by decide
        dsimp only at hdone
        rwa [hpath, hthere] at hdone

end Machine

/-! ## How the working directory is shown -/

namespace Session

/-- The working directory is shown as it is, or with a tilde for the home directory before its end
or before a slash. -/
theorem displayPath_cases (s : Session) :
    s.displayPath = s.path ∨
      ∃ rest, s.path = s.home ++ rest ∧ s.displayPath = "~" ++ rest ∧
        (rest = "" ∨ ∃ below, rest = "/" ++ below) := by
  rw [displayPath]
  split
  · exact .inl rfl
  split
  · next hhome => exact .inr ⟨"", by rw [hhome, String.append_empty], rfl, .inl rfl⟩
  split
  · next rest hrest =>
    split
    · next hslash =>
      exact .inr ⟨rest, Path.after?_eq_some_iff.mp hrest, rfl,
        .inr (Path.startsWith_slash_iff.mp hslash)⟩
    · exact .inl rfl
  · exact .inl rfl

/-- Whatever the home directory of a session is, what is shown of a working directory in its one
spelling means the working directory. -/
theorem resolve_displayPath {s : Session} (h : Path.normalize "/" s.path = s.path) :
    s.resolve s.displayPath = s.path := by
  have hself : Path.normalize s.path s.path = s.path := by
    rw [← h, Path.normalize_normalize]
  rcases s.displayPath_cases with hshown | ⟨rest, hpath, hshown, rfl | ⟨below, rfl⟩⟩
  · rw [hshown, ← h]
    exact s.resolve_render (Path.canonical_steps "/" s.path)
  · rw [String.append_empty] at hpath hshown
    rw [hshown, resolve, expandTilde_home, ← hpath, hself]
  · have hbelow : "~" ++ ("/" ++ below) = "~/" ++ below := by rw [← String.append_assoc]; rfl
    rw [hshown, hbelow, resolve, expandTilde_below_home, String.append_assoc, ← hpath, hself]

/-- An empty home directory leaves a tilde before the whole path. -/
theorem sample_resolve_displayPath :
    let s := ({ ofConfig {} with path := "/src/d" } : Session).setVariable "HOME" ""
    Path.normalize "/" s.path = s.path ∧ s.displayPath = "~/src/d" ∧
      s.resolve s.displayPath = s.path := by
  intro s
  have h : Path.normalize "/" s.path = s.path := by decide
  exact ⟨h, by decide, resolve_displayPath h⟩

end Session

end Userland
