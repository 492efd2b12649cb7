/-
  The operations of more than one step, done in place.

  Making directories, copying and moving look at the tree again between their steps, and each step
  has changed the one tree there is before the next can fail.  Here they are written so: on path
  texts, with the tree as it stands at every exit.  Moving takes the node out before it puts it
  back, and the exit between the two has lost it.

  On a well-formed tree those exits are never taken: each operation done in place answers what the
  operation as a whole answers, and when it fails the tree is the one from before
  (`createDirectoriesInPlace_eq`, `copyInPlace_eq`, `moveInPlace_eq`).  For the making of
  directories the reason is that below a directory that has just been made nothing is in the way.
-/
import Userland.Proofs.Tree.Outcome

namespace Userland.Tree

/-- The answer of an operation that happens as a whole or not at all, and the tree after it. -/
def atOnce {α : Type} (t : Tree) : Except Fault (α × Tree) → Except Fault α × Tree
  | .ok (answer, t') => (.ok answer, t')
  | .error fault => (.error fault, t)

/-- The same for an operation whose answer is the tree alone. -/
def atOnceUnit (t : Tree) : Except Fault Tree → Except Fault Unit × Tree
  | .ok t' => (.ok (), t')
  | .error fault => (.error fault, t)

/-! ## Where a node lands, by text -/

/-- The landing path, found on the texts. -/
def landingText (t : Tree) (source destination : String) : Except Fault String :=
  let source := Path.normalize "/" source
  let destination := Path.normalize "/" destination
  if t.isDirectory destination then .ok (Path.normalize destination (Path.fileName source))
  else if t.isDirectory (Path.parent destination) then .ok destination
  else .error (.notFound destination)

theorem normalize_eq_render (path : String) :
    Path.normalize "/" path = Path.render (place path) := rfl

/-- Putting the paths together as texts and as steps comes to the same. -/
theorem landingText_eq (t : Tree) (source destination : String) :
    t.landingText source destination = t.landing source destination := by
  have hs := canonical_place source
  have hd := canonical_place destination
  -- the file name of the root is empty, and the root has no last step
  have hlast : Path.normalize (Path.render (place destination))
      (Path.fileName (Path.render (place source))) =
        Path.render (place destination ++ (place source).getLast?.toList) := by
    rw [Path.fileName_render hs]
    rcases List.eq_nil_or_concat' (place source) with h | ⟨above, name, h⟩
    · rw [h]
      exact (Path.normalize_empty hd).trans (by simp)
    · rw [h, List.getLast?_concat]
      exact Path.normalize_name hd (hs name (by simp [h]))
  simp only [landingText, normalize_eq_render, isDirectory, place_render hd,
    Path.parent_render hd, place_render hd.dropLast, landing, landingSteps]
  split
  · exact congrArg Except.ok hlast
  · split
    · rfl
    · rfl

/-! ## Moving -/

/-- Moves a node as a taking out and a putting back. -/
def moveInPlace (t : Tree) (source destination : String) : Except Fault String × Tree :=
  let source := Path.normalize "/" source
  if source = "/" then (.error (.invalidArgument "cannot move '/'"), t)
  else match t.get? source with
    | none => (.error (.notFound source), t)
    | some node =>
      match t.landingText source destination with
      | .error fault => (.error fault, t)
      | .ok target =>
        if target = source then (.error (sameFile (place source) (place target)), t)
        else if Path.isWithin target source then
          (.error (.invalidArgument
            ("cannot move " ++ quoted (place source) ++ " to a subdirectory of itself, " ++
              quoted (place target))), t)
        else match (t.get? target).bind
            (moveConflict? (place source) (place target) node.isDirectory) with
          | some fault => (.error fault, t)
          | none =>
            match t.remove source true with
            | .error fault => (.error fault, t)
            | .ok (moved, without) =>
              match without.insert (Path.parent target) (Path.fileName target) moved with
              -- the node is in neither place here
              | .error fault => (.error fault, without)
              | .ok t' => (.ok target, t')

/-- What is taken out does not stand above the place where it is put back. -/
theorem isDirectoryAt_drop {t : Tree} {s landed : List String} (hinside : ¬ s <+: landed)
    (hdir : t.isDirectoryAt landed.dropLast = true) :
    (t.drop s).isDirectoryAt landed.dropLast = true := by
  rw [(sameBut_drop t s).isDirectoryAt fun s' hs' h => ?_, hdir]
  rw [List.mem_singleton.mp hs'] at h
  exact hinside (h.trans (List.dropLast_prefix landed))

/-- All checks come before the removal, and the insertion after it cannot fail: the directory at
which the node lands is not within what was taken out. -/
theorem moveInPlace_eq {t : Tree} (ht : t.WellFormed) (source destination : String) :
    t.moveInPlace source destination = t.atOnce (t.move source destination) := by
  have hs := canonical_place source
  unfold moveInPlace move
  simp only [landingText_eq, normalize_eq_render, get?_eq, landing, place_render hs,
    Path.render_eq_root_iff hs]
  by_cases hroot : place source = []
  · rw [if_pos hroot, if_pos hroot]
    rfl
  · rw [if_neg hroot, if_neg hroot]
    cases hfind : t.find? (place source) with
    | none => rfl
    | some node =>
      simp only [bind, Except.bind]
      cases hland : t.landingSteps (place source) (place destination) with
      | error fault => rfl
      | ok landed =>
        obtain ⟨hcanon, hspec⟩ := landingSteps_spec ht hland
        obtain ⟨hne, hdir⟩ := hspec hroot
        -- from here on every check of a text is a check of the place that it spells
        simp only [Except.map, Path.render_inj hcanon hs, place_render hcanon,
          Path.isWithin_render hcanon hs, List.isPrefixOf_iff_prefix]
        by_cases hsame : landed = place source
        · rw [if_pos hsame, if_pos hsame]
          rfl
        · rw [if_neg hsame, if_neg hsame]
          by_cases hinside : place source <+: landed
          · rw [if_pos hinside, if_pos hinside]
            rfl
          · rw [if_neg hinside, if_neg hinside]
            cases (t.find? landed).bind
                (moveConflict? (place source) landed node.isDirectory) with
            | some fault => rfl
            | none =>
              have hremove : t.remove (Path.render (place source)) true =
                  .ok (node, t.drop (place source)) := by
                refine remove_eq_ok_iff.mpr ?_
                rw [place_render hs]
                exact ⟨hroot, hfind, fun _ => rfl, rfl⟩
              have hinsert := insert_render hcanon hne (isDirectoryAt_drop hinside hdir) node
              simp only [hremove, hinsert]
              rfl

/-! ## Copying -/

/-- Copies a node, with an entry for it in the directory above its landing path unless it is merged
into the directory that has the path. -/
def copyInPlace (t : Tree) (source destination : String) (recursive : Bool) (now : Timestamp) :
    Except Fault String × Tree :=
  let source := Path.normalize "/" source
  match t.get? source with
  | none => (.error (.notFound source), t)
  | some node =>
    if node.isDirectory && !recursive then
      (.error (.invalidArgument
        ("-r not specified; omitting directory " ++ quoted (place source))), t)
    else match t.landingText source destination with
      | .error fault => (.error fault, t)
      | .ok target =>
        if target = source then (.error (sameFile (place source) (place target)), t)
        else if Path.isWithin target source then
          (.error (.invalidArgument
            ("cannot copy a directory, " ++ quoted (place source) ++ ", into itself, " ++
              quoted (place target))), t)
        else
          let stamped := node.modifiedAt now
          if t.isDirectory target then
            if stamped.isDirectory then
              (.ok target, t.alter (place target) fun existing => existing.merge stamped)
            else (.error (overDirectory (place target)), t)
          else match t.insert (Path.parent target) (Path.fileName target) stamped with
            | .error fault => (.error fault, t)
            | .ok t' => (.ok target, t')

/-- All checks come before the first change, and neither the merge nor the insertion fails. -/
theorem copyInPlace_eq {t : Tree} (ht : t.WellFormed) (source destination : String)
    (recursive : Bool) (now : Timestamp) :
    t.copyInPlace source destination recursive now =
      t.atOnce (t.copy source destination recursive now) := by
  have hs := canonical_place source
  unfold copyInPlace copy
  simp only [landingText_eq, normalize_eq_render, get?_eq, landing, place_render hs]
  cases hfind : t.find? (place source) with
  | none => rfl
  | some node =>
    simp only [bind, Except.bind]
    by_cases hrec : (node.isDirectory && !recursive) = true
    · rw [if_pos hrec, if_pos hrec]
      rfl
    · rw [if_neg hrec, if_neg hrec]
      cases hland : t.landingSteps (place source) (place destination) with
      | error fault => rfl
      | ok landed =>
        obtain ⟨hcanon, hspec⟩ := landingSteps_spec ht hland
        -- from here on every check of a text is a check of the place that it spells
        simp only [Except.map, Path.render_inj hcanon hs, place_render hcanon,
          Path.isWithin_render hcanon hs, List.isPrefixOf_iff_prefix, isDirectory]
        by_cases hsame : landed = place source
        · rw [if_pos hsame, if_pos hsame]
          rfl
        · rw [if_neg hsame, if_neg hsame]
          by_cases hinside : place source <+: landed
          · rw [if_pos hinside, if_pos hinside]
            rfl
          · rw [if_neg hinside, if_neg hinside]
            by_cases hat : t.isDirectoryAt landed = true
            · rw [if_pos hat, if_pos hat]
              split
              · rfl
              · rfl
            · rw [if_neg hat, if_neg hat]
              obtain ⟨hne, hdir⟩ := hspec (ne_nil_of_not_above hinside)
              rw [insert_render hcanon hne hdir]
              rfl

/-! ## Making directories -/

/-- Makes the missing directories on the way from `current`, one after the other. -/
def createDirectoriesInPlaceFrom (owner : String) (now : Timestamp) (current : String) :
    List String → Tree → Except Fault Unit × Tree
  | [], t => (.ok (), t)
  | name :: rest, t =>
    let next := Path.normalize current name
    match t.get? next with
    | some (.directory ..) => createDirectoriesInPlaceFrom owner now next rest t
    | some (.file ..) => (.error (.notDirectory next), t)
    | none =>
      match t.createDirectory current name owner now with
      | .error fault => (.error fault, t)
      | .ok t' => createDirectoriesInPlaceFrom owner now next rest t'

/-- Makes the directory at a path and every missing one above it, one after the other. -/
def createDirectoriesInPlace (t : Tree) (path owner : String) (now : Timestamp) :
    Except Fault Unit × Tree :=
  createDirectoriesInPlaceFrom owner now "/" (Path.components (Path.normalize "/" path)) t

variable {t : Tree} {owner : String} {now : Timestamp} {done rest : List String}

/-- Each level is made in a directory that is there by then.  The loop fails on a file in the way,
and then nothing has been made before it. -/
theorem createDirectoriesInPlaceFrom_eq (ht : t.WellFormed) (hdone : Path.Canonical done)
    (hrest : Path.Canonical rest) (hdir : t.isDirectoryAt done = true) :
    createDirectoriesInPlaceFrom owner now (Path.render done) rest t =
      t.atOnceUnit (createDirectoriesFrom owner now done rest t) := by
  induction rest generalizing t done with
  | nil => rfl
  | cons name rest ih =>
    have hname : Path.IsName name := hrest name List.mem_cons_self
    have hnames : Path.Canonical rest := fun n hn => hrest n (List.mem_cons_of_mem name hn)
    have hnext := hdone.concat hname
    unfold createDirectoriesInPlaceFrom createDirectoriesFrom
    simp only [Path.normalize_name hdone hname, get?_eq, place_render hnext]
    cases hfind : t.find? (done ++ [name]) with
    | some n =>
      cases n with
      | file a content => rfl
      | directory a es => exact ih ht hnext hnames (isDirectoryAt_iff.mpr ⟨a, es, hfind⟩)
    | none =>
      have hmade : t.createDirectory (Path.render done) name owner now =
          .ok (t.put (done ++ [name]) (freshDirectory owner now)) := by
        refine createDirectory_eq_ok_iff.mpr ?_
        rw [isDirectory, place_render hdone]
        exact ⟨hname, hdir, hfind, rfl⟩
      have hthere : (t.put (done ++ [name]) (freshDirectory owner now)).find? (done ++ [name]) =
          some (freshDirectory owner now) :=
        find?_put_self (by simp) (by rwa [List.dropLast_concat]) _
      have hput : (t.put (done ++ [name]) (freshDirectory owner now)).WellFormed :=
        ht.put hnext (proper_freshDirectory owner now)
      -- the rest cannot fail any more, so no failure leaves the new directory behind
      obtain ⟨t', hok, -⟩ := createDirectoriesFrom_of_clear owner now rest
        (isDirectoryAt_iff.mpr ⟨_, _, hthere⟩) fun r n _ hn => isDirectory_of_below_empty hthere hn
      simp only [hmade]
      rw [ih hput hnext hnames (isDirectoryAt_iff.mpr ⟨_, _, hthere⟩), hok]
      rfl

/-- From the root on it is done as a whole or not at all. -/
theorem createDirectoriesInPlace_eq (ht : t.WellFormed) (path owner : String)
    (now : Timestamp) :
    t.createDirectoriesInPlace path owner now =
      t.atOnceUnit (t.createDirectories path owner now) := by
  have hcanon := canonical_place path
  rw [createDirectoriesInPlace, normalize_eq_render, Path.components_render hcanon,
    createDirectories]
  exact createDirectoriesInPlaceFrom_eq ht Path.canonical_nil hcanon ht.isDirectoryAt_root

end Userland.Tree
