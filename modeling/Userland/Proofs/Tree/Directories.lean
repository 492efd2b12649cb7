/-
  Making a directory with all that is missing above it.

  1. *Program.*  `createDirectoriesInPlace` goes along the path and looks at one place after the
     other: a directory is passed, a file ends the work, and where nothing is an empty directory is
     made before the next place is looked at.

  2. *Specification.*  It fails exactly when a file is on the way (`Blocks`), and then nothing has
     been made.  Otherwise every place on the way is a directory, what was there is as it was, with
     its entries before the new ones, and the only new places are those that were missing
     (`DirectoriesMade`).  Doing it again, for whomever and whenever, does nothing.

  3. *The crux.*  A file on the way is met before anything is made: all places above it are
     directories, and the work only passes them (`createDirectoriesFrom_of_file`).  If there is
     none, each step adds one directory (`extended_put`), and what the steps add adds up
     (`Extended.trans`).
-/
import Userland.Proofs.Tree.Write

namespace Userland.Tree

variable {t t' t'' : Tree} {path owner : String} {now : Timestamp} {s p done rest r : List String}

/-! ## Above a directory -/

/-- Above a directory there are directories. -/
theorem isDirectoryAt_above (hp : p <+: s) (hs : t.isDirectoryAt s = true) :
    t.isDirectoryAt p = true := by
  obtain ⟨r, rfl⟩ := hp
  cases r with
  | nil => rwa [List.append_nil] at hs
  | cons name r =>
    obtain ⟨a, es, hfind⟩ := isDirectoryAt_iff.mp hs
    exact isDirectoryAt_of_find?_append hfind (List.cons_ne_nil name r)

theorem find?_ne_none_above (hp : p <+: s) (hs : t.isDirectoryAt s = true) : t.find? p ≠ none := by
  obtain ⟨a, es, hfind⟩ := isDirectoryAt_iff.mp (isDirectoryAt_above hp hs)
  rw [hfind]
  exact Option.some_ne_none _

/-! ## Trees that have grown on the way to a place -/

/-- New directories are on the way to the place where nothing was, and nothing else is new.  What
was there shows the same, and lists what it listed before what is new. -/
structure Extended (owner : String) (now : Timestamp) (s : List String) (t t' : Tree) : Prop where
  kept : ∀ p n, t.find? p = some n →
    ∃ n', t'.find? p = some n' ∧ n'.face = n.face ∧ n.names <+: n'.names
  made : ∀ p, p <+: s → t.find? p = none →
    (t'.find? p).map Node.face = some (freshDirectory owner now).face
  others : ∀ p, ¬ p <+: s → t.find? p = none → t'.find? p = none

/-- A tree has grown by nothing on the way to a directory that it has. -/
theorem Extended.refl (owner : String) (now : Timestamp) (hs : t.isDirectoryAt s = true) :
    Extended owner now s t t where
  kept _ n hn := ⟨n, hn, rfl, List.prefix_rfl⟩
  made _ hp hnone := absurd hnone (find?_ne_none_above hp hs)
  others _ _ hnone := hnone

/-- What grows on the way to one place and then to one below it grows on the way to that. -/
theorem Extended.trans (h : Extended owner now p t t') (h' : Extended owner now s t' t'')
    (hp : p <+: s) : Extended owner now s t t'' where
  kept q n hn := by
    obtain ⟨n', hn', hface, hnames⟩ := h.kept q n hn
    obtain ⟨n'', hn'', hface', hnames'⟩ := h'.kept q n' hn'
    exact ⟨n'', hn'', hface'.trans hface, hnames.trans hnames'⟩
  made q hq hnone := by
    by_cases hqp : q <+: p
    · -- made by the first change and kept by the second
      obtain ⟨n', hn', hface⟩ := Option.map_eq_some_iff.mp (h.made q hqp hnone)
      obtain ⟨n'', hn'', hface', -⟩ := h'.kept q n' hn'
      rw [hn'', Option.map_some, hface', hface]
    · exact h'.made q hq (h.others q hqp hnone)
  others q hq hnone :=
    h'.others q hq (h.others q (fun hqp => hq (hqp.trans hp)) hnone)

/-- What is there is neither at a free place nor below it. -/
theorem not_above_of_free {n : Node} (hs : t.find? s = none) (hn : t.find? p = some n) :
    ¬ s <+: p := by
  rintro ⟨r, rfl⟩
  rw [find?_append, hs, Option.bind_none] at hn
  cases hn

/-- Where something is put that was free, all that was there shows the same, and lists at least what
it listed before. -/
theorem kept_put {name : String} {q : List String} {n : Node} (hdone : t.isDirectoryAt done = true)
    (hfree : t.find? (done ++ [name]) = none) (node : Node) (hn : t.find? q = some n) :
    ∃ n', (t.put (done ++ [name]) node).find? q = some n' ∧ n'.face = n.face ∧
      n.names <+: n'.names := by
  by_cases hq : q = done
  · subst hq
    obtain ⟨a, es, hdir⟩ := isDirectoryAt_iff.mp hdone
    obtain rfl := Option.some.inj (hdir.symm.trans hn)
    rw [find?_concat hdir, Entries.get?_eq_none_iff] at hfree
    refine ⟨_, find?_put_dir hdir hfree _, rfl, [name], ?_⟩
    show es.map Prod.fst ++ [name] = (es ++ [(name, node)]).map Prod.fst
    rw [List.map_append, List.map_singleton]
  · -- the directory above is the only one that lists the new name
    have hseen := sameBut_put t (done ++ [name]) node q
      (List.forall_mem_singleton.mpr (not_above_of_free hfree hn))
    rw [hn, Option.map_some] at hseen
    obtain ⟨n', hn', hsame⟩ := Option.map_eq_some_iff.mp hseen
    obtain ⟨hface, hnames⟩ := Prod.mk.inj hsame
    have habove : q ≠ (done ++ [name]).dropLast := by rwa [List.dropLast_concat]
    rw [namesBut_of_ne_dropLast habove, namesBut_of_ne_dropLast habove] at hnames
    exact ⟨n', hn', hface, hnames ▸ List.prefix_rfl⟩

/-- **The step.**  An empty directory is put where nothing was. -/
theorem extended_put {name : String} (owner : String) (now : Timestamp)
    (hdone : t.isDirectoryAt done = true) (hfree : t.find? (done ++ [name]) = none) :
    Extended owner now (done ++ [name]) t
      (t.put (done ++ [name]) (freshDirectory owner now)) := by
  have hthere := find?_put_append (s := done ++ [name]) (by simp)
    (by rwa [List.dropLast_concat]) (freshDirectory owner now)
  refine ⟨fun q n hn => kept_put hdone hfree _ hn, fun q hq hnone => ?_, fun q hq hnone => ?_⟩
  · -- of the places on the way only the last was missing
    rcases List.prefix_concat_iff.mp hq with rfl | habove
    · have hself := hthere []
      rw [List.append_nil, Node.find?_nil] at hself
      rw [hself, Option.map_some]
    · exact absurd hnone (find?_ne_none_above habove hdone)
  · -- elsewhere nothing has come up: not below the new directory, which is empty, and not apart
    by_cases hbelow : done ++ [name] <+: q
    · obtain ⟨r, rfl⟩ := hbelow
      cases r with
      | nil =>
        rw [List.append_nil] at hq
        exact absurd List.prefix_rfl hq
      | cons first r => exact hthere (first :: r)
    · rw [find?_put_apart t _ hbelow hq, hnone]

/-- **The run.**  What the steps add adds up. -/
theorem extended_of_createDirectoriesFrom (hdone : t.isDirectoryAt done = true)
    (h : createDirectoriesFrom owner now done rest t = .ok t') :
    Extended owner now (done ++ rest) t t' := by
  induction rest generalizing t done with
  | nil =>
    obtain rfl := Except.ok.inj h
    rw [List.append_nil]
    exact .refl owner now hdone
  | cons name rest ih =>
    rw [createDirectoriesFrom] at h
    rw [List.append_cons]
    split at h
    · next a es hnext => exact ih (isDirectoryAt_iff.mpr ⟨a, es, hnext⟩) h
    · cases h
    · next hfree =>
      have hthere := find?_put_self (s := done ++ [name]) (by simp)
        (by rwa [List.dropLast_concat]) (freshDirectory owner now)
      have hrest := ih (isDirectoryAt_iff.mpr ⟨_, _, hthere⟩) h
      exact (extended_put owner now hdone hfree).trans hrest (List.prefix_append _ rest)

/-! ## Directories that stay -/

/-- Every directory of the first tree is a directory of the second one. -/
def KeepsDirectories (t t' : Tree) : Prop :=
  ∀ p, t.isDirectoryAt p = true → t'.isDirectoryAt p = true

/-- What is put where nothing was takes no directory away. -/
theorem keepsDirectories_put (hfree : t.find? s = none) (node : Node) :
    t.KeepsDirectories (t.put s node) := by
  intro p hp
  obtain ⟨a, es, hdir⟩ := isDirectoryAt_iff.mp hp
  rw [isDirectoryAt_put (not_above_of_free hfree hdir), hp]

/-- Other attributes take no directory away. -/
theorem keepsDirectories_mapAttributes (t : Tree) (s : List String) (g : Attributes → Attributes) :
    t.KeepsDirectories (t.alter s (·.mapAttributes g)) := by
  intro p hp
  by_cases hs : s <+: p
  · obtain ⟨r, rfl⟩ := hs
    rw [isDirectoryAt, find?_append] at hp
    rw [isDirectoryAt, find?_alter_append]
    cases hn : t.find? s with
    | none =>
      rw [hn] at hp
      cases hp
    | some n =>
      rw [hn, Option.bind_some] at hp
      rw [Option.bind_some]
      cases r with
      | nil => rwa [Node.find?_nil, Option.any_some, Node.isDirectory_mapAttributes]
      | cons name rest => rwa [Node.find?_mapAttributes_cons]
  · rwa [(sameBut_alter t s (·.mapAttributes g)).isDirectoryAt (by simpa using hs)]

/-- Making directories unmakes none. -/
theorem keepsDirectories_createDirectories (h : t.createDirectories path owner now = .ok t') :
    t.KeepsDirectories t' := by
  intro p hp
  have hroot : t.isDirectoryAt [] = true := isDirectoryAt_above List.nil_prefix hp
  obtain ⟨a, es, hdir⟩ := isDirectoryAt_iff.mp hp
  obtain ⟨n', hn', hface, -⟩ := (extended_of_createDirectoriesFrom hroot h).kept p _ hdir
  rw [isDirectoryAt, hn', Option.any_some, Node.isDirectory_of_face hface]
  rfl

/-! ## What stands in the way, and what is there already -/

/-- A file on the way is met before anything is made. -/
theorem createDirectoriesFrom_of_file {a : Attributes} {content : String}
    (hdone : t.isDirectoryAt done = true) (hr : r <+: rest)
    (hfile : t.find? (done ++ r) = some (.file a content)) :
    createDirectoriesFrom owner now done rest t =
      .error (.notDirectory (Path.render (done ++ r))) := by
  -- down to the file: every step before it meets a directory, since a file has nothing below it
  induction rest generalizing done r with
  | nil =>
    obtain ⟨b, es, hdir⟩ := isDirectoryAt_iff.mp hdone
    rw [List.prefix_nil.mp hr, List.append_nil, hdir] at hfile
    cases hfile
  | cons name rest ih =>
    cases r with
    | nil =>
      obtain ⟨b, es, hdir⟩ := isDirectoryAt_iff.mp hdone
      rw [List.append_nil, hdir] at hfile
      cases hfile
    | cons first r =>
      obtain ⟨rfl, hrest⟩ := List.cons_prefix_cons.mp hr
      rw [List.append_cons] at hfile ⊢
      rw [createDirectoriesFrom]
      cases r with
      | nil =>
        rw [List.append_nil] at hfile ⊢
        simp only [hfile]
      | cons second r =>
        have hnext := isDirectoryAt_of_find?_append hfile (List.cons_ne_nil second r)
        obtain ⟨b, es, hdir⟩ := isDirectoryAt_iff.mp hnext
        simp only [hdir]
        exact ih hnext hrest hfile

/-- Where all directories are there, none is made. -/
theorem createDirectoriesFrom_of_there (owner : String) (now : Timestamp)
    (hthere : t.isDirectoryAt (done ++ rest) = true) :
    createDirectoriesFrom owner now done rest t = .ok t := by
  induction rest generalizing done with
  | nil => rfl
  | cons name rest ih =>
    rw [List.append_cons] at hthere
    obtain ⟨a, es, hnext⟩ := isDirectoryAt_iff.mp
      (isDirectoryAt_above (List.prefix_append (done ++ [name]) rest) hthere)
    rw [createDirectoriesFrom]
    simp only [hnext]
    exact ih hthere

/-! ## Directories made -/

/-- A file is at the place of a path or above it. -/
def Blocks (t : Tree) (path above : String) : Prop :=
  Within path above ∧ ∃ a content, t.get? above = some (.file a content)

/-- The directory at a path is there, and every one above it, and nothing else is different. -/
structure DirectoriesMade (t : Tree) (path owner : String) (now : Timestamp) (t' : Tree) :
    Prop where
  /-- Every place on the way is a directory. -/
  directories : ∀ above, Within path above → t'.isDirectory above = true
  /-- What was there has its kind, its attributes and its content, and lists what it listed, in
  order, before what is new. -/
  kept : ∀ other n, t.get? other = some n →
    ∃ n', t'.get? other = some n' ∧ n'.face = n.face ∧ n.names <+: n'.names
  /-- What was missing on the way is a new directory of the owner's. -/
  made : ∀ above, Within path above → t.get? above = none →
    ∃ es, t'.get? above =
      some (.directory ⟨"drwxr-xr-x", owner, owner, Node.directorySize, now⟩ es)
  /-- Nothing else is new. -/
  others : ∀ other, ¬ Within path other → t.get? other = none → t'.get? other = none
  /-- To do it again does nothing, whoever does it and when. -/
  again : ∀ owner' now', t'.createDirectoriesInPlace path owner' now' = (.ok (), t')

/-- A new directory is known by its face. -/
theorem exists_of_face_freshDirectory {x : Option Node}
    (h : x.map Node.face = some (freshDirectory owner now).face) :
    ∃ es, x = some (.directory ⟨"drwxr-xr-x", owner, owner, Node.directorySize, now⟩ es) := by
  obtain ⟨n, rfl, hface⟩ := Option.map_eq_some_iff.mp h
  obtain ⟨a, es, rfl⟩ := Node.isDirectory_iff.mp (Node.isDirectory_of_face hface)
  have hattributes : a = (freshDirectory owner now).attributes := congrArg (·.2.1) hface
  rw [hattributes]
  exact ⟨es, rfl⟩

/-- A call that succeeds and leaves a directory at the path has done all of it. -/
theorem directoriesMade_of_createDirectories (ht : t.WellFormed)
    (h : t.createDirectories path owner now = .ok t')
    (hthere : t'.isDirectoryAt (place path) = true) : DirectoriesMade t path owner now t' := by
  have hgrown : Extended owner now (place path) t t' :=
    extended_of_createDirectoriesFrom ht.isDirectoryAt_root h
  have ht' : t'.WellFormed :=
    ht.createDirectoriesFrom Path.canonical_nil (canonical_place path) h
  refine ⟨fun above habove => ?_, fun other n hn => hgrown.kept (place other) n hn,
    fun above habove hnone => ?_, fun other hother hnone => ?_, fun owner' now' => ?_⟩
  · exact isDirectoryAt_above (within_iff.mp habove) hthere
  · exact exists_of_face_freshDirectory (hgrown.made (place above) (within_iff.mp habove) hnone)
  · exact hgrown.others (place other) (fun hp => hother (within_iff.mpr hp)) hnone
  · have hsame : t'.createDirectories path owner' now' = .ok t' :=
      createDirectoriesFrom_of_there owner' now' hthere
    rw [createDirectoriesInPlace_eq ht', hsame]
    rfl

/-- Nothing is in the way, or it is what the complaint names. -/
theorem createDirectories_cases (ht : t.WellFormed) (path owner : String) (now : Timestamp) :
    (∀ above, ¬ Blocks t path above) ∧
        (∃ t', t.createDirectories path owner now = .ok t' ∧
          t'.isDirectoryAt (place path) = true) ∨
      (∃ above, Blocks t path above) ∧
        ∀ above, Blocks t path above → t.createDirectories path owner now =
          .error (.notDirectory (Path.normalize "/" above)) := by
  by_cases hblocked : ∃ above, Blocks t path above
  · refine .inr ⟨hblocked, fun above hblocks => ?_⟩
    obtain ⟨hwithin, a, content, hfile⟩ := hblocks
    exact createDirectoriesFrom_of_file ht.isDirectoryAt_root (within_iff.mp hwithin) hfile
  · refine .inl ⟨not_exists.mp hblocked, ?_⟩
    -- nothing blocks the way, so that all that is on it are directories
    have hclear : ∀ r node, r <+: place path → t.find? r = some node →
        node.isDirectory = true := by
      intro r node hr hnode
      have hplace := place_render (ht.canonical_of_find? hnode)
      cases node with
      | directory a es => rfl
      | file a content =>
        refine absurd ⟨Path.render r, within_iff.mpr ?_, a, content, ?_⟩ hblocked
        · rwa [hplace]
        · rw [get?_eq, hplace, hnode]
    obtain ⟨t', hok, hthere, -⟩ :=
      createDirectoriesFrom_of_clear owner now (place path) ht.isDirectoryAt_root hclear
    exact ⟨t', hok, hthere⟩

/-- Making directories fails exactly when a file is at the path or above it.  Then nothing has been
made, and the complaint is about that file; and else all that was missing has been made, and nothing
more. -/
theorem createDirectoriesInPlace_made_or_same (h : Reachable t) (path owner : String)
    (now : Timestamp) :
    t.createDirectoriesInPlace path owner now =
        t.atOnceUnit (t.createDirectories path owner now) ∧
      ((∃ fault, (t.createDirectoriesInPlace path owner now).1 = .error fault) ↔
        ∃ above, Blocks t path above) ∧
      match t.createDirectoriesInPlace path owner now with
      | (.ok _, t') => DirectoriesMade t path owner now t'
      | (.error fault, t') => t' = t ∧
          ∀ above, Blocks t path above → fault = .notDirectory (Path.normalize "/" above) := by
  have ht := h.wellFormed
  refine ⟨createDirectoriesInPlace_eq ht path owner now, ?_⟩
  rw [createDirectoriesInPlace_eq ht]
  -- a file blocks the way and the call fails, or none does and it is done
  rcases createDirectories_cases ht path owner now with
    ⟨hclear, t', hok, hthere⟩ | ⟨⟨above, hblocks⟩, herror⟩
  · rw [hok]
    refine ⟨iff_of_false ?_ (not_exists.mpr hclear), ?_⟩
    · rintro ⟨fault, hfault⟩
      cases hfault
    · exact directoriesMade_of_createDirectories ht hok hthere
  · rw [herror above hblocks]
    refine ⟨iff_of_true ⟨_, rfl⟩ ⟨above, hblocks⟩, rfl, fun other hother => ?_⟩
    exact Except.error.inj ((herror above hblocks).symm.trans (herror other hother))

/-- Below the file `/src/d/x` no directory can be made, and beside it two are. -/
theorem sample_createDirectoriesInPlace :
    Reachable sample ∧
      ((∃ above, Blocks sample "/src/d/x/y" above) ∧
        sample.createDirectoriesInPlace "/src/d/x/y" "bob" noon =
          (.error (.notDirectory "/src/d/x"), sample)) ∧
      ∃ t', sample.createDirectoriesInPlace "src/d/./p/q" "bob" noon = (.ok (), t') ∧
        DirectoriesMade sample "src/d/./p/q" "bob" noon t' := by
  have hfails : (sample.createDirectoriesInPlace "/src/d/x/y" "bob" noon).1 =
      .error (.notDirectory "/src/d/x") := by decide +kernel
  have hmade : (sample.createDirectoriesInPlace "src/d/./p/q" "bob" noon).1 = .ok () := by
    decide +kernel
  obtain ⟨-, hiff, hfailed⟩ :=
    createDirectoriesInPlace_made_or_same reachable_sample "/src/d/x/y" "bob" noon
  obtain ⟨-, -, hdone⟩ :=
    createDirectoriesInPlace_made_or_same reachable_sample "src/d/./p/q" "bob" noon
  refine ⟨reachable_sample, ⟨hiff.mp ⟨_, hfails⟩, ?_⟩, ?_⟩
  · rcases hrun : sample.createDirectoriesInPlace "/src/d/x/y" "bob" noon with ⟨result, t'⟩
    rw [hrun] at hfails hfailed
    obtain rfl : result = _ := hfails
    rw [hfailed.1]
  · rcases hrun : sample.createDirectoriesInPlace "src/d/./p/q" "bob" noon with ⟨result, t'⟩
    rw [hrun] at hmade hdone
    obtain rfl : result = _ := hmade
    exact ⟨t', rfl, hdone⟩

end Userland.Tree
