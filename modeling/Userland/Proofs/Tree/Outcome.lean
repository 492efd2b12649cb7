/-
  What an operation that succeeds has found, and what it has done.

  1. *Program.*  An operation gets paths as texts, looks at the tree, and either fails or answers
     with another tree.  Its checks stand in the order in which the user is to hear of them.

  2. *Specification.*  Each operation is told once, as the condition under which it succeeds and the
     new tree it answers with, in terms of places: `put`, `drop` and `alter` at a list of steps
     (`insert_eq_ok_iff`, `write_eq_ok_iff`, `copy_eq_ok_iff` and the like).  Nothing after this
     opens an operation again.

  3. *The crux.*  A path text is cut into the directory and the last name only for new entries; on
     the one spelling of a place this cut is exact (`insert_render`).  Making directories is the
     only loop: where no file is on the way it succeeds and loses no directory
     (`createDirectoriesFrom_of_clear`), and a file on the way is all that it fails on.
-/
import Userland.Proofs.Fault
import Userland.Proofs.Tree.Place
import Userland.Tree.Transfer

namespace Userland

namespace Tree

variable {t t' : Tree} {path source destination parent name owner target : String}
  {node : Node} {now : Timestamp} {recursive : Bool} {s d landed : List String}

/-! ## Looking -/

theorem place_render (h : Path.Canonical s) : place (Path.render s) = s :=
  Path.steps_render "/" h

theorem get?_eq (t : Tree) (path : String) : t.get? path = t.find? (place path) := rfl

/-- A look-up that may fail succeeds where there is a node. -/
theorem get_eq_ok_iff : t.get path = .ok node ↔ t.find? (place path) = some node := by
  rw [get, get?_eq]
  cases t.find? (place path) <;> simp

/-- Only a directory can be listed, and what is listed is all that it holds. -/
theorem list_eq_ok_iff {es : Entries Node} :
    t.list path = .ok es ↔ ∃ a, t.find? (place path) = some (.directory a es) := by
  rw [list, get, get?_eq]
  cases t.find? (place path) with
  | none => simp
  | some n => cases n <;> simp

/-! ## New entries -/

/-- The check of a name lets through the names of entries. -/
theorem checkName_eq_ok_iff {u : Unit} : checkName name = .ok u ↔ Path.IsName name := by
  rw [checkName]
  split
  · next h => exact iff_of_true rfl h
  · next h => exact iff_of_false (by simp) h

/-- A node can be inserted under a name of an entry, into a directory.  What has the name is
replaced. -/
theorem insert_eq_ok_iff :
    t.insert parent name node = .ok t' ↔
      Path.IsName name ∧ t.isDirectory parent = true ∧
        t' = t.put (place parent ++ [name]) node := by
  rw [insert, bind_eq_ok_iff, isDirectory, isDirectoryAt_iff, put_concat]
  constructor
  · rintro ⟨_, hname, hrest⟩
    obtain ⟨es, hlist, hput⟩ := bind_eq_ok_iff.mp hrest
    obtain ⟨a, hfind⟩ := list_eq_ok_iff.mp hlist
    exact ⟨checkName_eq_ok_iff.mp hname, ⟨a, es, hfind⟩, (Except.ok.inj hput).symm⟩
  · rintro ⟨hname, ⟨a, es, hfind⟩, rfl⟩
    have hlist := list_eq_ok_iff.mpr ⟨a, hfind⟩
    exact ⟨(), checkName_eq_ok_iff.mpr hname, bind_eq_ok_iff.mpr ⟨es, hlist, rfl⟩⟩

theorem find?_concat_of_list {es : Entries Node} (h : t.list parent = .ok es) :
    t.find? (place parent ++ [name]) = Entries.get? es name := by
  obtain ⟨a, hfind⟩ := list_eq_ok_iff.mp h
  exact find?_concat hfind

/-- A new directory moreover needs a name that is free. -/
theorem createDirectory_eq_ok_iff :
    t.createDirectory parent name owner now = .ok t' ↔
      Path.IsName name ∧ t.isDirectory parent = true ∧
        t.find? (place parent ++ [name]) = none ∧
        t' = t.put (place parent ++ [name]) (freshDirectory owner now) := by
  rw [createDirectory, bind_eq_ok_iff]
  constructor
  · rintro ⟨_, hname, hrest⟩
    obtain ⟨es, hlist, hput⟩ := bind_eq_ok_iff.mp hrest
    split at hput
    · cases hput
    · next hfree =>
      obtain ⟨hname, hdir, ht'⟩ := insert_eq_ok_iff.mp hput
      rw [Bool.not_eq_true, Option.isSome_eq_false_iff, Option.isNone_iff_eq_none] at hfree
      exact ⟨hname, hdir, by rw [find?_concat_of_list hlist, hfree], ht'⟩
  · rintro ⟨hname, hdir, hfree, ht'⟩
    obtain ⟨a, es, hfind⟩ := isDirectoryAt_iff.mp hdir
    have hlist := list_eq_ok_iff.mpr ⟨a, hfind⟩
    rw [find?_concat_of_list hlist] at hfree
    refine ⟨(), checkName_eq_ok_iff.mpr hname, bind_eq_ok_iff.mpr ⟨es, hlist, ?_⟩⟩
    rw [if_neg (by simp [hfree])]
    exact insert_eq_ok_iff.mpr ⟨hname, hdir, ht'⟩

/-- The directory is named by its one spelling. -/
theorem insert_render_concat (hplace : Path.Canonical (d ++ [name]))
    (hd : t.isDirectoryAt d = true) (node : Node) :
    t.insert (Path.render d) name node = .ok (t.put (d ++ [name]) node) := by
  obtain ⟨hcanonical, hname⟩ := Path.canonical_append.mp hplace
  refine insert_eq_ok_iff.mpr ⟨hname name List.mem_cons_self, ?_, ?_⟩
  · rwa [isDirectory, place_render hcanonical]
  · rw [place_render hcanonical]

/-- The place of a spelled path is the name at its end in the directory above. -/
theorem insert_render (hs : Path.Canonical s) (hne : s ≠ [])
    (hd : t.isDirectoryAt s.dropLast = true) (node : Node) :
    t.insert (Path.parent (Path.render s)) (Path.fileName (Path.render s)) node =
      .ok (t.put s node) := by
  rw [Path.parent_render hs, Path.fileName_render hs]
  obtain ⟨d, name, rfl⟩ := (List.eq_nil_or_concat' s).resolve_left hne
  rw [List.dropLast_concat] at hd ⊢
  rw [List.getLast?_concat]
  exact insert_render_concat hs hd node

/-- The directory at a spelled path is made by its name in the directory above. -/
theorem createDirectory_render (hs : Path.Canonical s) (hfree : t.find? s = none)
    (hd : t.isDirectoryAt s.dropLast = true) (owner : String) (now : Timestamp) :
    t.createDirectory (Path.parent (Path.render s)) (Path.fileName (Path.render s)) owner now =
      .ok (t.put s (freshDirectory owner now)) := by
  have hne : s ≠ [] := ne_nil_of_find?_eq_none hfree
  rw [Path.parent_render hs, Path.fileName_render hs]
  obtain ⟨d, name, rfl⟩ := (List.eq_nil_or_concat' s).resolve_left hne
  rw [List.dropLast_concat] at hd ⊢
  rw [List.getLast?_concat]
  have hplace : place (Path.render d) = d := place_render (Path.canonical_append.mp hs).1
  refine createDirectory_eq_ok_iff.mpr ⟨hs name (by simp), ?_, ?_⟩
  · rwa [isDirectory, hplace]
  · rw [hplace]
    exact ⟨hfree, rfl⟩

/-- A new file needs a directory to be in. -/
theorem write_eq_ok_iff {content : String} :
    t.write path content owner now = .ok t' ↔
      (∃ a old, t.find? (place path) = some (.file a old) ∧
        t' = t.alter (place path) fun n => (n.withContent content).modifiedAt now) ∨
      (t.find? (place path) = none ∧ t.isDirectoryAt (place path).dropLast = true ∧
        t' = t.put (place path) (freshFile owner now content)) := by
  have hcanon := canonical_place path
  rw [write, get?_eq]
  cases hfind : t.find? (place path) with
  | some n =>
    cases n with
    | file a old =>
      constructor
      · intro h
        exact .inl ⟨a, old, rfl, (Except.ok.inj h).symm⟩
      · rintro (⟨_, _, -, rfl⟩ | ⟨hnone, -⟩)
        · rfl
        · cases hnone
    | directory a es => simp
  | none =>
    -- there is a last name
    have hne : place path ≠ [] := ne_nil_of_find?_eq_none hfind
    simp only [reduceCtorEq, false_and, exists_const, false_or, true_and]
    constructor
    · intro h
      have hdir := (insert_eq_ok_iff.mp h).2.1
      rw [Path.parent_render hcanon, isDirectory, place_render hcanon.dropLast] at hdir
      rw [insert_render hcanon hne hdir] at h
      exact ⟨hdir, (Except.ok.inj h).symm⟩
    · rintro ⟨hdir, rfl⟩
      exact insert_render hcanon hne hdir _

/-! ## Directories on the way to a place -/

/-- At an empty directory and below it there is no file. -/
theorem isDirectory_of_below_empty {a : Attributes} (h : t.find? d = some (.directory a []))
    {r : List String} (hn : t.find? (d ++ r) = some node) : node.isDirectory = true := by
  rw [find?_below h] at hn
  cases r with
  | nil =>
    cases hn
    rfl
  | cons name rest => cases hn

/-- Where no file is on the way, the directories can be made, and none is lost. -/
theorem createDirectoriesFrom_of_clear (owner : String) (now : Timestamp) (rest : List String)
    (hd : t.isDirectoryAt d = true)
    (hclear : ∀ r node, r <+: rest → t.find? (d ++ r) = some node → node.isDirectory = true) :
    ∃ t', createDirectoriesFrom owner now d rest t = .ok t' ∧
      t'.isDirectoryAt (d ++ rest) = true ∧
      ∀ p, t.isDirectoryAt p = true → t'.isDirectoryAt p = true := by
  induction rest generalizing t d with
  | nil =>
    rw [List.append_nil]
    exact ⟨t, rfl, hd, fun _ hp => hp⟩
  | cons name rest ih =>
    have hlater : ∀ {r : List String}, r <+: rest → d ++ [name] ++ r = d ++ (name :: r) ∧
        name :: r <+: name :: rest := fun hr =>
      ⟨by rw [List.append_assoc, List.singleton_append], List.prefix_cons_inj name |>.mpr hr⟩
    rw [createDirectoriesFrom, ← (hlater List.prefix_rfl).1]
    cases hnext : t.find? (d ++ [name]) with
    | some n =>
      have hn : n.isDirectory = true := hclear [name] n (by simp) hnext
      obtain ⟨a, es, rfl⟩ := Node.isDirectory_iff.mp hn
      refine ih (isDirectoryAt_iff.mpr ⟨a, es, hnext⟩) fun r node hr hnode => ?_
      rw [(hlater hr).1] at hnode
      exact hclear (name :: r) node (hlater hr).2 hnode
    | none =>
      -- below the new directory nothing is in the way, and no directory was at its place
      have hmade := find?_put_self (s := d ++ [name]) (by simp) (by rwa [List.dropLast_concat])
        (freshDirectory owner now)
      obtain ⟨t', hok, hthere, hkeeps⟩ := ih (isDirectoryAt_iff.mpr ⟨_, _, hmade⟩)
        fun r node _ hnode => isDirectory_of_below_empty hmade hnode
      refine ⟨t', hok, hthere, fun p hp => hkeeps p ?_⟩
      rw [isDirectoryAt_put _ t]
      · exact hp
      · rintro ⟨r, rfl⟩
        obtain ⟨a, es, hfind⟩ := isDirectoryAt_iff.mp hp
        rw [find?_append, hnext] at hfind
        cases hfind

/-- Only a file can be in the way of directories. -/
theorem createDirectoriesFrom_cases (owner : String) (now : Timestamp) (done rest : List String)
    (t : Tree) :
    (∃ t', createDirectoriesFrom owner now done rest t = .ok t') ∨
      ∃ path, createDirectoriesFrom owner now done rest t = .error (.notDirectory path) := by
  induction rest generalizing done t with
  | nil => exact .inl ⟨t, rfl⟩
  | cons name rest ih =>
    rw [createDirectoriesFrom]
    split
    · exact ih _ t
    · exact .inr ⟨_, rfl⟩
    · exact ih _ _

/-! ## Changes of attributes -/

/-- Whatever is there can be touched, a directory too. -/
theorem touch_eq_ok_iff :
    t.touch path now = .ok t' ↔
      t.contains path = true ∧ t' = t.alter (place path) (·.modifiedAt now) := by
  rw [touch, bind_eq_ok_iff, contains, get?_eq, Option.isSome_iff_exists]
  constructor
  · rintro ⟨n, hget, ht'⟩
    exact ⟨⟨n, get_eq_ok_iff.mp hget⟩, (Except.ok.inj ht').symm⟩
  · rintro ⟨⟨n, hfind⟩, rfl⟩
    exact ⟨n, get_eq_ok_iff.mpr hfind, rfl⟩

/-- A mode is read against the permissions that the node has; the letter of its kind is kept. -/
theorem setPermissions_eq_ok_iff {mode : String} :
    t.setPermissions path mode = .ok t' ↔
      ∃ n bits, t.find? (place path) = some n ∧
        Mode.change mode (Mode.ofText n.attributes.permissions) = .ok bits ∧
        t' = t.alter (place path) (·.mapAttributes ({ · with
          permissions := Mode.text (if n.isDirectory then 'd' else '-') bits })) := by
  rw [setPermissions, bind_eq_ok_iff]
  constructor
  · rintro ⟨n, hget, hrest⟩
    obtain ⟨bits, hbits, ht'⟩ := bind_eq_ok_iff.mp hrest
    exact ⟨n, bits, get_eq_ok_iff.mp hget, hbits, (Except.ok.inj ht').symm⟩
  · rintro ⟨n, bits, hfind, hbits, rfl⟩
    exact ⟨n, get_eq_ok_iff.mpr hfind, bind_eq_ok_iff.mpr ⟨bits, hbits, rfl⟩⟩

/-- An owner without letters and a group that is not given leave what there is. -/
theorem setOwner_eq_ok_iff {group : Option String} :
    t.setOwner path owner group = .ok t' ↔
      t.contains path = true ∧
        t' = t.alter (place path) (·.mapAttributes fun a =>
          { a with
            owner := if owner = "" then a.owner else owner
            group := group.getD a.group }) := by
  rw [setOwner, bind_eq_ok_iff, contains, get?_eq, Option.isSome_iff_exists]
  constructor
  · rintro ⟨n, hget, ht'⟩
    exact ⟨⟨n, get_eq_ok_iff.mp hget⟩, (Except.ok.inj ht').symm⟩
  · rintro ⟨⟨n, hfind⟩, rfl⟩
    exact ⟨n, get_eq_ok_iff.mpr hfind, rfl⟩

/-! ## Taking out -/

/-- The guard of `remove` and `copy` stops exactly the directories that are sent without
`recursive`. -/
theorem needsRecursive_iff {isDirectory recursive : Bool} :
    (isDirectory && !recursive) = true ↔ ¬ (isDirectory = true → recursive = true) := by
  cases isDirectory <;> cases recursive <;> simp

/-- Everything but the root can be removed; directories need `recursive`, empty ones too. -/
theorem remove_eq_ok_iff :
    t.remove path recursive = .ok (node, t') ↔
      place path ≠ [] ∧ t.find? (place path) = some node ∧
        (node.isDirectory = true → recursive = true) ∧ t' = t.drop (place path) := by
  rw [remove]
  -- the checks in their order: the root, a node, `recursive`
  by_cases hroot : place path = []
  · simp [hroot]
  · rw [if_neg hroot]
    cases hfind : t.find? (place path) with
    | none => simp
    | some n =>
      simp only [needsRecursive_iff, Option.some.injEq, ne_eq, hroot, not_false_eq_true, true_and]
      by_cases hrec : n.isDirectory = true → recursive = true
      · rw [if_neg (not_not_intro hrec)]
        constructor
        · intro h
          cases h
          exact ⟨rfl, hrec, rfl⟩
        · rintro ⟨rfl, -, rfl⟩
          rfl
      · rw [if_pos hrec]
        constructor
        · intro h
          cases h
        · rintro ⟨rfl, h, -⟩
          exact absurd h hrec

/-! ## Copying and moving -/

/-- A node lands in a directory, under a last name, unless it is the root that is sent. -/
theorem landingSteps_spec (ht : t.WellFormed)
    (h : t.landingSteps (place source) (place destination) = .ok landed) :
    Path.Canonical landed ∧
      (place source ≠ [] → landed ≠ [] ∧ t.isDirectoryAt landed.dropLast = true) := by
  have hs := canonical_place source
  have hd := canonical_place destination
  rw [landingSteps] at h
  split at h
  · next hdir =>
    cases h
    rcases List.eq_nil_or_concat' (place source) with hsource | ⟨above, name, hsource⟩
    · rw [hsource, List.getLast?_nil, Option.toList_none, List.append_nil]
      exact ⟨hd, fun hne => absurd rfl hne⟩
    · have hname : Path.IsName name := hs name (by simp [hsource])
      rw [hsource, List.getLast?_concat, Option.toList_some]
      refine ⟨hd.concat hname, fun _ => ⟨by simp, ?_⟩⟩
      rwa [List.dropLast_concat]
  · next hfile =>
    split at h
    · next hdir =>
      cases h
      refine ⟨hd, fun _ => ⟨?_, hdir⟩⟩
      -- the root is a directory, and then the node lands in it
      intro hroot
      rw [hroot] at hfile
      exact hfile ht.isDirectoryAt_root
    · cases h

/-- The root is above every place, so that it is never what is copied or moved. -/
theorem ne_nil_of_not_above (hinside : ¬ s <+: landed) : s ≠ [] := by
  rintro rfl
  exact hinside List.nil_prefix

theorem isDirectory_modifiedAt (n : Node) (now : Timestamp) :
    (n.modifiedAt now).isDirectory = n.isDirectory :=
  Node.isDirectory_mapAttributes _ n

/-- A copy has to land outside of its source.  A directory that lands on a directory is merged with
it; in all other cases the copy takes the place of what is there. -/
theorem copy_eq_ok_iff :
    t.copy source destination recursive now = .ok (target, t') ↔
      ∃ node landed, t.find? (place source) = some node ∧
        (node.isDirectory = true → recursive = true) ∧
        t.landingSteps (place source) (place destination) = .ok landed ∧
        ¬ place source <+: landed ∧
        target = Path.render landed ∧
        (t.isDirectoryAt landed = true ∧ node.isDirectory = true ∧
            t' = t.alter landed (·.merge (node.modifiedAt now)) ∨
          t.isDirectoryAt landed = false ∧ t' = t.put landed (node.modifiedAt now)) := by
  rw [copy]
  -- the checks in their order: a source, `recursive`, a landing place, and outside of the source
  cases hfind : t.find? (place source) with
  | none => simp [bind, Except.bind]
  | some n =>
    simp only [bind, Except.bind, needsRecursive_iff, Option.some.injEq, exists_and_left,
      exists_eq_left']
    by_cases hrec : n.isDirectory = true → recursive = true
    · rw [if_neg (not_not_intro hrec)]
      cases hland : t.landingSteps (place source) (place destination) with
      | error fault => simp
      | ok landed =>
        simp only [List.isPrefixOf_iff_prefix, Except.ok.injEq, exists_eq_left']
        by_cases hinside : place source <+: landed
        · simp only [hinside, if_true, not_true_eq_false, false_and, and_false, iff_false]
          split <;> simp
        · have hother : landed ≠ place source := by
            rintro rfl
            exact hinside List.prefix_rfl
          rw [if_neg hother, if_neg hinside, isDirectory_modifiedAt]
          cases hat : t.isDirectoryAt landed <;> cases hdir : n.isDirectory <;>
            simp [hinside, hrec, hdir, eq_comm]
    · rw [if_pos hrec]
      simp [hrec]

/-- A move has to land outside of its source and must not meet a conflict; the node leaves its place
first and then takes the new one. -/
theorem move_eq_ok_iff :
    t.move source destination = .ok (target, t') ↔
      place source ≠ [] ∧ ∃ node landed, t.find? (place source) = some node ∧
        t.landingSteps (place source) (place destination) = .ok landed ∧
        ¬ place source <+: landed ∧
        (t.find? landed).bind (moveConflict? (place source) landed node.isDirectory) = none ∧
        target = Path.render landed ∧
        t' = (t.drop (place source)).put landed node := by
  rw [move]
  -- the checks in their order: the root, a source, a landing place, outside of it, and a conflict
  by_cases hroot : place source = []
  · simp [hroot]
  · rw [if_neg hroot]
    cases hfind : t.find? (place source) with
    | none => simp [bind, Except.bind]
    | some n =>
      simp only [bind, Except.bind, Option.some.injEq, exists_and_left, exists_eq_left']
      cases hland : t.landingSteps (place source) (place destination) with
      | error fault => simp
      | ok landed =>
        simp only [List.isPrefixOf_iff_prefix, Except.ok.injEq, exists_eq_left']
        by_cases hinside : place source <+: landed
        · simp only [hinside, if_true, not_true_eq_false, false_and, and_false, iff_false]
          split <;> simp
        · have hother : landed ≠ place source := by
            rintro rfl
            exact hinside List.prefix_rfl
          rw [if_neg hother, if_neg hinside]
          cases hconflict : (t.find? landed).bind
              (moveConflict? (place source) landed n.isDirectory) with
          | some fault => simp
          | none => simp [hinside, hroot, eq_comm]

end Tree

end Userland
