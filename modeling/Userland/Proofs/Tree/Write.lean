/-
  Writing a file.

  1. *Program.*  `writeInPlace` does it step by step on the one tree there is: a file that is there
     gets its content and then its time, and else an empty file is made in the directory above,
     looked up again, and filled.

  2. *Specification.*  `Written`: what is read is what was written, and no other path leads to
     anything else than before.  An old file keeps what it is not given and its place among the
     others (`Refilled`); a new one comes last in its directory (`Made`).  Writing succeeds exactly
     for a file and for a free place in a directory, and a failure leaves the tree as it was.

  3. *The crux.*  The new file is made by a name in a directory, both cut out of the one spelling of
     the path, and the path must lead to that entry: `write_eq_ok_iff` tells it in steps, where the
     directory is all of them but the last.  In place, the look-up after the making cannot fail
     (`insertInPlace_eq`), and to fill what has just been put is to have put it filled
     (`alter_put`), so that the two programs are one (`writeInPlace_eq`).  Since no directory is at
     the path before or after, nothing is below it either time, and only the path itself can lead
     to anything else (`seen_of_sameBut`).
-/
import Userland.Proofs.Tree.Reachable

namespace Userland.Tree

variable {t t' : Tree} {path content owner : String} {now : Timestamp} {s : List String}

/-! ## Writing in place -/

/-- Puts a node under a name into the directory at `parent` and looks it up again. -/
def insertInPlace (t : Tree) (parent name : String) (node : Node) : Except Fault Unit × Tree :=
  match checkName name with
  | .error fault => (.error fault, t)
  | .ok _ =>
    match t.list parent with
    | .error fault => (.error fault, t)
    | .ok _ =>
      let inserted := t.alter (place parent) (·.mapEntries (Entries.put · name node))
      match inserted.find? (place parent ++ [name]) with
      | none => (.error (.notFound name), inserted)
      | some _ => (.ok (), inserted)

/-- Gives the file at a path a new content and its time, or makes an empty file and fills it. -/
def writeInPlace (t : Tree) (path content owner : String) (now : Timestamp) :
    Except Fault Unit × Tree :=
  let path := Path.normalize "/" path
  match t.get? path with
  | some (.directory ..) => (.error (.isDirectory path), t)
  | some (.file ..) =>
    let filled := t.alter (place path) (·.withContent content)
    (.ok (), filled.alter (place path) (·.modifiedAt now))
  | none =>
    match t.insertInPlace (Path.parent path) (Path.fileName path) (freshFile owner now "") with
    | (.error fault, t') => (.error fault, t')
    | (.ok _, t') =>
      (.ok (), t'.alter (place (Path.parent path) ++ [Path.fileName path]) (·.withContent content))

/-- What has just been put into a directory is there. -/
theorem insertInPlace_eq (t : Tree) (parent name : String) (node : Node) :
    t.insertInPlace parent name node = t.atOnceUnit (t.insert parent name node) := by
  rw [insertInPlace, insert]
  cases checkName name with
  | error fault => rfl
  | ok u =>
    cases hlist : t.list parent with
    | error fault => rfl
    | ok es =>
      obtain ⟨a, hdir⟩ := list_eq_ok_iff.mp hlist
      have hthere := find?_put_self (s := place parent ++ [name]) (by simp)
        (by rw [List.dropLast_concat]; exact isDirectoryAt_iff.mpr ⟨a, es, hdir⟩) node
      rw [put_concat] at hthere
      simp only [hthere]
      rfl

/-- Nothing fails after the first change, so that it is done as a whole or not at all. -/
theorem writeInPlace_eq (t : Tree) (path content owner : String) (now : Timestamp) :
    t.writeInPlace path content owner now = t.atOnceUnit (t.write path content owner now) := by
  have hs := canonical_place path
  unfold writeInPlace write
  simp only [insertInPlace_eq, normalize_eq_render, get?_eq, place_render hs]
  cases hfind : t.find? (place path) with
  | some n =>
    cases n with
    | directory a es => rfl
    | file a old =>
      refine congrArg (fun root => (Except.ok (), Tree.mk root)) ?_
      exact Node.alter_alter t.root _ _ (place path)
  | none =>
    -- a new file is made empty and filled then, which is putting it there with its content
    have hfill := alter_put (s := place (Path.parent (Path.render (place path))) ++
      [Path.fileName (Path.render (place path))]) (by simp) t (freshFile owner now "")
      (·.withContent content)
    rw [put_concat, put_concat] at hfill
    simp only [insert]
    cases checkName (Path.fileName (Path.render (place path))) with
    | error fault => rfl
    | ok u =>
      cases t.list (Path.parent (Path.render (place path))) with
      | error fault => rfl
      | ok es => exact congrArg (Prod.mk (Except.ok ())) hfill

/-! ## What has been written -/

/-- The file at the path has the content, and no other path leads to anything else. -/
structure Written (t : Tree) (path content : String) (now : Timestamp) (t' : Tree) : Prop where
  /-- What is read is what was written. -/
  read : t'.read path = .ok content
  /-- The size is that of the content, in bytes, and the time is that of the writing. -/
  stamped : ∃ a, t'.get? path = some (.file a content) ∧ a.size = content.utf8ByteSize ∧
    a.modified = now
  /-- Every other path leads to what it led to, or to nothing as before. -/
  others : ∀ other, place other ≠ place path →
    (t'.get? other).map Node.face = (t.get? other).map Node.face

/-- The file was there, with these attributes. -/
structure Refilled (t : Tree) (path content : String) (now : Timestamp) (a : Attributes)
    (t' : Tree) : Prop extends Written t path content now t' where
  /-- It keeps the attributes that it is not given. -/
  kept : t'.get? path =
    some (.file { a with size := content.utf8ByteSize, modified := now } content)
  /-- Every directory holds the names that it held, in their order. -/
  order : ∀ dir, (t'.get? dir).map Node.names = (t.get? dir).map Node.names

/-- The file is new. -/
structure Made (t : Tree) (path content owner : String) (now : Timestamp) (t' : Tree) :
    Prop extends Written t path content now t' where
  /-- It has the attributes of a new file of its owner's. -/
  fresh : t'.get? path =
    some (.file ⟨"-rw-r--r--", owner, owner, content.utf8ByteSize, now⟩ content)
  /-- It comes last in the directory above the path. -/
  last : ∃ a es, t.get? (Path.parent (Path.normalize "/" path)) = some (.directory a es) ∧
    t'.get? (Path.parent (Path.normalize "/" path)) = some (.directory a
      (es ++ [(Path.fileName (Path.normalize "/" path), freshFile owner now content)]))
  /-- Every other directory holds the names that it held, in their order. -/
  order : ∀ dir, place dir ≠ place path →
    place dir ≠ place (Path.parent (Path.normalize "/" path)) →
      (t'.get? dir).map Node.names = (t.get? dir).map Node.names

/-- Only files can be read, and all of their content is. -/
theorem read_eq_ok_iff :
    t.read path = .ok content ↔ ∃ a, t.find? (place path) = some (.file a content) := by
  rw [read, get, get?_eq]
  cases t.find? (place path) with
  | none => simp
  | some n => cases n <;> simp

/-- Below a file there is what was there before it was filled: nothing. -/
theorem find?_refilled_cons (content : String) (now : Timestamp) (m : Node) (name : String)
    (rest : List String) :
    ((m.withContent content).modifiedAt now).find? (name :: rest) = m.find? (name :: rest) := by
  rw [Node.modifiedAt, Node.find?_mapAttributes_cons]
  cases m with
  | file a old => rw [Node.withContent, Node.find?_file_cons, Node.find?_file_cons]
  | directory a es => rfl

/-- A file that is there is filled again. -/
theorem refilled_alter (content : String) (now : Timestamp) {a : Attributes} {old : String}
    (hfind : t.find? (place path) = some (.file a old)) :
    Refilled t path content now a
      (t.alter (place path) fun n => (n.withContent content).modifiedAt now) := by
  have hthere : (t.alter (place path) fun n => (n.withContent content).modifiedAt now).find?
      (place path) =
        some (.file { a with size := content.utf8ByteSize, modified := now } content) :=
    (Node.find?_alter_self t.root _ (place path)).trans (congrArg (Option.map _) hfind)
  have helsewhere : ∀ other, place other ≠ place path → _ := fun other hother =>
    Node.map_listed_find?_alter (find?_refilled_cons content now) t.root hother
  refine ⟨⟨read_eq_ok_iff.mpr ⟨_, hthere⟩, ⟨_, hthere, rfl, rfl⟩, fun other hother => ?_⟩,
    hthere, fun dir => ?_⟩
  · exact Node.map_face_of_listed (helsewhere other hother)
  · by_cases hdir : place dir = place path
    · rw [get?_eq, get?_eq, hdir, hthere, hfind]
      rfl
    · exact Node.map_names_of_listed (helsewhere dir hdir)

/-- Where there is no directory, nothing is below the place. -/
theorem find?_eq_none_below {p : List String} (hs : t.isDirectoryAt s = false) (hsp : s <+: p)
    (hp : p ≠ s) : t.find? p = none := by
  obtain ⟨r, rfl⟩ := hsp
  have hr : r ≠ [] := by
    rintro rfl
    exact hp (List.append_nil s)
  cases hbelow : t.find? (s ++ r) with
  | none => rfl
  | some n =>
    rw [isDirectoryAt_of_find?_append hbelow hr] at hs
    cases hs

/-- Only in the directory above the place does the place have a name. -/
theorem namesBut_of_ne_dropLast {p : List String} (hp : p ≠ s.dropLast) (n : Node) :
    namesBut [s] p n = n.names := by
  refine List.filter_eq_self.mpr fun name _ => decide_eq_true fun hmem => hp ?_
  rw [← List.mem_singleton.mp hmem, List.dropLast_concat]

/-- Where no directory is before nor after, not even what is below the place is different. -/
theorem seen_of_sameBut {p : List String} (h : SameBut [s] t t')
    (hbefore : t.isDirectoryAt s = false) (hafter : t'.isDirectoryAt s = false) (hp : p ≠ s) :
    (t'.find? p).map (seen [s] p) = (t.find? p).map (seen [s] p) := by
  by_cases hbelow : s <+: p
  · rw [find?_eq_none_below hafter hbelow hp, find?_eq_none_below hbefore hbelow hp]
  · exact h p (List.forall_mem_singleton.mpr hbelow)

/-- A file that is made where nothing was, in a directory. -/
theorem made_put (content owner : String) (now : Timestamp)
    (hfree : t.find? (place path) = none)
    (hdir : t.isDirectoryAt (place path).dropLast = true) :
    Made t path content owner now (t.put (place path) (freshFile owner now content)) := by
  have hs := canonical_place path
  have hne := ne_nil_of_find?_eq_none hfree
  have hthere := find?_put_self hne hdir (freshFile owner now content)
  have hparent : place (Path.parent (Path.normalize "/" path)) = (place path).dropLast := by
    rw [normalize_eq_render, Path.parent_render hs, place_render hs.dropLast]
  -- all other nodes show what they did, but for the new name in the directory
  have helsewhere : ∀ other, place other ≠ place path → _ := fun other hother =>
    seen_of_sameBut (sameBut_put t (place path) (freshFile owner now content))
      (by rw [isDirectoryAt, hfree, Option.any_none])
      (by rw [isDirectoryAt, hthere, Option.any_some]; rfl) hother
  refine ⟨⟨read_eq_ok_iff.mpr ⟨_, hthere⟩, ⟨_, hthere, rfl, rfl⟩, fun other hother => ?_⟩,
    hthere, ?_, fun dir hself habove => ?_⟩
  · exact Node.map_comp_eq_of_map_eq (helsewhere other hother) Prod.fst
  · obtain ⟨a, es, habove⟩ := isDirectoryAt_iff.mp hdir
    obtain ⟨d, name, hplace⟩ := (List.eq_nil_or_concat' (place path)).resolve_left hne
    rw [get?_eq, get?_eq, hparent, normalize_eq_render]
    rw [hplace] at hs hfree habove ⊢
    rw [List.dropLast_concat] at habove ⊢
    rw [find?_concat habove, Entries.get?_eq_none_iff] at hfree
    rw [Path.fileName_render_concat d (hs name (by simp))]
    exact ⟨a, es, habove, find?_put_dir habove hfree _⟩
  · rw [hparent] at habove
    have hnames := Node.map_comp_eq_of_map_eq (helsewhere dir hself) Prod.snd
    have hall : Prod.snd ∘ seen [place path] (place dir) = Node.names :=
      funext (namesBut_of_ne_dropLast habove)
    rwa [hall] at hnames

/-! ## When a file can be written -/

/-- A file is there already, or nothing is and the directory above is there. -/
theorem isOk_write_iff (t : Tree) (path content owner : String) (now : Timestamp) :
    (∃ t', t.write path content owner now = .ok t') ↔
      (∃ a old, t.get? path = some (.file a old)) ∨
        (t.get? path = none ∧
          t.isDirectory (Path.parent (Path.normalize "/" path)) = true) := by
  have hs := canonical_place path
  simp only [write_eq_ok_iff, get?_eq, isDirectory, normalize_eq_render, Path.parent_render hs,
    place_render hs.dropLast]
  constructor
  · rintro ⟨t', ⟨a, old, hfind, -⟩ | ⟨hfree, hdir, -⟩⟩
    · exact .inl ⟨a, old, hfind⟩
    · exact .inr ⟨hfree, hdir⟩
  · rintro (⟨a, old, hfind⟩ | ⟨hfree, hdir⟩)
    · exact ⟨_, .inl ⟨a, old, hfind, rfl⟩⟩
    · exact ⟨_, .inr ⟨hfree, hdir, rfl⟩⟩

/-- A write that succeeds has done all of it. -/
theorem written_of_write (h : t.write path content owner now = .ok t') :
    Written t path content now t' := by
  rcases write_eq_ok_iff.mp h with ⟨a, old, hfind, rfl⟩ | ⟨hfree, hdir, rfl⟩
  · exact (refilled_alter content now hfind).toWritten
  · exact (made_put content owner now hfree hdir).toWritten

/-- A directory is never written over. -/
theorem isDirectory_of_write (h : t.write path content owner now = .ok t') :
    t.isDirectory path = false := by
  rw [isDirectory, isDirectoryAt]
  rcases write_eq_ok_iff.mp h with ⟨a, old, hfind, -⟩ | ⟨hfree, -⟩
  · rw [hfind]
    rfl
  · rw [hfree]
    rfl

/-- Writing succeeds for a file that is there, and for a place with nothing in it if a directory is
above.  Then the file has been filled, or made in full and put last, and nothing else is different;
and if writing fails it has done nothing. -/
theorem writeInPlace_written_or_same (t : Tree) (path content owner : String) (now : Timestamp) :
    t.writeInPlace path content owner now = t.atOnceUnit (t.write path content owner now) ∧
      ((t.writeInPlace path content owner now).1 = .ok () ↔
        (∃ a old, t.get? path = some (.file a old)) ∨
          (t.get? path = none ∧
            t.isDirectory (Path.parent (Path.normalize "/" path)) = true)) ∧
      match t.writeInPlace path content owner now with
      | (.ok _, t') => Written t path content now t' ∧
          (∀ a old, t.get? path = some (.file a old) → Refilled t path content now a t') ∧
          (t.get? path = none → Made t path content owner now t')
      | (.error _, t') => t' = t := by
  refine ⟨writeInPlace_eq t path content owner now, ?_⟩
  rw [writeInPlace_eq, ← isOk_write_iff t path content owner now]
  cases hwrite : t.write path content owner now with
  | error fault => simp [atOnceUnit]
  | ok t' =>
    refine ⟨iff_of_true rfl ⟨t', rfl⟩, ?_⟩
    -- an old file is filled anew, a new one is made; each rules the other out
    rcases write_eq_ok_iff.mp hwrite with ⟨a, old, hfind, rfl⟩ | ⟨hfree, hdir, rfl⟩
    · have hfilled := refilled_alter content now hfind
      refine ⟨hfilled.toWritten, fun b older hb => ?_, fun hnone => ?_⟩
      · cases hfind.symm.trans hb
        exact hfilled
      · cases hfind.symm.trans hnone
    · have hmade := made_put content owner now hfree hdir
      refine ⟨hmade.toWritten, fun a old hfile => ?_, fun _ => hmade⟩
      cases hfree.symm.trans hfile

/-- A new file below a directory, and no file below a file. -/
example :
    ((sample.writeInPlace "src/.//new" "text" "ann" noon).2.read "/src/new").toOption =
        some "text" ∧
      (sample.writeInPlace "/src/d/x/new" "text" "ann" noon).1.toOption = none := by
  decide +kernel

end Userland.Tree
