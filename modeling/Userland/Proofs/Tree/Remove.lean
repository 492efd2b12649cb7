/-
  Taking a node out takes out what is below it, and nothing else.

  The node is looked at through its whole path, and then taken out of the directory above by its
  last name (`removeInPlace`).  The path is in its one spelling by then, so that both are the same
  place whatever the path was: the directory above is there and holds the very node that was looked
  at, and past the checks nothing can fail (`removeInPlace_eq`).

  The names in a directory are different, so that nothing else comes to light under the name; which
  places are within the path is a matter of steps and not of texts, so that a name that goes on
  where the path ends is not among them (`removed_of_remove`).
-/
import Userland.Proofs.Tree.Reachable

namespace Userland.Tree

variable {t t' : Tree} {path : String} {recursive : Bool} {s : List String} {node : Node}

/-! ## Removing in place -/

/-- Takes the node at a path out of the directory above it, by its name. -/
def removeInPlace (t : Tree) (path : String) (recursive : Bool) : Except Fault Node × Tree :=
  let path := Path.normalize "/" path
  if path = "/" then
    (.error (.invalidArgument "it is dangerous to operate recursively on '/'"), t)
  else match t.get? path with
    | none => (.error (.notFound path), t)
    | some node =>
      if node.isDirectory && !recursive then (.error (.isDirectory path), t)
      else match t.list (Path.parent path) with
        | .error fault => (.error fault, t)
        | .ok entries =>
          let name := Path.fileName path
          let without := t.alter (place (Path.parent path)) (·.mapEntries (Entries.remove · name))
          match Entries.get? entries name with
          | none => (.error (.notFound path), without)
          | some removed => (.ok removed, without)

/-- A node that is there is an entry of the directory above it. -/
theorem exists_list_above {d : List String} {name : String} (hplace : Path.Canonical (d ++ [name]))
    (hfind : t.find? (d ++ [name]) = some node) :
    ∃ es, t.list (Path.render d) = .ok es ∧ Entries.get? es name = some node := by
  have hd : place (Path.render d) = d := place_render (Path.canonical_append.mp hplace).1
  obtain ⟨a, es, hdir⟩ := isDirectoryAt_iff.mp (isDirectoryAt_of_find?_append hfind (by simp))
  have hlist : t.list (Path.render d) = .ok es := list_eq_ok_iff.mpr ⟨a, by rw [hd, hdir]⟩
  exact ⟨es, hlist, by rw [← find?_concat hdir, hfind]⟩

/-- The checks come first, so that it is done as a whole or not at all. -/
theorem removeInPlace_eq (t : Tree) (path : String) (recursive : Bool) :
    t.removeInPlace path recursive = t.atOnce (t.remove path recursive) := by
  have hs := canonical_place path
  unfold removeInPlace remove
  simp only [normalize_eq_render, Path.render_eq_root_iff hs, get?_eq, place_render hs,
    Path.parent_render hs, place_render hs.dropLast]
  by_cases hroot : place path = []
  · rw [if_pos hroot, if_pos hroot]
    rfl
  · rw [if_neg hroot, if_neg hroot]
    cases hfind : t.find? (place path) with
    | none => rfl
    | some node =>
      by_cases hrec : (node.isDirectory && !recursive) = true
      · simp only [if_pos hrec]
        rfl
      · simp only [if_neg hrec]
        -- the entry is looked up again in the directory above, where it is known to be
        obtain ⟨d, name, hplace⟩ := (List.eq_nil_or_concat' (place path)).resolve_left hroot
        rw [hplace] at hs hfind ⊢
        obtain ⟨es, hlist, hentry⟩ := exists_list_above hs hfind
        have hname := Path.fileName_render_concat d (hs name (by simp))
        rw [List.dropLast_concat]
        simp only [hlist, hname, hentry, drop_concat]
        rfl

/-! ## What has been taken out -/

/-- The node has been taken out of the tree, with all that is below it. -/
structure Removed (t : Tree) (path : String) (node : Node) (t' : Tree) : Prop where
  /-- It is the node that was there. -/
  taken : t.get? path = some node
  /-- Nothing is left at the path or below it. -/
  gone : ∀ other, Within other path → t'.get? other = none
  /-- Everywhere else there is what was there. -/
  others : ∀ other, ¬ Within other path →
    (t'.get? other).map Node.face = (t.get? other).map Node.face
  /-- Every directory there holds the names that it held, in their order, without the one. -/
  order : ∀ other, ¬ Within other path →
    (t'.get? other).map Node.names = (t.get? other).map (namesBut [place path] (place other))

/-- No directory has the name any more. -/
theorem namesBut_of_drop (ht : t.WellFormed) (hs : s ≠ []) {p : List String} {n : Node}
    (hn : (t.drop s).find? p = some n) : namesBut [s] p n = n.names := by
  refine List.filter_eq_self.mpr fun name hname => decide_eq_true fun hmem => ?_
  have hgone : (t.drop s).find? (p ++ [name]) = none := by
    have hself := find?_drop_append ht hs []
    rw [List.append_nil] at hself
    rwa [List.mem_singleton.mp hmem]
  cases n with
  | file a content => cases hname
  | directory a es =>
    have hentry : name ∈ Entries.names es := hname
    obtain ⟨child, hchild⟩ := Option.isSome_iff_exists.mp (Entries.mem_names_iff.mp hentry)
    rw [find?_concat hn, hchild] at hgone
    cases hgone

/-- A removal that succeeds has done all of it. -/
theorem removed_of_remove (ht : t.WellFormed) (h : t.remove path recursive = .ok (node, t')) :
    Removed t path node t' := by
  obtain ⟨hroot, hfind, -, rfl⟩ := remove_eq_ok_iff.mp h
  have hframe := sameBut_drop t (place path)
  have hout : ∀ other, ¬ Within other path → ∀ s ∈ [place path], ¬ s <+: place other :=
    fun other hother => List.forall_mem_singleton.mpr (mt within_iff.mpr hother)
  refine ⟨hfind, fun other hother => ?_, fun other hother => hframe.face (hout other hother),
    fun other hother => ?_⟩
  · obtain ⟨r, hr⟩ := within_iff.mp hother
    rw [get?_eq, ← hr]
    exact find?_drop_append ht hroot r
  · rw [get?_eq, get?_eq, ← hframe.order (hout other hother)]
    exact Option.map_congr fun n hn => (namesBut_of_drop ht hroot hn).symm

/-! ## When a node can be taken out -/

/-- Something else than the root is there, and it is a file or `recursive` is given. -/
theorem isOk_remove_iff :
    (∃ node t', t.remove path recursive = .ok (node, t')) ↔
      Path.normalize "/" path ≠ "/" ∧
        ∃ node, t.get? path = some node ∧ (node.isFile = true ∨ recursive = true) := by
  have hroot : Path.normalize "/" path ≠ "/" ↔ place path ≠ [] :=
    not_congr (Path.render_eq_root_iff (canonical_place path))
  have hkind : ∀ node : Node, (node.isDirectory = true → recursive = true) ↔
      node.isFile = true ∨ recursive = true := by
    intro node
    rw [Node.isFile]
    cases node.isDirectory <;> simp
  simp only [remove_eq_ok_iff, hroot, get?_eq, hkind]
  constructor
  · rintro ⟨node, t', hne, hfind, hfit, -⟩
    exact ⟨hne, node, hfind, hfit⟩
  · rintro ⟨hne, node, hfind, hfit⟩
    exact ⟨node, _, hne, hfind, hfit, rfl⟩

/-- Taking out succeeds for what is there and is not the root, and for a directory if that is asked
for.  Then it has taken out the node with all that is below it and nothing else, and if it fails it
has done nothing. -/
theorem removeInPlace_removed_or_same (h : Reachable t) (path : String) (recursive : Bool) :
    t.removeInPlace path recursive = t.atOnce (t.remove path recursive) ∧
      ((∃ node, (t.removeInPlace path recursive).1 = .ok node) ↔
        Path.normalize "/" path ≠ "/" ∧
          ∃ node, t.get? path = some node ∧ (node.isFile = true ∨ recursive = true)) ∧
      match t.removeInPlace path recursive with
      | (.ok node, t') => Removed t path node t'
      | (.error _, t') => t' = t := by
  refine ⟨removeInPlace_eq t path recursive, ?_⟩
  rw [removeInPlace_eq, ← isOk_remove_iff]
  cases hremove : t.remove path recursive with
  | error fault => simp [atOnce]
  | ok result =>
    refine ⟨?_, removed_of_remove h.wellFormed hremove⟩
    exact iff_of_true ⟨_, rfl⟩ ⟨_, _, rfl⟩

theorem sample_removeInPlace :
    (sample.removeInPlace "src/./d//" true).1.toOption.map Node.names = some ["e", "x"] ∧
      Reachable sample ∧
      sample.removeInPlace "src/./d//" true = sample.atOnce (sample.remove "src/./d//" true) ∧
      ((∃ node, (sample.removeInPlace "src/./d//" true).1 = .ok node) ↔
        Path.normalize "/" "src/./d//" ≠ "/" ∧
          ∃ node, sample.get? "src/./d//" = some node ∧ (node.isFile = true ∨ true = true)) ∧
      match sample.removeInPlace "src/./d//" true with
      | (.ok node, t') => Removed sample "src/./d//" node t'
      | (.error _, t') => t' = sample :=
  ⟨by decide +kernel, reachable_sample,
    removeInPlace_removed_or_same reachable_sample "src/./d//" true⟩

end Userland.Tree
