/-
  Putting a node at a place of a tree and taking one out.

  Both change one name of one directory.  At the place and below it the new node is found, or
  nothing (`find?_put_append`, `find?_drop_append`); the second needs different names in the
  directory.  Everywhere else the tree looks the same: `SameBut` says which places may differ, and
  that every other node is there as before, with its attributes, its content and the order of its
  other entries.  Agreement of this kind adds up along a sequence of changes (`SameBut.trans`).
-/
import Userland.Proofs.Node.Proper
import Userland.Tree.Basic

namespace Userland.Tree

variable {t t' t'' : Tree} {s p d : List String} {name : String} {node : Node}

/-! ## Trees that can be trusted -/

/-- The root is a directory, and the names in every directory are different and can be spelled. -/
structure WellFormed (t : Tree) : Prop where
  root : t.root.isDirectory = true
  proper : t.root.Proper

theorem wellFormed_empty (now : Timestamp) : (empty now).WellFormed :=
  ⟨rfl, Node.proper_emptyDirectory _ _ _ _⟩

theorem proper_freshDirectory (owner : String) (now : Timestamp) :
    (freshDirectory owner now).Proper :=
  Node.proper_emptyDirectory _ _ _ _

theorem proper_freshFile (owner : String) (now : Timestamp) (content : String) :
    (freshFile owner now content).Proper :=
  Node.proper_newFile _ _ _ _ _

/-- Every path, whatever its text, leads to a place that can be spelled. -/
theorem canonical_place (path : String) : Path.Canonical (place path) :=
  Path.canonical_steps "/" path

/-- The path names the place that `ancestor` names, or one below it. -/
def Within (path ancestor : String) : Prop :=
  Path.isWithin (Path.normalize "/" path) (Path.normalize "/" ancestor) = true

/-- To lie within a place is to begin with its steps. -/
theorem within_iff {path ancestor : String} :
    Within path ancestor ↔ place ancestor <+: place path :=
  Path.isWithin_normalize

/-- The root is a directory. -/
theorem WellFormed.isDirectoryAt_root (ht : t.WellFormed) : t.isDirectoryAt [] = true := by
  rw [isDirectoryAt, find?, Node.find?_nil]
  exact ht.root

/-! ## What is at a place -/

theorem find?_append (t : Tree) (s r : List String) :
    t.find? (s ++ r) = (t.find? s).bind (·.find? r) :=
  Node.find?_append t.root s r

/-- Below a node of the tree there is what is below it as a node. -/
theorem find?_below (h : t.find? s = some node) (r : List String) :
    t.find? (s ++ r) = node.find? r := by
  rw [find?_append, h, Option.bind_some]

/-- One step further there is what has the name in the directory. -/
theorem find?_concat {a : Attributes} {es : Entries Node}
    (h : t.find? d = some (.directory a es)) : t.find? (d ++ [name]) = Entries.get? es name := by
  rw [find?_below h, Node.find?_directory_cons]
  cases Entries.get? es name with
  | none => rfl
  | some child => exact Node.find?_nil child

/-- At a changed node and below it one finds what the change has made. -/
theorem find?_alter_append (t : Tree) (f : Node → Node) (s r : List String) :
    (t.alter s f).find? (s ++ r) = (t.find? s).bind fun m => (f m).find? r :=
  Node.find?_alter_append t.root f s r

/-- A directory is at a place if it is found there, with some attributes and entries. -/
theorem isDirectoryAt_iff :
    t.isDirectoryAt s = true ↔ ∃ a es, t.find? s = some (.directory a es) := by
  rw [isDirectoryAt, Option.any_eq_true]
  constructor
  · rintro ⟨n, hn, hdir⟩
    obtain ⟨a, es, rfl⟩ := Node.isDirectory_iff.mp hdir
    exact ⟨a, es, hn⟩
  · rintro ⟨a, es, h⟩
    exact ⟨_, h, rfl⟩

/-- A directory stands above every node. -/
theorem isDirectoryAt_of_find?_append {r : List String} (h : t.find? (s ++ r) = some node)
    (hr : r ≠ []) : t.isDirectoryAt s = true :=
  Node.isDirectory_above h hr

/-- A directory is in a directory. -/
theorem isDirectoryAt_dropLast (hs : s ≠ []) (h : t.isDirectoryAt s = true) :
    t.isDirectoryAt s.dropLast = true := by
  obtain ⟨a, es, hfind⟩ := isDirectoryAt_iff.mp h
  rw [← List.dropLast_append_getLast hs] at hfind
  exact isDirectoryAt_of_find?_append hfind (List.cons_ne_nil _ _)

/-- The root is always there. -/
theorem ne_nil_of_find?_eq_none (h : t.find? s = none) : s ≠ [] := by
  rintro rfl
  rw [find?, Node.find?_nil] at h
  cases h

/-- Only places that a path can spell have a node. -/
theorem WellFormed.canonical_of_find? (ht : t.WellFormed) (h : t.find? s = some node) :
    Path.Canonical s :=
  ht.proper.canonical_of_find? h

/-- Changing the node at a place keeps the tree well-formed, if it keeps the kind of node. -/
theorem WellFormed.alter (ht : t.WellFormed) (s : List String) {f : Node → Node}
    (hproper : ∀ n, n.Proper → (f n).Proper)
    (hkind : ∀ n, (f n).isDirectory = n.isDirectory) : (t.alter s f).WellFormed := by
  refine ⟨?_, ht.proper.alter hproper s⟩
  show (t.root.alter f s).isDirectory = true
  cases s with
  | nil => exact (hkind t.root).trans ht.root
  | cons name rest =>
    exact (Node.isDirectory_of_face (Node.face_alter_cons f t.root name rest)).trans ht.root

/-! ## Agreement outside of some places -/

/-- The names in a node at `p`, in order, without the entries at `places`. -/
def namesBut (places : List (List String)) (p : List String) (n : Node) : List String :=
  n.names.filter fun name => p ++ [name] ∉ places

/-- What a node at `p` shows of itself and of its entries, leaving out the ones at `places`. -/
def seen (places : List (List String)) (p : List String) (n : Node) :
    (NodeKind × Attributes × Option String) × List String :=
  (n.face, namesBut places p n)

/-- Outside of the places, and of what is below them, the trees show the same. -/
def SameBut (places : List (List String)) (t t' : Tree) : Prop :=
  ∀ p, (∀ s ∈ places, ¬ s <+: p) →
    (t'.find? p).map (seen places p) = (t.find? p).map (seen places p)

variable {places more : List (List String)}

theorem SameBut.refl (places : List (List String)) (t : Tree) : SameBut places t t :=
  fun _ _ => rfl

theorem SameBut.trans (h : SameBut places t t') (h' : SameBut places t' t'') :
    SameBut places t t'' :=
  fun p hp => (h' p hp).trans (h p hp)

/-- More places may differ. -/
theorem SameBut.mono (h : SameBut places t t') (hsub : places ⊆ more) : SameBut more t t' := by
  intro p hp
  -- what is shown without `more` is part of what is shown without `places`
  have hseen : seen more p =
      (fun x => (x.1, x.2.filter fun name => p ++ [name] ∉ more)) ∘ seen places p := by
    funext n
    have hfilter : ∀ name, (decide (p ++ [name] ∉ more) && decide (p ++ [name] ∉ places)) =
        decide (p ++ [name] ∉ more) := by
      intro name
      by_cases hmem : p ++ [name] ∈ places
      · simp [hmem, hsub hmem]
      · simp [hmem]
    simp only [seen, namesBut, Function.comp_apply, List.filter_filter, hfilter]
  rw [hseen, ← Option.map_map, h p fun s hs => hp s (hsub hs), Option.map_map]

/-- The other nodes keep their attributes and contents. -/
theorem SameBut.face (h : SameBut places t t') (hp : ∀ s ∈ places, ¬ s <+: p) :
    (t'.find? p).map Node.face = (t.find? p).map Node.face :=
  Node.map_comp_eq_of_map_eq (h p hp) Prod.fst

/-- The other entries of a directory keep their order. -/
theorem SameBut.order (h : SameBut places t t') (hp : ∀ s ∈ places, ¬ s <+: p) :
    (t'.find? p).map (namesBut places p) = (t.find? p).map (namesBut places p) :=
  Node.map_comp_eq_of_map_eq (h p hp) Prod.snd

/-- A change of one node shows nowhere else. -/
theorem sameBut_alter (t : Tree) (s : List String) (f : Node → Node) :
    SameBut [s] t (t.alter s f) := by
  intro p hp
  refine Node.map_find?_alter (fun m name rest => ?_) t.root (hp s List.mem_cons_self)
  rw [seen, seen, namesBut, namesBut, Node.face_alter_cons, Node.names_alter_cons]

/-! ## One name of one directory -/

section OneName

variable {g : Entries Node → Entries Node}

/-- At a place that is neither above the entry nor below it, nothing is different. -/
theorem find?_alter_mapEntries_apart
    (hg : ∀ es other, other ≠ name → Entries.get? (g es) other = Entries.get? es other)
    (t : Tree) (hs : ¬ d ++ [name] <+: p) (hp : ¬ p <+: d ++ [name]) :
    (t.alter d (·.mapEntries g)).find? p = t.find? p := by
  by_cases hd : d <+: p
  · obtain ⟨rest, rfl⟩ := hd
    cases rest with
    | nil =>
      rw [List.append_nil] at hp
      exact absurd (List.prefix_append d [name]) hp
    | cons other rest =>
      have hne : other ≠ name := by
        rintro rfl
        exact hs ⟨rest, by rw [List.append_assoc, List.singleton_append]⟩
      rw [find?_alter_append, find?_append]
      exact congrArg (Option.bind (t.find? d)) (funext fun m =>
        Node.find?_mapEntries_cons (fun es => hg es other hne) m rest)
  · exact Node.find?_alter_apart _ _ hd fun h => hp (h.trans (List.prefix_append d [name]))

/-- A change of one name in a directory shows nowhere but at this name. -/
theorem sameBut_alter_mapEntries
    (hg : ∀ es other, other ≠ name → Entries.get? (g es) other = Entries.get? es other)
    (hnames : ∀ es, (Entries.names (g es)).filter (· ≠ name) =
      (Entries.names es).filter (· ≠ name)) (t : Tree) (d : List String) :
    SameBut [d ++ [name]] t (t.alter d (·.mapEntries g)) := by
  intro p hp
  have hs : ¬ d ++ [name] <+: p := hp _ List.mem_cons_self
  by_cases hpd : p = d
  · subst hpd
    -- the directory itself lists its other entries as before
    have hself := Node.find?_alter_self t.root (·.mapEntries g) p
    refine (congrArg (Option.map _) hself).trans ?_
    rw [Option.map_map]
    refine congrArg (Option.map · (t.root.find? p)) (funext fun m => ?_)
    have hfilter : ∀ l : List String, (l.filter fun n => p ++ [n] ∉ [p ++ [name]]) =
        l.filter (· ≠ name) := by
      intro l
      simp
    rw [Function.comp_apply, seen, seen, namesBut, namesBut, Node.face_mapEntries, hfilter,
      hfilter]
    cases m with
    | file a content => rfl
    | directory a es => exact congrArg (Prod.mk _) (hnames es)
  · by_cases hd : d <+: p
    · -- below another entry of the directory
      rw [find?_alter_mapEntries_apart hg t hs]
      intro h
      rcases List.prefix_concat_iff.mp h with h | h
      · exact hs (h ▸ List.prefix_rfl)
      · exact hpd (h.eq_of_length (Nat.le_antisymm h.length_le hd.length_le))
    · -- neither the directory nor below it
      refine Node.map_find?_alter (fun m first rest => ?_) t.root hd
      rw [seen, seen, namesBut, namesBut, Node.face_alter_cons, Node.names_alter_cons]

end OneName

/-! ## Putting a node at a place -/

theorem put_nil (t : Tree) (node : Node) : t.put [] node = t := rfl

theorem put_concat (t : Tree) (d : List String) (name : String) (node : Node) :
    t.put (d ++ [name]) node = t.alter d (·.mapEntries (Entries.put · name node)) := by
  rw [put, List.getLast?_concat, List.dropLast_concat]

/-- The place has the node now, with all that is below it. -/
theorem find?_put_append (hs : s ≠ []) (hd : t.isDirectoryAt s.dropLast = true)
    (node : Node) (r : List String) : (t.put s node).find? (s ++ r) = node.find? r := by
  obtain ⟨d, name, rfl⟩ := (List.eq_nil_or_concat' s).resolve_left hs
  rw [List.dropLast_concat] at hd
  obtain ⟨a, es, hdir⟩ := isDirectoryAt_iff.mp hd
  rw [put_concat, List.append_assoc, List.singleton_append, find?_alter_append, hdir,
    Option.bind_some, Node.mapEntries, Node.find?_directory_cons, Entries.get?_put_self,
    Option.bind_some]

/-- What is put somewhere is found there. -/
theorem find?_put_self (hs : s ≠ []) (hd : t.isDirectoryAt s.dropLast = true) (node : Node) :
    (t.put s node).find? s = some node := by
  have h := find?_put_append hs hd node []
  rwa [List.append_nil, Node.find?_nil] at h

/-- At a place that is neither above nor below this one, nothing is different. -/
theorem find?_put_apart (t : Tree) (node : Node) (hs : ¬ s <+: p) (hp : ¬ p <+: s) :
    (t.put s node).find? p = t.find? p := by
  rcases List.eq_nil_or_concat' s with rfl | ⟨d, name, rfl⟩
  · rw [put_nil]
  · rw [put_concat]
    exact find?_alter_mapEntries_apart (fun es other h => Entries.get?_put_of_ne h) t hs hp

theorem sameBut_put (t : Tree) (s : List String) (node : Node) : SameBut [s] t (t.put s node) := by
  rcases List.eq_nil_or_concat' s with rfl | ⟨d, name, rfl⟩
  · exact SameBut.refl _ _
  · rw [put_concat]
    refine sameBut_alter_mapEntries (fun es other h => Entries.get?_put_of_ne h)
      (fun es => ?_) t d
    rw [Entries.names_put]
    split
    · rfl
    · rw [List.filter_append, List.filter_cons_of_neg (by simp), List.filter_nil,
        List.append_nil]

/-- A proper node at a place that can be spelled keeps the tree well-formed. -/
theorem WellFormed.put (ht : t.WellFormed) (hs : Path.Canonical s) (hnode : node.Proper) :
    (t.put s node).WellFormed := by
  rcases List.eq_nil_or_concat' s with rfl | ⟨d, name, rfl⟩
  · exact ht
  · have hname : Path.IsName name := hs name (by simp)
    rw [put_concat]
    exact ht.alter d (fun m hm => hm.mapEntries_put hname hnode)
      fun m => Node.isDirectory_mapEntries _ m

/-- Changing what has just been put is putting it changed. -/
theorem alter_put (hs : s ≠ []) (t : Tree) (node : Node) (f : Node → Node) :
    (t.put s node).alter s f = t.put s (f node) := by
  obtain ⟨d, name, rfl⟩ := (List.eq_nil_or_concat' s).resolve_left hs
  rw [put_concat, put_concat, alter, alter, alter, Node.alter_append, Node.alter_alter]
  refine congrArg (fun f => Tree.mk (t.root.alter f d)) (funext fun dir => ?_)
  cases dir with
  | file a content => rfl
  | directory a es => exact congrArg (Node.directory a) (Entries.adjust_put es name node f)

/-- Putting what is there changes nothing. -/
theorem put_eq_self (h : t.find? s = some node) : t.put s node = t := by
  rcases List.eq_nil_or_concat' s with rfl | ⟨d, name, rfl⟩
  · exact put_nil t node
  · rw [find?_append] at h
    obtain ⟨dir, hdir, hname⟩ := Option.bind_eq_some_iff.mp h
    rw [put_concat]
    refine congrArg Tree.mk (Node.alter_eq_self hdir ?_)
    cases dir with
    | file a content => rfl
    | directory a es =>
      rw [Node.find?_directory_cons] at hname
      obtain ⟨child, hchild, hself⟩ := Option.bind_eq_some_iff.mp hname
      rw [Node.find?_nil] at hself
      obtain rfl := Option.some.inj hself
      exact congrArg (Node.directory a) (Entries.put_eq_self hchild)

/-- What is put below a node that has just been put is put into the node. -/
theorem put_put_concat (hs : s ≠ []) (t : Tree) (node more : Node) (name : String) :
    (t.put s node).put (s ++ [name]) more =
      t.put s (node.mapEntries (Entries.put · name more)) := by
  rw [put_concat, alter_put hs]

/-- In its own directory a new node goes to the end. -/
theorem find?_put_dir {a : Attributes} {es : Entries Node}
    (hdir : t.find? d = some (.directory a es)) (hfresh : name ∉ Entries.names es) (node : Node) :
    (t.put (d ++ [name]) node).find? d = some (.directory a (es ++ [(name, node)])) := by
  have hself : (t.put (d ++ [name]) node).find? d =
      (t.find? d).map (·.mapEntries (Entries.put · name node)) := by
    rw [put_concat]
    exact Node.find?_alter_self t.root _ d
  rw [hself, hdir, Option.map_some, Node.mapEntries, Entries.put_of_not_mem hfresh]

/-! ## Taking a node out -/

theorem drop_concat (t : Tree) (d : List String) (name : String) :
    t.drop (d ++ [name]) = t.alter d (·.mapEntries (Entries.remove · name)) := by
  rw [drop, List.getLast?_concat, List.dropLast_concat]

/-- Nothing is left at the place or below it. -/
theorem find?_drop_append (ht : t.WellFormed) (hs : s ≠ []) (r : List String) :
    (t.drop s).find? (s ++ r) = none := by
  obtain ⟨d, name, rfl⟩ := (List.eq_nil_or_concat' s).resolve_left hs
  rw [drop_concat, List.append_assoc, List.singleton_append, find?_alter_append]
  cases hdir : t.find? d with
  | none => rfl
  | some m =>
    cases m with
    | file a content => rfl
    | directory a es =>
      have hdistinct := (ht.proper.find? hdir).distinct
      rw [Option.bind_some, Node.mapEntries, Node.find?_directory_cons,
        Entries.get?_remove_self hdistinct, Option.bind_none]

theorem sameBut_drop (t : Tree) (s : List String) : SameBut [s] t (t.drop s) := by
  rcases List.eq_nil_or_concat' s with rfl | ⟨d, name, rfl⟩
  · exact SameBut.refl _ _
  · rw [drop_concat]
    refine sameBut_alter_mapEntries (fun es other h => Entries.get?_remove_of_ne es h)
      (fun es => ?_) t d
    rw [Entries.names_remove, ← List.erase_filter]
    exact List.erase_of_not_mem (by simp)

/-- Taking a node out keeps the tree well-formed. -/
theorem WellFormed.drop (ht : t.WellFormed) (s : List String) : (t.drop s).WellFormed := by
  rcases List.eq_nil_or_concat' s with rfl | ⟨d, name, rfl⟩
  · exact ht
  · rw [drop_concat]
    exact ht.alter d (fun m hm => hm.mapEntries_remove name)
      fun m => Node.isDirectory_mapEntries _ m

/-- Whether a directory is there does not depend on what is elsewhere. -/
theorem SameBut.isDirectoryAt (h : SameBut places t t') (hp : ∀ s ∈ places, ¬ s <+: p) :
    t'.isDirectoryAt p = t.isDirectoryAt p := by
  have hface := h.face hp
  rw [Tree.isDirectoryAt, Tree.isDirectoryAt]
  cases hn : t.find? p with
  | none =>
    rw [hn, Option.map_none, Option.map_eq_none_iff] at hface
    rw [hface]
  | some n =>
    rw [hn, Option.map_some] at hface
    obtain ⟨n', hn', hf⟩ := Option.map_eq_some_iff.mp hface
    rw [hn', Option.any_some, Option.any_some, Node.isDirectory_of_face hf]

/-- Outside of the place the directories are the same, also the ones above it. -/
theorem isDirectoryAt_put (h : ¬ s <+: p) (t : Tree) (node : Node) :
    (t.put s node).isDirectoryAt p = t.isDirectoryAt p :=
  (sameBut_put t s node).isDirectoryAt (by simpa using h)

/-- A directory is not below its entries. -/
theorem not_below_of_concat (d : List String) (name : String) : ¬ d ++ [name] <+: d := by
  intro h
  have hlength := h.length_le
  rw [List.length_append, List.length_singleton] at hlength
  omega

/-- A directory is still there when something has been put into it. -/
theorem isDirectoryAt_put_concat (d : List String) (name : String) (t : Tree) (node : Node) :
    (t.put (d ++ [name]) node).isDirectoryAt d = t.isDirectoryAt d :=
  isDirectoryAt_put (not_below_of_concat d name) t node

end Userland.Tree
