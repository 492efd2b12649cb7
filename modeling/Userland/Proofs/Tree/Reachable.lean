/-
  The trees that calls lead to, and what holds in all of them.

  A `Change` is a call with all that it is given: any texts for paths, names and modes, and for
  `insert` a node.  A node that a caller can have is freshly made, or found in or taken out of
  another such tree (`Obtainable`), so that the trees and the nodes are described together.  A call
  is done in place (`Change.after`), and one that fails leaves what it leaves.

  The invariant is `WellFormed`.  The step lemma is `Change.wellFormed_after`, one case for each
  call; all that it needs of a call is that new names come out of a checked name or out of the steps
  of a path.  The run lemma is `Reachable.wellFormed`, an induction over trees and nodes at once.
-/
import Userland.Proofs.Node.Merge
import Userland.Proofs.Tree.InPlace

namespace Userland.Tree

/-! ## Calls -/

/-- A call that may change a tree. -/
inductive Change where
  | insert (parent name : String) (node : Node)
  | createDirectory (parent name owner : String) (now : Timestamp)
  | createDirectories (path owner : String) (now : Timestamp)
  | createFile (parent name owner : String) (now : Timestamp)
  | write (path content owner : String) (now : Timestamp)
  | touch (path : String) (now : Timestamp)
  | remove (path : String) (recursive : Bool)
  | copy (source destination : String) (recursive : Bool) (now : Timestamp)
  | move (source destination : String)
  | setPermissions (path mode : String)
  | setOwner (path owner : String) (group : Option String)
  | setContent (path cwd content : String)

namespace Change

/-- The node that a call brings along. -/
def node? : Change → Option Node
  | insert _ _ node => some node
  | _ => none

/-- The tree after a call, whether it succeeds or fails. -/
def after (t : Tree) : Change → Tree
  | insert parent name node => (t.atOnceUnit (t.insert parent name node)).2
  | createDirectory parent name owner now =>
    (t.atOnceUnit (t.createDirectory parent name owner now)).2
  | createDirectories path owner now => (t.createDirectoriesInPlace path owner now).2
  | createFile parent name owner now => (t.atOnceUnit (t.createFile parent name owner now)).2
  | write path content owner now => (t.atOnceUnit (t.write path content owner now)).2
  | touch path now => (t.atOnceUnit (t.touch path now)).2
  | remove path recursive => (t.atOnce (t.remove path recursive)).2
  | copy source destination recursive now =>
    (t.copyInPlace source destination recursive now).2
  | move source destination => (t.moveInPlace source destination).2
  | setPermissions path mode => (t.atOnceUnit (t.setPermissions path mode)).2
  | setOwner path owner group => (t.atOnceUnit (t.setOwner path owner group)).2
  | setContent path cwd content => t.setContent path cwd content

end Change

mutual

/-- The trees that calls lead to, from a tree with nothing but its root. -/
inductive Reachable : Tree → Prop
  | empty (now : Timestamp) : Reachable (Tree.empty now)
  | after {t : Tree} (h : Reachable t) (c : Change)
      (hnode : ∀ node, c.node? = some node → Obtainable node) : Reachable (c.after t)

/-- The nodes that a caller can have. -/
inductive Obtainable : Node → Prop
  | directory (permissions owner group : String) (modified : Timestamp) :
      Obtainable (.emptyDirectory permissions owner group modified)
  | file (permissions owner group : String) (modified : Timestamp) (content : String) :
      Obtainable (.newFile permissions owner group modified content)
  | withSize {node : Node} (h : Obtainable node) (size : Nat) : Obtainable (node.withSize size)
  | found {t : Tree} (h : Reachable t) {path : String} {node : Node}
      (hget : t.get? path = some node) : Obtainable node
  | removed {t : Tree} (h : Reachable t) {path : String} {recursive : Bool} {node : Node}
      {t' : Tree} (hremove : t.remove path recursive = .ok (node, t')) : Obtainable node

end

/-- A list of calls, none of which brings a node along that a caller cannot have. -/
theorem Reachable.run {t : Tree} (h : Reachable t) (changes : List Change)
    (hnodes : ∀ c ∈ changes, ∀ node, c.node? = some node → Obtainable node) :
    Reachable (changes.foldl Change.after t) := by
  induction changes generalizing t with
  | nil => exact h
  | cons c changes ih =>
    have hc := hnodes c List.mem_cons_self
    exact ih (h.after c hc) fun c' hc' => hnodes c' (List.mem_cons_of_mem c hc')

/-! ## Each call keeps the tree well-formed -/

variable {t t' : Tree}

/-- A call that is done at once or not at all leaves a well-formed tree if its success does. -/
theorem wellFormed_atOnce {α : Type} {r : Except Fault (α × Tree)} (ht : t.WellFormed)
    (h : ∀ answer t', r = .ok (answer, t') → t'.WellFormed) : (t.atOnce r).2.WellFormed := by
  match r with
  | .ok (answer, t') => exact h answer t' rfl
  | .error _ => exact ht

theorem wellFormed_atOnceUnit {r : Except Fault Tree} (ht : t.WellFormed)
    (h : ∀ t', r = .ok t' → t'.WellFormed) : (t.atOnceUnit r).2.WellFormed := by
  match r with
  | .ok t' => exact h t' rfl
  | .error _ => exact ht

theorem WellFormed.mapAttributes (ht : t.WellFormed) (s : List String)
    (f : Attributes → Attributes) : (t.alter s (·.mapAttributes f)).WellFormed :=
  ht.alter s (fun _ hn => hn.mapAttributes f) fun n => Node.isDirectory_mapAttributes f n

theorem WellFormed.withContent (ht : t.WellFormed) (s : List String) (content : String) :
    (t.alter s (·.withContent content)).WellFormed :=
  ht.alter s (fun _ hn => hn.withContent content) fun n => by cases n <;> rfl

/-- The name has been checked, and a caller has only proper nodes. -/
theorem WellFormed.insert {parent name : String} {node : Node} (ht : t.WellFormed)
    (hnode : node.Proper) (h : t.insert parent name node = .ok t') : t'.WellFormed := by
  obtain ⟨hname, -, rfl⟩ := insert_eq_ok_iff.mp h
  exact ht.put ((canonical_place parent).concat hname) hnode

/-- A new directory is an `insert` of an empty one. -/
theorem WellFormed.createDirectory {parent name owner : String} {now : Timestamp}
    (ht : t.WellFormed) (h : t.createDirectory parent name owner now = .ok t') :
    t'.WellFormed := by
  obtain ⟨hname, -, -, rfl⟩ := createDirectory_eq_ok_iff.mp h
  exact ht.put ((canonical_place parent).concat hname) (proper_freshDirectory owner now)

/-- Names out of a path can be spelled, and the directories are made on the way down. -/
theorem WellFormed.createDirectoriesFrom {owner : String} {now : Timestamp}
    {done rest : List String} (ht : t.WellFormed) (hdone : Path.Canonical done)
    (hrest : Path.Canonical rest)
    (h : Tree.createDirectoriesFrom owner now done rest t = .ok t') : t'.WellFormed := by
  induction rest generalizing t done with
  | nil => exact Except.ok.inj h ▸ ht
  | cons name rest ih =>
    have hnext := hdone.concat (hrest name List.mem_cons_self)
    have hnames : Path.Canonical rest := fun n hn => hrest n (List.mem_cons_of_mem name hn)
    rw [Tree.createDirectoriesFrom] at h
    split at h
    · exact ih ht hnext hnames h
    · cases h
    · exact ih (ht.put hnext (proper_freshDirectory owner now)) hnext hnames h

/-- An old file changes in place, a new one comes to a place out of a path. -/
theorem WellFormed.write {path content owner : String} {now : Timestamp} (ht : t.WellFormed)
    (h : t.write path content owner now = .ok t') : t'.WellFormed := by
  rcases write_eq_ok_iff.mp h with ⟨a, old, -, rfl⟩ | ⟨-, -, rfl⟩
  · exact ht.alter _ (fun n hn => (hn.withContent content).mapAttributes _)
      fun n => by cases n <;> rfl
  · exact ht.put (canonical_place path) (proper_freshFile owner now content)

/-- What is copied is proper as a part of the tree; it is merged, or it lands under a name that can
be spelled. -/
theorem WellFormed.copy {source destination target : String} {recursive : Bool}
    {now : Timestamp} (ht : t.WellFormed)
    (h : t.copy source destination recursive now = .ok (target, t')) : t'.WellFormed := by
  obtain ⟨node, landed, hfind, -, hland, -, -, hdone⟩ := copy_eq_ok_iff.mp h
  have hstamped : (node.modifiedAt now).Proper := (ht.proper.find? hfind).mapAttributes _
  rcases hdone with ⟨-, -, rfl⟩ | ⟨-, rfl⟩
  · exact ht.alter landed (fun n hn => hn.merge hstamped) fun n => Node.isDirectory_merge n _
  · exact ht.put (landingSteps_spec ht hland).1 hstamped

/-- What is moved is proper as a part of the tree, before it is taken out. -/
theorem WellFormed.move {source destination target : String} (ht : t.WellFormed)
    (h : t.move source destination = .ok (target, t')) : t'.WellFormed := by
  obtain ⟨-, node, landed, hfind, hland, -, -, -, rfl⟩ := move_eq_ok_iff.mp h
  exact (ht.drop _).put (landingSteps_spec ht hland).1 (ht.proper.find? hfind)

/-- **The step.**  A call on a well-formed tree leaves a well-formed tree, done or failed. -/
theorem Change.wellFormed_after (ht : t.WellFormed) (c : Change)
    (hnode : ∀ node, c.node? = some node → node.Proper) : (c.after t).WellFormed := by
  -- three calls are done in place; on a well-formed tree these are the plain ones
  cases c with
  | insert parent name node =>
    exact wellFormed_atOnceUnit ht fun t' h => ht.insert (hnode node rfl) h
  | createDirectory parent name owner now =>
    exact wellFormed_atOnceUnit ht fun t' h => ht.createDirectory h
  | createDirectories path owner now =>
    rw [after, createDirectoriesInPlace_eq ht]
    exact wellFormed_atOnceUnit ht fun t' h =>
      ht.createDirectoriesFrom Path.canonical_nil (canonical_place path) h
  | createFile parent name owner now =>
    exact wellFormed_atOnceUnit ht fun t' h => ht.insert (proper_freshFile owner now "") h
  | write path content owner now => exact wellFormed_atOnceUnit ht fun t' h => ht.write h
  | touch path now =>
    refine wellFormed_atOnceUnit ht fun t' h => ?_
    obtain ⟨-, rfl⟩ := touch_eq_ok_iff.mp h
    exact ht.mapAttributes _ _
  | remove path recursive =>
    refine wellFormed_atOnce ht fun node t' h => ?_
    obtain ⟨-, -, -, rfl⟩ := remove_eq_ok_iff.mp h
    exact ht.drop _
  | copy source destination recursive now =>
    rw [after, copyInPlace_eq ht]
    exact wellFormed_atOnce ht fun target t' h => ht.copy h
  | move source destination =>
    rw [after, moveInPlace_eq ht]
    exact wellFormed_atOnce ht fun target t' h => ht.move h
  | setPermissions path mode =>
    refine wellFormed_atOnceUnit ht fun t' h => ?_
    obtain ⟨n, bits, -, -, rfl⟩ := setPermissions_eq_ok_iff.mp h
    exact ht.mapAttributes _ _
  | setOwner path owner group =>
    refine wellFormed_atOnceUnit ht fun t' h => ?_
    obtain ⟨-, rfl⟩ := setOwner_eq_ok_iff.mp h
    exact ht.mapAttributes _ _
  | setContent path cwd content => exact ht.withContent _ content

/-! ## Runs -/

mutual

/-- **The run.**  Every tree that calls lead to is well-formed. -/
theorem Reachable.wellFormed {t : Tree} : Reachable t → t.WellFormed
  | .empty now => wellFormed_empty now
  | .after h c hnode => c.wellFormed_after h.wellFormed fun node hn => (hnode node hn).proper

/-- Every node that a caller can have is proper. -/
theorem Obtainable.proper {node : Node} : Obtainable node → node.Proper
  | .directory permissions owner group modified =>
    Node.proper_emptyDirectory permissions owner group modified
  | .file permissions owner group modified content =>
    Node.proper_newFile permissions owner group modified content
  | .withSize h size => h.proper.mapAttributes _
  | .found h hget => h.wellFormed.proper.find? hget
  | .removed h hremove => h.wellFormed.proper.find? (remove_eq_ok_iff.mp hremove).2.1

end

/-! ## Calls that succeed -/

/-- What a call makes of a tree if it is done as a whole or not at all. -/
def Change.whole (t : Tree) : Change → Except Fault Tree
  | insert parent name node => t.insert parent name node
  | createDirectory parent name owner now => t.createDirectory parent name owner now
  | createDirectories path owner now => t.createDirectories path owner now
  | createFile parent name owner now => t.createFile parent name owner now
  | write path content owner now => t.write path content owner now
  | touch path now => t.touch path now
  | remove path recursive => (t.remove path recursive).map (·.2)
  | copy source destination recursive now => (t.copy source destination recursive now).map (·.2)
  | move source destination => (t.move source destination).map (·.2)
  | setPermissions path mode => t.setPermissions path mode
  | setOwner path owner group => t.setOwner path owner group
  | setContent path cwd content => .ok (t.setContent path cwd content)

/-- On a well-formed tree it makes the same of it when it is done in place. -/
theorem Change.after_eq_whole (ht : t.WellFormed) (c : Change) :
    c.after t = (t.atOnceUnit (c.whole t)).2 := by
  cases c with
  | createDirectories path owner now => rw [after, createDirectoriesInPlace_eq ht, whole]
  | remove path recursive =>
    rw [after, whole]
    cases t.remove path recursive <;> rfl
  | copy source destination recursive now =>
    rw [after, copyInPlace_eq ht, whole]
    cases t.copy source destination recursive now <;> rfl
  | move source destination =>
    rw [after, moveInPlace_eq ht, whole]
    cases t.move source destination <;> rfl
  | _ => rfl

/-- A call that succeeds leads on. -/
theorem Reachable.of_whole (h : Reachable t) (c : Change) (hdone : c.whole t = .ok t')
    (hnode : ∀ node, c.node? = some node → Obtainable node) : Reachable t' := by
  have hafter := c.after_eq_whole h.wellFormed
  rw [hdone] at hafter
  have hcall := h.after c hnode
  rwa [hafter] at hcall

/-- Only `insert` brings a node along; any other call leads on by itself. -/
theorem Reachable.of_nodeless (h : Reachable t) (c : Change) (hdone : c.whole t = .ok t')
    (hnone : c.node? = none) : Reachable t' := by
  refine h.of_whole c hdone fun node hnode => ?_
  rw [hnone] at hnode
  cases hnode

theorem Reachable.write {path content owner : String} {now : Timestamp} (h : Reachable t)
    (hdone : t.write path content owner now = .ok t') : Reachable t' :=
  h.of_nodeless (.write path content owner now) hdone rfl

theorem Reachable.remove {path : String} {recursive : Bool} {node : Node} (h : Reachable t)
    (hdone : t.remove path recursive = .ok (node, t')) : Reachable t' := by
  refine h.of_nodeless (.remove path recursive) ?_ rfl
  rw [Change.whole, hdone]
  rfl

theorem Reachable.copy {source destination target : String} {recursive : Bool} {now : Timestamp}
    (h : Reachable t) (hdone : t.copy source destination recursive now = .ok (target, t')) :
    Reachable t' := by
  refine h.of_nodeless (.copy source destination recursive now) ?_ rfl
  rw [Change.whole, hdone]
  rfl

theorem Reachable.move {source destination target : String} (h : Reachable t)
    (hdone : t.move source destination = .ok (target, t')) : Reachable t' := by
  refine h.of_nodeless (.move source destination) ?_ rfl
  rw [Change.whole, hdone]
  rfl

/-! ## A tree with something in it -/

def noon : Timestamp := ⟨2024, 5, 17, 12, 0, 0⟩

/-- A file that is larger than its content. -/
def bigFile : Node := (Node.newFile "-rw-r--r--" "ann" "ann" noon "text").withSize 4096

/-- Calls that make a few files and directories; the move and the second `insert` fail. -/
def sampleRun : List Change :=
  [.createDirectories "/src/d/e" "ann" noon, .write "src//d/x" "text" "ann" noon,
    .insert "/src" "big" bigFile, .insert "/src" ".." bigFile, .move "/src" "/src/d",
    .createDirectories "/dst/./d/x" "ann" noon]

/-- The tree with the directories `/src/d/e` and `/dst/d/x` and the files `/src/d/x` and
`/src/big`. -/
def sample : Tree := sampleRun.foldl Change.after (empty noon)

/-- All its calls are of the kind that a caller can make. -/
theorem reachable_sample : Reachable sample := by
  refine (Reachable.empty noon).run sampleRun fun c hc node hnode => ?_
  have honly : ∀ c ∈ sampleRun, c.node? = none ∨ c.node? = some bigFile := by
    simp [sampleRun, Change.node?]
  rcases honly c hc with hnone | hbig
  · rw [hnone] at hnode
    cases hnode
  · rw [hbig] at hnode
    cases hnode
    exact .withSize (.file _ _ _ _ _) 4096

/-! ## The names in a tree -/

/-- Whatever calls were made, and whichever of them failed: the root is a directory, and every
directory, at every depth, holds its entries under different names, none of which is empty, has a
slash or is one of the names that paths reserve. -/
theorem reachable_directories_spelled (h : Reachable t) :
    t.root.isDirectory = true ∧
      ∀ a es, Node.Inside (.directory a es) t.root →
        (Entries.names es).Nodup ∧
          ∀ name ∈ Entries.names es,
            name ≠ "" ∧ '/' ∉ name.toList ∧ name ≠ "." ∧ name ≠ ".." := by
  have ht := h.wellFormed
  refine ⟨ht.root, fun a es hinside => ?_⟩
  have hproper := ht.proper.inside hinside
  refine ⟨hproper.distinct, fun name hname => ?_⟩
  obtain ⟨e, he, rfl⟩ := List.mem_map.mp hname
  obtain ⟨hempty, hdot, hdots, hslash⟩ := hproper.valid e he
  exact ⟨hempty, hslash, hdot, hdots⟩

/-- The tree after calls some of which fail. -/
theorem sample_directories_spelled :
    Reachable sample ∧ sample.root.isDirectory = true ∧
      ∀ a es, Node.Inside (.directory a es) sample.root →
        (Entries.names es).Nodup ∧
          ∀ name ∈ Entries.names es,
            name ≠ "" ∧ '/' ∉ name.toList ∧ name ≠ "." ∧ name ≠ ".." :=
  ⟨reachable_sample, reachable_directories_spelled reachable_sample⟩

end Userland.Tree
