/-
  Nodes whose directories can be trusted.

  1. *Program.*  A directory is a list of names with nodes, and nothing in its type keeps a name
     from being there twice, from being empty or from having a slash.

  2. *Specification* (`Proper`).  In a proper node every directory, however deep, holds its entries
     under names that are different and that a path can spell.  Only then is every node found under
     the path of its names, and nothing is left where one is taken out.

  3. *The crux.*  Whatever is made, changed in place, put into a directory or taken out of one is
     proper when its ingredients are.  A change further down needs to be known at its own place only
     (`Proper.alter`), since on the way there the names stay as they are.
-/
import Userland.Proofs.Node.Find
import Userland.Proofs.Path

namespace Userland.Node

/-- Every directory in the node holds different names, all of them names of entries. -/
inductive Proper : Node → Prop
  | ofFile (a : Attributes) (content : String) : Proper (file a content)
  | ofDirectory {a : Attributes} {es : List (String × Node)}
      (distinct : (Entries.names es).Nodup) (valid : ∀ e ∈ es, Path.IsName e.1)
      (entries : ∀ e ∈ es, Proper e.2) : Proper (directory a es)

/-- `Inside m n`: the node `m` is `n` or an entry somewhere below it. -/
inductive Inside (m : Node) : Node → Prop
  | self : Inside m m
  | entry {a : Attributes} {es : List (String × Node)} {e : String × Node} (he : e ∈ es)
      (inside : Inside m e.2) : Inside m (directory a es)

variable {n : Node} {a : Attributes} {es : Entries Node}

/-- The names in a proper directory are different. -/
theorem Proper.distinct (h : Proper (directory a es)) : (Entries.names es).Nodup := by
  cases h with
  | ofDirectory distinct _ _ => exact distinct

theorem Proper.valid (h : Proper (directory a es)) : ∀ e ∈ es, Path.IsName e.1 := by
  cases h with
  | ofDirectory _ valid _ => exact valid

/-- What a proper directory holds is proper. -/
theorem Proper.entries (h : Proper (directory a es)) : ∀ e ∈ es, Proper e.2 := by
  cases h with
  | ofDirectory _ _ entries => exact entries

/-- Everything in a proper node is proper, however deep. -/
theorem Proper.inside {m : Node} (h : n.Proper) (hm : Inside m n) : m.Proper := by
  induction hm with
  | self => exact h
  | entry he _ ih => exact ih (h.entries _ he)

/-- The attributes have no part in it. -/
theorem Proper.withAttributes (h : Proper (directory a es)) (b : Attributes) :
    Proper (directory b es) :=
  .ofDirectory h.distinct h.valid h.entries

/-- What a list of names leads to is further down, and proper. -/
theorem Proper.find? (h : n.Proper) {steps : List String} {m : Node}
    (hm : n.find? steps = some m) : m.Proper := by
  induction steps generalizing n with
  | nil =>
    rw [find?_nil] at hm
    exact Option.some.inj hm ▸ h
  | cons name rest ih =>
    cases n with
    | file b content => cases hm
    | directory b es =>
      rw [find?_directory_cons] at hm
      obtain ⟨child, hchild, hrest⟩ := Option.bind_eq_some_iff.mp hm
      exact ih (h.entries _ (Entries.mem_of_get? hchild)) hrest

/-- Only places that a path can spell lead anywhere. -/
theorem Proper.canonical_of_find? (h : n.Proper) {steps : List String} {m : Node}
    (hm : n.find? steps = some m) : Path.Canonical steps := by
  induction steps generalizing n with
  | nil => exact Path.canonical_nil
  | cons name rest ih =>
    cases n with
    | file b content => cases hm
    | directory b es =>
      rw [find?_directory_cons] at hm
      obtain ⟨child, hchild, hrest⟩ := Option.bind_eq_some_iff.mp hm
      have hmem := Entries.mem_of_get? hchild
      have hbelow := ih (h.entries _ hmem) hrest
      intro step hstep
      rcases List.mem_cons.mp hstep with rfl | hstep
      · exact h.valid _ hmem
      · exact hbelow step hstep

/-! ## Making nodes and changing them in place -/

/-- Without entries there is nothing to check. -/
theorem proper_emptyDirectory (permissions owner group : String) (modified : Timestamp) :
    (emptyDirectory permissions owner group modified).Proper :=
  .ofDirectory List.nodup_nil (fun _ h => absurd h List.not_mem_nil)
    (fun _ h => absurd h List.not_mem_nil)

theorem proper_newFile (permissions owner group : String) (modified : Timestamp)
    (content : String) : (newFile permissions owner group modified content).Proper :=
  .ofFile _ content

/-- Attributes may be changed in any way. -/
theorem Proper.mapAttributes (h : n.Proper) (f : Attributes → Attributes) :
    (n.mapAttributes f).Proper := by
  cases n with
  | file b content => exact .ofFile (f b) content
  | directory b es => exact h.withAttributes (f b)

/-- The content of a file may be any text. -/
theorem Proper.withContent (h : n.Proper) (content : String) : (n.withContent content).Proper := by
  cases n with
  | file b _ => exact .ofFile _ content
  | directory b es => exact h

/-! ## Entries that come and go -/

/-- A proper node may be put into a proper directory under any name of an entry. -/
theorem Proper.put (h : Proper (directory a es)) {name : String} (hname : Path.IsName name)
    {node : Node} (hnode : node.Proper) : Proper (directory a (Entries.put es name node)) := by
  refine .ofDirectory (Entries.nodup_names_put h.distinct name node) (fun e he => ?_)
    (fun e he => ?_)
  · rcases Entries.mem_put he with rfl | he
    · exact hname
    · exact h.valid e he
  · rcases Entries.mem_put he with rfl | he
    · exact hnode
    · exact h.entries e he

/-- An entry may be taken out under any name. -/
theorem Proper.remove (h : Proper (directory a es)) (name : String) :
    Proper (directory a (Entries.remove es name)) :=
  .ofDirectory (Entries.nodup_names_remove h.distinct name)
    (fun e he => h.valid e (Entries.mem_remove he)) (fun e he => h.entries e (Entries.mem_remove he))

/-- A proper node may go into any proper node: a file takes no entry. -/
theorem Proper.mapEntries_put (h : n.Proper) {name : String} (hname : Path.IsName name)
    {node : Node} (hnode : node.Proper) : (n.mapEntries (Entries.put · name node)).Proper := by
  cases n with
  | file b content => exact h
  | directory b es => exact h.put hname hnode

/-- An entry may be taken out of any proper node: a file has none to lose. -/
theorem Proper.mapEntries_remove (h : n.Proper) (name : String) :
    (n.mapEntries (Entries.remove · name)).Proper := by
  cases n with
  | file b content => exact h
  | directory b es => exact h.remove name

/-- A change further down keeps the node proper if it keeps the changed node so. -/
theorem Proper.alter (h : n.Proper) {f : Node → Node} (hf : ∀ m, m.Proper → (f m).Proper)
    (steps : List String) : (n.alter f steps).Proper := by
  induction steps generalizing n with
  | nil => exact hf n h
  | cons name rest ih =>
    cases n with
    | file b content => exact h
    | directory b es =>
      rw [alter_directory_cons]
      -- the names are the old ones; of the nodes only the one on the way is another
      refine .ofDirectory ?_ (fun e he => ?_) (fun e he => ?_)
      · rw [Entries.names_adjust]
        exact h.distinct
      · rcases Entries.mem_adjust he with he | ⟨child, hchild, rfl⟩
        · exact h.valid e he
        · exact h.valid (name, child) hchild
      · rcases Entries.mem_adjust he with he | ⟨child, hchild, rfl⟩
        · exact h.entries e he
        · exact ih (h.entries (name, child) hchild)

end Userland.Node
