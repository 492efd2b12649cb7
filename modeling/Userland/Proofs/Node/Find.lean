/-
  Going down a node, and what a change further down does to what is found.

  A list of names leads to one node at most (`find?_append`: going down two lists is going down the
  first and then the second).  A change at the end of a list of names is seen from three sides:
  below that place the changed node is found (`find?_alter_append`), above it the node that was
  there, with the change further down (`find?_alter_above`), and everywhere else exactly what was
  there (`find?_alter_apart`).

  `face` is what a node is by itself, and a change further down never shows in it.
-/
import Mathlib.Data.List.Infix
import Userland.Node
import Userland.Proofs.Entries

namespace Userland.Node

variable {n : Node} {f : Node → Node} {s p r : List String}

/-! ## The node by itself -/

/-- What a node is, apart from what is below it: its kind, its attributes and the content of a
file. -/
def face (n : Node) : NodeKind × Attributes × Option String := (n.kind, n.attributes, n.content?)

/-- The names in a directory, and none for a file. -/
def names (n : Node) : List String := (n.entries?.getD []).map (·.1)

/-- What a node is, and the names in it. -/
def listed (n : Node) : (NodeKind × Attributes × Option String) × List String := (n.face, n.names)

/-- A directory has entries, though it may have none of them. -/
theorem isDirectory_iff : n.isDirectory = true ↔ ∃ a es, n = directory a es := by
  cases n with
  | file a content => simp [isDirectory]
  | directory a es => simp [isDirectory]

theorem isDirectory_of_face {m : Node} (h : m.face = n.face) : m.isDirectory = n.isDirectory := by
  have hkind := congrArg (·.1) h
  cases m <;> cases n <;> first | rfl | exact absurd hkind (by simp [face, kind])

theorem face_mapEntries (f : Entries Node → Entries Node) (n : Node) :
    (n.mapEntries f).face = n.face := by
  cases n <;> rfl

theorem isDirectory_mapEntries (f : Entries Node → Entries Node) (n : Node) :
    (n.mapEntries f).isDirectory = n.isDirectory :=
  isDirectory_of_face (face_mapEntries f n)

theorem isDirectory_mapAttributes (f : Attributes → Attributes) (n : Node) :
    (n.mapAttributes f).isDirectory = n.isDirectory := by
  cases n <;> rfl

/-! ## Going down -/

theorem find?_nil (n : Node) : n.find? [] = some n := by
  cases n <;> rfl

theorem find?_file_cons (a : Attributes) (content name : String) (rest : List String) :
    (file a content).find? (name :: rest) = none := rfl

/-- From a directory the first step leads to the entry of its name. -/
theorem find?_directory_cons (a : Attributes) (es : Entries Node) (name : String)
    (rest : List String) :
    (directory a es).find? (name :: rest) = (Entries.get? es name).bind (·.find? rest) := by
  rw [find?]
  cases Entries.get? es name <;> rfl

/-- Steps may be taken in two goes. -/
theorem find?_append (n : Node) (s r : List String) :
    n.find? (s ++ r) = (n.find? s).bind (·.find? r) := by
  induction s generalizing n with
  | nil => rw [List.nil_append, find?_nil, Option.bind_some]
  | cons name rest ih =>
    cases n with
    | file a content => rfl
    | directory a es =>
      rw [List.cons_append, find?_directory_cons, find?_directory_cons]
      cases Entries.get? es name with
      | none => rfl
      | some child => exact ih child

/-- Only a directory has something below it. -/
theorem isDirectory_of_find?_cons {name : String} {rest : List String} {m : Node}
    (h : n.find? (name :: rest) = some m) : n.isDirectory = true := by
  cases n with
  | file a content => cases h
  | directory a es => rfl

/-- Above a node there are directories. -/
theorem isDirectory_above {m : Node} (h : n.find? (s ++ r) = some m) (hr : r ≠ []) :
    (n.find? s).any isDirectory = true := by
  obtain ⟨name, rest, rfl⟩ := List.exists_cons_of_ne_nil hr
  rw [find?_append] at h
  obtain ⟨above, habove, hbelow⟩ := Option.bind_eq_some_iff.mp h
  rw [habove, Option.any_some]
  exact isDirectory_of_find?_cons hbelow

/-- Changing the entries is not seen below a name that it leaves alone. -/
theorem find?_mapEntries_cons {g : Entries Node → Entries Node} {name : String}
    (hg : ∀ es, Entries.get? (g es) name = Entries.get? es name) (n : Node)
    (rest : List String) : (n.mapEntries g).find? (name :: rest) = n.find? (name :: rest) := by
  cases n with
  | file a content => rfl
  | directory a es => rw [mapEntries, find?_directory_cons, find?_directory_cons, hg]

/-- A change of the attributes is not seen further down. -/
theorem find?_mapAttributes_cons (g : Attributes → Attributes) (n : Node) (name : String)
    (rest : List String) : (n.mapAttributes g).find? (name :: rest) = n.find? (name :: rest) := by
  cases n <;> rfl

/-! ## A change further down -/

theorem alter_nil (f : Node → Node) (n : Node) : n.alter f [] = f n := rfl

theorem alter_directory_cons (f : Node → Node) (a : Attributes) (es : Entries Node)
    (name : String) (rest : List String) :
    (directory a es).alter f (name :: rest) =
      directory a (Entries.adjust es name (alter f rest)) := rfl

/-- A change further down is a change of what is on the way to it. -/
theorem alter_append (n : Node) (f : Node → Node) (s r : List String) :
    n.alter f (s ++ r) = n.alter (alter f r) s := by
  induction s generalizing n with
  | nil => rfl
  | cons name rest ih =>
    cases n with
    | file a content => rfl
    | directory a es =>
      rw [List.cons_append, alter_directory_cons, alter_directory_cons,
        funext fun child => ih child]

/-- Two changes at one place are one. -/
theorem alter_alter (n : Node) (f g : Node → Node) (s : List String) :
    (n.alter f s).alter g s = n.alter (g ∘ f) s := by
  induction s generalizing n with
  | nil => rfl
  | cons name rest ih =>
    cases n with
    | file a content => rfl
    | directory a es =>
      rw [alter_directory_cons, alter_directory_cons, alter_directory_cons,
        Entries.adjust_adjust]
      exact congrArg (fun f => directory a (Entries.adjust es name f)) (funext ih)

/-- A change that leaves the node at its place as it is changes nothing. -/
theorem alter_eq_self {m : Node} (h : n.find? s = some m) (hf : f m = m) : n.alter f s = n := by
  induction s generalizing n with
  | nil =>
    rw [find?_nil] at h
    rw [alter_nil, Option.some.inj h, hf]
  | cons name rest ih =>
    cases n with
    | file a content => rfl
    | directory a es =>
      rw [find?_directory_cons] at h
      obtain ⟨child, hchild, hrest⟩ := Option.bind_eq_some_iff.mp h
      rw [alter_directory_cons, Entries.adjust_eq_self hchild (ih hrest)]

/-- Below the place of the change, the changed node is gone down. -/
theorem find?_alter_append (n : Node) (f : Node → Node) (s r : List String) :
    (n.alter f s).find? (s ++ r) = (n.find? s).bind fun m => (f m).find? r := by
  induction s generalizing n with
  | nil => rw [alter_nil, List.nil_append, find?_nil, Option.bind_some]
  | cons name rest ih =>
    cases n with
    | file a content => rfl
    | directory a es =>
      rw [alter_directory_cons, List.cons_append, find?_directory_cons, find?_directory_cons,
        Entries.get?_adjust_self]
      cases Entries.get? es name with
      | none => rfl
      | some child => exact ih child

/-- At its own place the changed node is found. -/
theorem find?_alter_self (n : Node) (f : Node → Node) (s : List String) :
    (n.alter f s).find? s = (n.find? s).map f := by
  have h := find?_alter_append n f s []
  rw [List.append_nil] at h
  rw [h]
  cases n.find? s with
  | none => rfl
  | some m => exact find?_nil (f m)

/-- Above the place of the change, the node that was there is found with the change in it. -/
theorem find?_alter_above (n : Node) (f : Node → Node) (p r : List String) :
    (n.alter f (p ++ r)).find? p = (n.find? p).map (alter f r) := by
  induction p generalizing n with
  | nil => rw [List.nil_append, find?_nil, find?_nil, Option.map_some]
  | cons name rest ih =>
    cases n with
    | file a content => rfl
    | directory a es =>
      rw [List.cons_append, alter_directory_cons, find?_directory_cons, find?_directory_cons,
        Entries.get?_adjust_self]
      cases Entries.get? es name with
      | none => rfl
      | some child => exact ih child

/-- At a place that is neither above nor below the one of the change, nothing is different. -/
theorem find?_alter_apart (n : Node) (f : Node → Node) (hs : ¬ s <+: p) (hp : ¬ p <+: s) :
    (n.alter f s).find? p = n.find? p := by
  induction s generalizing n p with
  | nil => exact absurd List.nil_prefix hs
  | cons name rest ih =>
    cases p with
    | nil => exact absurd List.nil_prefix hp
    | cons other more =>
      cases n with
      | file a content => rfl
      | directory a es =>
        rw [alter_directory_cons, find?_directory_cons, find?_directory_cons]
        by_cases hname : other = name
        · rw [hname, Entries.get?_adjust_self]
          rw [hname, List.prefix_cons_inj] at hs hp
          cases Entries.get? es name with
          | none => rfl
          | some child => exact ih child hs hp
        · rw [Entries.get?_adjust_of_ne es _ hname]

/-- On the way to the place the nodes keep their faces. -/
theorem face_alter_cons (f : Node → Node) (n : Node) (name : String) (rest : List String) :
    (n.alter f (name :: rest)).face = n.face :=
  face_mapEntries _ n

theorem names_alter_cons (f : Node → Node) (n : Node) (name : String) (rest : List String) :
    (n.alter f (name :: rest)).names = n.names := by
  cases n with
  | file a content => rfl
  | directory a es => exact Entries.names_adjust es name _

/-- What does not depend on the nodes further down is the same wherever the change is not at or
above. -/
theorem map_find?_alter {β : Type} {g : Node → β}
    (hg : ∀ m name rest, g (m.alter f (name :: rest)) = g m) (n : Node) (h : ¬ s <+: p) :
    ((n.alter f s).find? p).map g = (n.find? p).map g := by
  by_cases hp : p <+: s
  · obtain ⟨rest, rfl⟩ := hp
    cases rest with
    | nil => exact absurd (by simp) h
    | cons name rest =>
      rw [find?_alter_above, Option.map_map]
      exact congrArg (Option.map · (n.find? p)) (funext fun m => hg m name rest)
  · rw [find?_alter_apart n f h hp]

/-- A change that leaves alone what is below the node is seen at its own place only. -/
theorem map_listed_find?_alter
    (hf : ∀ m name rest, (f m).find? (name :: rest) = m.find? (name :: rest)) (n : Node)
    (hp : p ≠ s) : ((n.alter f s).find? p).map listed = (n.find? p).map listed := by
  by_cases hs : s <+: p
  · obtain ⟨rest, rfl⟩ := hs
    cases rest with
    | nil => exact absurd (List.append_nil s) hp
    | cons name rest =>
      rw [find?_alter_append, find?_append]
      exact congrArg (fun g => ((n.find? s).bind g).map listed) (funext fun m => hf m name rest)
  · refine map_find?_alter (fun m name rest => ?_) n hs
    rw [listed, listed, face_alter_cons, names_alter_cons]

/-- What follows from something that is the same is the same. -/
theorem map_comp_eq_of_map_eq {β γ : Type} {x y : Option Node} {g : Node → β}
    (h : x.map g = y.map g) (k : β → γ) : x.map (k ∘ g) = y.map (k ∘ g) := by
  rw [← Option.map_map, h, Option.map_map]

theorem map_face_of_listed {x y : Option Node} (h : x.map listed = y.map listed) :
    x.map face = y.map face :=
  map_comp_eq_of_map_eq h Prod.fst

theorem map_names_of_listed {x y : Option Node} (h : x.map listed = y.map listed) :
    x.map names = y.map names :=
  map_comp_eq_of_map_eq h Prod.snd

end Userland.Node
