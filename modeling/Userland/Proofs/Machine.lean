/-
  The tree of a machine is one that calls lead to, at all times.

  1. *Program.*  A machine starts with the stock tree (`Tree.stock`): whole directories are put into
     an empty tree, one after the other.  From then on lines are typed, by which commands work on
     the tree, and meanwhile other sessions do the same (`Machine.run`).

  2. *Specification.*  If what the others bring about is made by calls, so is the tree of the
     machine after every run (`run_reachable`), for every configuration and every clock.  So the
     theorems about such trees are theorems about machines: the names in the tree are spelled, and
     lines may be run in place (`executeInPlace_eq_of_run`).

  3. *The crux.*  A call that brings a node along has to get it from somewhere, and whole
     directories are neither freshly made nor found.  But every proper node can be had: it is put
     into an empty tree entry by entry, where each call brings a fresh file or a fresh directory
     along, and is then found there (`obtainable_of_proper`).  What calls lead to is proper in turn,
     so that the two are the same (`obtainable_iff`).
-/
import Userland.Proofs.Boot
import Userland.Proofs.Command.InPlace
import Userland.Proofs.Command.Reachable

namespace Userland

namespace Tree

variable {t t' : Tree} {dir : List String} {name : String}

/-! ## Nodes that a caller can have -/

/-- A file with any attributes can be had: made, and then told its size. -/
theorem obtainable_file (a : Attributes) (content : String) : Obtainable (.file a content) :=
  (Obtainable.file a.permissions a.owner a.group a.modified content).withSize a.size

/-- A directory with nothing in it can be had with any attributes, too. -/
theorem obtainable_directory (a : Attributes) : Obtainable (.directory a []) :=
  (Obtainable.directory a.permissions a.owner a.group a.modified).withSize a.size

/-- An `insert` that succeeds leads on, if its node can be had. -/
theorem Reachable.insert {parent : String} {node : Node} (h : Reachable t)
    (hnode : Obtainable node) (hdone : t.insert parent name node = .ok t') : Reachable t' := by
  refine h.of_whole (.insert parent name node) hdone fun brought hbrought => ?_
  cases hbrought
  exact hnode

mutual

/-- Putting in a node one by one takes calls only: each of them brings a file or an empty directory
along. -/
theorem Reachable.insertEach : ∀ (node : Node) {t t' : Tree} {dir : List String} {name : String},
    Reachable t → Tree.insertEach dir name node t = .ok t' → Reachable t'
  | .file a content, t, t', dir, name, h, hdone => by
    rw [Tree.insertEach] at hdone
    exact h.insert (obtainable_file a content) hdone
  | .directory a es, t, t', dir, name, h, hdone => by
    rw [Tree.insertEach] at hdone
    obtain ⟨made, hmade, hentries⟩ := bind_eq_ok_iff.mp hdone
    exact Reachable.insertEntries es (h.insert (obtainable_directory a) hmade) hentries

/-- Putting in entries one by one takes calls only, too. -/
theorem Reachable.insertEntries : ∀ (es : List (String × Node)) {t t' : Tree} {dir : List String},
    Reachable t → Tree.insertEntries dir es t = .ok t' → Reachable t'
  | [], t, t', dir, h, hdone => by
    cases hdone
    exact h
  | (name, node) :: rest, t, t', dir, h, hdone => by
    rw [Tree.insertEntries] at hdone
    obtain ⟨put, hput, hrest⟩ := bind_eq_ok_iff.mp hdone
    exact Reachable.insertEntries rest (Reachable.insertEach node h hput) hrest

end

/-- A proper node is put into an empty tree one by one, and found there. -/
theorem obtainable_of_proper {node : Node} (h : node.Proper) : Obtainable node := by
  have hplace : Path.Canonical ["node"] := Path.canonical_nil.concat (by decide)
  have harrives := arrives_of_proper h (empty made) [] "node" hplace rfl
  have hreach := Reachable.insertEach node (.empty made) harrives
  have hfind : ((empty made).put ["node"] node).find? ["node"] = some node :=
    find?_put_self (List.cons_ne_nil _ _) rfl node
  rw [← place_render hplace] at hfind
  exact .found hreach hfind

/-- The nodes that a caller can have are the ones whose directories hold different names, all of
them names of entries. -/
theorem obtainable_iff {node : Node} : Obtainable node ↔ node.Proper :=
  ⟨Obtainable.proper, obtainable_of_proper⟩

/-! ## The tree of a new machine -/

/-- Entries that are put in whole, one after the other. -/
theorem Reachable.foldlM_insert {parent : String} {es : Entries Node} (h : Reachable t)
    (hes : ∀ e ∈ es, e.2.Proper)
    (hdone : es.foldlM (fun t e => t.insert parent e.1 e.2) t = .ok t') : Reachable t' := by
  induction es generalizing t with
  | nil =>
    cases hdone
    exact h
  | cons e rest ih =>
    obtain ⟨hfirst, hrest⟩ := List.forall_mem_cons.mp hes
    rw [List.foldlM_cons] at hdone
    obtain ⟨put, hput, hdone⟩ := bind_eq_ok_iff.mp hdone
    exact ih (h.insert (obtainable_of_proper hfirst) hput) hrest hdone

/-- The home directory as it is put into the tree. -/
theorem proper_home (user : String) (now : Timestamp) :
    (userDirectory user now (homeEntries user now)).Proper :=
  .ofDirectory (nodup_homeEntries user now) (fun e he => (proper_homeEntries user now e he).1)
    fun e he => (proper_homeEntries user now e he).2

/-- Calls lead to the stock tree, whatever the configuration says. -/
theorem reachable_stock {c : Config} {now : Timestamp} (hstock : stock c now = .ok t) :
    Reachable t := by
  obtain ⟨withHome, hhome, hstock⟩ := bind_eq_ok_iff.mp hstock
  obtain ⟨way, hway, hstock⟩ := bind_eq_ok_iff.mp hstock
  obtain ⟨filled, hfilled, hstock⟩ := bind_eq_ok_iff.mp hstock
  have hstart : Reachable withHome := (Reachable.empty made).insert (obtainable_directory _) hhome
  have hthere : Reachable way := hstart.of_nodeless (.createDirectories c.home "root" now) hway rfl
  have hlived : Reachable filled :=
    hthere.insert (obtainable_of_proper (proper_home c.user now)) hfilled
  have hsystem : ∀ e ∈ systemEntries c now, e.2.Proper :=
    fun e he => (proper_systemEntries c now e he).2
  -- a directory for root is put in only where there is none
  dsimp only at hstock
  split at hstock
  · exact hlived.foldlM_insert hsystem hstock
  · obtain ⟨rooted, hrooted, hstock⟩ := bind_eq_ok_iff.mp hstock
    exact (hlived.insert (obtainable_directory _) hrooted).foldlM_insert hsystem hstock

end Tree

/-! ## A machine at work -/

/-- Is what an event brings about made by calls?  A typed line works by nothing else. -/
def Event.ByCalls : Event → Prop
  | .line _ => True
  | .meanwhile tree _ _ => Tree.Reachable tree

namespace Machine

variable {c : Config} {m : Machine} {s : Session}

/-- Calls lead to the tree of a machine that has been started. -/
theorem reachable_of_boot {clock : Clock} (hboot : boot c clock = .ok m) :
    Tree.Reachable m.tree := by
  obtain ⟨now, -, hrest⟩ := bind_eq_ok_iff.mp hboot
  obtain ⟨tree, hstock, hdone⟩ := bind_eq_ok_iff.mp hrest
  cases hdone
  exact Tree.reachable_stock hstock

/-- A line that is blank leaves the machine alone; any other is run on its tree. -/
theorem execute_tree_reachable (hm : m.commands = .stock) (h : Tree.Reachable m.tree)
    (line : String) : Tree.Reachable (m.execute line s).2.1.tree := by
  rw [execute, hm]
  split
  · exact h
  · exact CommandTable.execute_reachable (s := m.scene s) h (Text.trim line)

/-- **The step.**  An event that is made by calls keeps the tree of the machine so. -/
theorem step_reachable (hm : m.commands = .stock) (h : Tree.Reachable m.tree) {event : Event}
    (hevent : event.ByCalls) : Tree.Reachable (m.step s event).1.tree := by
  cases event with
  | line text => exact execute_tree_reachable hm h text
  | meanwhile tree packages clock => exact hevent

/-- **The run.**  From a machine whose tree is made by calls. -/
theorem run_tree_reachable (hm : m.commands = .stock) (h : Tree.Reachable m.tree)
    {events : List Event} (hevents : ∀ event ∈ events, event.ByCalls) :
    Tree.Reachable (m.run s events).1.tree := by
  induction events generalizing m s with
  | nil => exact h
  | cons event rest ih =>
    obtain ⟨hfirst, hrest⟩ := List.forall_mem_cons.mp hevents
    exact ih ((step_commands m s event).trans hm) (step_reachable hm h hfirst) hrest

/-- With any configuration and at any time, calls lead to the tree that a machine has after any
run. -/
theorem run_reachable {clock : Clock} (hboot : boot c clock = .ok m) {events : List Event}
    (hevents : ∀ event ∈ events, event.ByCalls) :
    Tree.Reachable (m.run m.newSession events).1.tree :=
  run_tree_reachable (commands_of_boot hboot).1 (reachable_of_boot hboot) hevents

/-- At all times a line may be run in place: it answers the same and leaves the same scene as it
does on the table. -/
theorem executeInPlace_eq_of_run {clock : Clock} (hboot : boot c clock = .ok m)
    {events : List Event} (hevents : ∀ event ∈ events, event.ByCalls) (line : String) :
    let (now, s) := m.run m.newSession events
    CommandTable.executeInPlace line (now.scene s) =
      CommandTable.stock.execute line (now.scene s) :=
  CommandTable.executeInPlace_eq (run_reachable hboot hevents).wellFormed line

end Machine

end Userland
