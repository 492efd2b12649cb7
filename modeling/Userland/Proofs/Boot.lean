/-
  The tree of a new machine can be built, whoever its user is.

  1. *Program.*  The tree is built one node at a time: every node goes into a directory that must be
     there already, under a name that must be proper, and takes the place of what has the name
     (`stockOneByOne`).  The first failure is the end of it, and there is no machine.

  2. *Specification.*  For every user name that a configuration may have no step fails, the tree is
     the one that `stock` puts together from whole directories, and the home directory holds what
     it was given, nothing more and nothing less (`stockOneByOne_eq`).

  3. *The crux.*  A node that is put in with all that is below it and the same nodes put in one by
     one make the same tree (`arrives_of_proper`): what is put below a node that has just arrived
     is put into the node.  The names of the stock directories are different and proper, which is
     computed (`Node.isProper`).  Only the user name is not known.  It decides where the home
     directory is (`Config.homeSteps`), and nothing that arrives later is put at this place, above
     it or below it, whatever the name is.
-/
import Userland.Proofs.Session
import Userland.Proofs.Tree.Outcome

namespace Userland

/-! ## A check of all names in a node -/

namespace Node

mutual

/-- Does every directory in the node hold different names, all of them names of entries? -/
def isProper : Node → Bool
  | file .. => true
  | directory _ es => decide (Entries.names es).Nodup && areProper es

/-- Are these entries with proper names and proper nodes? -/
def areProper : List (String × Node) → Bool
  | [] => true
  | (name, node) :: rest => decide (Path.IsName name) && isProper node && areProper rest

end

mutual

/-- A node that passes the check is proper. -/
theorem proper_of_isProper : ∀ n : Node, n.isProper = true → n.Proper
  | file a content, _ => .ofFile a content
  | directory a es, h => by
    rw [isProper, Bool.and_eq_true, decide_eq_true_eq] at h
    exact .ofDirectory h.1 (fun e he => (proper_of_areProper es h.2 e he).1)
      (fun e he => (proper_of_areProper es h.2 e he).2)

/-- Entries that pass it have names of entries and proper nodes. -/
theorem proper_of_areProper : ∀ es : List (String × Node), areProper es = true →
    ∀ e ∈ es, Path.IsName e.1 ∧ e.2.Proper
  | [], _ => fun e he => absurd he List.not_mem_nil
  | (name, node) :: rest, h => by
    rw [areProper, Bool.and_eq_true, Bool.and_eq_true, decide_eq_true_eq] at h
    exact List.forall_mem_cons.mpr
      ⟨⟨h.1.1, proper_of_isProper node h.1.2⟩, proper_of_areProper rest h.2⟩

end

end Node

namespace Tree

/-! ## One node at a time -/

mutual

/-- Puts a node under a name into a directory, and then, one by one, what is below it. -/
def insertEach (dir : List String) (name : String) : Node → Tree → Except Fault Tree
  | .file a content, t => t.insert (Path.render dir) name (.file a content)
  | .directory a es, t => do
    let t ← t.insert (Path.render dir) name (.directory a [])
    insertEntries (dir ++ [name]) es t

/-- Puts entries into a directory, each one followed by what is below it. -/
def insertEntries (dir : List String) : List (String × Node) → Tree → Except Fault Tree
  | [], t => .ok t
  | (name, node) :: rest, t => do
    let t ← insertEach dir name node t
    insertEntries dir rest t

end

/-- The tree with entries put into a directory, each with all that is below it. -/
def putEach (dir : List String) (es : Entries Node) (t : Tree) : Tree :=
  es.foldl (fun t e => t.put (dir ++ [e.1]) e.2) t

variable {t : Tree} {dir : List String} {name : String} {es : Entries Node}

/-- Entries that are put elsewhere do not change what is at a place. -/
theorem find?_putEach_apart {p : List String}
    (h : ∀ e ∈ es, ¬ dir ++ [e.1] <+: p ∧ ¬ p <+: dir ++ [e.1]) (t : Tree) :
    (putEach dir es t).find? p = t.find? p := by
  induction es generalizing t with
  | nil => rfl
  | cons e rest ih =>
    obtain ⟨he, hrest⟩ := List.forall_mem_cons.mp h
    exact (ih hrest _).trans (find?_put_apart t e.2 he.1 he.2)

/-- Entries that are put into a directory that has just been put there are put into the node. -/
theorem putEach_put (hdir : dir ≠ []) (t : Tree) (a : Attributes) (done : Entries Node) :
    putEach dir es (t.put dir (.directory a done)) =
      t.put dir (.directory a (Entries.putAll done es)) := by
  induction es generalizing done with
  | nil => rfl
  | cons e rest ih =>
    rw [putEach, List.foldl_cons, put_put_concat hdir, Node.mapEntries]
    exact ih (Entries.put done e.1 e.2)

/-- Into an empty one they all go as they are, if their names are different. -/
theorem putEach_put_empty (hdir : dir ≠ []) (t : Tree) (a : Attributes)
    (hdistinct : (Entries.names es).Nodup) :
    putEach dir es (t.put dir (.directory a [])) = t.put dir (.directory a es) := by
  have hall : Entries.putAll [] es = [] ++ es := Entries.putAll_eq_append hdistinct
  rw [putEach_put hdir, hall, List.nil_append]

/-- Wherever a directory is, the node can be put into it one by one, and all of it is there then. -/
def Arrives (node : Node) : Prop :=
  ∀ (t : Tree) (dir : List String) (name : String), Path.Canonical (dir ++ [name]) →
    t.isDirectoryAt dir = true → insertEach dir name node t = .ok (t.put (dir ++ [name]) node)

/-- No step fails on entries each of which arrives, and they are put in one after the other. -/
theorem insertEntries_eq (hdir : Path.Canonical dir) (hes : ∀ e ∈ es, Path.IsName e.1)
    (heach : ∀ e ∈ es, Arrives e.2) (ht : t.isDirectoryAt dir = true) :
    insertEntries dir es t = .ok (putEach dir es t) := by
  induction es generalizing t with
  | nil => rfl
  | cons e rest ih =>
    obtain ⟨hname, hnames⟩ := List.forall_mem_cons.mp hes
    obtain ⟨hfirst, hrest⟩ := List.forall_mem_cons.mp heach
    have hkept := (isDirectoryAt_put_concat dir e.1 t e.2).trans ht
    rw [insertEntries, hfirst t dir e.1 (hdir.concat hname) ht]
    exact ih hnames hrest hkept

/-- **The step.**  A file arrives at once, a directory if each of its entries does. -/
theorem arrives_of_proper {node : Node} (h : node.Proper) : Arrives node := by
  induction h with
  | ofFile a content =>
    intro t dir name hplace hdir
    rw [insertEach]
    exact insert_render_concat hplace hdir _
  | @ofDirectory a es distinct valid _ ih =>
    intro t dir name hplace hdir
    have hne : dir ++ [name] ≠ [] := by simp
    have hmade : (t.put (dir ++ [name]) (.directory a [])).isDirectoryAt (dir ++ [name]) = true :=
      isDirectoryAt_iff.mpr ⟨a, [], find?_put_self hne (by rwa [List.dropLast_concat]) _⟩
    rw [insertEach, insert_render_concat hplace hdir]
    refine (insertEntries_eq hplace valid ih hmade).trans (congrArg Except.ok ?_)
    exact putEach_put_empty hne t a distinct

/-- Whole directories make the same tree as their nodes one by one. -/
theorem foldlM_insert_eq (hdir : Path.Canonical dir) (hes : ∀ e ∈ es, Path.IsName e.1)
    (ht : t.isDirectoryAt dir = true) :
    es.foldlM (fun t e => t.insert (Path.render dir) e.1 e.2) t = .ok (putEach dir es t) := by
  induction es generalizing t with
  | nil => rfl
  | cons e rest ih =>
    obtain ⟨hname, hnames⟩ := List.forall_mem_cons.mp hes
    have hkept := (isDirectoryAt_put_concat dir e.1 t e.2).trans ht
    rw [List.foldlM_cons, insert_render_concat (hdir.concat hname) ht]
    exact ih hnames hkept

/-! ## The tree of a new machine -/

/-- The tree of a machine that is started at some time, built up one node at a time. -/
def stockOneByOne (c : Config) (now : Timestamp) : Except Fault Tree := do
  let t ← (empty made).insert "/" "home" (systemDirectory [] (.ofDate 2024 1 15))
  let t ← t.createDirectories c.home "root" now
  let t ← t.insert (Path.parent c.home) (Path.fileName c.home) (userDirectory c.user now [])
  let t ← insertEntries (place c.home) (homeEntries c.user now) t
  let t ← if t.contains "/home/root" then pure t
    else t.insert "/home" "root" (holding "drwx------" "root" made [])
  insertEntries [] (systemEntries c now) t

/-- The user name and the time are in attributes and contents only, so that the check can be
computed. -/
theorem proper_homeEntries (user : String) (now : Timestamp) :
    ∀ e ∈ homeEntries user now, Path.IsName e.1 ∧ e.2.Proper :=
  Node.proper_of_areProper _ rfl

/-- The directories of the system pass the check whatever the configuration says. -/
theorem proper_systemEntries (c : Config) (now : Timestamp) :
    ∀ e ∈ systemEntries c now, Path.IsName e.1 ∧ e.2.Proper :=
  Node.proper_of_areProper _ rfl

/-- The home directory holds different names. -/
theorem nodup_homeEntries (user : String) (now : Timestamp) :
    (Entries.names (homeEntries user now)).Nodup := by
  have hnames : Entries.names (homeEntries user now) =
      ["Documents", "Downloads", "Pictures", "Music", "Videos", "Desktop", ".bashrc",
        ".profile"] := rfl
  rw [hnames]
  decide

/-- What is put into the root at last is neither above a home directory nor one. -/
theorem home_not_mem_systemEntries (c : Config) (now : Timestamp) :
    ∀ e ∈ systemEntries c now, e.1 ≠ "root" ∧ e.1 ≠ "home" := by
  have hnames : (systemEntries c now).map (·.1) =
      ["usr", "etc", "var", "tmp", "bin", "proc", "sys"] := rfl
  have hall : ∀ name ∈ (systemEntries c now).map (·.1), name ≠ "root" ∧ name ≠ "home" := by
    rw [hnames]
    decide
  exact fun e he => hall e.1 (List.mem_map_of_mem he)

end Tree

/-! ## Where the home directory is -/

namespace Config

variable {c : Config}

/-- The home directory is at its place, since the name of the user can be spelled. -/
theorem place_home (h : Path.IsName c.user) : Tree.place c.home = c.homeSteps := by
  rw [home_eq_render, Tree.place_render (canonical_homeSteps h)]

/-- Nobody lives in the root. -/
theorem homeSteps_ne_nil (c : Config) : c.homeSteps ≠ [] := by
  rw [homeSteps]
  split <;> simp

/-- Nobody lives in the directory of the home directories, or above it. -/
theorem homeSteps_not_above_home (c : Config) : ¬ c.homeSteps <+: ["home"] := by
  rw [homeSteps]
  split <;> simp [List.prefix_cons_iff]

/-- The directory that is kept for root is apart from the home directory. -/
theorem homeSteps_apart_root (c : Config) :
    ¬ ["home", "root"] <+: c.homeSteps ∧ ¬ c.homeSteps <+: ["home", "root"] := by
  rw [homeSteps]
  split
  · simp
  · next h => simp [h, Ne.symm h]

/-- A directory in the root under another name is apart from the home directory. -/
theorem homeSteps_apart_of_ne {name : String} (hroot : name ≠ "root") (hhome : name ≠ "home") :
    ¬ [name] <+: c.homeSteps ∧ ¬ c.homeSteps <+: [name] := by
  rw [homeSteps]
  split <;> simp [hroot, hhome, Ne.symm hroot, Ne.symm hhome]

end Config

namespace Tree

/-- The tree that has nothing but the directory for the home directories. -/
def withHome : Tree := (empty made).put ["home"] (systemDirectory [] (.ofDate 2024 1 15))

theorem find?_withHome :
    withHome.find? ["home"] = some (systemDirectory [] (.ofDate 2024 1 15)) := rfl

/-- No file is in it. -/
theorem isDirectory_of_withHome {s : List String} {node : Node}
    (h : withHome.find? s = some node) : node.isDirectory = true := by
  cases s with
  | nil =>
    cases h
    rfl
  | cons name rest =>
    by_cases hname : name = "home"
    · subst hname
      exact isDirectory_of_below_empty find?_withHome h
    · rw [withHome, find?_put_apart _ _ (by simp [Ne.symm hname]) (by simp [hname])] at h
      cases h

section NewMachine

variable {c : Config}

/-- The way to the home directory can be made, and the directory above it stays. -/
theorem createDirectories_home (hc : Path.IsName c.user) (now : Timestamp) :
    ∃ t, withHome.createDirectories c.home "root" now = .ok t ∧
      t.isDirectoryAt [] = true ∧ t.isDirectoryAt ["home"] = true ∧
      t.isDirectoryAt c.homeSteps = true := by
  rw [createDirectories, Config.place_home hc]
  have hroot : withHome.isDirectoryAt [] = true := rfl
  obtain ⟨t, hmade, hthere, hkept⟩ := createDirectoriesFrom_of_clear "root" now c.homeSteps hroot
    fun r node _ hnode => isDirectory_of_withHome hnode
  exact ⟨t, hmade, hkept [] hroot, hkept ["home"] rfl, hthere⟩

/-- The home directory takes the place of the one that was made on the way to it. -/
theorem insert_home {t : Tree} (hc : Path.IsName c.user)
    (hthere : t.isDirectoryAt c.homeSteps = true) (node : Node) :
    t.insert (Path.parent c.home) (Path.fileName c.home) node = .ok (t.put c.homeSteps node) := by
  have hne := c.homeSteps_ne_nil
  rw [Config.home_eq_render]
  exact insert_render (Config.canonical_homeSteps hc) hne (isDirectoryAt_dropLast hne hthere) node

/-- The entries of the home directory arrive in it one by one. -/
theorem fill_home {t : Tree} (hc : Path.IsName c.user)
    (hthere : t.isDirectoryAt c.homeSteps = true) (now : Timestamp) :
    insertEntries (place c.home) (homeEntries c.user now)
        (t.put c.homeSteps (userDirectory c.user now [])) =
      .ok (t.put c.homeSteps (userDirectory c.user now (homeEntries c.user now))) := by
  have hne := c.homeSteps_ne_nil
  have hproper := proper_homeEntries c.user now
  have hempty := find?_put_self hne (isDirectoryAt_dropLast hne hthere)
    (userDirectory c.user now [])
  rw [Config.place_home hc]
  refine (insertEntries_eq (Config.canonical_homeSteps hc) (fun e he => (hproper e he).1)
    (fun e he => arrives_of_proper (hproper e he).2)
    (isDirectoryAt_iff.mpr ⟨_, [], hempty⟩)).trans (congrArg Except.ok ?_)
  exact putEach_put_empty hne t _ (nodup_homeEntries c.user now)

/-- A directory for root is made where there is none, and the rest follows; the home directory
stays. -/
theorem insert_root {t : Tree} (hhome : t.isDirectoryAt ["home"] = true) (node : Node) :
    ∃ t', (∀ rest : Tree → Except Fault Tree,
        (if t.contains "/home/root" then pure t >>= rest
          else t.insert "/home" "root" node >>= rest) = rest t') ∧
      t'.find? c.homeSteps = t.find? c.homeSteps ∧ t'.isDirectoryAt [] = t.isDirectoryAt [] := by
  split
  · exact ⟨t, fun _ => rfl, rfl, rfl⟩
  · have hdir : Path.Canonical ["home"] := Path.canonical_nil.concat (by decide)
    have hplace : Path.Canonical (["home"] ++ ["root"]) := hdir.concat (by decide)
    have hmade : t.insert "/home" "root" node = .ok (t.put (["home"] ++ ["root"]) node) :=
      insert_render_concat hplace hhome node
    obtain ⟨hbelow, habove⟩ := c.homeSteps_apart_root
    refine ⟨t.put (["home"] ++ ["root"]) node, fun rest => ?_,
      find?_put_apart t node hbelow habove, isDirectoryAt_put (by simp) t node⟩
    rw [hmade]
    rfl

/-- For every user name, the tree of a new machine can be built one node at a time; it is the one
that is put together from whole directories, and the home directory has all that was put in it. -/
theorem stockOneByOne_eq (hc : Path.IsName c.user) (now : Timestamp) :
    ∃ t, stockOneByOne c now = .ok t ∧ stock c now = .ok t ∧
      t.find? c.homeSteps = some (userDirectory c.user now (homeEntries c.user now)) := by
  have hplace : Path.Canonical ([] ++ ["home"]) := Path.canonical_nil.concat (by decide)
  have hstart : (empty made).insert "/" "home" (systemDirectory [] (.ofDate 2024 1 15)) =
      .ok withHome :=
    insert_render_concat hplace rfl _
  obtain ⟨way, hway, hroot, hhome, hthere⟩ := createDirectories_home hc now
  have hfilled := find?_put_self c.homeSteps_ne_nil
    (isDirectoryAt_dropLast c.homeSteps_ne_nil hthere)
    (userDirectory c.user now (homeEntries c.user now))
  -- the home directory is not put in the place of the one above it
  rw [← isDirectoryAt_put c.homeSteps_not_above_home] at hhome
  obtain ⟨t, hkept, hfind, hrooted⟩ := insert_root hhome (holding "drwx------" "root" made [])
  have hproper := proper_systemEntries c now
  have ht : t.isDirectoryAt [] = true := by
    rw [hrooted, isDirectoryAt_put (by simpa using c.homeSteps_ne_nil)]
    exact hroot
  -- what follows goes into the root, one by one and as whole directories
  have hsystem := insertEntries_eq Path.canonical_nil (fun e he => (hproper e he).1)
    (fun e he => arrives_of_proper (hproper e he).2) ht
  have hwhole := foldlM_insert_eq Path.canonical_nil (fun e he => (hproper e he).1) ht
  refine ⟨putEach [] (systemEntries c now) t, ?_, ?_, ?_⟩
  · refine bind_eq_ok_iff.mpr ⟨withHome, hstart, bind_eq_ok_iff.mpr ⟨way, hway, ?_⟩⟩
    refine bind_eq_ok_iff.mpr ⟨_, insert_home hc hthere _, ?_⟩
    refine bind_eq_ok_iff.mpr ⟨_, fill_home hc hthere now, ?_⟩
    exact (hkept _).trans hsystem
  · refine bind_eq_ok_iff.mpr ⟨withHome, hstart, bind_eq_ok_iff.mpr ⟨way, hway, ?_⟩⟩
    refine bind_eq_ok_iff.mpr ⟨_, insert_home hc hthere _, ?_⟩
    exact (hkept _).trans hwhole
  · rw [find?_putEach_apart, hfind, hfilled]
    intro e he
    obtain ⟨hroot, hhome⟩ := home_not_mem_systemEntries c now e he
    exact Config.homeSteps_apart_of_ne hroot hhome

end NewMachine

end Tree

/-! ## A new machine -/

namespace Machine

/-- With every configuration that has no problem, and at every time, a machine can be started.  A
new session is in its home directory, by its one spelling and by its variables, and finds all of its
files there. -/
theorem boot_ready {c : Config} (hconfig : c.problem? = none)
    (now : Timestamp) (uptime : Nat) :
    ∃ m, boot c (.showing now uptime) = .ok m ∧ Tree.stockOneByOne c now = .ok m.tree ∧
      let s := m.newSession
      Path.normalize "/" s.path = s.path ∧ s.value? "HOME" = some s.path ∧
        s.value? "PWD" = some s.path ∧
        ∃ a, m.tree.get? s.path = some (.directory a (Tree.homeEntries c.user now)) ∧
          a.owner = c.user := by
  have hc := Config.isName_user hconfig
  obtain ⟨t, honeByOne, hstock, hfind⟩ := Tree.stockOneByOne_eq hc now
  have hboot : boot c (.showing now uptime) =
      .ok { commands := .stock, tree := t, packages := .stock, clock := .showing now uptime,
            config := c } :=
    bind_eq_ok_iff.mpr ⟨now, rfl, bind_eq_ok_iff.mpr ⟨t, hstock, rfl⟩⟩
  refine ⟨_, hboot, honeByOne, (Session.sound_ofConfig hc).normalized, rfl, rfl, ?_⟩
  refine ⟨(Tree.userDirectory c.user now []).attributes, ?_, rfl⟩
  rw [← Config.place_home hc] at hfind
  exact hfind

/-- A document gives nothing but a user, whose name is hard to tell from a reserved one. -/
theorem sample_boot_ready :
    Config.ofToml "user = \"...\"" = .ok { user := "..." } ∧
      ({ user := "..." } : Config).problem? = none ∧
      ∃ m, boot { user := "..." } (.showing Tree.noon 60) = .ok m ∧
        Tree.stockOneByOne { user := "..." } Tree.noon = .ok m.tree ∧
        m.newSession.path = "/home/..." ∧
        ∃ a, m.tree.get? "/home/..." =
            some (.directory a (Tree.homeEntries "..." Tree.noon)) ∧ a.owner = "..." := by
  have hconfig : Config.ofToml "user = \"...\"" = .ok { user := "..." } := by decide +kernel
  have hsound := Config.problem?_of_ofToml hconfig
  obtain ⟨m, hboot, hbuilt, -, -, -, a, hfind, howner⟩ := boot_ready hsound Tree.noon 60
  have hpath : m.newSession.path = "/home/..." := by
    rw [newSession, (commands_of_boot hboot).2]
    rfl
  rw [hpath] at hfind
  exact ⟨hconfig, hsound, m, hboot, hbuilt, hpath, a, hfind, howner⟩

end Machine

end Userland
