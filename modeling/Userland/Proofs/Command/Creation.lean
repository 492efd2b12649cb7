/-
  New entries in the working directory.

  1. *Program.*  `mkdir` and `touch` read an operand as a path, make sure that the working directory
     has not been removed and that nothing is in the way, and write an entry into the directory
     above the path.

  2. *Specification.*  On names that are not taken, both do their work silently, whatever the names
     are: afterwards the working directory lists what it listed before and then the new names, once
     each, in the order in which they were made, each with its kind.  No other directory lists
     anything else than before.

  3. *The crux.*  One entry more is one `put` at the place of the working directory and the name
     (`Creation.run_eq`).  A listing tells the names and kinds of the entries and nothing of what is
     below them, so that such a change is seen in the listing of one directory only
     (`Tree.listing_put`): above it the kinds stay, and everything else stays as it is.
-/
import Userland.Proofs.Command.Operands
import Userland.Proofs.Session

namespace Userland

/-! ## What a listing shows -/

namespace Node

/-- What a listing shows of a directory: the names of its entries and their kinds. -/
def listing (n : Node) : Option (List (String × NodeKind)) :=
  n.entries?.map fun entries => entries.map fun e => (e.1, e.2.kind)

theorem kind_mapEntries (g : Entries Node → Entries Node) (n : Node) :
    (n.mapEntries g).kind = n.kind :=
  congrArg Prod.fst (face_mapEntries g n)

/-- A change further down that keeps the kind of the node does not show in a listing. -/
theorem listing_alter_cons {f : Node → Node} (hf : ∀ n, (f n).kind = n.kind) (n : Node)
    (name : String) (rest : List String) : (n.alter f (name :: rest)).listing = n.listing := by
  have hkind : ∀ m : Node, (m.alter f rest).kind = m.kind := by
    intro m
    cases rest with
    | nil => exact hf m
    | cons next more => exact congrArg Prod.fst (face_alter_cons f m next more)
  cases n with
  | file a content => rfl
  | directory a es =>
    refine congrArg some (Entries.map_adjust (fun name m => ?_) es name)
    rw [hkind]

end Node

namespace Tree

variable {t : Tree} {d p : List String} {name : String}

/-- A node that is put into a directory shows in the listing of no other directory. -/
theorem listing_put (t : Tree) (node : Node) (hp : p ≠ d) (hbelow : ¬ d ++ [name] <+: p) :
    ((t.put (d ++ [name]) node).find? p).map Node.listing = (t.find? p).map Node.listing := by
  rw [put_concat]
  by_cases hd : d <+: p
  · rw [find?_alter_mapEntries_apart (fun es other h => Entries.get?_put_of_ne h) t hbelow]
    intro habove
    rcases List.prefix_concat_iff.mp habove with heq | hshort
    · exact hbelow (heq ▸ List.prefix_rfl)
    · exact hp (hshort.eq_of_length (Nat.le_antisymm hshort.length_le hd.length_le))
  · exact Node.map_find?_alter (Node.listing_alter_cons fun n => Node.kind_mapEntries _ n) t.root hd

end Tree

namespace Machine

variable {m m' : Machine} {path : String}

/-- A listing succeeds on directories and shows the names of the entries, with their kinds. -/
theorem listDirectory_eq_ok_iff {shown : List (String × NodeKind)} :
    m.listDirectory path = .ok shown ↔
      ∃ a es, m.tree.find? (Tree.place path) = some (.directory a es) ∧
        shown = es.map fun e => (e.1, e.2.kind) := by
  rw [listDirectory]
  constructor
  · intro h
    cases hlist : m.tree.list path with
    | error fault =>
      rw [hlist] at h
      cases h
    | ok es =>
      rw [hlist] at h
      obtain ⟨a, hfind⟩ := Tree.list_eq_ok_iff.mp hlist
      exact ⟨a, es, hfind, (Except.ok.inj h).symm⟩
  · rintro ⟨a, es, hfind, rfl⟩
    rw [Tree.list_eq_ok_iff.mpr ⟨a, hfind⟩]
    rfl

/-- What is listed for a path depends on the listing of the node at it, if there is one. -/
theorem listDirectory_congr
    (h : (m'.tree.find? (Tree.place path)).map Node.listing =
      (m.tree.find? (Tree.place path)).map Node.listing) :
    m'.listDirectory path = m.listDirectory path := by
  rw [listDirectory, listDirectory, Tree.list, Tree.list, Tree.get, Tree.get, Tree.get?_eq,
    Tree.get?_eq]
  cases hnode : m.tree.find? (Tree.place path) with
  | none =>
    rw [hnode, Option.map_none, Option.map_eq_none_iff] at h
    rw [h]
  | some n =>
    rw [hnode, Option.map_some] at h
    obtain ⟨n', hn', hlisting⟩ := Option.map_eq_some_iff.mp h
    rw [hn']
    cases n' with
    | file a content =>
      cases n with
      | file b content' => rfl
      | directory b es => cases hlisting
    | directory a es' =>
      cases n with
      | file b content' => cases hlisting
      | directory b es => exact congrArg Except.ok (Option.some.inj hlisting)

end Machine

/-! ## One new entry -/

/-- The name of an entry that a command line can give as it is: neither an option nor a tilde. -/
structure IsPlainName (name : String) : Prop where
  isName : Path.IsName name
  ne_tilde : name ≠ "~"
  not_option : isOption name = false

/-- On a plain name, a path is the name in the working directory. -/
theorem Session.resolve_plainName {s : Session} {d : List String} {name : String}
    (hs : s.path = Path.render d) (hd : Path.Canonical d) (hname : IsPlainName name) :
    s.resolve name = Path.render (d ++ [name]) := by
  rw [s.resolve_part hname.isName.2.2.2 hname.ne_tilde, hs, Path.steps_render _ hd,
    Path.walk_of_isName hname.isName]

/-- Work on one operand that has nothing to tell is silent. -/
theorem Action.run_silent {command operand : String} {arguments : List String}
    {plan : Scene → List String → Except Fault Batch} {step : Batch.Step} {s : Scene} {t : Tree}
    (hplan : plan s arguments = .ok ⟨[operand], step⟩)
    (hstep : step s.tree operand = .ok (none, t)) :
    (eachFile command plan).run s arguments = (.ok .silent, { s with tree := t }) := by
  have hbatch : Batch.run command ⟨[operand], step⟩ s.tree = (.ok .silent, t) := by
    simp only [Batch.run, Batch.runFrom, hstep]
    rfl
  simp only [run, hplan, hbatch]

/-- The command that makes an entry of a kind. -/
def NodeKind.maker : NodeKind → Command
  | .file => Command.touch
  | .directory => Command.mkdir

/-- The entry that it makes. -/
def NodeKind.fresh (kind : NodeKind) (owner : String) (now : Timestamp) : Node :=
  match kind with
  | .file => Tree.freshFile owner now ""
  | .directory => Tree.freshDirectory owner now

theorem NodeKind.kind_fresh (kind : NodeKind) (owner : String) (now : Timestamp) :
    (kind.fresh owner now).kind = kind := by
  cases kind <;> rfl

section OneEntry

variable {s : Scene} {t : Tree} {d : List String} {name : String}

/-- The working directory is there, and has no entry of the name. -/
structure HasRoom (s : Scene) (t : Tree) (d : List String) (name : String) : Prop where
  path : s.session.path = Path.render d
  canonical : Path.Canonical d
  directory : t.isDirectoryAt d = true
  free : t.find? (d ++ [name]) = none

/-- The working directory is there, so that no operand is denied. -/
theorem HasRoom.not_adrift (h : HasRoom s t d name) : Command.isAdrift s t name = false := by
  have hdir : t.isDirectory s.session.path = true := by
    rw [h.path, Tree.isDirectory, Tree.place_render h.canonical]
    exact h.directory
  rw [Command.isAdrift, hdir]
  simp

/-- A plain name means the entry of that name. -/
theorem HasRoom.resolve (h : HasRoom s t d name) (hname : IsPlainName name) :
    s.resolve name = Path.render (d ++ [name]) :=
  Session.resolve_plainName h.path h.canonical hname

theorem HasRoom.not_contains (h : HasRoom s t d name) (hname : IsPlainName name) :
    t.contains (Path.render (d ++ [name])) = false := by
  rw [Tree.contains, Tree.get?_eq, Tree.place_render (h.canonical.concat hname.isName), h.free]
  rfl

theorem HasRoom.parent (h : HasRoom s t d name) (hname : IsPlainName name) :
    Path.parent (Path.render (d ++ [name])) = Path.render d := by
  rw [Path.parent_render (h.canonical.concat hname.isName), List.dropLast_concat]

theorem HasRoom.isDirectory (h : HasRoom s t d name) : t.isDirectory (Path.render d) = true := by
  rw [Tree.isDirectory, Tree.place_render h.canonical]
  exact h.directory

/-- Where there is room, the step for one operand is one new directory. -/
theorem makeDirectory_eq (h : HasRoom s t d name) (hname : IsPlainName name) (now : Timestamp) :
    Command.makeDirectory s now false t name =
      .ok (none, t.put (d ++ [name]) (Tree.freshDirectory s.session.user now)) := by
  have hmade : t.createDirectory (Path.render d) name s.session.user now =
      .ok (t.put (d ++ [name]) (Tree.freshDirectory s.session.user now)) := by
    refine Tree.createDirectory_eq_ok_iff.mpr ⟨hname.isName, h.isDirectory, ?_⟩
    rw [Tree.place_render h.canonical]
    exact ⟨h.free, rfl⟩
  simp only [Command.makeDirectory, h.not_adrift, h.resolve hname, h.not_contains hname,
    h.parent hname, h.isDirectory, Path.fileName_render_concat d hname.isName, hmade]
  rfl

/-- Where there is room, the step for one operand is one new file. -/
theorem touchFile_eq (h : HasRoom s t d name) (hname : IsPlainName name) (now : Timestamp) :
    Command.touchFile s now t name =
      .ok (none, t.put (d ++ [name]) (Tree.freshFile s.session.user now "")) := by
  have hmade : t.createFile (Path.render d) name s.session.user now =
      .ok (t.put (d ++ [name]) (Tree.freshFile s.session.user now "")) :=
    Tree.insert_render_concat (h.canonical.concat hname.isName) h.directory _
  simp only [Command.touchFile, h.not_adrift, h.resolve hname, h.not_contains hname,
    h.parent hname, h.isDirectory, Path.fileName_render_concat d hname.isName, hmade]
  rfl

end OneEntry

/-- An entry to make: its kind, its name, and the clock at that time. -/
structure Creation where
  kind : NodeKind
  name : String
  clock : Clock

namespace Creation

/-- Runs the command on the name: what it answers, and the scene after it. -/
def run (c : Creation) (s : Scene) : Except Fault Output × Scene :=
  c.kind.maker.action.run { s with clock := c.clock } [c.name]

/-- Where there is room, the command puts the new node there, silently. -/
theorem run_eq {c : Creation} {s : Scene} {d : List String} {now : Timestamp}
    (h : HasRoom s s.tree d c.name) (hname : IsPlainName c.name) (hclock : c.clock.now = .ok now) :
    c.run s = (.ok .silent,
      { s with
        clock := c.clock
        tree := s.tree.put (d ++ [c.name]) (c.kind.fresh s.session.user now) }) := by
  -- the clock has no part in what there is room for
  have hroom : HasRoom { s with clock := c.clock } s.tree d c.name :=
    ⟨h.path, h.canonical, h.directory, h.free⟩
  have hread : Options.read [c.name] = { Options.none with operands := [c.name] } :=
    Options.readFrom_operands (by simpa using hname.not_option) Options.none
  rw [run]
  cases c.kind with
  | file =>
    refine Action.run_silent ?_ (touchFile_eq hroom hname now)
    rw [hclock]
    rfl
  | directory =>
    refine Action.run_silent ?_ (makeDirectory_eq hroom hname now)
    rw [hread, hclock]
    rfl

/-! ## New entries in turn -/

/-- Runs the commands in turn: what they answer, and the scene after the last of them. -/
def runAll : List Creation → Scene → List (Except Fault Output) × Scene
  | [], s => ([], s)
  | c :: rest, s =>
    let (answer, after) := c.run s
    let (answers, final) := runAll rest after
    (answer :: answers, final)

/-- What a listing is to show of a new entry. -/
def shown (c : Creation) : String × NodeKind := (c.name, c.kind)

/-- What the commands can rely on: the clock works, and the name is plain. -/
structure Feasible (c : Creation) : Prop where
  plain : IsPlainName c.name
  clock : ∃ now, c.clock.now = .ok now

/-- A run of creations is silent, adds what each of them shows to the listing, in their order, and
changes no other directory. -/
theorem runAll_eq {cs : List Creation} {s : Scene} {d : List String} {a : Attributes}
    {es : Entries Node} (hpath : s.session.path = Path.render d) (hd : Path.Canonical d)
    (hdir : s.tree.find? d = some (.directory a es)) (hcs : ∀ c ∈ cs, c.Feasible)
    (hfresh : ∀ c ∈ cs, c.name ∉ Entries.names es) (hdistinct : (cs.map (·.name)).Nodup) :
    (runAll cs s).1 = cs.map (fun _ => .ok .silent) ∧
      (∃ es', (runAll cs s).2.tree.find? d = some (.directory a es') ∧
        es'.map (fun e => (e.1, e.2.kind)) =
          es.map (fun e => (e.1, e.2.kind)) ++ cs.map shown) ∧
      ∀ p, p ≠ d → (∀ c ∈ cs, ¬ d ++ [c.name] <+: p) →
        ((runAll cs s).2.tree.find? p).map Node.listing = (s.tree.find? p).map Node.listing := by
  -- on the entries to make, and for every scene: the rest of them meet the one entry more
  induction cs generalizing s es with
  | nil => exact ⟨rfl, ⟨es, hdir, (List.append_nil _).symm⟩, fun _ _ _ => rfl⟩
  | cons c rest ih =>
    obtain ⟨hc, hrest⟩ := List.forall_mem_cons.mp hcs
    obtain ⟨hfreshc, hfreshrest⟩ := List.forall_mem_cons.mp hfresh
    obtain ⟨hother, hdistinct⟩ := List.nodup_cons.mp hdistinct
    obtain ⟨now, hclock⟩ := hc.clock
    have hfree : s.tree.find? (d ++ [c.name]) = none := by
      rw [Tree.find?_below hdir, Node.find?_directory_cons, Entries.get?_eq_none_iff.mpr hfreshc]
      rfl
    have hroom : HasRoom s s.tree d c.name :=
      ⟨hpath, hd, Tree.isDirectoryAt_iff.mpr ⟨a, es, hdir⟩, hfree⟩
    have hrun := run_eq hroom hc.plain hclock
    have hafter := Tree.find?_put_dir hdir hfreshc (c.kind.fresh s.session.user now)
    obtain ⟨hanswers, ⟨es', hdir', hes'⟩, hothers⟩ :=
      ih (s := (c.run s).2) (by rw [hrun]; exact hpath) (by rw [hrun]; exact hafter) hrest
        (fun c' hc' hmem => by
          rw [Entries.names, List.map_append, List.mem_append] at hmem
          rcases hmem with hold | hnew
          · exact hfreshrest c' hc' hold
          · have hsame : c'.name = c.name := List.mem_singleton.mp hnew
            exact hother (List.mem_map.mpr ⟨c', hc', hsame⟩))
        hdistinct
    simp only [runAll, hrun] at hanswers hdir' hothers ⊢
    refine ⟨by rw [hanswers, List.map_cons], ⟨es', hdir', ?_⟩, fun p hp hbelow => ?_⟩
    · rw [hes', List.map_append, List.map_singleton, NodeKind.kind_fresh, List.append_assoc,
        List.singleton_append, List.map_cons, shown]
    · obtain ⟨hbelowc, hbelowrest⟩ := List.forall_mem_cons.mp hbelow
      rw [hothers p hp hbelowrest]
      exact Tree.listing_put s.tree _ hp hbelowc

end Creation

/-! ## On a machine in use -/

namespace Machine

open Creation (runAll shown)

/-- Whenever the working directory of a session is there, names that it does not have are made in it
silently; it then lists them after what it listed before, in the order in which they were made and
with their kinds, and every other directory lists what it listed before. -/
theorem creations_listed {c : Config} {clock : Clock}
    (hconfig : c.problem? = none) {m : Machine} (hboot : boot c clock = .ok m)
    {events : List Event} {now : Machine} {s : Session}
    (hrun : m.run m.newSession events = (now, s)) {old : List (String × NodeKind)}
    (hold : now.listDirectory s.path = .ok old) {cs : List Creation}
    (hplain : ∀ c ∈ cs, IsPlainName c.name) (hclock : ∀ c ∈ cs, ∃ time, c.clock.now = .ok time)
    (hdistinct : (cs.map (·.name)).Nodup) (hfresh : ∀ c ∈ cs, c.name ∉ old.map (·.1)) :
    let (answers, scene) := runAll cs (now.scene s)
    let after := now.keep scene
    answers = cs.map (fun _ => .ok .silent) ∧
      after.listDirectory s.path = .ok (old ++ cs.map shown) ∧
      ∀ path, now.tree.isDirectory path = true → Path.normalize "/" path ≠ s.path →
        after.listDirectory path = now.listDirectory path := by
  have hsound := sound_of_run hconfig hboot hrun
  obtain ⟨a, es, hdir, rfl⟩ := listDirectory_eq_ok_iff.mp hold
  have hpath : s.path = Path.render (Tree.place s.path) := hsound.normalized.symm
  -- what a listing shows has the names of the entries
  have hnames : (es.map fun e => (e.1, e.2.kind)).map (·.1) = Entries.names es := by
    rw [List.map_map]
    rfl
  rw [hnames] at hfresh
  obtain ⟨hanswers, ⟨es', hdir', hes'⟩, hothers⟩ :=
    Creation.runAll_eq (s := now.scene s) hpath (Tree.canonical_place s.path) hdir
      (fun c hc => ⟨hplain c hc, hclock c hc⟩) hfresh hdistinct
  refine ⟨hanswers, listDirectory_eq_ok_iff.mpr ⟨a, es', hdir', hes'.symm⟩,
    fun path hthere hother => listDirectory_congr ?_⟩
  refine hothers _ (fun hplace => hother ?_) fun c hc hbelow => ?_
  · rw [hpath, ← hplace]
    rfl
  · -- nothing was at the place of a new entry, so that no directory was below it
    obtain ⟨rest, hrest⟩ := hbelow
    obtain ⟨b, bs, hfind⟩ := Tree.isDirectoryAt_iff.mp hthere
    have hnone : now.tree.find? (Tree.place s.path ++ [c.name]) = none := by
      rw [Tree.find?_below hdir, Node.find?_directory_cons,
        Entries.get?_eq_none_iff.mpr (hfresh c hc)]
      rfl
    rw [← hrest, Tree.find?_append, hnone] at hfind
    cases hfind

/-- A user makes a directory, goes there and makes a file. -/
def creationEvents : List Event := [.line "mkdir '...'", .line "cd '...'", .line "touch first"]

/-- Names with letters that mean something elsewhere. -/
def sampleCreations : List Creation :=
  [⟨.directory, "~x", .showing Tree.noon 60⟩, ⟨.file, "*", .showing (.ofDate 1999 1 1) 0⟩,
    ⟨.file, "ü $HOME", .showing Tree.noon 90⟩, ⟨.directory, "....", .showing Tree.noon 90⟩]

/-- Names with letters that mean something elsewhere, made while the clock goes back and forth. -/
theorem sample_creations_listed :
    sampleConfig.problem? = none ∧
      ∃ m, boot sampleConfig (.showing Tree.noon 60) = .ok m ∧
        let (now, s) := m.run m.newSession creationEvents
        let (answers, scene) := runAll sampleCreations (now.scene s)
        let after := now.keep scene
        answers = [.ok .silent, .ok .silent, .ok .silent, .ok .silent] ∧
          after.listDirectory s.path =
            .ok [("first", .file), ("~x", .directory), ("*", .file), ("ü $HOME", .file),
              ("....", .directory)] ∧
          ∀ path, now.tree.isDirectory path = true → Path.normalize "/" path ≠ s.path →
            after.listDirectory path = now.listDirectory path := by
  have hconfig : sampleConfig.problem? = none := by decide
  have hruns : (boot sampleConfig (.showing Tree.noon 60)).toOption.map (fun m =>
      let (now, s) := m.run m.newSession creationEvents
      (now.listDirectory s.path).toOption) = some (some [("first", .file)]) := by
    decide +kernel
  have hplain : ∀ c ∈ sampleCreations, IsPlainName c.name := by
    have hall : ∀ c ∈ sampleCreations,
        Path.IsName c.name ∧ c.name ≠ "~" ∧ isOption c.name = false := by
      decide
    exact fun c hc => ⟨(hall c hc).1, (hall c hc).2.1, (hall c hc).2.2⟩
  have hclock : ∀ c ∈ sampleCreations, ∃ time, c.clock.now = .ok time := by
    simp [sampleCreations, Clock.now]
  refine ⟨hconfig, ?_⟩
  cases hboot : boot sampleConfig (.showing Tree.noon 60) with
  | error fault =>
    rw [hboot] at hruns
    cases hruns
  | ok m =>
    rw [hboot] at hruns
    refine ⟨m, rfl, ?_⟩
    simp only [Except.toOption, Option.map_some, Option.some.injEq] at hruns
    generalize hrun : m.run m.newSession creationEvents = done at hruns ⊢
    obtain ⟨now, s⟩ := done
    cases hold : now.listDirectory s.path with
    | error fault =>
      rw [hold] at hruns
      cases hruns
    | ok old =>
      rw [hold] at hruns
      cases hruns
      exact creations_listed hconfig hboot hrun hold hplain hclock (by decide) (by decide)

end Machine

end Userland
