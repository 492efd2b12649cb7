/-
  A search lists what is asked for, in names that lead back to it.

  1. *Program.*  `find` walks the tree from the place that its first operand means, keeps the nodes
     that its predicates admit, and spells the path of each from the operand as it was typed: what
     the path has more than the place is written behind the operand.

  2. *Specification.*  Of the nodes at and below the start, each one whose kind is the last one
     asked for and whose name matches the last pattern asked for (`Selected`) has one entry, in the
     order of the walk, and nothing else has; and an entry, read as an operand again, is the path of
     its node.

  3. *The crux.*  Reading a text with names behind it is reading the text and going down the names
     (`Session.resolve_extend`).  The text may end with a slash, or with many, and may begin with a
     tilde; the home directory is put in for the tilde alone as for the tilde before a slash, as
     long as it is not the empty text, which would turn what follows into an absolute path.
-/
import Userland.Proofs.Session
import Userland.Proofs.Tree.Walk

namespace Userland

open Text

/-! ## Names behind a text -/

/-- The text with a slash at its end, unless it has one. -/
def slashed (text : String) : String := text ++ if endsWith '/' text then "" else "/"

namespace Path

/-- The steps of a text with something behind it. -/
theorem steps_slashed_append (cwd : String) {a : String} (ha : a ≠ "") (b : String) :
    steps cwd (slashed a ++ b) = (parts '/' b).foldl walk (steps cwd a) := by
  rw [slashed]
  split
  · next hend =>
    obtain ⟨rest, rfl⟩ := endsWith_slash_iff.mp hend
    rw [String.append_empty, steps_slash_append]
  · rw [steps_slash_append, steps_append_slash cwd ha]

/-- Whether a text has a slash at its end can be seen from any of its slashes on. -/
theorem slashed_append_slash (b : String) :
    ∃ b', ∀ a, slashed (a ++ "/" ++ b) = a ++ "/" ++ b' := by
  refine ⟨b ++ if endsWith '/' ("/" ++ b) then "" else "/", fun a => ?_⟩
  have hend : endsWith '/' (a ++ "/" ++ b) = endsWith '/' ("/" ++ b) := by
    have hne : ("/" ++ b).toList ≠ [] := by simp
    rw [endsWith, endsWith, String.append_assoc, String.toList_append,
      List.getLast?_append_of_ne_nil _ hne]
  rw [slashed, hend, String.append_assoc]

/-- A relative path has no slashes to drop in front. -/
theorem dropSlashes_of_startsWith {s : String} (h : startsWith '/' s = false) :
    s.toList.dropWhile (· = '/') = s.toList := by
  rw [startsWith, decide_eq_false_iff_not] at h
  cases hs : s.toList with
  | nil => rfl
  | cons c cs =>
    rw [hs, List.head?_cons, Option.some.injEq] at h
    rw [List.dropWhile_cons_of_neg (by simpa using h)]

/-- What a rendered text has more than the text of its first steps. -/
theorem below_render {a r : List String} (h : Canonical (a ++ r)) :
    ((after? (render a) (render (a ++ r))).getD (render (a ++ r))).toList.dropWhile (· = '/') =
      ("/".intercalate r).toList := by
  have hr : Canonical r := (canonical_append.mp h).2
  have hplain := dropSlashes_of_startsWith (startsWith_intercalate hr)
  by_cases ha : a = []
  · have hafter : after? (render a) (render (a ++ r)) = some ("/".intercalate r) := by
      rw [ha, after?_eq_some_iff]
      rfl
    rw [hafter, Option.getD_some, hplain]
  · by_cases hne : r = []
    · have hafter : after? (render a) (render (a ++ r)) = some "" := by
        rw [hne, List.append_nil, after?_eq_some_iff, String.append_empty]
      rw [hafter, hne]
      rfl
    · have hafter : after? (render a) (render (a ++ r)) = some (render r) :=
        after?_eq_some_iff.mpr (render_append ha hne)
      rw [hafter, Option.getD_some, render, String.toList_append, toList_slash,
        List.singleton_append, List.dropWhile_cons_of_pos (by decide), hplain]

end Path

/-! ## Operands with names behind them -/

namespace Command

open Userland.Path (render Canonical)

/-- On rendered texts, what is written behind the start is the steps below it. -/
theorem spelledFrom_render (start : String) {a r : List String} (h : Canonical (a ++ r)) :
    spelledFrom start (render a) (render (a ++ r)) =
      if r = [] then start else slashed start ++ "/".intercalate r := by
  have hr : Canonical r := (Path.canonical_append.mp h).2
  rw [spelledFrom, Path.below_render h, String.ofList_toList, slashed]
  by_cases hne : r = []
  · rw [if_pos hne, hne]
    rfl
  · have hsome : ¬ (("/".intercalate r).toList.isEmpty = true) := by
      rw [List.isEmpty_iff, String.toList_eq_nil_iff, Path.intercalate_eq_empty_iff hr]
      exact hne
    rw [if_neg hne, if_neg hsome]

end Command

namespace Session

open Userland.Path (render Canonical)

variable (s : Session)

/-- Whatever stands behind a text is walked from the place that the text means. -/
theorem steps_expandTilde_slashed_append (hhome : s.home ≠ "") {start : String} (hsome : start ≠ "")
    (b : String) :
    Path.steps s.path (s.expandTilde (slashed start ++ b)) =
      (parts '/' b).foldl Path.walk (Path.steps s.path (s.expandTilde start)) := by
  by_cases htilde : start = "~"
  · subst htilde
    have hexpand : s.expandTilde (slashed "~" ++ b) = s.home ++ "/" ++ b :=
      s.expandTilde_below_home b
    rw [hexpand, expandTilde_home, Path.steps_slash_append, Path.steps_append_slash _ hhome]
  · by_cases hbelow : ∃ rest, start = "~/" ++ rest
    · obtain ⟨rest, rfl⟩ := hbelow
      -- the slash at the end, typed or not, is the same with the home directory in front
      obtain ⟨rest', hslashed⟩ := Path.slashed_append_slash rest
      have htyped : slashed ("~/" ++ rest) = "~/" ++ rest' := hslashed "~"
      have hexpand : s.expandTilde (slashed ("~/" ++ rest) ++ b) =
          slashed (s.home ++ "/" ++ rest) ++ b := by
        rw [htyped, hslashed, String.append_assoc, expandTilde_below_home, ← String.append_assoc]
      have hplace : s.home ++ "/" ++ rest ≠ "" := by simp
      rw [hexpand, expandTilde_below_home, Path.steps_slashed_append _ hplace]
    · have hplain := s.expandTilde_plain_append hsome htilde fun rest h => hbelow ⟨rest, h⟩
      have hstart := hplain ""
      rw [String.append_empty] at hstart
      rw [hstart, slashed, String.append_assoc, hplain, ← String.append_assoc, ← slashed,
        Path.steps_slashed_append _ hsome]

/-- Reading a text with names behind it is reading the text and going down the names. -/
theorem resolve_extend (hhome : s.home ≠ "") {start : String} (hsome : start ≠ "")
    {r : List String} (hr : Canonical r) (hne : r ≠ []) :
    s.resolve (slashed start ++ "/".intercalate r) =
      render (Path.steps s.path (s.expandTilde start) ++ r) := by
  rw [resolve, Path.normalize, steps_expandTilde_slashed_append s hhome hsome,
    Path.parts_intercalate hr hne, Path.foldl_walk_canonical hr]

end Session

namespace Command

/-! ## Predicates -/

open Userland.Path (render Canonical)

/-- A predicate with a value that it can have. -/
inductive Predicate where
  | name (pattern : String)
  | kind (k : NodeKind)

namespace Predicate

/-- The predicate as it is typed. -/
def arguments : Predicate → List String
  | .name pattern => ["-name", pattern]
  | .kind .file => ["-type", "f"]
  | .kind .directory => ["-type", "d"]

def pattern? : Predicate → Option String
  | .name pattern => some pattern
  | .kind _ => none

def kind? : Predicate → Option NodeKind
  | .name _ => none
  | .kind k => some k

/-- The last pattern asked for. -/
def lastPattern? (predicates : List Predicate) : Option String :=
  (predicates.filterMap pattern?).getLast?

/-- The last kind asked for. -/
def lastKind? (predicates : List Predicate) : Option NodeKind :=
  (predicates.filterMap kind?).getLast?

end Predicate

open Predicate (lastPattern? lastKind?)

/-- The node at a path has the kind asked for last, and the last component of the path, which is
empty for the root, matches the pattern asked for last. -/
structure Selected (predicates : List Predicate) (path : String) (node : Node) : Prop where
  kind : ∀ kind, lastKind? predicates = some kind → node.kind = kind
  name : ∀ pattern, lastPattern? predicates = some pattern →
    Glob.isMatch pattern ((Path.components path).getLast?.getD "") = true

/-- Selection as it is computed. -/
theorem selected_iff {predicates : List Predicate} {path : String} {node : Node} :
    Selected predicates path node ↔
      (lastKind? predicates).all (· = node.kind) = true ∧
        ((lastPattern? predicates).all fun pattern =>
          Glob.isMatch pattern ((Path.components path).getLast?.getD "")) = true := by
  simp only [Option.all_eq_true, decide_eq_true_eq]
  exact ⟨fun h => ⟨fun kind hkind => (h.kind kind hkind).symm, h.name⟩,
    fun h => ⟨fun kind hkind => (h.1 kind hkind).symm, h.2⟩⟩

instance (predicates : List Predicate) (path : String) (node : Node) :
    Decidable (Selected predicates path node) :=
  decidable_of_iff _ selected_iff.symm

/-- The last value of a list, or else one from before: one element more may take the place of that
one. -/
theorem getLast?_filterMap_cons_or {α β : Type} (f : α → Option β) (a : α) (l : List α)
    (before : Option β) :
    ((a :: l).filterMap f).getLast?.or before = (l.filterMap f).getLast?.or ((f a).or before) := by
  cases ha : f a with
  | none => rw [List.filterMap_cons_none ha, Option.none_or]
  | some b =>
    rw [List.filterMap_cons_some ha, List.getLast?_cons, Option.some_or]
    cases (l.filterMap f).getLast? <;> rfl

/-- **The step.** A predicate takes the place of what was looked for before, of its sort. -/
theorem read_predicate (p : Predicate) (rest : List String) (w : Wanted) :
    w.read (p.arguments ++ rest) =
      Wanted.read ⟨p.pattern?.or w.name, p.kind?.or w.kind⟩ rest := by
  match p with
  | .name pattern => rfl
  | .kind .file => rfl
  | .kind .directory => rfl

/-- **The run.** What is looked for in the end is the last of each sort. -/
theorem read_arguments (predicates : List Predicate) (w : Wanted) :
    w.read (predicates.flatMap Predicate.arguments) =
      .ok ⟨(lastPattern? predicates).or w.name, (lastKind? predicates).or w.kind⟩ := by
  induction predicates generalizing w with
  | nil => rfl
  | cons p rest ih =>
    rw [List.flatMap_cons, read_predicate, ih, lastPattern?, lastKind?, lastPattern?, lastKind?,
      getLast?_filterMap_cons_or, getLast?_filterMap_cons_or]

/-- On a path in its one spelling, to admit is to select. -/
theorem admits_render {steps : List String} (h : Canonical steps) (predicates : List Predicate)
    (node : Node) :
    (⟨lastPattern? predicates, lastKind? predicates⟩ : Wanted).admits (render steps) node =
      decide (Selected predicates (render steps) node) := by
  rw [Wanted.admits, Path.fileName_render h, Bool.eq_iff_iff, Bool.and_eq_true, decide_eq_true_eq,
    selected_iff, Path.components_render h]

/-! ## The listing of a search -/

theorem action_find : CommandTable.stock.action "find" = find.action := rfl

/-- What is listed below a place is spelled so that it leads back. -/
theorem resolve_spelledFrom {s : Session} (hhome : s.home ≠ "") {start : String}
    (hsome : start ≠ "") {r : List String}
    (h : Canonical (Path.steps s.path (s.expandTilde start) ++ r)) :
    s.resolve (spelledFrom start (s.resolve start)
        (render (Path.steps s.path (s.expandTilde start) ++ r))) =
      render (Path.steps s.path (s.expandTilde start) ++ r) := by
  have hroot : s.resolve start = render (Path.steps s.path (s.expandTilde start)) := rfl
  rw [hroot, spelledFrom_render start h]
  split
  · next hr => rw [hroot, hr, List.append_nil]
  · next hr => exact s.resolve_extend hhome hsome (Path.canonical_append.mp h).2 hr

variable {s : Scene} {start : String}

/-- A search keeps what is wanted of the walk from its start, and spells it from the start. -/
theorem dispatch_find (hplain : isOption start = false) (predicates : List Predicate)
    {listing : List (String × Node)} (hwalk : s.tree.walk (s.resolve start) = .ok listing) :
    CommandTable.stock.dispatch ("find" :: start :: predicates.flatMap Predicate.arguments) s =
      (.ok (.ofLines ((listing.filter fun x =>
          (⟨lastPattern? predicates, lastKind? predicates⟩ : Wanted).admits x.1 x.2).map fun x =>
        spelledFrom start (s.resolve start) x.1)), s) := by
  have hne : "find" ≠ "sudo" := by decide
  rw [CommandTable.dispatch, if_neg hne, action_find]
  simp only [find, Action.run, startAndPredicates, hplain, Bool.false_eq_true, if_false,
    read_arguments, Option.or_none, hwalk]
  rfl

section Listed

variable {n : Node} {x : String × Node} (ht : s.tree.WellFormed)
  (hn : s.tree.get? (s.resolve start) = some n)
  (hx : x ∈ n.walk (render (Tree.place (s.resolve start))))

include ht hn hx

/-- On a listed path the search admits what its predicates select. -/
theorem admits_of_mem (predicates : List Predicate) :
    (⟨lastPattern? predicates, lastKind? predicates⟩ : Wanted).admits x.1 x.2 =
      decide (Selected predicates x.1 x.2) := by
  have hp : n.Proper := ht.proper.find? hn
  obtain ⟨r, hr, hpath, -⟩ := Node.place_of_mem_walk (Tree.canonical_place _) hp hx
  rw [hpath]
  exact admits_render hr predicates x.2

/-- What is shown for a listed path is the path when it is read again. -/
theorem resolve_spelledFrom_of_mem (hhome : s.session.home ≠ "") (hsome : start ≠ "") :
    s.resolve (spelledFrom start (s.resolve start) x.1) = x.1 := by
  have hplace : Tree.place (s.resolve start) =
      Path.steps s.session.path (s.session.expandTilde start) :=
    Tree.place_render (Path.canonical_steps _ _)
  have hp : n.Proper := ht.proper.find? hn
  obtain ⟨r, hr, hpath, -⟩ := Node.place_of_mem_walk (Tree.canonical_place _) hp hx
  rw [hplace] at hr hpath
  rw [hpath]
  exact resolve_spelledFrom hhome hsome hr

end Listed

/-- On a reachable tree, a search from a place with something at it lists, in the order of the walk,
the nodes at the place and below it that its predicates select and nothing else, and what it shows
for a node, read as an operand again, is the path of the node. -/
theorem find_lists_selected (htree : Tree.Reachable s.tree) (hhome : s.session.home ≠ "")
    (hsome : start ≠ "") (hplain : isOption start = false)
    (hthere : s.tree.contains (s.resolve start) = true) (predicates : List Predicate) :
    ∃ listing entries,
      s.tree.walk (s.resolve start) = .ok listing ∧
      s.tree.Listing (s.resolve start) listing ∧
      CommandTable.stock.dispatch ("find" :: start :: predicates.flatMap Predicate.arguments) s =
        (.ok (.ofLines entries), s) ∧
      entries = (listing.filter fun x => Selected predicates x.1 x.2).map
        (fun x => spelledFrom start (s.resolve start) x.1) ∧
      entries.map s.resolve =
        (listing.filter fun x => Selected predicates x.1 x.2).map Prod.fst := by
  obtain ⟨n, hn⟩ := Option.isSome_iff_exists.mp hthere
  have hwalk := Tree.walk_of_get? hn
  have ht := htree.wellFormed
  -- the listed paths are spelled, so that the search may look at the last name only
  have hadmits := List.filter_congr fun x hx => admits_of_mem ht hn (x := x) hx predicates
  refine ⟨_, _, hwalk, Tree.listing_walk ht hn, dispatch_find hplain predicates hwalk,
    congrArg _ hadmits, ?_⟩
  rw [hadmits, List.map_map]
  refine List.map_congr_left fun x hx => ?_
  exact resolve_spelledFrom_of_mem ht hn (List.mem_filter.mp hx).1 hhome hsome

/-- A scene in `/src/d` with a home directory that is told from there. -/
def relativeHomeScene : Scene :=
  { sampleScene with
    session := ({ sampleScene.session with path := "/src/d" } : Session).setVariable "HOME" ".././" }

/-- A search below a home directory that is set to a relative path. -/
theorem relativeHome_find_lists_selected :
    Tree.Reachable relativeHomeScene.tree ∧ relativeHomeScene.session.home ≠ "" ∧ "~/./d//" ≠ "" ∧
      isOption "~/./d//" = false ∧
      relativeHomeScene.tree.contains (relativeHomeScene.resolve "~/./d//") = true ∧
      ∃ listing entries,
        relativeHomeScene.tree.walk (relativeHomeScene.resolve "~/./d//") = .ok listing ∧
        relativeHomeScene.tree.Listing (relativeHomeScene.resolve "~/./d//") listing ∧
        CommandTable.stock.dispatch
            ["find", "~/./d//", "-name", "q", "-type", "f", "-name", "?"] relativeHomeScene =
          (.ok (.ofLines entries), relativeHomeScene) ∧
        entries = (listing.filter fun x =>
            Selected [.name "q", .kind .file, .name "?"] x.1 x.2).map
          (fun x => spelledFrom "~/./d//" (relativeHomeScene.resolve "~/./d//") x.1) ∧
        entries.map relativeHomeScene.resolve = (listing.filter fun x =>
          Selected [.name "q", .kind .file, .name "?"] x.1 x.2).map Prod.fst :=
  have hhome : relativeHomeScene.session.home ≠ "" := by decide +kernel
  have hsome : "~/./d//" ≠ "" := by decide
  have hplain : isOption "~/./d//" = false := by decide
  have hthere : relativeHomeScene.tree.contains (relativeHomeScene.resolve "~/./d//") = true := by
    decide +kernel
  ⟨Tree.reachable_sample, hhome, hsome, hplain, hthere,
    find_lists_selected Tree.reachable_sample hhome hsome hplain hthere
      [.name "q", .kind .file, .name "?"]⟩

example :
    (CommandTable.stock.dispatch ["find", "~/./d//", "-type", "d"] relativeHomeScene).1.toOption =
      some (.text "~/./d//\n~/./d//e") := by
  decide +kernel

end Command

end Userland
