/-
  A walk lists the places below a path.

  The listing is exactly the nodes that can be looked up at a path within the start, each of them
  once and under its one spelling (`Listing.exactly`, `Listing.once`).  As for the order, the part
  of a listing within one of its paths is a block, and the block of a directory is the directory and
  then the blocks of its entries in their order (`Listing.block`, `Listing.directory`).
-/
import Userland.Proofs.Node.Walk
import Userland.Proofs.Tree.Reachable

namespace Userland.Tree

variable {t : Tree} {path : String} {n m : Node} {r : List String}

/-- The part of a listing that is within a path. -/
def partWithin (listing : List (String × Node)) (path : String) : List (String × Node) :=
  listing.filter fun x => Path.isWithin x.1 path

/-- What is listed from a path, and in which order. -/
structure Listing (t : Tree) (path : String) (listing : List (String × Node)) : Prop where
  /-- Listed are the paths within the start that are in their one spelling, with what they name. -/
  exactly : ∀ q node, (q, node) ∈ listing ↔
    Path.normalize "/" q = q ∧ Path.isWithin q (Path.normalize "/" path) = true ∧
      t.get? q = some node
  /-- No path is listed twice. -/
  once : (listing.map Prod.fst).Nodup
  /-- What is listed within a path follows one after the other. -/
  block : ∀ q node, (q, node) ∈ listing → partWithin listing q <:+: listing
  /-- A directory comes first, and then what is within its entries, in the order of the entries. -/
  directory : ∀ q a es, (q, .directory a es) ∈ listing →
    partWithin listing q =
      (q, .directory a es) :: es.flatMap fun e => partWithin listing (Path.normalize q e.1)
  /-- Within a file there is the file alone. -/
  file : ∀ q a content, (q, .file a content) ∈ listing →
    partWithin listing q = [(q, .file a content)]

/-- The part within a listed path is the walk of the node that it names. -/
theorem partWithin_walk (ht : t.WellFormed) (hn : t.get? path = some n) (hm : n.find? r = some m) :
    partWithin (n.walk (Path.render (place path))) (Path.render (place path ++ r)) =
      m.walk (Path.render (place path ++ r)) :=
  Node.filter_walk_within (canonical_place path) (ht.proper.find? hn) hm

/-- What is listed are the nodes at and below the path, each under its one spelling. -/
theorem mem_walk_iff_get? (ht : t.WellFormed) (hn : t.get? path = some n) (q : String) :
    (q, m) ∈ n.walk (Path.render (place path)) ↔
      Path.normalize "/" q = q ∧ Path.isWithin q (Path.normalize "/" path) = true ∧
        t.get? q = some m := by
  have hs := canonical_place path
  have hp : n.Proper := ht.proper.find? hn
  constructor
  · intro hmem
    obtain ⟨r, hr, rfl, hfind⟩ := Node.place_of_mem_walk hs hp hmem
    have hplace : place (Path.render (place path ++ r)) = place path ++ r := place_render hr
    refine ⟨congrArg Path.render hplace, ?_, ?_⟩
    · rw [normalize_eq_render, Path.isWithin_render hr hs]
      exact List.prefix_append _ r
    · rw [get?_eq, hplace, find?_below hn, hfind]
  · rintro ⟨hspelled, hwithin, hget⟩
    rw [normalize_eq_render] at hspelled hwithin
    rw [← hspelled, Path.isWithin_render (canonical_place q) hs] at hwithin
    -- a path within the start is the start and some steps, which the walk takes
    obtain ⟨r, hr⟩ := hwithin
    rw [get?_eq, ← hr, find?_below hn] at hget
    rw [← hr] at hspelled
    exact (Node.mem_walk_iff hs hp).mpr ⟨r, hspelled.symm, hget⟩

/-- The walk from a node of a tree has all that a listing is to have. -/
theorem listing_walk (ht : t.WellFormed) (hn : t.get? path = some n) :
    t.Listing path (n.walk (Path.render (place path))) := by
  have hs := canonical_place path
  have hp : n.Proper := ht.proper.find? hn
  refine ⟨fun q m => mem_walk_iff_get? ht hn q, Node.nodup_walk hs hp, ?_, ?_, ?_⟩
  · intro q m hmem
    obtain ⟨r, -, rfl, hfind⟩ := Node.place_of_mem_walk hs hp hmem
    rw [partWithin_walk ht hn hfind]
    exact Node.walk_block hs hp hfind
  · intro q a es hmem
    obtain ⟨r, hr, rfl, hfind⟩ := Node.place_of_mem_walk hs hp hmem
    have hdir : Node.Proper (.directory a es) := hp.find? hfind
    -- an entry of the directory has one name more
    have hentries : ∀ e ∈ es,
        partWithin (n.walk (Path.render (place path)))
            (Path.normalize (Path.render (place path ++ r)) e.1) =
          e.2.walk (Path.normalize (Path.render (place path ++ r)) e.1) := by
      intro e he
      have hentry : n.find? (r ++ [e.1]) = some e.2 := by
        rw [Node.find?_append, hfind, Option.bind_some, Node.find?_directory_cons,
          Entries.get?_of_mem hdir.distinct he, Option.bind_some, Node.find?_nil]
      rw [Path.normalize_name hr (hdir.valid e he), List.append_assoc]
      exact partWithin_walk ht hn hentry
    rw [partWithin_walk ht hn hfind, Node.walk_directory, List.flatMap_congr hentries]
  · intro q a content hmem
    obtain ⟨r, -, rfl, hfind⟩ := Node.place_of_mem_walk hs hp hmem
    rw [partWithin_walk ht hn hfind, Node.walk]

theorem walk_of_get? (hn : t.get? path = some n) :
    t.walk path = .ok (n.walk (Path.render (place path))) := by
  rw [walk, get, hn]
  rfl

/-- From a path with something at it, a walk lists exactly what is within the path, each path once,
every directory right before what is below it, and the entries of a directory one by one. -/
theorem walk_lists_within (h : Reachable t) (hthere : t.contains path = true) :
    ∃ listing, t.walk path = .ok listing ∧ t.Listing path listing := by
  obtain ⟨n, hn⟩ := Option.isSome_iff_exists.mp hthere
  refine ⟨n.walk (Path.render (place path)), ?_, listing_walk h.wellFormed hn⟩
  rw [walk, get, hn]
  rfl

/-- A path with detours, on a tree with files and directories. -/
theorem sample_walk_lists_within :
    Reachable sample ∧ sample.contains "src/../src/." = true ∧
      ∃ listing, sample.walk "src/../src/." = .ok listing ∧
        sample.Listing "src/../src/." listing :=
  have hthere : sample.contains "src/../src/." = true := by decide +kernel
  ⟨reachable_sample, hthere, walk_lists_within reachable_sample hthere⟩

example : (sample.walk "src").toOption.map (·.map Prod.fst) =
    some ["/src", "/src/d", "/src/d/e", "/src/d/x", "/src/big"] := by decide +kernel

end Userland.Tree
