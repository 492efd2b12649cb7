/-
  What is listed below a node, and in which order.

  A walk is given the path of its node as a text, and spells the paths of the entries from it.  For
  a proper node and a path in its one spelling these texts are the places of the nodes
  (`mem_walk_iff`), so that no path is listed twice (`nodup_walk`).

  Below a node of the walk the walk is that node's own (`walk_block`): one block of the list.  The
  block can be read off the list by its paths alone (`filter_walk_within`), because what is listed
  twice is listed nowhere else.
-/
import Mathlib.Data.List.Nodup
import Userland.Proofs.Node.Proper

namespace Userland.Node

open Userland.Path (render Canonical)

variable {n m : Node} {s r : List String} {q : String}

/-! ## One step of a walk -/

/-- The walks of the entries follow each other, in their order. -/
theorem walkEntries_eq_flatMap (path : String) (es : Entries Node) :
    walkEntries path es = es.flatMap fun e => e.2.walk (Path.normalize path e.1) := by
  induction es with
  | nil => rfl
  | cons e es ih =>
    rw [walkEntries, ih]
    rfl

/-- A directory is listed before the walks of its entries, one after the other. -/
theorem walk_directory (path : String) (a : Attributes) (es : Entries Node) :
    (directory a es).walk path =
      (path, directory a es) :: es.flatMap fun e => e.2.walk (Path.normalize path e.1) := by
  rw [walk, walkEntries_eq_flatMap]

/-- The entries are listed under the place of the directory and their names. -/
theorem walk_render_directory {a : Attributes} {es : Entries Node} (hs : Canonical s)
    (hp : Proper (directory a es)) :
    (directory a es).walk (render s) =
      (render s, directory a es) :: es.flatMap fun e => e.2.walk (render (s ++ [e.1])) := by
  have hentries : ∀ e ∈ es, e.2.walk (Path.normalize (render s) e.1) =
      e.2.walk (render (s ++ [e.1])) := by
    intro e he
    rw [Path.normalize_name hs (hp.valid e he)]
  rw [walk_directory, List.flatMap_congr hentries]

/-! ## What is listed -/

/-- A walk lists each node that names lead to, under the place that they spell. -/
theorem mem_walk_iff (hs : Canonical s) (hp : n.Proper) :
    (q, m) ∈ n.walk (render s) ↔ ∃ r, q = render (s ++ r) ∧ n.find? r = some m := by
  -- on the node, wherever it stands
  induction hp generalizing s with
  | ofFile a content =>
    rw [walk, List.mem_singleton, Prod.mk.injEq]
    constructor
    · rintro ⟨rfl, rfl⟩
      exact ⟨[], by rw [List.append_nil], find?_nil _⟩
    · rintro ⟨r, rfl, hr⟩
      cases r with
      | nil =>
        rw [find?_nil] at hr
        exact ⟨by rw [List.append_nil], (Option.some.inj hr).symm⟩
      | cons name rest => cases hr
  | @ofDirectory a es distinct valid entries ih =>
    rw [walk_render_directory hs (.ofDirectory distinct valid entries), List.mem_cons,
      List.mem_flatMap]
    constructor
    · rintro (hself | ⟨e, he, hmem⟩)
      · obtain ⟨rfl, rfl⟩ := Prod.mk.inj hself
        exact ⟨[], by rw [List.append_nil], find?_nil _⟩
      · obtain ⟨r, rfl, hr⟩ := (ih e he (hs.concat (valid e he))).mp hmem
        refine ⟨e.1 :: r, by rw [List.append_assoc, List.singleton_append], ?_⟩
        rw [find?_directory_cons, Entries.get?_of_mem distinct he, Option.bind_some, hr]
    · rintro ⟨r, rfl, hr⟩
      cases r with
      | nil =>
        rw [find?_nil] at hr
        rw [List.append_nil, Option.some.inj hr]
        exact .inl rfl
      | cons name rest =>
        rw [find?_directory_cons] at hr
        obtain ⟨child, hchild, hrest⟩ := Option.bind_eq_some_iff.mp hr
        have he : (name, child) ∈ es := Entries.mem_of_get? hchild
        have hplace : s ++ name :: rest = s ++ [name] ++ rest := by
          rw [List.append_assoc, List.singleton_append]
        refine .inr ⟨(name, child), he, ?_⟩
        exact (ih _ he (hs.concat (valid _ he))).mpr ⟨rest, by rw [hplace], hrest⟩

/-- A listed path is the one spelling of a place. -/
theorem place_of_mem_walk (hs : Canonical s) (hp : n.Proper) (h : (q, m) ∈ n.walk (render s)) :
    ∃ r, Canonical (s ++ r) ∧ q = render (s ++ r) ∧ n.find? r = some m := by
  obtain ⟨r, hq, hr⟩ := (mem_walk_iff hs hp).mp h
  exact ⟨r, Path.canonical_append.mpr ⟨hs, hp.canonical_of_find? hr⟩, hq, hr⟩

/-- The path of a directory is not listed again below it. -/
theorem render_notMem_walk_below {name : String} (hs : Canonical s) (hname : Path.IsName name)
    (hp : n.Proper) : render s ∉ (n.walk (render (s ++ [name]))).map Prod.fst := by
  intro hmem
  obtain ⟨⟨q, m⟩, hm, hq⟩ := List.mem_map.mp hmem
  obtain ⟨r, hr, hplace, -⟩ := place_of_mem_walk (hs.concat hname) hp hm
  have hsame : s = s ++ [name] ++ r := (Path.render_inj hs hr).mp (hq.symm.trans hplace)
  have hlength := congrArg List.length hsame
  simp only [List.length_append, List.length_singleton] at hlength
  omega

/-- Below different names no path is the same. -/
theorem disjoint_walk_below {name name' : String} {n' : Node} (hs : Canonical s)
    (hname : Path.IsName name) (hname' : Path.IsName name') (hne : name ≠ name') (hp : n.Proper)
    (hp' : n'.Proper) :
    ((n.walk (render (s ++ [name]))).map Prod.fst).Disjoint
      ((n'.walk (render (s ++ [name']))).map Prod.fst) := by
  intro q hq hq'
  obtain ⟨⟨_, m⟩, hm, rfl⟩ := List.mem_map.mp hq
  obtain ⟨⟨_, m'⟩, hm', hsame⟩ := List.mem_map.mp hq'
  obtain ⟨r, hr, hplace, -⟩ := place_of_mem_walk (hs.concat hname) hp hm
  obtain ⟨r', hr', hplace', -⟩ := place_of_mem_walk (hs.concat hname') hp' hm'
  have heq : s ++ [name] ++ r = s ++ [name'] ++ r' :=
    (Path.render_inj hr hr').mp (hplace.symm.trans (hsame.symm.trans hplace'))
  rw [List.append_assoc, List.append_assoc] at heq
  exact hne (List.cons.inj (List.append_cancel_left heq)).1

/-- No path is listed twice. -/
theorem nodup_walk (hs : Canonical s) (hp : n.Proper) :
    ((n.walk (render s)).map Prod.fst).Nodup := by
  induction hp generalizing s with
  | ofFile a content => exact List.nodup_singleton _
  | @ofDirectory a es distinct valid entries ih =>
    rw [walk_render_directory hs (.ofDirectory distinct valid entries), List.map_cons,
      List.map_flatMap]
    refine List.nodup_cons.mpr ⟨?_, List.nodup_flatMap.mpr ⟨?_, ?_⟩⟩
    · intro hmem
      obtain ⟨e, he, hbelow⟩ := List.mem_flatMap.mp hmem
      exact render_notMem_walk_below hs (valid e he) (entries e he) hbelow
    · intro e he
      exact ih e he (hs.concat (valid e he))
    · have hnames : es.Pairwise fun e e' => e.1 ≠ e'.1 := List.pairwise_map.mp distinct
      refine hnames.imp_of_mem fun {e e'} he he' hne => ?_
      exact disjoint_walk_below hs (valid e he) (valid e' he') hne (entries e he) (entries e' he')

/-! ## In which order -/

/-- The walk of a node below is one block of the walk. -/
theorem walk_block (hs : Canonical s) (hp : n.Proper) (h : n.find? r = some m) :
    m.walk (render (s ++ r)) <:+: n.walk (render s) := by
  -- down the way to the node: its walk is part of the walk of each node above it
  induction r generalizing n s with
  | nil =>
    rw [find?_nil] at h
    rw [List.append_nil, Option.some.inj h]
  | cons name rest ih =>
    cases n with
    | file a content => cases h
    | directory a es =>
      rw [find?_directory_cons] at h
      obtain ⟨child, hchild, hrest⟩ := Option.bind_eq_some_iff.mp h
      have he : (name, child) ∈ es := Entries.mem_of_get? hchild
      have hbelow := ih (hs.concat (hp.valid _ he)) (hp.entries _ he) hrest
      rw [List.append_assoc, List.singleton_append] at hbelow
      have hblock : child.walk (render (s ++ [name])) <:+:
          es.flatMap fun e => e.2.walk (render (s ++ [e.1])) :=
        List.infix_of_mem_flatten (List.mem_map_of_mem he)
      rw [walk_render_directory hs hp]
      exact (hbelow.trans hblock).trans (List.suffix_cons _ _).isInfix

/-- A block of a list without repetitions is what is left of the list when the rest is left out. -/
theorem filter_eq_of_block {α : Type} {l block : List α} {p : α → Bool} (hl : l.Nodup)
    (h : block <:+: l) (hp : ∀ x ∈ l, p x = true ↔ x ∈ block) : l.filter p = block := by
  obtain ⟨before, after, rfl⟩ := h
  have hinside : block.filter p = block :=
    List.filter_eq_self.mpr fun x hx => (hp x (by simp [hx])).mpr hx
  have hbefore : before.filter p = [] := by
    refine List.filter_eq_nil_iff.mpr fun x hx hpx => ?_
    have hblock := (hp x (by simp [hx])).mp hpx
    have hdisjoint := List.disjoint_of_nodup_append (List.nodup_append.mp hl).1
    exact hdisjoint hx hblock
  have hafter : after.filter p = [] := by
    refine List.filter_eq_nil_iff.mpr fun x hx hpx => ?_
    have hblock := (hp x (by simp [hx])).mp hpx
    exact List.disjoint_of_nodup_append hl (List.mem_append_right before hblock) hx
  rw [List.filter_append, List.filter_append, hbefore, hinside, hafter, List.nil_append,
    List.append_nil]

/-- The block of a node below is what the walk lists within its path. -/
theorem filter_walk_within (hs : Canonical s) (hp : n.Proper) (h : n.find? r = some m) :
    (n.walk (render s)).filter (fun x => Path.isWithin x.1 (render (s ++ r))) =
      m.walk (render (s ++ r)) := by
  have hr : Canonical (s ++ r) := Path.canonical_append.mpr ⟨hs, hp.canonical_of_find? h⟩
  have hm : m.Proper := hp.find? h
  refine filter_eq_of_block (nodup_walk hs hp).of_map (walk_block hs hp h) fun x hx => ?_
  obtain ⟨q, m'⟩ := x
  obtain ⟨r', hr', rfl, hfind⟩ := place_of_mem_walk hs hp hx
  rw [Path.isWithin_render hr' hr, mem_walk_iff hr hm]
  constructor
  · intro hwithin
    obtain ⟨rest, rfl⟩ := (List.prefix_append_right_inj s).mp hwithin
    rw [find?_append, h, Option.bind_some] at hfind
    exact ⟨rest, by rw [List.append_assoc], hfind⟩
  · rintro ⟨rest, hplace, hrest⟩
    have hcanon : Canonical (s ++ r ++ rest) :=
      Path.canonical_append.mpr ⟨hr, hm.canonical_of_find? hrest⟩
    rw [(Path.render_inj hr' hcanon).mp hplace]
    exact List.prefix_append _ _

end Userland.Node
